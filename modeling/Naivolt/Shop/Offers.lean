import Naivolt.Operators.Desk

/-!
# Offers: how they are listed and how they are ordered

`list_offers` and the offer part of `create_order` of `number_routes.rs`, with
`ranked_sources_sql`, over the tables behind them.  `Shop` carries what the migrations demand of
these tables.  The two read the same rows by two queries each of its own; what the order's
queries return is a `Catalogue`, which `quote` turns into the answer.
-/

namespace Naivolt

open Foundation

/-! ## Tables -/

/-- A row of `number_products`. -/
structure ProductRow where
  slug : String
  name : String
  active : Bool
  minProviderCostUsd : ℚ

/-- A row of `number_countries`. -/
structure CountryRow where
  code : String
  name : String
  dialCode : String
  providerCountry : String
  active : Bool

/-- A row of `number_offers`. -/
structure Offer where
  productId : Uuid
  countryId : Uuid
  priceNgn : ℚ
  successRate : ℚ
  successFetchedAt : Time
  quantity : ℕ
  active : Bool

/-- A row of `number_offer_sources`. -/
structure OfferSource where
  offerId : Uuid
  source : Source
  providerCost : ℚ
  providerCostCurrency : String
  providerSuccessRate : ℚ
  stock : ℕ

/-- The catalogue tables, with the constraints the functions below meet. -/
structure Shop where
  products : Table Uuid ProductRow
  countries : Table Uuid CountryRow
  offers : Table Uuid Offer
  sources : List OfferSource
  slugsUnique : ∀ r ∈ products.rows, ∀ r' ∈ products.rows, r.2.slug = r'.2.slug → r = r'
  offersValid : ∀ r ∈ offers.rows, 0 < r.2.priceNgn ∧ 0 < r.2.successRate ∧
    (products.get? r.2.productId).isSome = true ∧ (countries.get? r.2.countryId).isSome = true
  sourcesValid : ∀ s ∈ sources, 0 < s.providerSuccessRate

/-! ## Suppliers on sale -/

/-- The `provider` column. -/
def SupplierLabel.text : SupplierLabel → String
  | fivesimCatalogue => "5sim"
  | fivesim => "fivesim"
  | smspool => "smspool"
  | smsactivate => "smsactivate"
  | daisysms => "daisysms"
  | smshub => "smshub"
  | tigersms => "tigersms"
  | stub => "stub"

/-- `KNOWN_PROVIDERS`, as they stand in the `provider` column. -/
def saleLabels : List SupplierLabel :=
  [.fivesim, .smspool, .smsactivate, .daisysms, .smshub, .tigersms]

/-- What `number_sell::load` returns for the rows it finds. -/
def SellSettings.loaded (rows : SellSettings) : SellSettings :=
  if rows.anyEnabled then rows else .seed

/-- `source_providers`. -/
def SellSettings.sourceProviders (s : SellSettings) (includeStub : Bool) : List SupplierLabel :=
  saleLabels.filter (fun l => s.isEnabled l.text) ++ (if includeStub then [.stub] else [])

/-- The suppliers both queries are given. -/
def onSale (cfg : Config) (rows : SellSettings) : List SupplierLabel :=
  rows.loaded.sourceProviders (!cfg.fundingLive)

/-! ## Sources -/

/-- What both queries ask of a source. -/
def eligible (providers : List SupplierLabel) (p : ProductRow) (s : OfferSource) : Bool :=
  0 < s.stock && 0 < s.providerSuccessRate && s.source.provider ∈ providers &&
    (p.minProviderCostUsd = 0 ||
      (s.providerCostCurrency = "USD" && p.minProviderCostUsd ≤ s.providerCost))

namespace Shop

variable (shop : Shop)

/-- The sources of an offer that both queries go by. -/
def eligibleSources (providers : List SupplierLabel) (p : ProductRow) (offerId : Uuid) :
    List OfferSource :=
  shop.sources.filter fun s => s.offerId = offerId && eligible providers p s

/-! ## `list_offers` -/

/-- A row of the `listed` subquery. -/
structure ListedRow where
  id : Uuid
  productSlug : String
  productName : String
  countryCode : String
  countryName : String
  dialCode : String
  priceNgn : ℚ
  stock : ℕ
  successRate : ℚ
  successFetchedAt : Time
  productId : Uuid
  countryId : Uuid

/-- One offer in the `listed` subquery. -/
def listedRow (providers : List SupplierLabel) (slug : String) (country : Option String)
    (id : Uuid) (o : Offer) : Option ListedRow :=
  (shop.products.get? o.productId).bind fun p =>
  (shop.countries.get? o.countryId).bind fun c =>
  let stock := ((shop.eligibleSources providers p id).map (·.stock)).sum
  if p.slug = slug && o.active && 0 < o.successRate && country.all (· = c.code) && 0 < stock then
    some ⟨id, p.slug, p.name, c.code, c.name, c.dialCode, o.priceNgn, stock, o.successRate,
      o.successFetchedAt, o.productId, o.countryId⟩
  else none

/-- The `listed` subquery. -/
def listed (providers : List SupplierLabel) (slug : String) (country : Option String) :
    List ListedRow :=
  shop.offers.rows.filterMap fun r => shop.listedRow providers slug country r.1 r.2

/-- `max(price_ngn) OVER (PARTITION BY product_id, country_id)`. -/
def topListed (rows : List ListedRow) (r : ListedRow) : Option ℚ :=
  ((rows.filter fun r' => r'.productId = r.productId && r'.countryId = r.countryId).map
    (·.priceNgn)).max?

/-- `WHERE price_ngn >= top_price * $4`. -/
def tiered (fraction : ℚ) (rows : List ListedRow) : List ListedRow :=
  rows.filter fun r => (topListed rows r).all fun top => top * fraction ≤ r.priceNgn

/-- `ORDER BY success_rate DESC, price_ngn ASC, stock DESC`. -/
def ListedRow.before (r r' : ListedRow) : Bool :=
  r'.successRate < r.successRate || (r.successRate = r'.successRate &&
    (r.priceNgn < r'.priceNgn || (r.priceNgn = r'.priceNgn && r'.stock ≤ r.stock)))

/-- `OfferResponse`. -/
structure OfferResponse where
  row : ListedRow
  inStock : Bool
  recommended : Bool
  lowSuccess : Bool

/-- The answer for the rows of the query. -/
def respond (rows : List ListedRow) : List OfferResponse :=
  rows.zipIdx.map fun (r, i) =>
    { row := r, inStock := true, recommended := i = 0 && !decide (r.successRate < 40),
      lowSuccess := r.successRate < 40 }

/-- `list_offers` up to its cut, for a product and a country in the form the tables have them.
A stock that is too large for an `INTEGER` makes the query fail. -/
def listRows (cfg : Config) (settings : SellSettings) (slug : String) (country : Option String) :
    Except ApiError (List ListedRow) :=
  if slug = "" then .error (.badRequest "Pick a platform.")
  else if !shop.products.rows.any (fun r => r.2.slug = slug && r.2.active) then
    .error (.badRequest "We don't sell numbers for that app.")
  else
    let rows := shop.listed (onSale cfg settings) slug country
    if rows.any (fun r => 2 ^ 31 ≤ r.stock) then .error (.internal "integer out of range")
    else .ok ((tiered cfg.numbersMinPriceFraction rows).insertionSort fun r r' => r.before r')

/-- `list_offers`. -/
def listOffers (cfg : Config) (settings : SellSettings) (product : String)
    (country : Option String) : Except ApiError (List OfferResponse) :=
  (shop.listRows cfg settings (cfg.toLowercase (trimText product))
    ((country.map fun c => cfg.toUppercase (trimText c)).filter (· ≠ ""))).map
    fun rows => respond (rows.take 200)

/-! ## `create_order` -/

/-- `PRIOR_WEIGHT` and `WINDOW_DAYS`. -/
def priorWeight : ℚ := 5
def windowDays : ℕ := 30

/-- The orders of the window that a source has filled. -/
def filledBy (now : Time) (orders : List Order) (s : Source) : List Order :=
  orders.filter fun o => o.provider = s.provider && o.sourceProduct = some s.product &&
    o.sourceCountry = some s.country && o.sourceOperator = some s.operator &&
    o.phoneNumber.isSome && now < o.createdAt + seconds (windowDays * 24 * 60 * 60)

/-- `SCORE_SQL`. -/
def score (now : Time) (orders : List Order) (s : OfferSource) : ℚ :=
  let filled := filledBy now orders s.source
  ((filled.filter (·.receivedAt.isSome)).length + priorWeight * (s.providerSuccessRate / 100)) /
    (filled.length + priorWeight)

/-- `ORDER BY` the score `DESC, provider_cost ASC, stock DESC`. -/
def rankedBefore (now : Time) (orders : List Order) (s s' : OfferSource) : Bool :=
  score now orders s' < score now orders s || (score now orders s = score now orders s' &&
    (s.providerCost < s'.providerCost ||
      (s.providerCost = s'.providerCost && s'.stock ≤ s.stock)))

/-- `ranked_sources_sql`. -/
def rankedSources (providers : List SupplierLabel) (now : Time) (orders : List Order)
    (p : ProductRow) (offerId : Uuid) : List Source :=
  ((shop.eligibleSources providers p offerId).insertionSort
    fun s s' => rankedBefore now orders s s').map (·.source)

/-- Whether a source of the offer has stock. -/
def inStock (offerId : Uuid) : Bool :=
  shop.sources.any fun s => s.offerId = offerId && 0 < s.stock

/-- The `top_price` of `create_order`. -/
def topPrice (o : Offer) : Option ℚ :=
  ((shop.offers.rows.filter fun r => r.2.productId = o.productId &&
    r.2.countryId = o.countryId && r.2.active && shop.inStock r.1).map (·.2.priceNgn)).max?

/-- What the queries of `create_order` return for an offer. -/
def catalogue (cfg : Config) (settings : SellSettings) (now : Time) (orders : List Order)
    (offerId : Uuid) : Catalogue :=
  let found : Option (Offer × ProductRow × CountryRow) :=
    (shop.offers.get? offerId).bind fun o => (shop.products.get? o.productId).bind fun p =>
      (shop.countries.get? o.countryId).map fun c => (o, p, c)
  { offer := found.map fun (o, p, c) =>
      ⟨p.slug, c.code, c.providerCountry, o.priceNgn, o.quantity, o.active⟩
    topPrice := found.bind fun (o, _, _) => shop.topPrice o
    rankedSources := (found.map fun (_, p, _) =>
      shop.rankedSources (onSale cfg settings) now orders p offerId).getD []
    providerProduct := none, providerCountry := none, price := none
    fivesimEnabled := settings.loaded.isEnabled "fivesim" }

/-! ## A source is out of stock -/

/-- `create_order`'s write after an out-of-stock refusal. -/
def markOutOfStock (offerId : Uuid) (source : Source) : Shop :=
  { shop with
    sources := shop.sources.map fun s =>
      if s.offerId = offerId && s.source = source then { s with stock := 0 } else s
    sourcesValid := by
      intro s hs
      obtain ⟨s', hs', rfl⟩ := List.mem_map.mp hs
      have h := shop.sourcesValid s' hs'
      split <;> exact h }

/-- The shop after a history of such refusals. -/
def afterRejections (history : List (Uuid × Source)) : Shop :=
  history.foldl (fun shop r => shop.markOutOfStock r.1 r.2) shop

end Shop

end Naivolt
