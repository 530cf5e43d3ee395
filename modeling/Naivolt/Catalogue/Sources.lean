import Naivolt.Catalogue.Prices
import Naivolt.Shop.GiftCards

/-!
# Offers from a supplier's SKUs

`apply_provider_skus` of `number_offers.rs`: it writes an offer and a source for each SKU of one
supplier, takes the stock of the supplier's sources that it has not seen to zero, and counts every
offer's quantity anew from its sources.

A SKU that is skipped is not seen: one whose product or country is not in the catalogue, and every
SKU where costs cannot be turned into naira.  If such a SKU has a source from before, the source
loses its stock although the supplier lists it.  `swept_iff` says that nothing else goes wrong.
-/

namespace Naivolt

open Foundation

/-! ## Tables -/

/-- `OfferSku`. -/
structure OfferSku where
  provider : SupplierLabel
  productSlug : String
  countryCode : String
  providerProduct : String
  providerCountry : String
  providerOperator : Option String
  cost : ℚ
  currency : String
  successRate : ℚ
  stock : ℤ
  deriving DecidableEq

/-- The unique key of the source that the SKU is. -/
def OfferSku.source (sku : OfferSku) : Source :=
  ⟨sku.provider, sku.providerCountry, sku.providerProduct, sku.providerOperator.getD ""⟩

/-- A row of `number_products`, with the supplier's own key. -/
structure CatalogueProduct extends ProductRow where
  providerProduct : String

/-- A row of `number_offer_sources`, without its unique key. -/
structure SourceRow where
  offerId : Uuid
  providerCost : ℚ
  providerCostCurrency : String
  providerSuccessRate : ℚ
  stock : ℕ
  syncedAt : Time

/-- The tables that a sweep of SKUs reads and writes. -/
structure OfferTables where
  products : Table Uuid CatalogueProduct
  countries : Table Uuid CountryRow
  offers : Table Uuid Offer
  sources : Table Source SourceRow

namespace OfferTables

/-- `product_id`. -/
def productId (db : OfferTables) (slug : String) : Option Uuid :=
  (db.products.rows.find? fun r =>
    r.2.active && (r.2.slug = slug || r.2.providerProduct = slug)).map Prod.fst

/-- `country_id`. -/
def countryId (cfg : Config) (db : OfferTables) (code : String) : Option Uuid :=
  (db.countries.rows.find? fun r => r.2.code = cfg.toUppercase code && r.2.active).map Prod.fst

/-- The offer with a unique key. -/
def offerFor (db : OfferTables) (product country : Uuid) (price rate : ℚ) : Option Uuid :=
  (db.offers.rows.find? fun r => r.2.productId = product && r.2.countryId = country &&
    r.2.priceNgn = price && r.2.successRate = rate).map Prod.fst

/-- `SUM(s.stock)` over the sources of an offer. -/
def stockOf (db : OfferTables) (offer : Uuid) : ℕ :=
  ((db.sources.rows.filter fun r => r.2.offerId = offer).map (·.2.stock)).sum

end OfferTables

/-! ## The sweep -/

/-- Whether a supplier's costs can be turned into naira. -/
def Pricing.prices (p : Pricing) (provider : SupplierLabel) : Bool :=
  p.pricesInUsd || provider = .stub

/-- The product and the country under which a SKU is written, if it is. -/
def OfferTables.placing (cfg : Config) (p : Pricing) (provider : SupplierLabel) (db : OfferTables)
    (sku : OfferSku) : Option (Uuid × Uuid) :=
  if sku.provider ≠ provider then none
  else do
    let product ← db.productId sku.productSlug
    let country ← db.countryId cfg sku.countryCode
    if p.prices provider then some (product, country) else none

/-- The `INSERT … ON CONFLICT` of the offer, with its id. -/
def OfferTables.putOffer (db : OfferTables) (draw : Uuid) (offer : Offer) :
    Option (Uuid × OfferTables) :=
  if 0 < offer.successRate ∧ offer.successRate ≤ 100 then
    match db.offerFor offer.productId offer.countryId offer.priceNgn offer.successRate with
    | some id => some (id, { db with
        offers := db.offers.modify id fun o =>
          { o with
            quantity := offer.quantity
            active := offer.active
            successFetchedAt := offer.successFetchedAt } })
    | none => (db.offers.insert draw offer).map fun offers => (draw, { db with offers })
  else none

/-- One SKU: the source it has been written to, if it has.  `draw` is the id that a new offer
gets.  The price panics if a `Decimal` cannot hold it. -/
def applySku (cfg : Config) (p : Pricing) (provider : SupplierLabel) (now : Time)
    (db : OfferTables) (draw : Uuid) (sku : OfferSku) : Option (Option Source × OfferTables) :=
  match db.placing cfg p provider sku with
  | none => some (none, db)
  | some (product, country) => do
    let price ← p.salePrice sku.cost
    let rate := scaled 4 sku.successRate
    let (id, db) ← db.putOffer draw
      ⟨product, country, price, rate, now, sku.stock.toNat, 0 < sku.stock⟩
    let row : SourceRow := ⟨id, scaled 6 sku.cost, sku.currency, rate, sku.stock.toNat, now⟩
    return (some sku.source, { db with sources := db.sources.upsert sku.source row fun _ => row })

/-- The loop over the SKUs: what has been seen, and the tables. -/
def applySkus (cfg : Config) (p : Pricing) (provider : SupplierLabel) (now : Time) :
    List (Uuid × OfferSku) → OfferTables → Option (List Source × OfferTables)
  | [], db => some ([], db)
  | (draw, sku) :: rest, db => do
    let (written, db) ← applySku cfg p provider now db draw sku
    let (seen, db) ← applySkus cfg p provider now rest db
    return (written.toList ++ seen, db)

/-- The supplier's sources that have not been seen lose their stock. -/
def OfferTables.zeroMissing (db : OfferTables) (provider : SupplierLabel) (now : Time)
    (seen : List Source) : OfferTables :=
  { db with
    sources := db.sources.mapRows fun source row =>
      if source.provider = provider ∧ source ∉ seen then { row with stock := 0, syncedAt := now }
      else row }

/-- The last statement, over all offers.  It fails if a sum is too large for an `INTEGER`. -/
def OfferTables.recount (db : OfferTables) : Option OfferTables :=
  if db.offers.rows.all fun r => db.stockOf r.1 < 2 ^ 31 then
    some { db with
      offers := db.offers.mapRows fun id o =>
        { o with quantity := db.stockOf id, active := 0 < db.stockOf id } }
  else none

/-- `apply_provider_skus`. -/
def applyProviderSkus (cfg : Config) (p : Pricing) (provider : SupplierLabel) (now : Time)
    (skus : List (Uuid × OfferSku)) (zeroMissing : Bool) (db : OfferTables) :
    Option (ℕ × OfferTables) := do
  let (seen, db) ← applySkus cfg p provider now skus db
  let db ← (if zeroMissing then db.zeroMissing provider now seen else db).recount
  return (seen.length, db)

/-! ## What is seen -/

section Loop

variable {cfg : Config} {p : Pricing} {provider : SupplierLabel} {now : Time} {draw : Uuid}
  {sku : OfferSku} {db db' : OfferTables} {l : List (Uuid × OfferSku)} {seen : List Source}

/-- A SKU that a sweep writes. -/
def OfferTables.Writable (cfg : Config) (p : Pricing) (provider : SupplierLabel) (db : OfferTables)
    (sku : OfferSku) : Prop :=
  (db.placing cfg p provider sku).isSome = true

lemma writable_iff : db.Writable cfg p provider sku ↔
    sku.provider = provider ∧ (db.productId sku.productSlug).isSome = true ∧
      (db.countryId cfg sku.countryCode).isSome = true ∧ p.prices provider = true := by
  unfold OfferTables.Writable OfferTables.placing
  cases db.productId sku.productSlug <;> cases db.countryId cfg sku.countryCode <;>
    cases p.prices provider <;> by_cases hprovider : sku.provider = provider <;>
    simp [hprovider]

lemma writable_congr (hproducts : db'.products = db.products)
    (hcountries : db'.countries = db.countries) :
    db'.Writable cfg p provider sku ↔ db.Writable cfg p provider sku := by
  simp only [writable_iff, OfferTables.productId, OfferTables.countryId, hproducts, hcountries]

lemma putOffer_eq_some {offer : Offer} {id : Uuid} (h : db.putOffer draw offer = some (id, db')) :
    db'.products = db.products ∧ db'.countries = db.countries ∧ db'.sources = db.sources := by
  unfold OfferTables.putOffer at h
  split_ifs at h
  split at h
  · cases h
    exact ⟨rfl, rfl, rfl⟩
  · obtain ⟨offers, -, heq⟩ := Option.map_eq_some_iff.mp h
    cases heq
    exact ⟨rfl, rfl, rfl⟩

/-- What is done with a SKU: nothing if it is not written, or else its source has its stock. -/
lemma applySku_cases {written : Option Source}
    (h : applySku cfg p provider now db draw sku = some (written, db')) :
    (¬ db.Writable cfg p provider sku ∧ written = none ∧ db' = db) ∨
      (db.Writable cfg p provider sku ∧ written = some sku.source ∧
        db'.products = db.products ∧ db'.countries = db.countries ∧
        ∃ row, row.stock = sku.stock.toNat ∧
          db'.sources = db.sources.upsert sku.source row fun _ => row) := by
  unfold applySku at h
  split at h
  · rename_i hnone
    cases h
    exact .inl ⟨by simp [OfferTables.Writable, hnone], rfl, rfl⟩
  · rename_i product country hplaced
    simp only [Option.bind_eq_bind, Option.bind_eq_some_iff, Option.pure_def, Option.some_inj,
      Prod.mk.injEq] at h
    obtain ⟨price, -, ⟨id, db₁⟩, hput, rfl, rfl⟩ := h
    obtain ⟨hproducts, hcountries, hsources⟩ := putOffer_eq_some hput
    exact .inr ⟨by simp [OfferTables.Writable, hplaced], rfl, hproducts, hcountries, _, rfl,
      by rw [hsources]⟩

/-- What the loop has done: the sources seen are those of the SKUs that are written, each has the
stock of such a SKU, and the other sources are as they were. -/
structure Swept (cfg : Config) (p : Pricing) (provider : SupplierLabel)
    (l : List (Uuid × OfferSku)) (db : OfferTables) (seen : List Source) (db' : OfferTables) :
    Prop where
  products : db'.products = db.products
  countries : db'.countries = db.countries
  mem_seen : ∀ source, source ∈ seen ↔
    ∃ e ∈ l, db.Writable cfg p provider e.2 ∧ e.2.source = source
  stock : ∀ source ∈ seen, ∃ e ∈ l, db.Writable cfg p provider e.2 ∧ e.2.source = source ∧
    ∃ row, db'.sources.get? source = some row ∧ row.stock = e.2.stock.toNat
  others : ∀ source, source ∉ seen → db'.sources.get? source = db.sources.get? source

lemma applySkus_swept (h : applySkus cfg p provider now l db = some (seen, db')) :
    Swept cfg p provider l db seen db' := by
  induction l generalizing db seen with
  | nil =>
      cases h
      exact ⟨rfl, rfl, by simp, by simp, fun _ _ => rfl⟩
  | cons entry rest ih =>
      obtain ⟨draw, sku⟩ := entry
      simp only [applySkus, Option.bind_eq_bind, Option.bind_eq_some_iff, Option.pure_def,
        Option.some_inj, Prod.mk.injEq] at h
      obtain ⟨⟨written, db₁⟩, hfirst, ⟨seen₁, db₂⟩, hrest, rfl, rfl⟩ := h
      have hswept := ih hrest
      rcases applySku_cases hfirst with ⟨hskip, rfl, rfl⟩ |
        ⟨hwrite, rfl, hproducts, hcountries, row, hrow, hsources⟩
      · refine ⟨hswept.products, hswept.countries, fun source => ?_, fun source hmem => ?_,
          hswept.others⟩
        · rw [Option.toList_none, List.nil_append, hswept.mem_seen]
          simp [hskip]
        · obtain ⟨e, he, hrest⟩ := hswept.stock source hmem
          exact ⟨e, List.mem_cons_of_mem _ he, hrest⟩
      · have hcongr : ∀ sku, db₁.Writable cfg p provider sku ↔ db.Writable cfg p provider sku :=
          fun _ => writable_congr hproducts hcountries
        have hseen : ∀ source, source ∈ (some sku.source).toList ++ seen₁ ↔
            source = sku.source ∨ source ∈ seen₁ := by simp
        refine ⟨hswept.products.trans hproducts, hswept.countries.trans hcountries,
          fun source => ?_, fun source hmem => ?_, fun source hmem => ?_⟩
        · rw [hseen, hswept.mem_seen]
          simp [hcongr, hwrite, eq_comm]
        · by_cases hlater : source ∈ seen₁
          · obtain ⟨e, he, hwrites, hnames⟩ := hswept.stock source hlater
            exact ⟨e, List.mem_cons_of_mem _ he, (hcongr e.2).mp hwrites, hnames⟩
          · obtain rfl := ((hseen source).mp hmem).resolve_right hlater
            refine ⟨(draw, sku), List.mem_cons_self, hwrite, rfl, row, ?_, hrow⟩
            rw [hswept.others _ hlater, hsources, Table.get?_upsert, if_pos rfl]
            cases db.sources.get? sku.source <;> rfl
        · rw [hseen, not_or] at hmem
          rw [hswept.others _ hmem.2, hsources, Table.get?_upsert, if_neg hmem.1]

end Loop

/-! ## The law -/

section Law

variable {cfg : Config} {p : Pricing} {provider : SupplierLabel} {now : Time}
  {skus : List (Uuid × OfferSku)} {db db' : OfferTables} {written : ℕ}

/-- The list names the source. -/
def Named (skus : List (Uuid × OfferSku)) (source : Source) : Prop :=
  ∃ e ∈ skus, e.2.source = source

/-- What a sweep of a supplier's SKUs leaves: every offer counts its sources' stock and is active
if there is any; every SKU of a known product and country that has a price has its source; and of
the supplier's sources, those that the list names with a price have a stock that it lists, those
that it does not name have none, and those that it names without a price have not run out while it
lists stock. -/
structure SweptTables (cfg : Config) (p : Pricing) (provider : SupplierLabel)
    (skus : List (Uuid × OfferSku)) (db db' : OfferTables) : Prop where
  listed : ∀ e ∈ skus, db.Writable cfg p provider e.2 →
    ∃ row, db'.sources.get? e.2.source = some row
  counted : ∀ id o, db'.offers.get? id = some o →
    o.quantity = db'.stockOf id ∧ (o.active = true ↔ 0 < db'.stockOf id)
  priced : p.prices provider = true → ∀ source row, db'.sources.get? source = some row →
    source.provider = provider → Named skus source →
      ∃ e ∈ skus, e.2.source = source ∧ row.stock = e.2.stock.toNat
  unnamed : ∀ source row, db'.sources.get? source = some row → source.provider = provider →
    ¬ Named skus source → row.stock = 0
  unpriced : p.prices provider = false → ∀ source row, db'.sources.get? source = some row →
    source.provider = provider → Named skus source →
      (∀ e ∈ skus, e.2.source = source → 0 < e.2.stock) → row.stock ≠ 0

/-- The supplier's sources from before that the list names are named by a SKU that is written, or
by one without stock. -/
def Relisted (cfg : Config) (p : Pricing) (provider : SupplierLabel)
    (skus : List (Uuid × OfferSku)) (db : OfferTables) : Prop :=
  ∀ source row, db.sources.get? source = some row → source.provider = provider →
    Named skus source → ∃ e ∈ skus, e.2.source = source ∧
      (db.Writable cfg p provider e.2 ∨ e.2.stock ≤ 0)

lemma recount_eq_some (h : db.recount = some db') :
    db'.sources = db.sources ∧
      db'.offers = db.offers.mapRows fun id o =>
        { o with quantity := db.stockOf id, active := 0 < db.stockOf id } := by
  unfold OfferTables.recount at h
  split_ifs at h
  cases h
  exact ⟨rfl, rfl⟩

/-- After the last statement every offer counts its sources. -/
lemma counted_of_recount (h : db.recount = some db') (id : Uuid) (o : Offer)
    (ho : db'.offers.get? id = some o) :
    o.quantity = db'.stockOf id ∧ (o.active = true ↔ 0 < db'.stockOf id) := by
  obtain ⟨hsources, hoffers⟩ := recount_eq_some h
  have hstock : db'.stockOf id = db.stockOf id := by simp only [OfferTables.stockOf, hsources]
  rw [hoffers, Table.get?_mapRows] at ho
  obtain ⟨o₀, -, rfl⟩ := Option.map_eq_some_iff.mp ho
  exact ⟨hstock.symm, by simp [hstock]⟩

/-- A sweep is its loop and the two statements after it. -/
lemma applyProviderSkus_parts
    (h : applyProviderSkus cfg p provider now skus true db = some (written, db')) :
    ∃ seen db₁, Swept cfg p provider skus db seen db₁ ∧
      (db₁.zeroMissing provider now seen).recount = some db' := by
  simp only [applyProviderSkus, if_true, Option.bind_eq_bind, Option.bind_eq_some_iff,
    Option.pure_def, Option.some_inj, Prod.mk.injEq] at h
  obtain ⟨⟨seen, db₁⟩, hloop, db₂, hrecount, -, rfl⟩ := h
  exact ⟨seen, db₁, applySkus_swept hloop, hrecount⟩

/-- The sources of the supplier after a sweep: those seen have the stock of a SKU that names them,
the others none. -/
lemma applyProviderSkus_sources
    (h : applyProviderSkus cfg p provider now skus true db = some (written, db')) {source : Source}
    {row : SourceRow} (hrow : db'.sources.get? source = some row)
    (hprovider : source.provider = provider) :
    (∃ e ∈ skus, e.2.source = source ∧ db.Writable cfg p provider e.2 ∧
        row.stock = e.2.stock.toNat) ∨
      ((∀ e ∈ skus, e.2.source = source → ¬ db.Writable cfg p provider e.2) ∧ row.stock = 0 ∧
        ∃ before, db.sources.get? source = some before) := by
  obtain ⟨seen, db₁, hswept, hrecount⟩ := applyProviderSkus_parts h
  rw [(recount_eq_some hrecount).1] at hrow
  simp only [OfferTables.zeroMissing, Table.get?_mapRows, Option.map_eq_some_iff] at hrow
  obtain ⟨row₁, hrow₁, rfl⟩ := hrow
  by_cases hseen : source ∈ seen
  · rw [if_neg fun h => h.2 hseen]
    obtain ⟨e, he, hwrite, hnames, row₂, hrow₂, hstock⟩ := hswept.stock source hseen
    obtain rfl := Option.some.inj (hrow₁.symm.trans hrow₂)
    exact .inl ⟨e, he, hnames, hwrite, hstock⟩
  · rw [if_pos ⟨hprovider, hseen⟩]
    refine .inr ⟨fun e he hnames hwrite => ?_, rfl, row₁, (hswept.others _ hseen).symm.trans hrow₁⟩
    exact hseen ((hswept.mem_seen source).mpr ⟨e, he, hwrite, hnames⟩)

/-- The statements after the loop keep every source. -/
lemma sources_of_recount {seen : List Source} {source : Source} {row : SourceRow}
    (h : (db.zeroMissing provider now seen).recount = some db')
    (hrow : db.sources.get? source = some row) : ∃ row', db'.sources.get? source = some row' := by
  rw [(recount_eq_some h).1]
  simp [OfferTables.zeroMissing, hrow]

/-- A source is not lost. -/
lemma applyProviderSkus_keeps
    (h : applyProviderSkus cfg p provider now skus true db = some (written, db')) {source : Source}
    {row : SourceRow} (hrow : db.sources.get? source = some row) :
    ∃ row', db'.sources.get? source = some row' := by
  obtain ⟨seen, db₁, hswept, hrecount⟩ := applyProviderSkus_parts h
  by_cases hseen : source ∈ seen
  · obtain ⟨-, -, -, -, row₁, hrow₁, -⟩ := hswept.stock source hseen
    exact sources_of_recount hrecount hrow₁
  · exact sources_of_recount hrecount ((hswept.others _ hseen).trans hrow)

/-- What is written has a source. -/
lemma applyProviderSkus_writes
    (h : applyProviderSkus cfg p provider now skus true db = some (written, db'))
    (e : Uuid × OfferSku) (he : e ∈ skus) (hwrite : db.Writable cfg p provider e.2) :
    ∃ row, db'.sources.get? e.2.source = some row := by
  obtain ⟨seen, db₁, hswept, hrecount⟩ := applyProviderSkus_parts h
  obtain ⟨-, -, -, -, row₁, hrow₁, -⟩ :=
    hswept.stock e.2.source ((hswept.mem_seen _).mpr ⟨e, he, hwrite, rfl⟩)
  exact sources_of_recount hrecount hrow₁

/-- **A sweep leaves its supplier's stock as listed exactly where no source that the list names is
skipped.** -/
theorem swept_iff
    (h : applyProviderSkus cfg p provider now skus true db = some (written, db')) :
    SweptTables cfg p provider skus db db' ↔ Relisted cfg p provider skus db := by
  constructor
  · intro hswept source before hbefore hprovider hnamed
    by_contra hnone
    push Not at hnone
    obtain ⟨row, hrow⟩ := applyProviderSkus_keeps h hbefore
    rcases applyProviderSkus_sources h hrow hprovider with ⟨e, he, hnames, hwrite, -⟩ |
      ⟨-, hzero, -⟩
    · exact (hnone e he hnames).1 hwrite
    · cases hprices : p.prices provider with
      | true =>
          obtain ⟨e, he, hnames, hstock⟩ := hswept.priced hprices source row hrow hprovider hnamed
          have hlisted := (hnone e he hnames).2
          omega
      | false =>
          exact hswept.unpriced hprices source row hrow hprovider hnamed
            (fun e he hnames => (hnone e he hnames).2) hzero
  · intro hrelisted
    obtain ⟨_, _, -, hrecount⟩ := applyProviderSkus_parts h
    refine ⟨applyProviderSkus_writes h, counted_of_recount hrecount,
      fun _ source row hrow hprovider hnamed => ?_,
      fun source row hrow hprovider hnamed => ?_,
      fun hprices source row hrow hprovider hnamed hstocked => ?_⟩
    · rcases applyProviderSkus_sources h hrow hprovider with ⟨e, he, hnames, -, hstock⟩ |
        ⟨hskipped, hzero, before, hbefore⟩
      · exact ⟨e, he, hnames, hstock⟩
      · obtain ⟨e, he, hnames, hwrite | hempty⟩ := hrelisted source before hbefore hprovider hnamed
        · exact absurd hwrite (hskipped e he hnames)
        · exact ⟨e, he, hnames, by omega⟩
    · rcases applyProviderSkus_sources h hrow hprovider with ⟨e, he, hnames, -, -⟩ | ⟨-, hzero, -⟩
      · exact absurd ⟨e, he, hnames⟩ hnamed
      · exact hzero
    · have hnever : ∀ e ∈ skus, ¬ db.Writable cfg p provider e.2 := by
        intro e _ hwrite
        exact absurd (writable_iff.mp hwrite).2.2.2 (by simp [hprices])
      rcases applyProviderSkus_sources h hrow hprovider with ⟨e, he, -, hwrite, -⟩ |
        ⟨-, -, before, hbefore⟩
      · exact absurd hwrite (hnever e he)
      · obtain ⟨e, he, hnames, hwrite | hempty⟩ := hrelisted source before hbefore hprovider hnamed
        · exact absurd hwrite (hnever e he)
        · exact absurd (hstocked e he hnames) (not_lt.mpr hempty)

end Law

/-! ## Costs in euros -/

/-- WhatsApp in the United States, sold from one operator of 5SIM. -/
def oneSource : OfferTables where
  products := ⟨[(1, ⟨⟨"whatsapp", "WhatsApp", true, 0⟩, "whatsapp"⟩)], by simp⟩
  countries := ⟨[(2, ⟨"US", "USA", "+1", "usa", true⟩)], by simp⟩
  offers := ⟨[(3, ⟨1, 2, 1000, 80, 0, 5, true⟩)], by simp⟩
  sources := ⟨[(⟨.fivesim, "usa", "whatsapp", "virtual1"⟩, ⟨3, 2 / 5, "USD", 80, 5, 0⟩)], by simp⟩

/-- Seven numbers of this operator. -/
def sevenListed : OfferSku where
  provider := .fivesim
  productSlug := "whatsapp"
  countryCode := "us"
  providerProduct := "whatsapp"
  providerCountry := "usa"
  providerOperator := some "virtual1"
  cost := 2 / 5
  currency := "EUR"
  successRate := 80
  stock := 7

/-- **A supplier whose costs are in euros is sold out after a sweep**, whatever it lists. -/
theorem listed_sold_out : ¬ ∀ (cfg : Config) (p : Pricing) (provider : SupplierLabel) (now : Time)
    (skus : List (Uuid × OfferSku)) (db db' : OfferTables) (written : ℕ),
    applyProviderSkus cfg p provider now skus true db = some (written, db') →
      SweptTables cfg p provider skus db db' := by
  intro h
  have hrun : (applyProviderSkus catalogueConfig ⟨1700, 8 / 5, some "EUR", exactOps⟩ .fivesim 1
      [(4, sevenListed)] true oneSource).map
        (fun r => (r.2.sources.get? sevenListed.source).map (·.stock)) = some (some 0) := by
    decide +kernel
  obtain ⟨⟨written, db'⟩, hswept, hstock⟩ := Option.map_eq_some_iff.mp hrun
  obtain ⟨row, hrow, hzero⟩ := Option.map_eq_some_iff.mp hstock
  refine (h _ _ _ _ _ _ _ _ hswept).unpriced (by decide) sevenListed.source row hrow rfl
    ⟨(4, sevenListed), List.mem_singleton.mpr rfl, rfl⟩ (fun e he _ => ?_) hzero
  rw [List.mem_singleton.mp he]
  decide

/-- Costs in dollars, at 1700 naira and a margin of three fifths. -/
def inDollars : Pricing := ⟨1700, 8 / 5, none, exactOps⟩

/-- The same sweep with costs in dollars. -/
theorem swept_dollars : ∃ written db', applyProviderSkus catalogueConfig inDollars .fivesim 1
    [(4, sevenListed)] true oneSource = some (written, db') ∧
      SweptTables catalogueConfig inDollars .fivesim [(4, sevenListed)] oneSource db' := by
  have hrun : (applyProviderSkus catalogueConfig inDollars .fivesim 1
      [(4, sevenListed)] true oneSource).isSome = true := by decide +kernel
  obtain ⟨⟨written, db'⟩, hswept⟩ := Option.isSome_iff_exists.mp hrun
  refine ⟨written, db', hswept, (swept_iff hswept).mpr fun source _ _ _ hnamed => ?_⟩
  obtain ⟨e, he, rfl⟩ := hnamed
  refine ⟨e, he, rfl, .inl ?_⟩
  rw [List.mem_singleton.mp he]
  have hwritable : (oneSource.placing catalogueConfig inDollars .fivesim
    sevenListed).isSome = true := by decide +kernel
  exact hwritable

end Naivolt
