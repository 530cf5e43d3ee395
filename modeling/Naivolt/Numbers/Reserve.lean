import Naivolt.Foundation.FixedPoint
import Naivolt.Numbers.Claims

/-!
# Placing an order

The first transaction of `create_order`: under the lock on the user's naira account it looks
for an order already placed under the same key, prices the request against the catalogue,
checks the balance, posts the reservation and inserts the order.

What the catalogue queries return at that moment is an input (`Catalogue`): the tables behind
it are kept by the catalogue sync and the admin routes.
-/

namespace Naivolt

open Foundation

/-! ## Configuration and inputs -/

/-- The parts of `Config` and `AppState` the modelled handlers read.  The two case maps are
the standard library's Unicode ones. -/
structure Config where
  providers : NumberProviders
  fundingLive : Bool
  numbersMinPriceFraction : ℚ
  adminRefundCapNgn : ℚ
  fivesimCurrency : Option String
  toLowercase : String → String
  toUppercase : String → String

/-- `CreateOrderBody`, the expected price parsed. -/
structure CreateOrderBody where
  offerId : Option Uuid
  productSlug : String
  countryCode : String
  expectedPriceNgn : Option ℚ
  deriving DecidableEq

/-- A supplier SKU behind an offer. -/
structure Source where
  provider : SupplierLabel
  country : String
  product : String
  operator : String
  deriving DecidableEq

/-- A row of `number_offers` with its product and country. -/
structure OfferRow where
  productSlug : String
  countryCode : String
  providerCountry : String
  priceNgn : ℚ
  quantity : ℤ
  active : Bool
  deriving DecidableEq

/-- What the catalogue queries of one request return. -/
structure Catalogue where
  offer : Option OfferRow
  /-- The dearest active offer in stock for the same product and country. -/
  topPrice : Option ℚ
  /-- The offer's sources from enabled suppliers, best ranked first. -/
  rankedSources : List Source
  /-- The product's 5SIM name, if it is sold. -/
  providerProduct : Option String
  /-- The country's 5SIM name, if it is sold. -/
  providerCountry : Option String
  price : Option ℚ
  fivesimEnabled : Bool
  deriving DecidableEq

/-- What the request resolved to. -/
structure Quote where
  productSlug : String
  countryCode : String
  /-- `number_countries.provider_country` of the order's country. -/
  countryName : String
  priceNgn : ℚ
  providerProduct : String
  providerCountry : String
  label : SupplierLabel
  offerId : Option Uuid
  sources : List Source
  deriving DecidableEq

/-! ## Pricing -/

def optionGone : ApiError :=
  .conflict "That option is no longer available. Refresh and pick again."

def notOnSale : ApiError :=
  .serviceUnavailable "Numbers aren't on sale yet. Nothing has been charged."

/-- Refusals that depend only on how the process is configured. -/
def refuseUnconfigured (cfg : Config) (body : CreateOrderBody) : Option ApiError :=
  if cfg.fundingLive && !cfg.providers.primaryLive && body.offerId.isNone then some notOnSale
  else if !cfg.providers.isLive && cfg.fundingLive then some notOnSale
  else none

/-- The offer path.  `Shop.orderFloor_exact` says how far the floor is the product of `Decimal`s. -/
def quoteOffer (cfg : Config) (cat : Catalogue) (offerId : Uuid) (expected : Option ℚ) :
    Except ApiError Quote :=
  match expected with
  | none => .error (.badRequest "Send the price you were shown.")
  | some expected =>
    match cat.offer with
    | none => .error .notFound
    | some offer =>
      if !offer.active || offer.quantity ≤ 0 then .error optionGone
      else if expected < offer.priceNgn then .error (.priceMoved offer.priceNgn)
      else if cat.topPrice.any
          (fun top => offer.priceNgn < top * cfg.numbersMinPriceFraction) then .error optionGone
      else
        match cat.rankedSources with
        | [] => .error optionGone
        | first :: rest => .ok
          { productSlug := offer.productSlug, countryCode := offer.countryCode,
            countryName := offer.providerCountry, priceNgn := offer.priceNgn,
            providerProduct := first.product, providerCountry := first.country,
            label := first.provider, offerId := some offerId, sources := first :: rest }

/-- The catalogue path. -/
def quoteCatalogue (cfg : Config) (cat : Catalogue) (body : CreateOrderBody) :
    Except ApiError Quote :=
  match cat.providerProduct, cat.providerCountry, cat.price with
  | none, _, _ => .error (.badRequest "We don't sell numbers for that app.")
  | some _, none, _ => .error (.badRequest "We don't sell numbers in that country.")
  | some _, some _, none =>
      .error (.badRequest "That app isn't available in that country yet.")
  | some product, some country, some price =>
    if body.expectedPriceNgn.any (fun expected => expected < price) then
      .error (.priceMoved price)
    else if cfg.providers.primaryLive && !cat.fivesimEnabled then .error optionGone
    else .ok
      { productSlug := cfg.toLowercase (trimText body.productSlug)
        countryCode := cfg.toUppercase (trimText body.countryCode)
        countryName := country, priceNgn := price, providerProduct := product,
        providerCountry := country, label := cfg.providers.catalogueLabel, offerId := none,
        sources := [] }

/-- With live funding no source may be the stub. -/
def dropStub (cfg : Config) (q : Quote) : Except ApiError Quote :=
  if cfg.fundingLive then
    let sources := q.sources.filter (fun s => s.provider ≠ .stub)
    if q.offerId.isSome && sources.isEmpty then .error notOnSale
    else .ok { q with sources := sources }
  else .ok q

/-- The request against the catalogue. -/
def quote (cfg : Config) (cat : Catalogue) (body : CreateOrderBody) : Except ApiError Quote :=
  (match body.offerId with
    | some offerId => quoteOffer cfg cat offerId body.expectedPriceNgn
    | none => quoteCatalogue cfg cat body).bind (dropStub cfg)

lemma exists_of_bind_eq_ok {α β : Type} {x : Except ApiError α} {f : α → Except ApiError β}
    {b : β} (h : x.bind f = .ok b) : ∃ a, x = .ok a ∧ f a = .ok b := by
  cases x with
  | error e => cases h
  | ok a => exact ⟨a, rfl, h⟩

lemma dropStub_eq_ok {cfg : Config} {q q' : Quote} (h : dropStub cfg q = .ok q') :
    q'.offerId = q.offerId ∧ q'.label = q.label := by
  unfold dropStub at h
  simp only at h
  split at h
  · split at h
    · cases h
    · cases h
      exact ⟨rfl, rfl⟩
  · cases h
    exact ⟨rfl, rfl⟩

/-- A catalogue purchase is quoted under the catalogue's label. -/
lemma quote_label {cfg : Config} {cat : Catalogue} {body : CreateOrderBody} {q : Quote}
    (h : quote cfg cat body = .ok q) (hoffer : q.offerId = none) :
    q.label = cfg.providers.catalogueLabel := by
  obtain ⟨q₀, hq₀, hdrop⟩ := exists_of_bind_eq_ok h
  obtain ⟨hsame, hlabel⟩ := dropStub_eq_ok hdrop
  rw [hlabel]
  rw [hsame] at hoffer
  split at hq₀
  · -- An offer is quoted under its own identifier.
    unfold quoteOffer at hq₀
    repeat' split at hq₀
    all_goals cases hq₀
    cases hoffer
  · unfold quoteCatalogue at hq₀
    repeat' split at hq₀
    all_goals cases hq₀
    rfl

/-! ## The transaction -/

/-- `NumberReserve`: naira leaves the user and is owed back until a code arrives. -/
def reserveJournal (userId key : Uuid) (reference : String) (priceNgn : ℚ) : JournalBuilder :=
  .transfer .numberReserve reference (reservationKey userId key)
    (.userNgn userId) pendingAccount priceNgn

/-- The order of the user under that idempotency key. -/
def findByKey (t : OrderTable) (userId key : Uuid) : Option (Uuid × Order) :=
  t.table.rows.find? (fun r => r.2.userId = userId && r.2.idempotencyKey = key)

/-- Whether a replayed request asks for what the stored order was placed for. -/
def sameRequest (cfg : Config) (body : CreateOrderBody) (o : Order) : Bool :=
  (match body.offerId with
    | some offerId => o.offerId = some offerId
    | none => o.productSlug = cfg.toLowercase (trimText body.productSlug) &&
        o.countryCode = cfg.toUppercase (trimText body.countryCode)) &&
  (!o.idempotencyPayloadComplete || o.expectedPriceNgn = body.expectedPriceNgn)

/-- A price in units of the fourth decimal place, as `NUMERIC(20, 4)` keeps it. -/
def priceUnits (amount : ℚ) : ℤ := roundAway (amount * 10 ^ 4)

/-- The price a `NUMERIC(20, 4)` column holds. -/
def storedPrice (amount : ℚ) : ℚ := priceUnits amount / 10 ^ 4

/-- The row a new order starts as.  The expected price is rounded by its column. -/
def newOrder (now : Time) (userId key journalId : Uuid) (reference : String) (q : Quote)
    (expected : Option ℚ) : Order :=
  { userId := userId, productSlug := q.productSlug, countryCode := q.countryCode,
    providerCountry := q.countryName, priceNgn := q.priceNgn, provider := q.label,
    providerOrderId := none, phoneNumber := none, providerCost := none,
    providerCostCurrency := none, sourceCountry := none, sourceProduct := none,
    sourceOperator := none, status := .reserved, smsCode := none, smsText := none,
    receivedAt := none, expiresAt := none, activationOpen := false, reference := reference,
    reservedJournalId := journalId, settledJournalId := none, refundedJournalId := none,
    failureReason := none, idempotencyKey := key, expectedPriceNgn := expected.map storedPrice,
    idempotencyPayloadComplete := true, offerId := q.offerId, purchaseStartedAt := none,
    reconcileNextAt := some (now + seconds 5), reconcileLastCheckedAt := none,
    reconcileAttemptCount := 0, reconcileLastErrorCategory := none, claim := none,
    reviewRequiredAt := none, reviewReason := none, reconciliationPayloadComplete := true,
    createdAt := now }

/-- What placing an order comes to. -/
inductive Placed where
  | replayed (orderId : Uuid)
  | placed (orderId : Uuid) (quote : Quote)

/-- Post the reservation and insert the order.  A price the column has no room for fails the
insert. -/
def placeOrder (now : Time) (fresh : List Uuid) (userId key : Uuid) (q : Quote)
    (expected : Option ℚ) (db : NumbersDb) : TxResult Placed :=
  match fresh with
  | orderId :: journalId :: referenceId :: _ =>
    let reference := orderReference referenceId
    if expected.any (fun p => 10 ^ 20 ≤ |priceUnits p|) then none
    else match (reserveJournal userId key reference q.priceNgn).build with
    | .error _ => none
    | .ok journal =>
      (db.ledger.post journal journalId).bind fun (posted, ledger) =>
      (db.orders.insert orderId
        (newOrder now userId key posted.journalId reference q expected)).bind fun orders =>
      some (.ok (.placed orderId q), { db with ledger := ledger, orders := orders },
        [.posted journal posted])
  | _ => none

/-- The reserving transaction of `create_order`. -/
def reserveOrder (cfg : Config) (now : Time) (fresh : List Uuid) (cat : Catalogue)
    (userId key : Uuid) (body : CreateOrderBody) (db : NumbersDb) : TxResult Placed :=
  match findByKey db.orders userId key with
  | some (orderId, stored) =>
    if sameRequest cfg body stored then some (.ok (.replayed orderId), db, [])
    else some (.error (.conflict
      "That Idempotency-Key belongs to a different number purchase."), db, [])
  | none =>
    match quote cfg cat body with
    | .error e => some (.error e, db, [])
    | .ok q =>
      if !db.ledger.affords userId q.priceNgn then some (.error .insufficientBalance, db, [])
      else placeOrder now fresh userId key q body.expectedPriceNgn db

/-- No order of the user carries the key when the lookup finds none. -/
lemma findByKey_eq_none {t : OrderTable} {userId key : Uuid} (h : findByKey t userId key = none)
    {id : Uuid} {o : Order} (ho : t.get? id = some o) :
    ¬(o.userId = userId ∧ o.idempotencyKey = key) := by
  have := List.find?_eq_none.mp h (id, o) (Table.get?_eq_some_iff.mp ho)
  simpa using this

/-- **What placing an order can do.**  Nothing, or one reservation and one order, when the
user had no order under the key and could afford the price. -/
lemma reserveOrder_cases {cfg : Config} {now : Time} {fresh : List Uuid} {cat : Catalogue}
    {userId key : Uuid} {body : CreateOrderBody} {db db' : NumbersDb}
    {r : Except ApiError Placed} {es : Log}
    (h : reserveOrder cfg now fresh cat userId key body db = some (r, db', es)) :
    (db' = db ∧ es = [] ∧ ∀ id q, r ≠ .ok (.placed id q)) ∨
    (∃ orderId journalId referenceId journal posted ledger orders q,
      fresh.take 3 = [orderId, journalId, referenceId] ∧
      findByKey db.orders userId key = none ∧ quote cfg cat body = .ok q ∧
      db.ledger.affords userId q.priceNgn = true ∧
      (reserveJournal userId key (orderReference referenceId) q.priceNgn).build = .ok journal ∧
      db.ledger.post journal journalId = some (posted, ledger) ∧
      db.orders.insert orderId (newOrder now userId key posted.journalId
        (orderReference referenceId) q body.expectedPriceNgn) = some orders ∧
      r = .ok (.placed orderId q) ∧ db' = { db with ledger := ledger, orders := orders } ∧
      es = [.posted journal posted]) := by
  unfold reserveOrder at h
  split at h
  · split at h <;>
      · cases h
        exact .inl ⟨rfl, rfl, by simp⟩
  · rename_i hkey
    split at h
    · cases h
      exact .inl ⟨rfl, rfl, by simp⟩
    · rename_i q hq
      split at h
      · cases h
        exact .inl ⟨rfl, rfl, by simp⟩
      · rename_i hafford
        unfold placeOrder at h
        split at h
        · rename_i orderId journalId referenceId rest
          simp only at h
          split at h
          · cases h
          · split at h
            · cases h
            · rename_i journal hj
              obtain ⟨⟨posted, ledger⟩, hpost, h⟩ := Option.bind_eq_some_iff.mp h
              obtain ⟨orders, hins, h⟩ := Option.bind_eq_some_iff.mp h
              cases h
              exact .inr ⟨orderId, journalId, referenceId, journal, posted, ledger, orders, q,
                rfl, hkey, hq, by simpa using hafford, hj, hpost, hins, rfl, rfl, rfl⟩
        · cases h

end Naivolt
