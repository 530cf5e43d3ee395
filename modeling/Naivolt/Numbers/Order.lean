import Naivolt.Ledger.Keys
import Naivolt.Foundation.Table

/-!
# Number orders and their table

`Order` is a row of `number_orders` with the columns the modelled functions read or write
(`productSlug`, `countryCode` and `providerCountry` are the joined catalogue columns).  The
reconciliation claim is one optional pair, as the `reconcile_claim_pair` check makes it.

`OrderTable` carries the constraints of migrations 0008–0016: the positive price, the
financial-state check and the unique indexes.  Writing through `OrderTable.insert` or
`OrderTable.update` either keeps them or aborts the transaction, so no reachable table breaks
one.
-/

namespace Naivolt

open Foundation

/-- The status check of migration 0016. -/
inductive OrderStatus where
  | reserved | awaitingCode | delivered | expired | cancelled | failed | reviewRequired
  deriving DecidableEq, Repr

namespace OrderStatus

/-- The reservation is still held: `status IN ('reserved', 'awaiting_code', 'review_required')`. -/
def moneyOpen : OrderStatus → Bool
  | reserved | awaitingCode | reviewRequired => true
  | _ => false

/-- `status IN ('cancelled', 'expired', 'failed')`. -/
def isRefunded : OrderStatus → Bool
  | expired | cancelled | failed => true
  | _ => false

/-- An order is open, delivered or refunded. -/
lemma open_delivered_or_refunded (s : OrderStatus) :
    s.moneyOpen = true ∨ s = .delivered ∨ s.isRefunded = true := by
  cases s <;> simp [isRefunded, moneyOpen]

lemma isRefunded_eq_false {s : OrderStatus} (h : s.moneyOpen = true ∨ s = .delivered) :
    s.isRefunded = false := by
  cases s <;> simp_all [isRefunded, moneyOpen]

lemma moneyOpen_eq_false {s : OrderStatus} (h : s = .delivered ∨ s.isRefunded = true) :
    s.moneyOpen = false := by
  cases s <;> simp_all [isRefunded, moneyOpen]

end OrderStatus

/-- The `provider` column: the catalogue's label for 5SIM, and the names `number_offer_sources`
allows (migration 0024). -/
inductive SupplierLabel where
  | fivesimCatalogue | fivesim | smspool | smsactivate | daisysms | smshub | tigersms | stub
  deriving DecidableEq, Repr

/-- `reconcile_claim_token` and `reconcile_claimed_until`. -/
structure Claim where
  token : Uuid
  claimedUntil : Time
  deriving DecidableEq, Repr

/-- A row of `number_orders`. -/
structure Order where
  userId : Uuid
  productSlug : String
  countryCode : String
  providerCountry : String
  priceNgn : ℚ
  provider : SupplierLabel
  providerOrderId : Option String
  phoneNumber : Option String
  providerCost : Option ℚ
  providerCostCurrency : Option String
  sourceCountry : Option String
  sourceProduct : Option String
  sourceOperator : Option String
  status : OrderStatus
  smsCode : Option String
  smsText : Option String
  receivedAt : Option Time
  expiresAt : Option Time
  activationOpen : Bool
  reference : String
  reservedJournalId : Uuid
  settledJournalId : Option Uuid
  refundedJournalId : Option Uuid
  failureReason : Option String
  idempotencyKey : Uuid
  expectedPriceNgn : Option ℚ
  idempotencyPayloadComplete : Bool
  offerId : Option Uuid
  purchaseStartedAt : Option Time
  reconcileNextAt : Option Time
  reconcileLastCheckedAt : Option Time
  reconcileAttemptCount : ℕ
  reconcileLastErrorCategory : Option String
  claim : Option Claim
  reviewRequiredAt : Option Time
  reviewReason : Option String
  reconciliationPayloadComplete : Bool
  createdAt : Time
  deriving DecidableEq

namespace Order

/-- `number_orders_financial_state_valid`. -/
def FinancialStateValid (o : Order) : Prop :=
  match o.status with
  | .reserved | .awaitingCode =>
      o.settledJournalId = none ∧ o.refundedJournalId = none ∧ o.failureReason = none
  | .reviewRequired =>
      o.settledJournalId = none ∧ o.refundedJournalId = none ∧ o.reviewRequiredAt ≠ none ∧
        o.reviewReason.any hasNonSpace = true
  | .delivered =>
      o.settledJournalId ≠ none ∧ o.refundedJournalId = none ∧ o.failureReason = none
  | .expired | .cancelled | .failed =>
      o.settledJournalId = none ∧ o.refundedJournalId ≠ none ∧
        o.failureReason.any hasNonSpace = true

instance (o : Order) : Decidable o.FinancialStateValid := by
  unfold FinancialStateValid
  exact match o.status with
    | .reserved | .awaitingCode | .reviewRequired | .delivered
    | .expired | .cancelled | .failed => inferInstance

lemma FinancialStateValid.settled {o : Order} (h : o.FinancialStateValid)
    (hstatus : o.status = .delivered) : o.settledJournalId ≠ none := by
  rw [FinancialStateValid, hstatus] at h
  exact h.1

lemma FinancialStateValid.refunded {o : Order} (h : o.FinancialStateValid)
    (hstatus : o.status.isRefunded = true) : o.refundedJournalId ≠ none := by
  unfold FinancialStateValid at h
  cases hs : o.status <;> simp_all [OrderStatus.isRefunded]

/-- Two rows that a unique index of `number_orders` tells apart. -/
def Collides (o o' : Order) : Prop :=
  (o.userId = o'.userId ∧ o.idempotencyKey = o'.idempotencyKey) ∨
  o.reference = o'.reference ∨
  o.reservedJournalId = o'.reservedJournalId ∨
  (o.settledJournalId ≠ none ∧ o.settledJournalId = o'.settledJournalId) ∨
  (o.refundedJournalId ≠ none ∧ o.refundedJournalId = o'.refundedJournalId)

instance (o o' : Order) : Decidable (o.Collides o') := by
  unfold Collides
  infer_instance

/-- What a move of the order can never change: who pays, how much, and under which keys. -/
structure Terms where
  userId : Uuid
  priceNgn : ℚ
  reference : String
  idempotencyKey : Uuid
  reservedJournalId : Uuid
  createdAt : Time
  deriving DecidableEq

def terms (o : Order) : Terms :=
  ⟨o.userId, o.priceNgn, o.reference, o.idempotencyKey, o.reservedJournalId, o.createdAt⟩

/-- What the request that placed an order asked for, as the row keeps it. -/
structure Asked where
  productSlug : String
  countryCode : String
  offerId : Option Uuid
  expectedPriceNgn : Option ℚ
  idempotencyPayloadComplete : Bool
  deriving DecidableEq

def asked (o : Order) : Asked :=
  ⟨o.productSlug, o.countryCode, o.offerId, o.expectedPriceNgn, o.idempotencyPayloadComplete⟩

/-- The claim is held by `token`. -/
def claimedBy (o : Order) (token : Uuid) : Bool := o.claim.any (fun c => c.token = token)

/-- The claim is held by `token` and its lease has not run out. -/
def liveClaim (o : Order) (token : Uuid) (now : Time) : Bool :=
  o.claim.any (fun c => c.token = token && now < c.claimedUntil)

/-- `reconcile_claimed_until IS NULL OR reconcile_claimed_until < now()`. -/
def claimable (o : Order) (now : Time) : Bool := o.claim.all (fun c => c.claimedUntil < now)

lemma liveClaim_iff {o : Order} {token : Uuid} {now : Time} :
    o.liveClaim token now = true ↔
      ∃ c, o.claim = some c ∧ c.token = token ∧ now < c.claimedUntil := by
  cases h : o.claim <;> simp [liveClaim, h]

lemma claimedBy_iff {o : Order} {token : Uuid} :
    o.claimedBy token = true ↔ ∃ c, o.claim = some c ∧ c.token = token := by
  cases h : o.claim <;> simp [claimedBy, h]

lemma claimable_iff {o : Order} {now : Time} :
    o.claimable now = true ↔ ∀ c, o.claim = some c → c.claimedUntil < now := by
  cases h : o.claim <;> simp [claimable, h]

end Order

/-! ## The table -/

/-- The constraints on `number_orders`. -/
def OrderConstraints (t : Table Uuid Order) : Prop :=
  (∀ r ∈ t.rows, 0 < r.2.priceNgn ∧ r.2.FinancialStateValid) ∧
    ∀ r ∈ t.rows, ∀ r' ∈ t.rows, r.2.Collides r'.2 → r.1 = r'.1

instance (t : Table Uuid Order) : Decidable (OrderConstraints t) := by
  unfold OrderConstraints
  infer_instance

/-- `number_orders`. -/
structure OrderTable where
  table : Table Uuid Order
  valid : OrderConstraints table

namespace OrderTable

def empty : OrderTable := ⟨Table.empty, by simp [OrderConstraints, Table.empty]⟩

/-- Check the constraints at the end of a statement. -/
def commit (t : Table Uuid Order) : Option OrderTable :=
  if h : OrderConstraints t then some ⟨t, h⟩ else none

def get? (t : OrderTable) (id : Uuid) : Option Order := t.table.get? id

/-- `INSERT INTO number_orders`. -/
def insert (t : OrderTable) (id : Uuid) (o : Order) : Option OrderTable :=
  (t.table.insert id o).bind commit

/-- `UPDATE number_orders SET … WHERE id = $1`. -/
def update (t : OrderTable) (id : Uuid) (f : Order → Order) : Option OrderTable :=
  commit (t.table.modify id f)

@[simp] lemma get?_empty (id : Uuid) : empty.get? id = none := rfl

lemma commit_eq_some {t : Table Uuid Order} {t' : OrderTable} (h : commit t = some t') :
    t'.table = t := by
  unfold commit at h
  split at h
  · cases h
    rfl
  · cases h

lemma update_eq_some {t t' : OrderTable} {id : Uuid} {f : Order → Order}
    (h : t.update id f = some t') : t'.table = t.table.modify id f := commit_eq_some h

lemma insert_eq_some {t t' : OrderTable} {id : Uuid} {o : Order}
    (h : t.insert id o = some t') : t.table.insert id o = some t'.table := by
  simp only [insert, Option.bind_eq_some_iff] at h
  obtain ⟨u, hu, hc⟩ := h
  rw [hu, commit_eq_some hc]

lemma get?_update {t t' : OrderTable} {id : Uuid} {f : Order → Order}
    (h : t.update id f = some t') (i : Uuid) :
    t'.get? i = if i = id then (t.get? i).map f else t.get? i := by
  simp only [get?, update_eq_some h, Table.get?_modify]

lemma get?_update_self {t t' : OrderTable} {id : Uuid} {f : Order → Order} {o : Order}
    (h : t.update id f = some t') (ho : t.get? id = some o) : t'.get? id = some (f o) := by
  simp [get?_update h, ho]

lemma get?_update_ne {t t' : OrderTable} {id : Uuid} {f : Order → Order}
    (h : t.update id f = some t') {i : Uuid} (hi : i ≠ id) : t'.get? i = t.get? i := by
  simp [get?_update h, hi]

lemma get?_insert {t t' : OrderTable} {id : Uuid} {o : Order} (h : t.insert id o = some t')
    (i : Uuid) : t'.get? i = if i = id then some o else t.get? i :=
  Table.get?_insert (insert_eq_some h) i

lemma get?_insert_self {t t' : OrderTable} {id : Uuid} {o : Order}
    (h : t.insert id o = some t') : t'.get? id = some o := by
  rw [get?_insert h, if_pos rfl]

lemma get?_of_insert {t t' : OrderTable} {id : Uuid} {o : Order} (h : t.insert id o = some t') :
    t.get? id = none :=
  (Table.insert_eq_some (insert_eq_some h)).1

/-- Rows that a unique index would confuse are one row. -/
lemma eq_of_collides (t : OrderTable) {i i' : Uuid} {o o' : Order} (h : t.get? i = some o)
    (h' : t.get? i' = some o') (hc : o.Collides o') : i = i' :=
  t.valid.2 (i, o) (Table.get?_eq_some_iff.mp h) (i', o') (Table.get?_eq_some_iff.mp h') hc

lemma eq_of_reference (t : OrderTable) {i i' : Uuid} {o o' : Order} (h : t.get? i = some o)
    (h' : t.get? i' = some o') (href : o.reference = o'.reference) : i = i' :=
  t.eq_of_collides h h' (.inr (.inl href))

lemma eq_of_key (t : OrderTable) {i i' : Uuid} {o o' : Order} (h : t.get? i = some o)
    (h' : t.get? i' = some o') (hu : o.userId = o'.userId)
    (hk : o.idempotencyKey = o'.idempotencyKey) : i = i' :=
  t.eq_of_collides h h' (.inl ⟨hu, hk⟩)

lemma financial (t : OrderTable) {i : Uuid} {o : Order} (h : t.get? i = some o) :
    o.FinancialStateValid :=
  (t.valid.1 (i, o) (Table.get?_eq_some_iff.mp h)).2

lemma price_pos (t : OrderTable) {i : Uuid} {o : Order} (h : t.get? i = some o) :
    0 < o.priceNgn :=
  (t.valid.1 (i, o) (Table.get?_eq_some_iff.mp h)).1

end OrderTable

end Naivolt
