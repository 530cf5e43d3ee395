import Naivolt.Numbers.Transitions

/-!
# Claims and the statements made under them

The single-statement writes to `number_orders` that `number_reconciler.rs` and
`number_routes.rs` make outside the transactions of `Naivolt.Numbers.Transitions`: taking a
claim (four callers, one shape: `grantClaim`), giving it back, moving an order to review,
storing the bought activation, pinning the source, and recovering an unknown purchase.

Each is one `UPDATE` with its guard in the `WHERE` clause, so it is atomic on its own; what
its caller read earlier may be out of date by the time it runs.
-/

namespace Naivolt

open Foundation

/-- A statement's result, the tables it leaves and what it records. -/
abbrev StmtResult (β : Type) := Option (β × NumbersDb × Log)

/-- The length of every lease. -/
def leaseLength : Time := seconds 60

/-! ## Taking a claim -/

/-- `UPDATE … SET reconcile_claim_token = …, reconcile_claimed_until = now() + '60 seconds'
WHERE id = $1 AND …`.  The row claimed, or none when the guard refused it. -/
def grantClaim (now : Time) (tid : ℕ) (id token : Uuid) (purpose : ClaimPurpose)
    (guard : Order → Bool) (set : Order → Order) (db : NumbersDb) : StmtResult (Option Order) :=
  match db.orders.get? id with
  | none => some (none, db, [])
  | some row =>
    if guard row && row.claimable now then
      let claim : Claim := ⟨token, now + leaseLength⟩
      let row' := { set row with claim := some claim }
      (db.orders.update id (fun _ => row')).bind fun orders =>
      some (some row', { db with orders := orders },
        [.granted ⟨id, claim, purpose, tid, now, row⟩])
    else some (none, db, [])

/-- `create_order`'s claim, taken once before its purchases. -/
def claimPurchase (now : Time) (tid : ℕ) (id token : Uuid) (db : NumbersDb) :
    StmtResult (Option Order) :=
  grantClaim now tid id token .purchase
    (fun o => o.status = .reserved && o.purchaseStartedAt.isNone)
    (fun o => { o with purchaseStartedAt := some now }) db

/-- Whether `sweep` finds the order due. -/
def dueForSweep (now : Time) (o : Order) : Bool :=
  o.reconciliationPayloadComplete &&
  (o.status = .reserved || o.status = .awaitingCode ||
    (o.status = .delivered && o.activationOpen) ||
    (o.status = .reviewRequired && o.providerOrderId.isNone &&
      o.reviewReason = some "purchase_outcome_unknown")) &&
  o.reconcileNextAt.all (fun at_ => at_ ≤ now)

/-- A sweep takes an order in review only to look for its purchase. -/
lemma dueForSweep_reviewRequired {now : Time} {o : Order} (h : dueForSweep now o = true)
    (hs : o.status = .reviewRequired) : o.providerOrderId = none := by
  have hawaits : o.providerOrderId = none ∧ o.reviewReason = some "purchase_outcome_unknown" := by
    simp only [dueForSweep, hs, Bool.and_eq_true] at h
    simpa using h.1.2
  exact hawaits.1

/-- `sweep`'s claim, for one of the rows its statement takes.  Which of the due rows those are
is up to the locks other transactions hold (`SKIP LOCKED`). -/
def sweepClaim (now : Time) (tid : ℕ) (id token : Uuid) (db : NumbersDb) :
    StmtResult (Option Order) :=
  grantClaim now tid id token .sweep (dueForSweep now) (fun o => o) db

/-- `try_claim_order`. -/
def tryClaimOrder (now : Time) (tid : ℕ) (id token : Uuid) (db : NumbersDb) :
    StmtResult (Option Order) :=
  grantClaim now tid id token .cancel
    (fun o => o.status = .reserved || o.status = .awaitingCode) (fun o => o) db

/-- `try_claim_held_order`. -/
def tryClaimHeldOrder (now : Time) (tid : ℕ) (id token : Uuid) (db : NumbersDb) :
    StmtResult (Option Order) :=
  grantClaim now tid id token .operator (fun o => o.status.moneyOpen) (fun o => o) db

/-! ## Conditional writes -/

/-- `UPDATE number_orders SET … WHERE id = $1 AND guard`: whether a row was updated. -/
def updateWhere (id : Uuid) (guard : Order → Bool) (set : Order → Order)
    (record : Order → Log) (db : NumbersDb) : StmtResult Bool :=
  match db.orders.get? id with
  | none => some (false, db, [])
  | some row =>
    if guard row then
      (db.orders.update id (fun _ => set row)).bind fun orders =>
      some (true, { db with orders := orders }, record row)
    else some (false, db, [])

/-- `release_order`. -/
def releaseOrder (now : Time) (id token : Uuid) (delay : Time) (error : Option String)
    (db : NumbersDb) : StmtResult Bool :=
  updateWhere id (fun o => o.claimedBy token)
    (fun o =>
      { o with
        reconcileLastCheckedAt := some now
        reconcileAttemptCount := if error.isNone then 0 else o.reconcileAttemptCount + 1
        reconcileLastErrorCategory := error
        reconcileNextAt := some (min (o.expiresAt.getD (now + minutes 15)) (now + delay))
        claim := none })
    (fun _ => []) db

/-- `cancel_order` gives its claim back when the supplier refuses. -/
def releaseClaim (id token : Uuid) (db : NumbersDb) : StmtResult Bool :=
  updateWhere id (fun o => o.claimedBy token) (fun o => { o with claim := none })
    (fun _ => []) db

/-- The row `mark_review_required` leaves. -/
def reviewMarked (now : Time) (reason : String) (o : Order) : Order :=
  { o with
    status := .reviewRequired
    reviewRequiredAt := some now
    reviewReason := some reason
    reconcileNextAt := some (now + seconds 5)
    claim := none }

/-- `mark_review_required`.  No row updated is its `Conflict`. -/
def markReviewRequired (now : Time) (id token : Uuid) (reason : String) (db : NumbersDb) :
    StmtResult Bool :=
  updateWhere id
    (fun o => (o.status = .reserved || o.status = .awaitingCode) && o.liveClaim token now)
    (reviewMarked now reason)
    (fun o => [.wrote ⟨id, .markReview, some token, now, o, reviewMarked now reason o⟩]) db

/-- The row with the activation stored on it. -/
def withActivation (now nextAt : Time) (a : Activation) (o : Order) : Order :=
  { o with
    status := .awaitingCode
    providerOrderId := some a.providerOrderId
    phoneNumber := some a.phone
    providerCost := a.cost
    providerCostCurrency := a.costCurrency
    expiresAt := some (a.expiresAt.getD (now + minutes 15))
    activationOpen := true
    reconcileNextAt := some nextAt
    claim := none }

/-- `create_order` stores what it bought. -/
def assignActivation (now : Time) (id token : Uuid) (a : Activation) (db : NumbersDb) :
    StmtResult Bool :=
  updateWhere id (fun o => o.status = .reserved && o.liveClaim token now)
    (withActivation now (now + seconds 10) a)
    (fun o => [.wrote ⟨id, .assign, some token, now, o,
      withActivation now (now + seconds 10) a o⟩]) db

/-- `create_order` pins the source that sold the number.  The statement names the order only:
no status, no token. -/
def pinSource (id : Uuid) (label : SupplierLabel) (country product operator : String)
    (db : NumbersDb) : StmtResult Bool :=
  updateWhere id (fun _ => true)
    (fun o =>
      { o with
        provider := label
        sourceCountry := some country
        sourceProduct := some product
        sourceOperator := some operator })
    (fun o => [.pinned id label o]) db

/-- `recover_unknown_purchase` looks for another order with the activation. -/
def activationTaken (id : Uuid) (providerOrderId : String) (db : NumbersDb) : Bool :=
  db.orders.table.rows.any (fun r => r.2.providerOrderId = some providerOrderId && r.1 ≠ id)

/-- `recover_unknown_purchase` stores what it found.  The label stays what it was. -/
def recoverActivation (now : Time) (id token : Uuid) (a : Activation) (db : NumbersDb) :
    StmtResult Bool :=
  updateWhere id (fun o => o.status = .reviewRequired && o.claimedBy token)
    (withActivation now now a)
    (fun o => [.wrote ⟨id, .recoverAssign, some token, now, o, withActivation now now a o⟩,
      .handed id o.provider a]) db

/-! ## Supplier slots -/

/-- `claim_slot` on the slot the statement picked. -/
def claimSlot (now : Time) (token : Uuid) (slot : ℕ) (db : NumbersDb) : Option NumbersDb :=
  if db.slots.any (fun s => s.slot = slot && s.claim.all (fun c => c.claimedUntil < now)) then
    some { db with slots := db.slots.map (fun s =>
      if s.slot = slot then { s with claim := some ⟨token, now + seconds 60⟩ } else s) }
  else none

/-- `release_slot`. -/
def releaseSlot (slot : ℕ) (token : Uuid) (db : NumbersDb) : NumbersDb :=
  { db with slots := db.slots.map (fun s =>
      if s.slot = slot && s.claim.any (fun c => c.token = token) then { s with claim := none }
      else s) }

/-! ## What these statements can do -/

/-- **One grant.**  A claim goes to a row whose guard held and whose previous lease had run
out, and changes nothing but what `set` and the claim say. -/
lemma grantClaim_cases {now : Time} {tid : ℕ} {id token : Uuid} {purpose : ClaimPurpose}
    {guard : Order → Bool} {set : Order → Order} {db db' : NumbersDb} {r : Option Order}
    {es : Log} (h : grantClaim now tid id token purpose guard set db = some (r, db', es)) :
    (r = none ∧ db' = db ∧ es = []) ∨
    (∃ row orders, db.orders.get? id = some row ∧ guard row = true ∧
      row.claimable now = true ∧
      r = some { set row with claim := some ⟨token, now + leaseLength⟩ } ∧
      db.orders.update id
        (fun _ => { set row with claim := some ⟨token, now + leaseLength⟩ }) = some orders ∧
      db' = { db with orders := orders } ∧
      es = [.granted ⟨id, ⟨token, now + leaseLength⟩, purpose, tid, now, row⟩]) := by
  unfold grantClaim at h
  split at h
  · cases h
    exact .inl ⟨rfl, rfl, rfl⟩
  · rename_i row hrow
    split at h
    · rename_i hg
      simp only [Bool.and_eq_true] at hg
      obtain ⟨orders, ho, hres⟩ := Option.bind_eq_some_iff.mp h
      cases hres
      exact .inr ⟨row, orders, hrow, hg.1, hg.2, rfl, ho, rfl, rfl⟩
    · cases h
      exact .inl ⟨rfl, rfl, rfl⟩

/-- **One conditional write.** -/
lemma updateWhere_cases {id : Uuid} {guard : Order → Bool} {set : Order → Order}
    {record : Order → Log} {db db' : NumbersDb} {r : Bool} {es : Log}
    (h : updateWhere id guard set record db = some (r, db', es)) :
    (r = false ∧ db' = db ∧ es = []) ∨
    (∃ row orders, db.orders.get? id = some row ∧ guard row = true ∧ r = true ∧
      db.orders.update id (fun _ => set row) = some orders ∧
      db' = { db with orders := orders } ∧ es = record row) := by
  unfold updateWhere at h
  split at h
  · cases h
    exact .inl ⟨rfl, rfl, rfl⟩
  · rename_i row hrow
    split at h
    · rename_i hg
      obtain ⟨orders, ho, hres⟩ := Option.bind_eq_some_iff.mp h
      cases hres
      exact .inr ⟨row, orders, hrow, hg, rfl, ho, rfl, rfl⟩
    · cases h
      exact .inl ⟨rfl, rfl, rfl⟩

/-- A statement that finds its row. -/
lemma updateWhere_of_guard {id : Uuid} {o : Order} {db db' : NumbersDb} {guard : Order → Bool}
    {set : Order → Order} {record : Order → Log} {r : Bool} {es : Log}
    (h : updateWhere id guard set record db = some (r, db', es))
    (ho : db.orders.get? id = some o) (hguard : guard o = true) :
    r = true ∧ db'.orders.get? id = some (set o) := by
  unfold updateWhere at h
  simp only [ho, hguard, if_true] at h
  obtain ⟨orders, hupdate, hres⟩ := Option.bind_eq_some_iff.mp h
  have hmoved := OrderTable.get?_update_self hupdate ho
  cases hres
  exact ⟨rfl, hmoved⟩

end Naivolt
