import Naivolt.Trace

/-!
# Top-ups

`funding_routes.rs` and `funding_reconciler.rs`: a funding intent is a row with a reference
echoed by the provider, and a confirmed charge is credited under a key made from it.  The
provider's answer is an input (`ChargeState`); the development stub confirms every intent at
its own amount.
-/

namespace Naivolt

open Foundation

/-- `ngn_deposits.status`. -/
inductive IntentStatus where
  | pending | succeeded | failed | abandoned
  deriving DecidableEq, Repr

/-- A row of `ngn_deposits`. -/
structure Intent where
  userId : Uuid
  amountNgn : ℚ
  /-- `provider = 'paystack'` rather than `'stub'`. -/
  paystack : Bool
  reference : String
  status : IntentStatus
  creditedJournalId : Option Uuid
  failureReason : Option String
  createdAt : Time
  deriving DecidableEq

/-- `ngn_deposits`, with the unique provider reference. -/
structure IntentTable where
  table : Table Uuid Intent
  references : ∀ r ∈ table.rows, ∀ r' ∈ table.rows, r.2.reference = r'.2.reference → r.1 = r'.1

namespace IntentTable

def empty : IntentTable := ⟨Table.empty, by simp [Table.empty]⟩

def get? (t : IntentTable) (id : Uuid) : Option Intent := t.table.get? id

/-- Check the unique index at the end of a statement. -/
def commit (t : Table Uuid Intent) : Option IntentTable :=
  if h : ∀ r ∈ t.rows, ∀ r' ∈ t.rows, r.2.reference = r'.2.reference → r.1 = r'.1 then
    some ⟨t, h⟩
  else none

lemma commit_eq_some {t : Table Uuid Intent} {t' : IntentTable} (h : commit t = some t') :
    t'.table = t := by
  unfold commit at h
  split at h
  · cases h
    rfl
  · cases h

/-- The rows after a statement on one of them. -/
lemma get?_of_modify {t t' : IntentTable} {id : Uuid} {f : Intent → Intent}
    (h : t'.table = t.table.modify id f) (k : Uuid) :
    t'.get? k = (t.get? k).map (if k = id then f else fun i => i) := by
  rw [get?, h, Table.get?_modify]
  split
  · rename_i hk
    rw [hk]
    rfl
  · simp [get?]

/-- The rows after a statement on all of them. -/
lemma get?_of_map {t t' : IntentTable} {f : Intent → Intent} (h : t'.table = t.table.map f)
    (k : Uuid) : t'.get? k = (t.get? k).map f := by
  rw [get?, h, Table.get?_map]
  rfl

lemma eq_of_reference (t : IntentTable) {i i' : Uuid} {r r' : Intent} (h : t.get? i = some r)
    (h' : t.get? i' = some r') (href : r.reference = r'.reference) : i = i' :=
  t.references (i, r) (Table.get?_eq_some_iff.mp h) (i', r') (Table.get?_eq_some_iff.mp h') href

end IntentTable

/-- The tables a top-up's transactions write. -/
structure FundingDb where
  ledger : Ledger
  intents : IntentTable

/-- Below this a card fee eats the whole deposit. -/
def minFundingNgn : ℚ := 100
def maxFundingNgn : ℚ := 1000000

/-- Refusals of a new intent's amount; `scale` is the number of decimals written. -/
def checkFundingAmount (amount : ℚ) (scale : ℕ) : Except ApiError Unit :=
  if amount < minFundingNgn then .error (.badRequest "The smallest top-up is ₦100.")
  else if maxFundingNgn < amount then
    .error (.badRequest "The largest single top-up is ₦1000000.")
  else if 2 < scale then .error (.badRequest "That amount is too precise.")
  else .ok ()

/-- The insert of `create_intent`. -/
def insertIntent (now : Time) (fresh : List Uuid) (userId : Uuid) (amount : ℚ)
    (paystack : Bool) (db : FundingDb) : Option ((Uuid × Intent) × FundingDb) :=
  match fresh with
  | intentId :: referenceId :: _ =>
    let row : Intent :=
      ⟨userId, amount, paystack, fundingReference referenceId, .pending, none, none, now⟩
    ((db.intents.table.insert intentId row).bind IntentTable.commit).bind fun intents =>
    some ((intentId, row), { db with intents := intents })
  | _ => none

/-- `NgnDeposit`: the money is ours to hold, and owed to the user. -/
def creditJournalNgn (userId : Uuid) (reference : String) (amount : ℚ) : JournalBuilder :=
  .transfer .ngnDeposit reference (creditKey reference)
    (.platform .ngnFloat) (.userNgn userId) amount

/-- The row after a confirmed charge. -/
def intentSucceeded (amount : ℚ) (journalId : Uuid) (i : Intent) : Intent :=
  if i.status = .pending then
    { i with status := .succeeded, amountNgn := amount, creditedJournalId := some journalId }
  else i

/-- `credit_deposit` of `funding_routes.rs`. -/
def creditIntent (fresh : List Uuid) (id userId : Uuid) (reference : String) (amount : ℚ)
    (db : FundingDb) : Option (Unit × FundingDb × Log) :=
  match fresh with
  | journalId :: _ =>
    match (creditJournalNgn userId reference amount).build with
    | .error _ => none
    | .ok journal =>
      (db.ledger.post journal journalId).bind fun (posted, ledger) =>
      (IntentTable.commit
        (db.intents.table.modify id (intentSucceeded amount posted.journalId))).bind fun intents =>
      some ((), { db with ledger := ledger, intents := intents }, [.posted journal posted])
  | [] => none

/-- The row after a declined charge. -/
def intentFailed (reason : String) (i : Intent) : Intent :=
  if i.status = .pending then { i with status := .failed, failureReason := some reason } else i

/-- `settle`'s update after a declined charge. -/
def failIntent (id : Uuid) (reason : String) (db : FundingDb) : Option FundingDb :=
  (IntentTable.commit (db.intents.table.modify id (intentFailed reason))).map
    fun intents => { db with intents := intents }

/-- Leave an intent alone for this long first. -/
def settleAfter : Time := seconds 20

/-- After this, a pending intent is abandoned. -/
def abandonAfter : Time := hours 24

/-- The intents a sweep chases, oldest first, at most fifty. -/
def pendingIntents (now : Time) (db : FundingDb) : List (Uuid × Intent) :=
  ((db.intents.table.rows.filter (fun r => r.2.status = .pending && r.2.paystack &&
    r.2.createdAt + settleAfter < now && now < r.2.createdAt + abandonAfter)).mergeSort
      (fun r r' => r.2.createdAt ≤ r'.2.createdAt)).take 50

/-- Whether a sweep closes the intent. -/
def dueForAbandon (now : Time) (i : Intent) : Bool :=
  i.status = .pending && i.paystack && i.createdAt + abandonAfter < now

/-- The row after a sweep's closing statement. -/
def intentAbandoned (now : Time) (i : Intent) : Intent :=
  if dueForAbandon now i then { i with status := .abandoned } else i

/-- What a sweep closes. -/
def abandonedBy (now : Time) (db : FundingDb) : Log :=
  (db.intents.table.rows.filter (fun r => dueForAbandon now r.2)).map
    fun r => .abandoned r.2.reference

/-- The closing statement of a sweep. -/
def abandonIntents (now : Time) (db : FundingDb) : Option FundingDb :=
  (IntentTable.commit (db.intents.table.map (intentAbandoned now))).map
    fun intents => { db with intents := intents }

/-- **What crediting can do.**  One journal posted or found under the reference's key, and the
intent marked if it was pending. -/
lemma creditIntent_cases {fresh : List Uuid} {id userId : Uuid} {reference : String}
    {amount : ℚ} {db db' : FundingDb} {es : Log}
    (h : creditIntent fresh id userId reference amount db = some ((), db', es)) :
    ∃ journalId journal posted,
      fresh.head? = some journalId ∧
      (creditJournalNgn userId reference amount).build = .ok journal ∧
      db.ledger.post journal journalId = some (posted, db'.ledger) ∧
      db'.intents.table =
        db.intents.table.modify id (intentSucceeded amount posted.journalId) ∧
      es = [.posted journal posted] := by
  unfold creditIntent at h
  split at h
  · rename_i journalId rest
    split at h
    · cases h
    · rename_i journal hj
      obtain ⟨⟨posted, ledger⟩, hpost, h⟩ := Option.bind_eq_some_iff.mp h
      obtain ⟨intents, hint, h⟩ := Option.bind_eq_some_iff.mp h
      cases h
      exact ⟨journalId, journal, posted, rfl, hj, hpost, IntentTable.commit_eq_some hint, rfl⟩
  · cases h

end Naivolt
