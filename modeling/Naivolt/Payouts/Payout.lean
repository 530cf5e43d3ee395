import Naivolt.Trace

/-!
# Payouts

`payout_routes.rs`: the request checks, the daily cap, and the transaction that reserves naira
for a bank transfer.  `reservePayout` posts its journal under the raw `Idempotency-Key` of the
request and then looks for a payout row naming the journal it got back; nothing checks that
the journal is one a payout posted.
-/

namespace Naivolt

open Foundation

/-! ## Tiers -/

namespace KycTier

/-- Naira that may be withdrawn per rolling 24 hours; none when withdrawal is not permitted. -/
def dailyPayoutCap : KycTier → Option ℚ
  | tier0 => none
  | tier1 => some 50000
  | tier2 => some 500000
  | tier3 => some 5000000

def nextStep : KycTier → Option String
  | tier0 => some "Verify your BVN to withdraw to your bank account"
  | tier1 => some "Add your NIN and take a selfie to raise your limit"
  | tier2 => some "Upload proof of address to raise your limit"
  | tier3 => none

end KycTier

/-- `PayoutCheck`, as the error the route turns it into. -/
def checkPayout (tier : KycTier) (amount usedToday : ℚ) : Except ApiError Unit :=
  match tier.dailyPayoutCap with
  | none => .error (.kycRequired (tier.nextStep.getD "Verify your identity"))
  | some cap =>
    let remaining := cap - usedToday
    if remaining < amount then .error (.limitExceeded (max remaining 0)) else .ok ()

/-! ## Rows -/

inductive PayoutStatus where
  | reserved | processing | settled | failed | reversed
  deriving DecidableEq, Repr

/-- A row of `payouts`. -/
structure Payout where
  userId : Uuid
  bankAccountId : Uuid
  amountNgn : ℚ
  feeNgn : ℚ
  status : PayoutStatus
  providerReference : String
  reservedJournalId : Uuid
  createdAt : Time
  deriving DecidableEq

/-- The tables a payout reads and writes.  `tiers` is `users.kyc_tier`. -/
structure PayoutsDb where
  ledger : Ledger
  payouts : Table Uuid Payout
  tiers : Uuid → KycTier

/-- The request, its header and body parsed.  `scale` is the number of decimals the client
wrote. -/
structure CreatePayoutBody where
  amountNgn : ℚ
  scale : ℕ
  bankAccountId : Uuid
  deriving DecidableEq

/-- What the user's row says: whether a PIN is set and matches, and the KYC tier. -/
structure PayoutUser where
  pinSet : Bool
  pinMatches : Bool
  tier : KycTier
  deriving DecidableEq

/-- Refusals of the amount itself. -/
def checkAmount (body : CreatePayoutBody) : Except ApiError Unit :=
  if body.amountNgn ≤ 0 then .error (.badRequest "Enter an amount above zero.")
  else if 4 < body.scale then .error (.badRequest "That amount is too precise.")
  else .ok ()

/-- PIN, before anything else is touched. -/
def checkPin (u : PayoutUser) : Except ApiError Unit :=
  if !u.pinSet then .error (.badRequest "Set a PIN before withdrawing.")
  else if !u.pinMatches then .error (.pinInvalid 0)
  else .ok ()

/-- `payout_usage_24h`. -/
def usedToday (now : Time) (payouts : Table Uuid Payout) (userId : Uuid) : ℚ :=
  ((payouts.rows.filter (fun r => r.2.userId = userId && now < r.2.createdAt + hours 24 &&
    (r.2.status = .reserved || r.2.status = .processing || r.2.status = .settled))).map
      (fun r => r.2.amountNgn)).sum

/-! ## The transaction -/

/-- `PayoutReserve`, under the client's own key. -/
def payoutJournal (userId : Uuid) (key reference : String) (amount : ℚ) : JournalBuilder :=
  .transfer .payoutReserve reference key
    (.userNgn userId) (.platform .ngnPayablePending) amount

/-- The payout row that names a journal. -/
def findByJournal (payouts : Table Uuid Payout) (journalId : Uuid) : Option (Uuid × Payout) :=
  payouts.rows.find? (fun r => r.2.reservedJournalId = journalId)

lemma findByJournal_eq_some {payouts : Table Uuid Payout} {journalId : Uuid}
    {r : Uuid × Payout} (h : findByJournal payouts journalId = some r) :
    r ∈ payouts.rows ∧ r.2.reservedJournalId = journalId :=
  ⟨List.mem_of_find?_eq_some h, by simpa using List.find?_some h⟩

lemma findByJournal_eq_none {payouts : Table Uuid Payout} {journalId : Uuid}
    (h : findByJournal payouts journalId = none) {r : Uuid × Payout} (hr : r ∈ payouts.rows) :
    r.2.reservedJournalId ≠ journalId := by
  simpa using List.find?_eq_none.mp h r hr

/-- The reserving transaction of `create_payout`. -/
def reservePayout (now : Time) (fresh : List Uuid) (userId : Uuid) (key : String)
    (amount : ℚ) (bankAccountId : Uuid) (db : PayoutsDb) :
    Option (Except ApiError (Uuid × Payout) × PayoutsDb × Log) :=
  if !db.ledger.affords userId amount then some (.error .insufficientBalance, db, [])
  else
    match fresh with
    | payoutId :: journalId :: referenceId :: _ =>
      let reference := payoutReference referenceId
      match (payoutJournal userId key reference amount).build with
      | .error _ => none
      | .ok journal =>
        (db.ledger.post journal journalId).bind fun (posted, ledger) =>
        match findByJournal db.payouts posted.journalId with
        | some existing =>
            some (.ok existing, { db with ledger := ledger }, [.posted journal posted])
        | none =>
          let row : Payout := ⟨userId, bankAccountId, amount, 0, .reserved, reference,
            posted.journalId, now⟩
          (db.payouts.insert payoutId row).bind fun payouts =>
          some (.ok (payoutId, row), { db with ledger := ledger, payouts := payouts },
            [.accepted payoutId (db.tiers userId), .posted journal posted])
    | _ => none

/-- **What reserving a payout can do.**  Nothing; or its journal is posted or found under the
key, and a row is inserted unless one already names that journal. -/
lemma reservePayout_cases {now : Time} {fresh : List Uuid} {userId : Uuid} {key : String}
    {amount : ℚ} {bank : Uuid} {db db' : PayoutsDb} {r : Except ApiError (Uuid × Payout)}
    {es : Log} (h : reservePayout now fresh userId key amount bank db = some (r, db', es)) :
    (db' = db ∧ es = []) ∨
    (∃ payoutId journalId referenceId journal posted ledger,
      fresh.take 3 = [payoutId, journalId, referenceId] ∧
      (payoutJournal userId key (payoutReference referenceId) amount).build = .ok journal ∧
      db.ledger.affords userId amount = true ∧
      db.ledger.post journal journalId = some (posted, ledger) ∧
      db'.ledger = ledger ∧
      ((∃ existing, findByJournal db.payouts posted.journalId = some existing ∧
          db'.payouts = db.payouts ∧ es = [.posted journal posted]) ∨
        (findByJournal db.payouts posted.journalId = none ∧
          db.payouts.insert payoutId ⟨userId, bank, amount, 0, .reserved,
            payoutReference referenceId, posted.journalId, now⟩ = some db'.payouts ∧
          es = [.accepted payoutId (db.tiers userId), .posted journal posted]))) := by
  unfold reservePayout at h
  split at h
  · cases h
    exact .inl ⟨rfl, rfl⟩
  · rename_i hafford
    split at h
    · rename_i payoutId journalId referenceId rest
      simp only at h
      split at h
      · cases h
      · rename_i journal hj
        obtain ⟨⟨posted, ledger⟩, hpost, h⟩ := Option.bind_eq_some_iff.mp h
        refine .inr ⟨payoutId, journalId, referenceId, journal, posted, ledger, rfl, hj,
          by simpa using hafford, hpost, ?_⟩
        simp only at h
        split at h
        · rename_i existing hex
          cases h
          exact ⟨rfl, .inl ⟨existing, hex, rfl, rfl⟩⟩
        · rename_i hnone
          obtain ⟨payouts, hins, h⟩ := Option.bind_eq_some_iff.mp h
          cases h
          exact ⟨rfl, .inr ⟨hnone, hins, rfl⟩⟩
    · cases h

end Naivolt
