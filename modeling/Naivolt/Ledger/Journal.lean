import Naivolt.Ledger.Account

/-!
# Journals

A journal is an atomic, balanced set of entries under an idempotency key.  `Journal` carries
the conditions `JournalBuilder::build` checks as fields, so an unbalanced journal cannot be
written down; `JournalBuilder.build` decides them in the order the source does.  Its sums are
exact; `buildIn` takes the addition of `Decimal`s as a parameter.

`Ledger` is `ledger_journals` with their entries: append-only, with the unique index on
`idempotency_key` and the primary key as fields.  `Ledger.post` is `Journal::post`: a key
already in use answers `alreadyPosted` with the journal found there and writes nothing,
whatever that journal is.  `post_cases` is the statement every producer's reasoning starts
from.
-/

namespace Naivolt

/-- `JournalKind`. -/
inductive JournalKind where
  | depositCredit | depositReversal | sweep | gasSpend | sell
  | payoutReserve | payoutSettle | payoutReversal | ngnDeposit
  | numberReserve | numberSettle | numberRefund | adjustment
  deriving DecidableEq, Repr

namespace JournalKind

/-- Journals that must not move any liability account. -/
def isCustodyOnly : JournalKind → Bool
  | sweep | gasSpend => true
  | _ => false

/-- The three journals of a number order. -/
def isNumber : JournalKind → Bool
  | numberReserve | numberSettle | numberRefund => true
  | _ => false

/-- The two journals of an on-chain deposit. -/
def isDeposit : JournalKind → Bool
  | depositCredit | depositReversal => true
  | _ => false

end JournalKind

/-- One signed line of a journal. -/
structure Entry where
  account : Account
  amount : ℚ
  deriving DecidableEq, Repr

/-- The asset of an entry is that of its account. -/
def Entry.asset (e : Entry) : Asset := e.account.asset

/-- The total of the entries in one asset. -/
def assetSum (entries : List Entry) (asset : Asset) : ℚ :=
  ((entries.filter (fun e => e.asset = asset)).map Entry.amount).sum

/-- A validated, ready-to-post journal. -/
structure Journal where
  kind : JournalKind
  /-- Business reference: an order, payout, intent or deposit. -/
  reference : String
  idempotencyKey : String
  entries : List Entry
  two : 2 ≤ entries.length
  nonzero : ∀ e ∈ entries, e.amount ≠ 0
  balanced : ∀ e ∈ entries, assetSum entries e.asset = 0
  custody : kind.isCustodyOnly = true → ∀ e ∈ entries, e.account.kind.isLiability = false
  deriving DecidableEq

/-- `LedgerError`, less the database's own. -/
inductive LedgerError where
  | tooFewEntries (n : ℕ)
  | zeroAmount (account : Account)
  | unbalanced (asset : Asset) (residual : ℚ)
  | custodyJournalTouchedLiability (kind : JournalKind) (account : Account)
  deriving DecidableEq

/-- `JournalBuilder`. -/
structure JournalBuilder where
  kind : JournalKind
  reference : String
  idempotencyKey : String
  entries : List Entry

namespace JournalBuilder

/-- `JournalBuilder::build`: validate and finalise. -/
def build (b : JournalBuilder) : Except LedgerError Journal :=
  if htwo : b.entries.length < 2 then .error (.tooFewEntries b.entries.length)
  else match hzero : b.entries.find? (fun e => e.amount = 0) with
    | some e => .error (.zeroAmount e.account)
    | none =>
      match hsum : b.entries.find? (fun e => assetSum b.entries e.asset ≠ 0) with
      | some e => .error (.unbalanced e.asset (assetSum b.entries e.asset))
      | none =>
        match hcust : b.entries.find?
            (fun e => b.kind.isCustodyOnly && e.account.kind.isLiability) with
        | some e => .error (.custodyJournalTouchedLiability b.kind e.account)
        | none => .ok
          { kind := b.kind, reference := b.reference, idempotencyKey := b.idempotencyKey,
            entries := b.entries, two := Nat.le_of_not_lt htwo,
            nonzero := by simpa using hzero
            balanced := by simpa using hsum
            custody := by
              intro hk e he
              have hall := List.find?_eq_none.mp hcust e he
              simpa [hk] using hall }

/-- A journal that builds is the builder's own content. -/
lemma build_eq_ok {b : JournalBuilder} {j : Journal} (h : b.build = .ok j) :
    j.kind = b.kind ∧ j.reference = b.reference ∧ j.idempotencyKey = b.idempotencyKey ∧
      j.entries = b.entries := by
  unfold build at h
  split at h
  · cases h
  · split at h
    · cases h
    · split at h
      · cases h
      · split at h
        · cases h
        · cases h
          exact ⟨rfl, rfl, rfl, rfl⟩

/-- The two-line journal every money path of the backend posts: `amount` moves between two
accounts of one asset. -/
def transfer (kind : JournalKind) (reference idempotencyKey : String) (debit credit : Account)
    (amount : ℚ) : JournalBuilder :=
  ⟨kind, reference, idempotencyKey, [⟨debit, amount⟩, ⟨credit, -amount⟩]⟩

/-- What the entries add to an account. -/
def amountOn (b : JournalBuilder) (a : Account) : ℚ :=
  ((b.entries.filter (fun e => e.account = a)).map Entry.amount).sum

/-- A transfer moves its amount between its two accounts and touches no other. -/
@[simp] lemma amountOn_transfer (kind : JournalKind) (reference key : String)
    (debit credit : Account) (amount : ℚ) (a : Account) :
    (transfer kind reference key debit credit amount).amountOn a =
      (if debit = a then amount else 0) - (if credit = a then amount else 0) := by
  by_cases hd : debit = a <;> by_cases hc : credit = a <;> simp [amountOn, transfer, hd, hc]

end JournalBuilder

namespace Journal

/-- A journal without its proofs. -/
def builder (j : Journal) : JournalBuilder := ⟨j.kind, j.reference, j.idempotencyKey, j.entries⟩

/-- What the journal adds to an account. -/
def amountOn (j : Journal) (a : Account) : ℚ := j.builder.amountOn a

lemma builder_of_build {b : JournalBuilder} {j : Journal} (h : b.build = .ok j) :
    j.builder = b := by
  obtain ⟨hk, hr, hi, he⟩ := JournalBuilder.build_eq_ok h
  simp [builder, hk, hr, hi, he]

end Journal

/-- `PostOutcome`. -/
inductive PostOutcome where
  | posted (id : Uuid)
  | alreadyPosted (id : Uuid)
  deriving DecidableEq

def PostOutcome.journalId : PostOutcome → Uuid
  | posted id | alreadyPosted id => id

/-! ## The ledger -/

/-- A journal under the identifier of its row. -/
structure Posting where
  id : Uuid
  journal : Journal
  deriving DecidableEq

/-- `ledger_journals` and `ledger_entries`, newest first. -/
structure Ledger where
  postings : List Posting
  idsUnique : (postings.map Posting.id).Nodup
  keysUnique : (postings.map (fun p => p.journal.idempotencyKey)).Nodup

namespace Ledger

/-- The ledger before anything was posted. -/
def empty : Ledger := ⟨[], List.nodup_nil, List.nodup_nil⟩

/-- The row the unique index on `idempotency_key` finds. -/
def findKey (l : Ledger) (key : String) : Option Posting :=
  l.postings.find? (fun p => p.journal.idempotencyKey = key)

/-- `SELECT SUM(amount) … WHERE account_id = a`. -/
def balance (l : Ledger) (a : Account) : ℚ :=
  (l.postings.map (fun p => p.journal.amountOn a)).sum

/-- The balance check of every debiting path: the amount is not above the user's available
naira. -/
def affords (l : Ledger) (userId : Uuid) (amount : ℚ) : Bool :=
  amount ≤ AccountKind.userNgn.userFacingBalance (l.balance (.userNgn userId))

/-- `Journal::post` inside a transaction, the new row to be filed under `id`.  `none` is a
primary-key violation. -/
def post (l : Ledger) (j : Journal) (id : Uuid) : Option (PostOutcome × Ledger) :=
  match hkey : l.findKey j.idempotencyKey with
  | some p => some (.alreadyPosted p.id, l)
  | none =>
    if hid : id ∈ l.postings.map Posting.id then none
    else some (.posted id,
      { postings := ⟨id, j⟩ :: l.postings
        idsUnique := by simpa using ⟨by simpa using hid, l.idsUnique⟩
        keysUnique := by
          simp only [findKey, List.find?_eq_none, decide_eq_true_eq] at hkey
          simpa using ⟨hkey, l.keysUnique⟩ })

lemma findKey_eq_some_iff {l : Ledger} {key : String} {p : Posting} :
    l.findKey key = some p ↔ p ∈ l.postings ∧ p.journal.idempotencyKey = key := by
  constructor
  · intro h
    exact ⟨List.mem_of_find?_eq_some h, by simpa using List.find?_some h⟩
  · rintro ⟨hmem, rfl⟩
    rcases hfind : l.findKey p.journal.idempotencyKey with _ | q
    · have := List.find?_eq_none.mp hfind p hmem
      simp at this
    · have hq := List.mem_of_find?_eq_some hfind
      have hkey : q.journal.idempotencyKey = p.journal.idempotencyKey := by
        simpa using List.find?_some hfind
      rw [List.inj_on_of_nodup_map l.keysUnique hq hmem hkey]

/-- **What posting can do.**  Either the key was free and exactly this journal is appended
under a fresh identifier, or some journal holds the key and nothing is written. -/
lemma post_cases {l l' : Ledger} {j : Journal} {id : Uuid} {out : PostOutcome}
    (h : l.post j id = some (out, l')) :
    (out = .posted id ∧ l'.postings = ⟨id, j⟩ :: l.postings ∧
      ∀ p ∈ l.postings, p.journal.idempotencyKey ≠ j.idempotencyKey) ∨
    (∃ p ∈ l.postings, p.journal.idempotencyKey = j.idempotencyKey ∧
      out = .alreadyPosted p.id ∧ l' = l) := by
  unfold post at h
  split at h
  · rename_i p hp
    cases h
    obtain ⟨hmem, hkey⟩ := findKey_eq_some_iff.mp hp
    exact .inr ⟨p, hmem, hkey, rfl, rfl⟩
  · rename_i hnone
    split at h
    · cases h
    · cases h
      exact .inl ⟨rfl, rfl, by simpa [findKey] using hnone⟩

/-- The ledger is append-only. -/
lemma postings_suffix_of_post {l l' : Ledger} {j : Journal} {id : Uuid} {out : PostOutcome}
    (h : l.post j id = some (out, l')) : l.postings <:+ l'.postings := by
  rcases post_cases h with ⟨-, hp, -⟩ | ⟨p, -, -, -, rfl⟩
  · exact hp ▸ List.suffix_cons _ _
  · exact List.suffix_rfl

/-- The outcome names a journal filed under the posted key. -/
lemma mem_of_post {l l' : Ledger} {j : Journal} {id : Uuid} {out : PostOutcome}
    (h : l.post j id = some (out, l')) :
    ∃ p ∈ l'.postings, p.id = out.journalId ∧
      p.journal.idempotencyKey = j.idempotencyKey := by
  rcases post_cases h with ⟨rfl, hp, -⟩ | ⟨p, hmem, hkey, rfl, rfl⟩
  · exact ⟨⟨id, j⟩, by simp [hp], rfl, rfl⟩
  · exact ⟨p, hmem, rfl, hkey⟩

/-- Under a key nobody holds, the journal is posted. -/
lemma post_of_fresh {l l' : Ledger} {j : Journal} {id : Uuid} {out : PostOutcome}
    (h : l.post j id = some (out, l'))
    (hfresh : ∀ p ∈ l.postings, p.journal.idempotencyKey ≠ j.idempotencyKey) :
    out = .posted id ∧ l'.postings = ⟨id, j⟩ :: l.postings := by
  rcases post_cases h with ⟨hout, hp, -⟩ | ⟨p, hp, hkey, -, -⟩
  · exact ⟨hout, hp⟩
  · exact absurd hkey (hfresh p hp)

/-- A posted journal is filed under an identifier that no row had. -/
lemma of_posted {l l' : Ledger} {j : Journal} {id jid : Uuid}
    (h : l.post j id = some (.posted jid, l')) :
    jid = id ∧ l'.postings = ⟨id, j⟩ :: l.postings ∧ ∀ q ∈ l.postings, q.id ≠ id := by
  rcases post_cases h with ⟨hout, hp, -⟩ | ⟨q, -, -, hout, -⟩
  · cases hout
    have hnodup := l'.idsUnique
    rw [hp, List.map_cons, List.nodup_cons] at hnodup
    exact ⟨rfl, hp, fun q hq heq => hnodup.1 (List.mem_map.mpr ⟨q, hq, heq⟩)⟩
  · cases hout

@[simp] lemma balance_empty (a : Account) : empty.balance a = 0 := rfl

/-- The whole ledger balances only if every journal does; one account moves by what the new
journal adds to it. -/
lemma balance_of_post {l l' : Ledger} {j : Journal} {id : Uuid}
    (h : l.post j id = some (.posted id, l')) (a : Account) :
    l'.balance a = j.amountOn a + l.balance a := by
  rcases post_cases h with ⟨-, hp, -⟩ | ⟨p, -, -, hout, -⟩
  · simp [balance, hp]
  · cases hout

end Ledger

end Naivolt
