import Naivolt.Foundation.ReadCommitted
import Naivolt.Funding.Intent
import Naivolt.Numbers.Reserve
import Naivolt.Payouts.Payout
import Naivolt.Watcher.Deposit

/-!
# The ledger, statement by statement

Elsewhere a transaction that posts a journal is one step, and accounts are named by the columns of
their unique index.  Here they are what the database has: `ledger_accounts`, `ledger_journals` and
`ledger_entries` with the identifiers of their rows, and the transactions that post as the
statements they send at READ COMMITTED — the account looked up or created, locked or not, the
balance summed, the journal and its entries inserted.

Three routines find or create an account.  `lock_user_ngn_account` locks the row it finds and
survives losing the race to create it, and so does the watcher's `account_id`, which takes no lock;
`platform_account` inserts without `ON CONFLICT`.

Foreign keys take locks too: an entry holds its account with `FOR KEY SHARE`.  They only make
statements wait that need not wait here.
-/

namespace Naivolt

open Foundation Database

/-! ## Tables -/

/-- A row of `ledger_journals`. -/
structure JournalRow where
  kind : JournalKind
  reference : String
  idempotencyKey : String
  deriving DecidableEq

/-- A row of `ledger_entries`. -/
structure EntryRow where
  journalId : Uuid
  accountId : Uuid
  asset : Asset
  amount : ℚ
  deriving DecidableEq

/-- The three tables of the ledger. -/
structure LedgerDb where
  accounts : Table Uuid Account
  journals : Table Uuid JournalRow
  entries : List EntryRow

def LedgerDb.empty : LedgerDb := ⟨.empty, .empty, []⟩

/-- The row of an account: `SELECT id … WHERE kind = $1 AND asset = $2 AND user_id = $3`. -/
def LedgerDb.accountId (d : LedgerDb) (a : Account) : Option Uuid :=
  (d.accounts.rows.find? fun r => r.2 = a).map Prod.fst

/-- The row under an idempotency key. -/
def LedgerDb.journalId (d : LedgerDb) (key : String) : Option Uuid :=
  (d.journals.rows.find? fun r => r.2.idempotencyKey = key).map Prod.fst

/-- `SELECT COALESCE(SUM(amount), 0) FROM ledger_entries WHERE account_id = $1`. -/
def LedgerDb.sum (d : LedgerDb) (accountId : Uuid) : ℚ :=
  ((d.entries.filter fun e => e.accountId = accountId).map EntryRow.amount).sum

inductive LedgerWrite where
  | account (id : Uuid) (a : Account)
  | journal (id : Uuid) (row : JournalRow)
  | entry (e : EntryRow)
  deriving DecidableEq

def LedgerWrite.apply (d : LedgerDb) : LedgerWrite → Option LedgerDb
  | .account id a => (d.accounts.insert id a).map fun t => { d with accounts := t }
  | .journal id row => (d.journals.insert id row).map fun t => { d with journals := t }
  | .entry e => some { d with entries := e :: d.entries }

/-- A row, or a key of a unique index. -/
inductive LedgerLock where
  | account (id : Uuid)
  | accountKey (a : Account)
  | journal (id : Uuid)
  | journalKey (key : String)
  deriving DecidableEq

/-! ## Statements -/

/-- One statement.  The last five are on other tables, or no statement at all. -/
inductive LedgerOp where
  | selectAccount (a : Account) (forUpdate : Bool)
  | insertAccount (a : Account) (doNothing : Bool)
  | sumEntries (accountId : Uuid)
  | insertJournal (row : JournalRow)
  | selectJournal (key : String)
  | insertEntry (e : EntryRow)
  /-- `Uuid::new_v4`, for a reference. -/
  | newReference
  /-- The user's order under the key: none, or whether it was placed by the same request. -/
  | findOrder
  /-- The catalogue: the price asked, or why there is none. -/
  | quoteOrder
  /-- Whether `number_orders.idempotency_key` is `NOT NULL` yet. -/
  | orderKeysRequired
  /-- The guards on the order or deposit whose row the transaction locks. -/
  | lockRow
  /-- The insert or update of the row that names the journal. -/
  | writeRow

/-- What a statement answers.  An error of an insert is the unique index. -/
abbrev LedgerOp.Res : LedgerOp → Type
  | .selectAccount .. | .selectJournal _ | .insertJournal _ => Option Uuid
  | .insertAccount .. => Except Unit (Option Uuid)
  | .sumEntries _ => ℚ
  | .insertEntry _ => Unit
  | .newReference => Uuid
  | .findOrder => Option Bool
  | .quoteOrder => Except ApiError ℚ
  | .orderKeysRequired | .lockRow | .writeRow => Bool

/-- What the program does not decide. -/
structure LedgerOracle where
  fresh : Uuid := 0
  order : Option Bool := none
  price : Except ApiError ℚ := .error .notFound
  keysRequired : Bool := true
  row : Bool := true

def execLedger (ω : LedgerOracle) (seen current : LedgerDb) :
    (op : LedgerOp) → Option (op.Res × List LedgerWrite × List LedgerLock)
  | .selectAccount a forUpdate =>
      let found := seen.accountId a
      some (found, [], if forUpdate then found.toList.map .account else [])
  | .insertAccount a doNothing =>
      if (current.accountId a).isSome then
        some (if doNothing then .ok none else .error (), [], [])
      else if (current.accounts.get? ω.fresh).isSome then none
      else some (.ok (some ω.fresh), [.account ω.fresh a], [.account ω.fresh, .accountKey a])
  | .sumEntries accountId => some (seen.sum accountId, [], [])
  | .insertJournal row =>
      if (current.journalId row.idempotencyKey).isSome then some (none, [], [])
      else if (current.journals.get? ω.fresh).isSome then none
      else some (some ω.fresh, [.journal ω.fresh row],
        [.journal ω.fresh, .journalKey row.idempotencyKey])
  | .selectJournal key => some (seen.journalId key, [], [])
  | .insertEntry e => some ((), [.entry e], [])
  | .newReference => some (ω.fresh, [], [])
  | .findOrder => some (ω.order, [], [])
  | .quoteOrder => some (ω.price, [], [])
  | .orderKeysRequired => some (ω.keysRequired, [], [])
  | .lockRow | .writeRow => some (ω.row, [], [])

/-! ## Routines -/

/-- Errors of the database, and of `JournalBuilder::build`. -/
inductive LedgerFailure where
  /-- `fetch_one` found no row. -/
  | rowNotFound
  /-- The unique index on accounts refused an insert. -/
  | accountExists (a : Account)
  | journal (e : LedgerError)
  /-- The row that names the journal could not be written. -/
  | row
  deriving DecidableEq

/-- How a transaction ends. -/
inductive LedgerAnswer where
  | posted (b : JournalBuilder) (outcome : PostOutcome)
  /-- There was nothing to post. -/
  | nothing
  | refused (e : ApiError)
  | failed (e : LedgerFailure)

def LedgerAnswer.commits : LedgerAnswer → Bool
  | .posted .. | .nothing => true
  | .refused _ | .failed _ => false

/-- A transaction, or what is left of it. -/
abbrev LedgerTxn := Prog LedgerOp LedgerOp.Res LedgerAnswer

/-- `lock_user_ngn_account`, and what follows. -/
def lockUserNgnAccount (userId : Uuid) (k : Uuid → LedgerTxn) : LedgerTxn :=
  .call (.selectAccount (.userNgn userId) true) fun found =>
    match found with
    | some id => k id
    | none => .call (.insertAccount (.userNgn userId) true) fun inserted =>
      match inserted with
      | .error _ => .ret (.failed (.accountExists (.userNgn userId)))
      | .ok (some id) => k id
      | .ok none => .call (.selectAccount (.userNgn userId) true) fun again =>
        match again with
        | some id => k id
        | none => .ret (.failed .rowNotFound)

/-- `platform_account`, and what follows. -/
def platformAccount (kind : AccountKind) (k : Uuid → LedgerTxn) : LedgerTxn :=
  .call (.selectAccount (.platform kind) false) fun found =>
    match found with
    | some id => k id
    | none => .call (.insertAccount (.platform kind) false) fun inserted =>
      match inserted with
      | .ok (some id) => k id
      | .ok none => .ret (.failed .rowNotFound)
      | .error _ => .ret (.failed (.accountExists (.platform kind)))

/-- The watcher's `account_id`, and what follows. -/
def findOrCreateAccount (a : Account) (k : Uuid → LedgerTxn) : LedgerTxn :=
  .call (.selectAccount a false) fun found =>
    match found with
    | some id => k id
    | none => .call (.insertAccount a true) fun inserted =>
      match inserted with
      | .error _ => .ret (.failed (.accountExists a))
      | .ok (some id) => k id
      | .ok none => .call (.selectAccount a false) fun again =>
        match again with
        | some id => k id
        | none => .ret (.failed .rowNotFound)

/-- The loop of `post` over the entries. -/
def insertEntries (journalId : Uuid) : List (Uuid × Entry) → LedgerTxn → LedgerTxn
  | [], k => k
  | line :: lines, k =>
      .call (.insertEntry ⟨journalId, line.1, line.2.asset, line.2.amount⟩) fun _ =>
        insertEntries journalId lines k

/-- `build` and `Journal::post`, and what follows.  `ids` are the accounts of the entries. -/
def postJournal (b : JournalBuilder) (ids : List Uuid) (k : PostOutcome → LedgerTxn) : LedgerTxn :=
  match b.build with
  | .error e => .ret (.failed (.journal e))
  | .ok j => .call (.insertJournal ⟨j.kind, j.reference, j.idempotencyKey⟩) fun inserted =>
    match inserted with
    | some id => insertEntries id (ids.zip j.entries) (k (.posted id))
    | none => .call (.selectJournal j.idempotencyKey) fun found =>
      match found with
      | some id => k (.alreadyPosted id)
      | none => .ret (.failed .rowNotFound)

/-- The row that names the journal is written, and the transaction is through. -/
def nameJournal (b : JournalBuilder) (outcome : PostOutcome) : LedgerTxn :=
  .call .writeRow fun written =>
    if written then .ret (.posted b outcome) else .ret (.failed .row)

/-- `post`, and the row that names the journal. -/
def postAndName (b : JournalBuilder) (ids : List Uuid) : LedgerTxn :=
  postJournal b ids (nameJournal b)

/-! ## Transactions -/

/-- The transaction of `create_payout`.  `amount` has passed `checkAmount`. -/
def payoutTxn (userId : Uuid) (key : String) (amount : ℚ) : LedgerTxn :=
  lockUserNgnAccount userId fun account =>
    .call (.sumEntries account) fun rawBalance =>
      if AccountKind.userNgn.userFacingBalance rawBalance < amount then
        .ret (.refused .insufficientBalance)
      else platformAccount .ngnPayablePending fun pending =>
        .call .newReference fun referenceId =>
          postAndName (payoutJournal userId key (payoutReference referenceId) amount)
            [account, pending]

/-- The reservation's journal, under the key that this schema asks for. -/
def reservationJournal (keysRequired : Bool) (userId key referenceId : Uuid) (price : ℚ) :
    JournalBuilder :=
  let b := reserveJournal userId key (orderReference referenceId) price
  if keysRequired then b else { b with idempotencyKey := key.hyphenated }

/-- The transaction of `create_order`. -/
def orderTxn (userId key : Uuid) : LedgerTxn :=
  lockUserNgnAccount userId fun account =>
    .call .findOrder fun existing =>
      match existing with
      | some true => .ret .nothing
      | some false => .ret (.refused (.conflict
          "That Idempotency-Key belongs to a different number purchase."))
      | none => .call .quoteOrder fun quoted =>
        match quoted with
        | .error e => .ret (.refused e)
        | .ok price => .call (.sumEntries account) fun rawBalance =>
          if AccountKind.userNgn.userFacingBalance rawBalance < price then
            .ret (.refused .insufficientBalance)
          else platformAccount .numberPayablePending fun pending =>
            .call .newReference fun referenceId =>
              .call .orderKeysRequired fun keysRequired =>
                postAndName (reservationJournal keysRequired userId key referenceId price)
                  [account, pending]

/-- A transaction that goes on only if the row it locks lets it. -/
def underLock (k : LedgerTxn) : LedgerTxn :=
  .call .lockRow fun goesOn => if goesOn then k else .ret .nothing

/-- A price as its column admits it: `CHECK (price_ngn > 0)`. -/
abbrev StoredPrice := {price : ℚ // 0 < price}

/-- `settle_open`, and the delivery of `transition`. -/
def settleTxn (reference : String) (price : StoredPrice) : LedgerTxn :=
  underLock <| platformAccount .numberPayablePending fun pending =>
    platformAccount .numberRevenue fun revenue =>
      postAndName (settleJournal reference price) [pending, revenue]

/-- `refund_open`, and the refund of `transition`. -/
def refundTxn (userId : Uuid) (reference : String) (price : StoredPrice) : LedgerTxn :=
  underLock <| lockUserNgnAccount userId fun account =>
    platformAccount .numberPayablePending fun pending =>
      postAndName (refundJournal userId reference price) [pending, account]

/-- `credit_deposit` of `funding_routes.rs`.  The provider says in kobo what it took. -/
def fundingTxn (userId : Uuid) (reference : String) (kobo : ℕ) : LedgerTxn :=
  lockUserNgnAccount userId fun account =>
    platformAccount .ngnFloat fun float =>
      postAndName (creditJournalNgn userId reference (kobo / 100)) [float, account]

/-- `credit_deposit` of the watcher; the asset is that of the transfer, the amount that of the
row. -/
def creditTxn (depositId userId : Uuid) (amount : ℚ) (t : ObservedTransfer) : LedgerTxn :=
  underLock <| findOrCreateAccount (.custody t.asset) fun custody =>
    findOrCreateAccount (.userCrypto userId t.asset) fun account =>
      postAndName (creditJournal depositId userId t.asset amount t) [custody, account]

/-- `reverse_deposit`. -/
def reverseTxn (depositId userId : Uuid) (amount : ℚ) (t : ObservedTransfer) : LedgerTxn :=
  underLock <| findOrCreateAccount (.custody t.asset) fun custody =>
    findOrCreateAccount (.userCrypto userId t.asset) fun account =>
      postAndName (reversalJournal depositId userId t.asset amount t) [custody, account]

inductive LedgerRequest where
  | payout (userId : Uuid) (key : String) (amount : ℚ)
  | order (userId key : Uuid)
  | settle (reference : String) (price : StoredPrice)
  | refund (userId : Uuid) (reference : String) (price : StoredPrice)
  | funding (userId : Uuid) (reference : String) (kobo : ℕ)
  | credit (depositId userId : Uuid) (amount : ℚ) (t : ObservedTransfer)
  | reverse (depositId userId : Uuid) (amount : ℚ) (t : ObservedTransfer)

def LedgerRequest.program : LedgerRequest → LedgerTxn
  | .payout userId key amount => payoutTxn userId key amount
  | .order userId key => orderTxn userId key
  | .settle reference price => settleTxn reference price
  | .refund userId reference price => refundTxn userId reference price
  | .funding userId reference kobo => fundingTxn userId reference kobo
  | .credit depositId userId amount t => creditTxn depositId userId amount t
  | .reverse depositId userId amount t => reverseTxn depositId userId amount t

/-- The ledger's database and the transactions of the API and the watcher that post to it. -/
def ledgerDatabase : Database LedgerOp LedgerOp.Res LedgerOracle LedgerDb LedgerWrite LedgerLock
    LedgerRequest LedgerAnswer where
  exec op ω seen current := execLedger ω seen current op
  apply w d := w.apply d
  program := LedgerRequest.program
  commits := LedgerAnswer.commits

/-- A state of the ledger with its transactions in progress. -/
abbrev LedgerStore := Store LedgerOp LedgerOp.Res LedgerDb LedgerWrite LedgerLock LedgerAnswer

end Naivolt
