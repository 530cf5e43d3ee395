import Naivolt.Trace

/-!
# Deposits

`deposit.rs` and `store.rs` of the watcher: classifying a transfer, the two journals of a
deposit, and the statements that record, credit, reverse and follow a row of `deposits`.

A row is found by `(chain, tx_hash, output_index)`, where `chain` is the family; the journals
are keyed by `network`, and `credit_deposit` posts in the asset of the transfer it was called
with, not in that of the row.
-/

namespace Naivolt

open Foundation

/-! ## Transfers -/

/-- `ObservedTransfer`. -/
structure ObservedTransfer where
  network : Network
  txHash : String
  outputIndex : ℤ
  toAddress : String
  asset : Asset
  amount : ℚ
  blockNumber : ℤ
  blockHash : String
  deriving DecidableEq

/-- `DepositAction`. -/
inductive DepositAction where
  | record (confirmations : ℤ)
  | credit (confirmations : ℤ)
  | ignoreDust (minimum : ℚ)
  deriving DecidableEq

/-- `minimum_deposit`. -/
def minimumDeposit : Asset → ℚ
  | .usdt | .usdc => 1
  | .btc => 1 / 10000
  | .eth => 5 / 1000
  | .bnb => 1 / 100
  | .sol => 5 / 100
  | .trx => 50
  | .matic => 5
  | .ngn => 0

/-- Confirmations, inclusive of the block the transfer is in. -/
def confirmationsAt (head block : ℤ) : ℤ := max (head - block + 1) 0

/-- `classify`. -/
def classify (t : ObservedTransfer) (head : ℤ) : DepositAction :=
  if t.amount < minimumDeposit t.asset then .ignoreDust (minimumDeposit t.asset)
  else if t.network.minConfirmations ≤ confirmationsAt head t.blockNumber then
    .credit (confirmationsAt head t.blockNumber)
  else .record (confirmationsAt head t.blockNumber)

/-! ## Rows -/

/-- `deposits.status`. -/
inductive DepositStatus where
  | seen | confirming | confirmed | reversed | ignored
  deriving DecidableEq, Repr

/-- A row of `deposits`. -/
structure Deposit where
  userId : Uuid
  walletId : Uuid
  chain : Chain
  network : Network
  asset : Asset
  txHash : String
  outputIndex : ℤ
  amount : ℚ
  blockNumber : ℤ
  blockHash : Option String
  confirmations : ℤ
  status : DepositStatus
  creditedJournalId : Option Uuid
  reversedJournalId : Option Uuid
  deriving DecidableEq

/-- The columns of `UNIQUE (chain, tx_hash, output_index)`. -/
def Deposit.naturalKey (d : Deposit) : Chain × String × ℤ := (d.chain, d.txHash, d.outputIndex)

/-- The conflict target a transfer hits. -/
def ObservedTransfer.naturalKey (t : ObservedTransfer) : Chain × String × ℤ :=
  (t.network.chain, t.txHash, t.outputIndex)

/-- The constraints on `deposits`. -/
def DepositConstraints (t : Table Uuid Deposit) : Prop :=
  (∀ r ∈ t.rows, 0 < r.2.amount ∧ (r.2.status = .confirmed → r.2.creditedJournalId ≠ none) ∧
    (r.2.status = .reversed → r.2.reversedJournalId ≠ none)) ∧
  ∀ r ∈ t.rows, ∀ r' ∈ t.rows, r.2.naturalKey = r'.2.naturalKey → r.1 = r'.1

instance (t : Table Uuid Deposit) : Decidable (DepositConstraints t) := by
  unfold DepositConstraints
  infer_instance

/-- `deposits`. -/
structure DepositTable where
  table : Table Uuid Deposit
  valid : DepositConstraints table

namespace DepositTable

def empty : DepositTable := ⟨Table.empty, by simp [DepositConstraints, Table.empty]⟩

def get? (t : DepositTable) (id : Uuid) : Option Deposit := t.table.get? id

/-- Check the constraints at the end of a statement. -/
def commit (t : Table Uuid Deposit) : Option DepositTable :=
  if h : DepositConstraints t then some ⟨t, h⟩ else none

/-- `UPDATE deposits SET … WHERE id = $1`. -/
def update (t : DepositTable) (id : Uuid) (f : Deposit → Deposit) : Option DepositTable :=
  commit (t.table.modify id f)

/-- `INSERT INTO deposits`. -/
def insert (t : DepositTable) (id : Uuid) (d : Deposit) : Option DepositTable :=
  (t.table.insert id d).bind commit

/-- The row the unique index finds. -/
def find (t : DepositTable) (key : Chain × String × ℤ) : Option (Uuid × Deposit) :=
  t.table.rows.find? (fun r => r.2.naturalKey = key)

lemma commit_eq_some {t : Table Uuid Deposit} {t' : DepositTable} (h : commit t = some t') :
    t'.table = t := by
  unfold commit at h
  split at h
  · cases h
    rfl
  · cases h

lemma get?_update {t t' : DepositTable} {id : Uuid} {f : Deposit → Deposit}
    (h : t.update id f = some t') (i : Uuid) :
    t'.get? i = if i = id then (t.get? i).map f else t.get? i := by
  simp only [get?, commit_eq_some h, Table.get?_modify]

lemma get?_insert {t t' : DepositTable} {id : Uuid} {d : Deposit}
    (h : t.insert id d = some t') (i : Uuid) :
    t'.get? i = if i = id then some d else t.get? i := by
  simp only [insert, Option.bind_eq_some_iff] at h
  obtain ⟨u, hu, hc⟩ := h
  simp only [get?, commit_eq_some hc]
  exact Table.get?_insert hu i

lemma get?_of_insert {t t' : DepositTable} {id : Uuid} {d : Deposit}
    (h : t.insert id d = some t') : t.get? id = none := by
  simp only [insert, Option.bind_eq_some_iff] at h
  obtain ⟨u, hu, -⟩ := h
  exact (Table.insert_eq_some hu).1

lemma find_eq_some {t : DepositTable} {key : Chain × String × ℤ} {r : Uuid × Deposit}
    (h : t.find key = some r) : t.get? r.1 = some r.2 ∧ r.2.naturalKey = key :=
  ⟨Table.get?_eq_some_iff.mpr (List.mem_of_find?_eq_some h), by simpa using List.find?_some h⟩

lemma eq_of_naturalKey (t : DepositTable) {i i' : Uuid} {d d' : Deposit}
    (h : t.get? i = some d) (h' : t.get? i' = some d') (hk : d.naturalKey = d'.naturalKey) :
    i = i' :=
  t.valid.2 (i, d) (Table.get?_eq_some_iff.mp h) (i', d') (Table.get?_eq_some_iff.mp h') hk

end DepositTable

/-- A row of `wallets`. -/
structure Wallet where
  id : Uuid
  userId : Uuid
  chain : Chain
  address : String
  deriving DecidableEq

/-- The tables the watcher reads and writes. -/
structure WatcherDb where
  ledger : Ledger
  deposits : DepositTable
  wallets : List Wallet

/-! ## Journals of a deposit -/

/-- `credit_journal`. -/
def creditJournal (depositId : Uuid) (userId : Uuid) (asset : Asset) (amount : ℚ)
    (t : ObservedTransfer) : JournalBuilder :=
  .transfer .depositCredit depositId.hyphenated
    (depositKey "deposit" t.network t.txHash t.outputIndex)
    (.custody asset) (.userCrypto userId asset) amount

/-- `reversal_journal`: exactly the credit journal with the signs flipped. -/
def reversalJournal (depositId : Uuid) (userId : Uuid) (asset : Asset) (amount : ℚ)
    (t : ObservedTransfer) : JournalBuilder :=
  .transfer .depositReversal depositId.hyphenated
    (depositKey "reversal" t.network t.txHash t.outputIndex)
    (.custody asset) (.userCrypto userId asset) (-amount)

/-! ## Statements -/

/-- `wallet_for`. -/
def walletFor (network : Network) (address : String) (db : WatcherDb) : Option (Uuid × Uuid) :=
  (db.wallets.find? (fun w => w.chain = network.chain &&
    eqIgnoreAsciiCase w.address address)).map (fun w => (w.id, w.userId))

/-- The row a first observation inserts. -/
def observedRow (t : ObservedTransfer) (userId walletId : Uuid) (confirmations : ℤ)
    (status : DepositStatus) : Deposit :=
  { userId := userId, walletId := walletId, chain := t.network.chain, network := t.network,
    asset := t.asset, txHash := t.txHash, outputIndex := t.outputIndex, amount := t.amount,
    blockNumber := t.blockNumber, blockHash := some t.blockHash, confirmations := confirmations,
    status := status, creditedJournalId := none, reversedJournalId := none }

/-- `upsert_deposit`: on conflict only the confirmations are refreshed. -/
def upsertDeposit (fresh : List Uuid) (t : ObservedTransfer) (userId walletId : Uuid)
    (confirmations : ℤ) (status : DepositStatus) (db : WatcherDb) :
    Option ((Uuid × DepositStatus) × WatcherDb) :=
  match db.deposits.find t.naturalKey with
  | some (id, row) =>
      (db.deposits.update id (fun d => { d with confirmations := confirmations })).map
        fun deposits => ((id, row.status), { db with deposits := deposits })
  | none =>
    match fresh with
    | id :: _ =>
        (db.deposits.insert id (observedRow t userId walletId confirmations status)).map
          fun deposits => ((id, status), { db with deposits := deposits })
    | [] => none

/-- The row after the credit. -/
def depositConfirmed (journalId : Uuid) (d : Deposit) : Deposit :=
  { d with status := .confirmed, creditedJournalId := some journalId }

/-- The row after the reversal. -/
def depositReversed (journalId : Uuid) (d : Deposit) : Deposit :=
  { d with status := .reversed, reversedJournalId := some journalId }

/-- Post a deposit's journal and move its row, in one transaction. -/
def postDeposit (fresh : List Uuid) (id : Uuid) (builder : JournalBuilder)
    (move : Uuid → Deposit → Deposit) (db : WatcherDb) : Option (Bool × WatcherDb × Log) :=
  match fresh, builder.build with
  | journalId :: _, .ok journal =>
    (db.ledger.post journal journalId).bind fun (posted, ledger) =>
    (db.deposits.update id (move posted.journalId)).bind fun deposits =>
    some (true, { db with ledger := ledger, deposits := deposits }, [.posted journal posted])
  | _, _ => none

/-- `credit_deposit`. -/
def creditDeposit (fresh : List Uuid) (id : Uuid) (t : ObservedTransfer) (db : WatcherDb) :
    Option (Bool × WatcherDb × Log) :=
  match db.deposits.get? id with
  | none => some (false, db, [])
  | some row =>
    if row.status = .confirmed || row.status = .reversed then some (false, db, [])
    else postDeposit fresh id (creditJournal id row.userId t.asset row.amount t)
      depositConfirmed db

/-- `reverse_deposit`. -/
def reverseDeposit (fresh : List Uuid) (id : Uuid) (t : ObservedTransfer) (db : WatcherDb) :
    Option (Bool × WatcherDb × Log) :=
  match db.deposits.get? id with
  | none => some (false, db, [])
  | some row =>
    if row.status ≠ .confirmed then some (false, db, [])
    else postDeposit fresh id (reversalJournal id row.userId t.asset row.amount t)
      depositReversed db

/-- `pending_deposits`. -/
def pendingDeposits (network : Network) (db : WatcherDb) : List (Uuid × Deposit) :=
  (db.deposits.table.rows.filter (fun r => r.2.network = network &&
    (r.2.status = .seen || r.2.status = .confirming))).mergeSort
      (fun r r' => r.2.blockNumber ≤ r'.2.blockNumber)

/-- `reorg_window`. -/
def reorgWindow (network : Network) (fromBlock : ℤ) (db : WatcherDb) : List (Uuid × Deposit) :=
  db.deposits.table.rows.filter (fun r => r.2.network = network && r.2.status = .confirmed &&
    fromBlock ≤ r.2.blockNumber)

/-- `relocate_deposit`. -/
def relocateDeposit (id : Uuid) (blockNumber : ℤ) (blockHash : String) (db : WatcherDb) :
    Option WatcherDb :=
  (db.deposits.update id
    (fun d => { d with blockNumber := blockNumber, blockHash := some blockHash })).map
      fun deposits => { db with deposits := deposits }

/-- `set_confirmations`. -/
def setConfirmations (id : Uuid) (confirmations : ℤ) (db : WatcherDb) : Option WatcherDb :=
  (db.deposits.update id (fun d =>
    if d.status = .seen then { d with confirmations := confirmations, status := .confirming }
    else d)).map fun deposits => { db with deposits := deposits }

/-- The transfer `advance_pending` and `check_reorgs` rebuild from a row. -/
def transferOfRow (network : Network) (d : Deposit) : ObservedTransfer :=
  { network := network, txHash := d.txHash, outputIndex := d.outputIndex, toAddress := "",
    asset := d.asset, amount := d.amount, blockNumber := d.blockNumber,
    blockHash := d.blockHash.getD "" }

/-- **What posting for a deposit can do.** -/
lemma postDeposit_cases {fresh : List Uuid} {id : Uuid} {builder : JournalBuilder}
    {move : Uuid → Deposit → Deposit} {db db' : WatcherDb} {r : Bool} {es : Log}
    (h : postDeposit fresh id builder move db = some (r, db', es)) :
    ∃ journalId journal posted,
      fresh.head? = some journalId ∧ builder.build = .ok journal ∧ r = true ∧
      db.ledger.post journal journalId = some (posted, db'.ledger) ∧
      db.deposits.update id (move posted.journalId) = some db'.deposits ∧
      db'.wallets = db.wallets ∧ es = [.posted journal posted] := by
  unfold postDeposit at h
  split at h
  · rename_i journalId rest journal hj
    obtain ⟨⟨posted, ledger⟩, hpost, h⟩ := Option.bind_eq_some_iff.mp h
    obtain ⟨deposits, hd, h⟩ := Option.bind_eq_some_iff.mp h
    cases h
    exact ⟨journalId, journal, posted, rfl, hj, rfl, hpost, hd, rfl, rfl⟩
  · cases h

end Naivolt
