import Naivolt.Foundation.Supervised
import Naivolt.System.Guarantee

/-!
# The EVM watcher

`watch_evm` of `main.rs` with the log window and the adapter of `evm.rs`, as a supervised loop.
One pass reads the head, asks for the logs of a range of blocks, records what came back, moves
pending deposits on, checks credited ones against the chain and saves the cursor.  The handlers
it calls are those of `Naivolt.System.Handlers`, run on the same database.

What a node answers comes from the schedule, and so do its failures; an error propagated with
`?` ends the worker like a crash.  Next to the database the world holds the canonical chain, for
the properties that speak of it, and the trace of what the watcher did.

Topics, hexadecimal numbers and amounts are decoded before a log reaches the model.  Heights are
unbounded integers.
-/

namespace Naivolt

open Foundation

/-! ## Scan parameters -/

/-- Blocks re-queried on every pass, on top of the new ones. -/
def Network.scanOverlap : Network → ℤ
  | .ethereum => 3
  | .bsc | .polygon | .base => 10
  | .tron | .bitcoin | .solana => 0

lemma Network.one_le_scanOverlap {net : Network} (hevm : net.chain = .evm) :
    1 ≤ net.scanOverlap := by
  cases net <;> first | decide | exact absurd hevm (by decide)

lemma Network.rescanDepth_nonneg (net : Network) : 0 ≤ net.rescanDepth := by
  cases net <;> decide

def maxLogWindow : ℤ := 2000

def maxTransientFailures : ℕ := 5

/-- `LogWindow`: how many blocks to ask for logs over. -/
structure LogWindow where
  size : ℤ
  max : ℤ
  one_le : 1 ≤ size
  le_max : size ≤ max

/-- `LogWindow::new`. -/
def LogWindow.new (max : ℤ) : LogWindow := ⟨max ⊔ 1, max ⊔ 1, le_sup_right, le_rfl⟩

/-- Halve after a refusal.  None once a single block is refused too. -/
def LogWindow.shrink (w : LogWindow) : Option LogWindow :=
  if w.size ≤ 1 then none
  else some ⟨w.size / 2 ⊔ 1, w.max, le_sup_right,
    sup_le (by have := w.one_le; have := w.le_max; omega) (w.one_le.trans w.le_max)⟩

/-- Creep back up after a success. -/
def LogWindow.grow (w : LogWindow) : LogWindow :=
  ⟨(w.size + (w.size / 4 ⊔ 1)) ⊓ w.max, w.max,
    le_inf (by have := w.one_le; omega) (w.one_le.trans w.le_max), inf_le_right⟩

/-- A range of blocks asked for, with the cursor and the head it was chosen for. -/
structure ScanRange where
  cursor : ℤ
  head : ℤ
  fromBlock : ℤ
  toBlock : ℤ
  deriving DecidableEq

/-- The range of one pass: up to a window past the cursor but not past the head, overlapping the
previous pass. -/
def scanRange (net : Network) (cursor head : ℤ) (window : LogWindow) : ScanRange where
  cursor := cursor
  head := head
  fromBlock := (cursor + 1 - net.scanOverlap) ⊔ 0
  toBlock := (cursor + window.size) ⊓ head

/-- Where the loop starts: behind the saved cursor, or behind the head. -/
def resumeAt (net : Network) (head : ℤ) : Option (ℤ × Option String) → ℤ
  | some (last, _) => (last - net.rescanDepth) ⊔ 0
  | none => head - net.rescanDepth

/-! ## The chain -/

/-- A transfer of a credited token, as the adapter reads its log. -/
structure TokenTransfer where
  toAddress : String
  asset : Asset
  amount : ℚ
  deriving DecidableEq

/-- A transaction as a block has it: with the transfers its execution made, or none if the
execution failed. -/
structure BlockTx where
  hash : String
  transfers : Option (List TokenTransfer)
  deriving DecidableEq

structure Block where
  number : ℤ
  hash : String
  txs : List BlockTx
  deriving DecidableEq

/-- A chain has one block at a height, a transaction in one block, and hashes for names. -/
structure ChainOk (chain : List Block) : Prop where
  named : ∀ b ∈ chain, b.hash ≠ ""
  heights : chain.Pairwise fun b b' => b.number ≠ b'.number
  once : ∀ b ∈ chain, ∀ b' ∈ chain, ∀ tx ∈ b.txs, ∀ tx' ∈ b'.txs,
    tx.hash = tx'.hash → b = b' ∧ tx = tx'

/-- A hash names one block, in whatever case it is written. -/
def HashesName (blocks : List Block) : Prop :=
  ∀ b ∈ blocks, ∀ b' ∈ blocks, eqIgnoreAsciiCase b.hash b'.hash = true → b = b'

instance (chain : List Block) : Decidable (ChainOk chain) :=
  decidable_of_iff ((∀ b ∈ chain, b.hash ≠ "") ∧
      chain.Pairwise (fun b b' => b.number ≠ b'.number) ∧
      ∀ b ∈ chain, ∀ b' ∈ chain, ∀ tx ∈ b.txs, ∀ tx' ∈ b'.txs,
        tx.hash = tx'.hash → b = b' ∧ tx = tx')
    ⟨fun h => ⟨h.1, h.2.1, h.2.2⟩, fun h => ⟨h.1, h.2, h.3⟩⟩

instance (blocks : List Block) : Decidable (HashesName blocks) := by
  unfold HashesName
  infer_instance

/-- The block of the chain a transaction is in. -/
def inclusion (chain : List Block) (txHash : String) : Option Block :=
  chain.find? fun b => b.txs.any fun tx => tx.hash = txHash

/-! ## The adapter -/

/-- A log as a node returns it, decoded: the contract, the recipient named by its third topic,
and what its data amounts to at a number of decimals. -/
structure RpcLog where
  address : String
  recipient : Option String
  amount : ℕ → Option ℚ
  blockNumber : ℤ
  blockHash : String
  txHash : String
  logIndex : ℤ

/-- What a node replies to `eth_getLogs`. -/
inductive LogsReply where
  | logs (logs : List RpcLog)
  | refused
  | failed

/-- What `token_transfers` answers. -/
inductive ScanAnswer where
  | ok (transfers : List ObservedTransfer)
  | refused
  | failed
  deriving DecidableEq

/-- `to_ascii_lowercase`. -/
def toAsciiLowercase (s : String) : String := String.ofList (lowerAscii s)

/-- The contracts credited on a network, by lower-case address, with asset and decimals. -/
abbrev TokenContracts := List (String × Asset × ℕ)

/-- The transfer a log stands for, if its contract is credited and its recipient watched. -/
def observedLog (net : Network) (watched : List String) (contracts : TokenContracts)
    (log : RpcLog) : Option ObservedTransfer := do
  let contract ← contracts.find? fun c => c.1 = toAsciiLowercase log.address
  let recipient ← log.recipient
  if recipient ∈ watched then
    let amount ← log.amount contract.2.2
    some
      { network := net, txHash := log.txHash, outputIndex := log.logIndex, toAddress := recipient,
        asset := contract.2.1, amount := amount, blockNumber := log.blockNumber,
        blockHash := log.blockHash }
  else none

/-- `token_transfers`: with nothing to look for, nothing is asked. -/
def tokenTransfers (net : Network) (watched : List String) (contracts : TokenContracts)
    (reply : LogsReply) : ScanAnswer :=
  if watched = [] ∨ contracts = [] then .ok []
  else
    match reply with
    | .logs logs => .ok (logs.filterMap (observedLog net watched contracts))
    | .refused => .refused
    | .failed => .failed

/-- What the adapter answers with is read from a log of the reply. -/
lemma observed_of_mem_tokenTransfers {net : Network} {watched : List String}
    {contracts : TokenContracts} {reply : LogsReply} {transfers : List ObservedTransfer}
    (h : tokenTransfers net watched contracts reply = .ok transfers) {t : ObservedTransfer}
    (ht : t ∈ transfers) :
    ∃ logs log, reply = .logs logs ∧ log ∈ logs ∧
      observedLog net watched contracts log = some t := by
  unfold tokenTransfers at h
  split at h
  · cases h
    cases ht
  · split at h
    · cases h
      obtain ⟨log, hmem, hlog⟩ := List.mem_filterMap.mp ht
      exact ⟨_, log, rfl, hmem, hlog⟩
    · cases h
    · cases h

/-- A transfer read from a log is of the network, to a watched address, and where the log is. -/
lemma observedLog_eq_some {net : Network} {watched : List String} {contracts : TokenContracts}
    {log : RpcLog} {t : ObservedTransfer} (h : observedLog net watched contracts log = some t) :
    t.network = net ∧ t.toAddress ∈ watched ∧ t.txHash = log.txHash ∧
      t.blockNumber = log.blockNumber ∧ t.blockHash = log.blockHash := by
  simp only [observedLog, Option.bind_eq_bind, Option.bind_eq_some_iff] at h
  obtain ⟨contract, -, recipient, -, h⟩ := h
  split at h
  · rename_i hwatched
    obtain ⟨amount, -, h⟩ := Option.bind_eq_some_iff.mp h
    cases h
    exact ⟨rfl, hwatched, rfl, rfl, rfl⟩
  · cases h

/-- So is each of an answer. -/
lemma mem_tokenTransfers {net : Network} {watched : List String} {contracts : TokenContracts}
    {reply : LogsReply} {transfers : List ObservedTransfer}
    (h : tokenTransfers net watched contracts reply = .ok transfers) {t : ObservedTransfer}
    (ht : t ∈ transfers) : t.network = net ∧ t.toAddress ∈ watched := by
  obtain ⟨logs, log, -, -, hlog⟩ := observed_of_mem_tokenTransfers h ht
  exact ⟨(observedLog_eq_some hlog).1, (observedLog_eq_some hlog).2.1⟩

/-- The keys of `watched_addresses` on an EVM network. -/
def watchedAddresses (net : Network) (wallets : List Wallet) : List String :=
  (wallets.filter fun w => w.chain = net.chain).map fun w => toAsciiLowercase w.address

/-- The user owns a wallet of the network with the address. -/
def OwnedBy (net : Network) (wallets : List Wallet) (address : String) (userId : Uuid) : Prop :=
  ∃ wallet ∈ wallets, wallet.chain = net.chain ∧
    eqIgnoreAsciiCase wallet.address address = true ∧ wallet.userId = userId

lemma OwnedBy.mono {net : Network} {wallets wallets' : List Wallet} {address : String}
    {userId : Uuid} (hsub : ∀ wallet ∈ wallets, wallet ∈ wallets')
    (h : OwnedBy net wallets address userId) : OwnedBy net wallets' address userId := by
  obtain ⟨wallet, hmem, h⟩ := h
  exact ⟨wallet, hsub wallet hmem, h⟩

/-! ## The world -/

/-- What is recorded of the watcher's doings, for stating properties. -/
inductive ScanEvent where
  /-- The loop starts at a cursor. -/
  | resumed (cursor : ℤ)
  | asked (range : ScanRange) (answer : ScanAnswer)
  /-- The database failed under a wallet lookup or an upsert. -/
  | lookupFailed (address : String)
  | upsertFailed (t : ObservedTransfer)
  /-- An upsert was carried out on a row of the transfer for the user it was meant for, or on
  another row. -/
  | recorded (t : ObservedTransfer) (userId : Uuid)
  | shadowed (t : ObservedTransfer)
  /-- A credit was posted, going by a head, when the chain had the transaction in a block. -/
  | credited (id : Uuid) (t : ObservedTransfer) (head : ℤ) (block : Option Block)
  | saved (toBlock : ℤ)
  deriving DecidableEq

/-- The backend's database, the row of `chain_cursors`, the chain, and what has been recorded. -/
structure EvmWorld where
  backend : World
  saved : Option (ℤ × Option String)
  /-- The head last reported to the watcher. -/
  head : ℤ
  /-- Where the loop started the very first time. -/
  firstStart : Option ℤ
  chain : List Block
  /-- Every block that has been canonical. -/
  blocks : List Block
  trace : List ScanEvent

/-- Before the watcher's first start. -/
def EvmWorld.fresh (backend : World) : EvmWorld := ⟨backend, none, 0, none, [], [], []⟩

/-- What the watcher does not decide. -/
structure EvmOracle where
  base : Oracle := {}
  contracts : TokenContracts := []
  head : ℤ := 0
  reply : LogsReply := .failed

inductive EvmOp where
  | tokenContracts
  | head
  | cursor
  | watchedAddresses
  | tokenTransfers (range : ScanRange) (watched : List String) (contracts : TokenContracts)
  | saveCursor (toBlock : ℤ) (hash : Option String)
  | backend (op : Op)

abbrev EvmOp.Res : EvmOp → Type
  | tokenContracts => TokenContracts
  | head => ℤ
  | cursor => Option (ℤ × Option String)
  | watchedAddresses => List String
  | tokenTransfers .. => ScanAnswer
  | saveCursor .. => Unit
  | backend op => op.Res

/-- The row is this transfer's, for the user.  The key alone does not tell: it leaves the network
out, and two networks of a chain may use the same hash. -/
structure Deposit.RowOf (d : Deposit) (t : ObservedTransfer) (userId : Uuid) : Prop where
  naturalKey : d.naturalKey = t.naturalKey
  network : d.network = t.network
  asset : d.asset = t.asset
  amount : d.amount = t.amount
  userId : d.userId = userId

instance (d : Deposit) (t : ObservedTransfer) (userId : Uuid) : Decidable (d.RowOf t userId) :=
  decidable_of_iff (d.naturalKey = t.naturalKey ∧ d.network = t.network ∧ d.asset = t.asset ∧
      d.amount = t.amount ∧ d.userId = userId)
    ⟨fun h => ⟨h.1, h.2.1, h.2.2.1, h.2.2.2.1, h.2.2.2.2⟩, fun h => ⟨h.1, h.2, h.3, h.4, h.5⟩⟩

/-- A row stays the transfer's. -/
lemma Deposit.RowOf.of_sameTransfer {d d' : Deposit} {t : ObservedTransfer} {userId : Uuid}
    (h : d.RowOf t userId) (hsame : d.SameTransfer d') : d'.RowOf t userId where
  naturalKey := hsame.naturalKey.trans h.naturalKey
  network := hsame.network.trans h.network
  asset := hsame.asset.trans h.asset
  amount := hsame.amount.trans h.amount
  userId := hsame.userId.trans h.userId

/-- What is recorded of a statement of the handlers. -/
def noted (w : EvmWorld) (ω : Oracle) (after : World) : (op : Op) → op.Res → List ScanEvent
  | .watcher (.walletFor _ address), _ => if ω.dbFails then [.lookupFailed address] else []
  | .watcher (.upsert t ..), none => [.upsertFailed t]
  | .watcher (.upsert t userId ..), some (id, _) =>
      if (after.deposits.get? id).any fun d => d.RowOf t userId then [.recorded t userId]
      else [.shadowed t]
  | .watcher (.credit id t), true => [.credited id t w.head (inclusion w.chain t.txHash)]
  | _, _ => []

/-- What each operation of the watcher does. -/
def execEvm (cfg : Config) (net : Network) :
    (op : EvmOp) → EvmOracle → EvmWorld → Option (op.Res × EvmWorld)
  | .tokenContracts, ω, w => some (ω.contracts, w)
  | .head, ω, w => some (ω.head, { w with head := ω.head })
  | .cursor, _, w => some (w.saved,
      { w with
        firstStart := w.firstStart.or (some (resumeAt net w.head w.saved)),
        trace := .resumed (resumeAt net w.head w.saved) :: w.trace })
  | .watchedAddresses, _, w => some (watchedAddresses net w.backend.wallets, w)
  | .tokenTransfers range watched contracts, ω, w =>
      let answer := tokenTransfers net watched contracts ω.reply
      some (answer, { w with trace := .asked range answer :: w.trace })
  | .saveCursor toBlock hash, _, w =>
      some ((), { w with saved := some (toBlock, hash), trace := .saved toBlock :: w.trace })
  | .backend op, ω, w =>
      (exec cfg 0 op ω.base w.backend).map fun r =>
        (r.1, { w with backend := r.2, trace := noted w ω.base r.2 op r.1 ++ w.trace })

/-- What happens without the watcher: the chain is extended or reorganised, time passes, users
open wallets, other workers and handlers use the database. -/
inductive EvmEnv where
  | chain (blocks : List Block)
  | backend (e : EnvMove)
  | other (tid : ℕ) (op : Op) (ω : Oracle)

def envEvm (cfg : Config) : EvmEnv → EvmWorld → Option EvmWorld
  | .chain bs, w =>
      if ChainOk bs ∧ HashesName (bs ++ w.blocks) then
        some { w with chain := bs, blocks := bs ++ w.blocks }
      else none
  | .backend e, w => (execEnv e w.backend).map fun b => { w with backend := b }
  | .other tid op ω, w => (exec cfg tid op ω w.backend).map fun r => { w with backend := r.2 }

/-! ## The loop -/

/-- What `watch_evm` keeps from pass to pass. -/
structure EvmLoop where
  contracts : TokenContracts
  cursor : ℤ
  window : LogWindow
  transientFailures : ℕ

/-- A program of the watcher. -/
abbrev EvmProg (α : Type) := Prog EvmOp EvmOp.Res α

/-- A handler, run by the watcher. -/
abbrev EvmProg.handler {α : Type} (p : Handler α) : EvmProg α := p.lift .backend fun _ r => r

/-- `watch_evm` up to its loop. -/
def watchEvmStart (net : Network) : EvmProg (Option EvmLoop) := do
  let contracts ← Prog.perform EvmOp.tokenContracts
  let head ← Prog.perform EvmOp.head
  let saved ← Prog.perform EvmOp.cursor
  pure (some ⟨contracts, resumeAt net head saved, .new maxLogWindow, 0⟩)

/-- What a pass does with the transfers of its range. -/
def processRange (net : Network) (range : ScanRange) (transfers : List ObservedTransfer) :
    EvmProg Unit := do
  EvmProg.handler (handleTransfers range.head transfers)
  EvmProg.handler (advancePending net range.head)
  EvmProg.handler (checkReorgs net range.head)
  let hash ← Prog.perform (EvmOp.backend (.watcher (.blockHash range.toBlock)))
  Prog.perform (EvmOp.saveCursor range.toBlock hash)

/-- The window after a range was answered: wider only if it was full. -/
def nextWindow (range : ScanRange) (window : LogWindow) : LogWindow :=
  if window.size ≤ range.toBlock - range.cursor then window.grow else window

/-- What a pass does with the answer to its scan. -/
def afterScan (net : Network) (s : EvmLoop) (range : ScanRange) :
    ScanAnswer → EvmProg (Option EvmLoop)
  | .ok transfers => do
    processRange net range transfers
    pure (some { s with
      cursor := range.toBlock, window := nextWindow range s.window, transientFailures := 0 })
  | .refused => pure (s.window.shrink.map fun window => { s with window := window })
  | .failed =>
    if maxTransientFailures ≤ s.transientFailures + 1 then pure none
    else pure (some { s with transientFailures := s.transientFailures + 1 })

/-- `watch_evm`, once round its loop. -/
def watchEvmPass (net : Network) (s : EvmLoop) : EvmProg (Option EvmLoop) := do
  let head ← Prog.perform EvmOp.head
  if head ≤ s.cursor then pure (some s)
  else do
    let watched ← Prog.perform EvmOp.watchedAddresses
    let range := scanRange net s.cursor head s.window
    let answer ← Prog.perform (EvmOp.tokenTransfers range watched s.contracts)
    afterScan net s range answer

/-- `watch_evm` under its supervisor. -/
def evmWatcher (cfg : Config) (net : Network) :
    Service EvmOp EvmOp.Res EvmOracle EvmEnv EvmWorld EvmLoop where
  exec := execEvm cfg net
  env := envEvm cfg
  worker := ⟨watchEvmStart net, watchEvmPass net⟩

/-- The watcher and its world. -/
abbrev EvmSite := Site EvmOp EvmOp.Res EvmWorld EvmLoop

abbrev EvmMove := SiteMove EvmOracle EvmEnv

/-- A database with the watcher not yet started. -/
def EvmSite.fresh (backend : World) : EvmSite := ⟨.fresh backend, none⟩

/-! ## Schedules -/

/-- One answer for each of the next operations. -/
def answered (answers : List EvmOracle) : List EvmMove := answers.map .perform

/-- The watcher starts and finds the head. -/
def booted (contracts : TokenContracts) (head : ℤ) : List EvmMove :=
  .boot :: answered [{ contracts := contracts }, { head := head }, {}]

/-- A pass that finds the head and a reply to its scan, with the answers to what follows. -/
def passed (head : ℤ) (reply : LogsReply) (answers : List Oracle) : List EvmMove :=
  .turn :: answered ({ head := head } :: {} :: { reply := reply } ::
    answers.map (fun ω => { base := ω }))

/-! ## What the handlers leave alone -/

/-- Events that come from the handling of transfers and deposits. -/
def ScanEvent.OfHandling : ScanEvent → Prop
  | .resumed _ | .asked .. | .saved _ => False
  | _ => True

/-- The scan itself has not moved on: handlers have run, or the world has.  Wallets and deposits
stay whose they are. -/
structure Quiet (w w' : EvmWorld) : Prop where
  saved : w'.saved = w.saved
  head : w'.head = w.head
  firstStart : w'.firstStart = w.firstStart
  trace : ∃ es, w'.trace = es ++ w.trace ∧ ∀ e ∈ es, e.OfHandling
  wallets : ∀ wallet ∈ w.backend.wallets, wallet ∈ w'.backend.wallets
  deposits : ∀ id d, w.backend.deposits.get? id = some d →
    ∃ d', w'.backend.deposits.get? id = some d' ∧ d.SameTransfer d'

lemma Quiet.refl (w : EvmWorld) : Quiet w w :=
  ⟨rfl, rfl, rfl, ⟨[], rfl, by simp⟩, fun _ h => h, fun _ d hd => ⟨d, hd, .refl d⟩⟩

lemma Quiet.trans {w w' w'' : EvmWorld} (h : Quiet w w') (h' : Quiet w' w'') : Quiet w w'' := by
  obtain ⟨es, htrace, hes⟩ := h.trace
  obtain ⟨es', htrace', hes'⟩ := h'.trace
  refine ⟨h'.saved.trans h.saved, h'.head.trans h.head, h'.firstStart.trans h.firstStart,
    ⟨es' ++ es, by rw [htrace', htrace, List.append_assoc], ?_⟩,
    fun wallet hw => h'.wallets wallet (h.wallets wallet hw), ?_⟩
  · intro e he
    rcases List.mem_append.mp he with he | he
    · exact hes' e he
    · exact hes e he
  · intro id d hd
    obtain ⟨d', hd', hsame⟩ := h.deposits id d hd
    obtain ⟨d'', hd'', hsame'⟩ := h'.deposits id d' hd'
    exact ⟨d'', hd'', hsame.trans hsame'⟩

/-- A scan, a start or a saved cursor found later was there before. -/
lemma Quiet.mem_trace {w w' : EvmWorld} (h : Quiet w w') {e : ScanEvent} (hne : ¬e.OfHandling) :
    e ∈ w'.trace ↔ e ∈ w.trace := by
  obtain ⟨es, htrace, hes⟩ := h.trace
  rw [htrace, List.mem_append]
  exact ⟨fun he => he.resolve_left fun he => hne (hes e he), .inr⟩

lemma noted_ofHandling {w : EvmWorld} {ω : Oracle} {after : World} {op : Op} {r : op.Res}
    {e : ScanEvent} (he : e ∈ noted w ω after op r) : e.OfHandling := by
  unfold noted at he
  split at he
  · split at he
    · simp only [List.mem_singleton] at he
      subst he
      trivial
    · cases he
  · simp only [List.mem_singleton] at he
    subst he
    trivial
  · split at he <;>
    · simp only [List.mem_singleton] at he
      subst he
      trivial
  · simp only [List.mem_singleton] at he
    subst he
    trivial
  · cases he

section Handlers

variable {cfg : Config} {net : Network} {w w' : EvmWorld}

/-- A handler's statement acts on the database and is noted. -/
lemma execEvm_backend {op : Op} {ω : EvmOracle} {r : op.Res}
    (h : execEvm cfg net (.backend op) ω w = some (r, w')) :
    ∃ after, exec cfg 0 op ω.base w.backend = some (r, after) ∧
      w' = { w with backend := after, trace := noted w ω.base after op r ++ w.trace } := by
  obtain ⟨⟨r', after⟩, he, hres⟩ := Option.map_eq_some_iff.mp h
  cases hres
  exact ⟨after, he, rfl⟩

/-- A wallet lookup fails, or finds the first wallet with the address. -/
lemma execEvm_walletFor {ω : EvmOracle} {n : Network} {address : String}
    {r : Option (Uuid × Uuid)}
    (h : execEvm cfg net (.backend (.watcher (.walletFor n address))) ω w = some (r, w')) :
    (r = none ∧ w'.trace = .lookupFailed address :: w.trace) ∨
      (r = walletFor n address w.backend.watcherDb ∧ w'.trace = w.trace) := by
  obtain ⟨after, he, rfl⟩ := execEvm_backend h
  obtain ⟨db, es, hexec, -⟩ := exec_watcher he
  cases hexec
  by_cases hfails : ω.base.dbFails = true
  · exact .inl ⟨by simp [hfails], by simp [noted, hfails]⟩
  · exact .inr ⟨by simp [hfails], by simp [noted, hfails]⟩

lemma walletFor_ownedBy {n : Network} {address : String} {walletId userId : Uuid}
    (h : walletFor n address w.backend.watcherDb = some (walletId, userId)) :
    OwnedBy n w.backend.wallets address userId := by
  obtain ⟨wallet, hfind, hres⟩ := Option.map_eq_some_iff.mp h
  cases hres
  have hmem := List.mem_of_find?_eq_some hfind
  have hp := List.find?_some hfind
  simp only [Bool.and_eq_true, decide_eq_true_eq] at hp
  exact ⟨wallet, hmem, hp.1, hp.2, rfl⟩

/-- No operation takes a wallet away. -/
lemma exec_wallets {tid : ℕ} {op : Op} {ω : Oracle} {r : op.Res} {b b' : World}
    (h : exec cfg tid op ω b = some (r, b')) : b'.wallets = b.wallets := by
  cases (exec_move h).2 with
  | watcher hexec => cases execWatcher_move hexec <;> rfl
  | _ => rfl

lemma quiet_backend {op : Op} {ω : EvmOracle} {r : op.Res}
    (h : execEvm cfg net (.backend op) ω w = some (r, w')) : Quiet w w' := by
  obtain ⟨after, he, rfl⟩ := execEvm_backend h
  exact ⟨rfl, rfl, rfl, ⟨_, rfl, fun e he => noted_ofHandling he⟩,
    fun wallet hw => (exec_wallets he).symm ▸ hw, (exec_move he).2.deposits⟩

/-- **What the environment can do.** -/
lemma envEvm_cases {e : EvmEnv} (h : envEvm cfg e w = some w') :
    (∃ bs, e = .chain bs ∧ ChainOk bs ∧ HashesName (bs ++ w.blocks) ∧
      w' = { w with chain := bs, blocks := bs ++ w.blocks }) ∨
    (∃ b b', e = .backend b ∧ execEnv b w.backend = some b' ∧ w' = { w with backend := b' }) ∨
    ∃ tid op ω r b', e = .other tid op ω ∧ exec cfg tid op ω w.backend = some (r, b') ∧
      w' = { w with backend := b' } := by
  cases e with
  | chain bs =>
      simp only [envEvm] at h
      split at h
      · rename_i hok
        cases h
        exact .inl ⟨bs, rfl, hok.1, hok.2, rfl⟩
      · cases h
  | backend b =>
      obtain ⟨b', hb, rfl⟩ := Option.map_eq_some_iff.mp h
      exact .inr (.inl ⟨b, b', rfl, hb, rfl⟩)
  | other tid op ω =>
      obtain ⟨⟨r, b'⟩, hb, rfl⟩ := Option.map_eq_some_iff.mp h
      exact .inr (.inr ⟨tid, op, ω, r, b', rfl, hb, rfl⟩)

lemma quiet_env {e : EvmEnv} (h : envEvm cfg e w = some w') : Quiet w w' := by
  rcases envEvm_cases h with ⟨bs, -, -, -, rfl⟩ | ⟨b, b', -, hb, rfl⟩ |
    ⟨tid, op, ω, r, b', -, hb, rfl⟩
  · exact ⟨rfl, rfl, rfl, ⟨[], rfl, by simp⟩, fun _ h => h, fun _ d hd => ⟨d, hd, .refl d⟩⟩
  · refine ⟨rfl, rfl, rfl, ⟨[], rfl, by simp⟩, fun wallet hw => ?_, fun id d hd => ?_⟩
    · cases b <;> cases hb
      · exact hw
      · exact List.mem_cons_of_mem _ hw
      · exact hw
    · obtain ⟨now, wallets, tiers, -, rfl⟩ := execEnv_eq hb
      exact ⟨d, hd, .refl d⟩
  · exact ⟨rfl, rfl, rfl, ⟨[], rfl, by simp⟩, fun wallet hw => (exec_wallets hb).symm ▸ hw,
      (exec_move hb).2.deposits⟩

open Service in
/-- A handler keeps whatever its statements leave alone. -/
lemma keeps_handler {P : EvmOp → EvmOracle → EvmWorld → Prop} {I A : EvmWorld → Prop}
    (hI : ∀ ⦃w w'⦄, Quiet w w' → I w → I w') (hA : ∀ ⦃w w'⦄, Quiet w w' → A w → A w')
    {α : Type} (p : Handler α) (hw : A w) :
    Keeps (evmWatcher cfg net) P I Quiet (fun _ => A) (EvmProg.handler p) w := by
  refine Keeps.of_every hA (((Prog.every_true p).lift ..).mono ?_) hw
  rintro op ⟨o, rfl, -⟩ ω r w w' hIw hAw - (he : execEvm cfg net (.backend o) ω w = some (r, w'))
  have hquiet := quiet_backend he
  exact ⟨hI hquiet hIw, hA hquiet hAw⟩

open Service in
/-- Starting only moves the head and notes where the loop resumes: an invariant that both keep is
kept by the start, whatever else happens meanwhile. -/
lemma keeps_watchEvmStart_of {P : EvmOp → EvmOracle → EvmWorld → Prop} {I : EvmWorld → Prop}
    {R : EvmWorld → EvmWorld → Prop} (hhead : ∀ w head, I w → I { w with head := head })
    (hresumed : ∀ w firstStart cursor, I w →
      I { w with firstStart := firstStart, trace := .resumed cursor :: w.trace })
    (w : EvmWorld) :
    Keeps (evmWatcher cfg net) P I R (fun _ _ => True) (watchEvmStart net) w := by
  intro w _ hI ω contracts w₁ _ he
  cases he
  refine ⟨hI, fun w _ hI ω head w₁ _ he => ?_⟩
  cases he
  refine ⟨hhead w _ hI, fun w _ hI ω saved w₁ _ he => ?_⟩
  cases he
  exact ⟨hresumed w _ _ hI, trivial⟩

open Service in
/-- What becomes of the loop after its scan: only an answered range runs anything. -/
lemma keeps_afterScan_of {P : EvmOp → EvmOracle → EvmWorld → Prop} {I : EvmWorld → Prop}
    {R : EvmWorld → EvmWorld → Prop} {s : EvmLoop} {range : ScanRange} {answer : ScanAnswer}
    (hok : ∀ transfers, answer = .ok transfers →
      Keeps (evmWatcher cfg net) P I R (fun _ _ => True) (processRange net range transfers) w) :
    Keeps (evmWatcher cfg net) P I R (fun _ _ => True) (afterScan net s range answer) w := by
  cases answer with
  | ok transfers => exact Keeps.bind (hok transfers rfl) fun _ _ _ => trivial
  | refused => trivial
  | failed =>
      simp only [afterScan]
      split <;> trivial

end Handlers

end Naivolt
