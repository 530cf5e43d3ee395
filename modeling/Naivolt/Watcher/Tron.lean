import Naivolt.Watcher.Evm

/-!
# The TRON watcher

TronGrid has no filter by block, so `watch_tron` asks address by address.  A sweep reads the
clock, asks for the transfers into each watched address from a lower bound in time on, looks up
the block of each, handles what it found, and ends by moving the bound to five minutes before it
began.  One bound serves all addresses.  When the loop starts the bound is a day back; the cursor
it saves is not read again.

`TronWorld` records, beside what the loop reads and writes, the transfers on the chain and every
query with its answer, to say what a query has been told (`TronQuery.complete`).

TronGrid lists a transfer some time after it lands, and stamps it by a clock that is not the
watcher's.  Transfers land with any stamp, so a query is given the instant up to which the stamps
are settled: no transfer lands with an earlier one afterwards.  A listing is complete only if it
holds everything up to there.
-/

namespace Naivolt

open Foundation

/-! ## Time -/

/-- `timestamp_millis`. -/
def timestampMillis (t : ℤ) : ℤ := t / 1000

lemma timestampMillis_mono {t t' : ℤ} (h : t ≤ t') : timestampMillis t ≤ timestampMillis t' :=
  Int.ediv_le_ediv (by norm_num) h

/-- How far the first sweep after a start looks back. -/
def startLookback : Time := hours 24

/-- How far a later sweep looks back beyond the start of the one before. -/
def sweepSlack : Time := minutes 5

/-! ## The adapter -/

/-- A record of the TRC-20 listing. -/
structure Trc20Transfer where
  transactionId : String
  blockTimestamp : ℤ
  toAddress : String
  tokenAddress : String
  /-- What `value` amounts to at a number of decimals. -/
  value : ℕ → Option ℚ

/-- What TronGrid replies to one query: the records it has, and what it says of the block of
each transaction. -/
inductive Trc20Reply where
  | listed (data : List Trc20Transfer) (transactionBlock : String → Except Unit (Option ℤ))
  | failed

/-- The page of a query. -/
def trc20Limit : ℕ := 200

/-- The transfer a record stands for, once its block is known. -/
def observedTrc20 (address : String) (contracts : TokenContracts) (t : Trc20Transfer)
    (block : ℤ) : Option ObservedTransfer := do
  let contract ← contracts.find? fun c => c.1 = t.tokenAddress
  if eqIgnoreAsciiCase t.toAddress address then
    let amount ← t.value contract.2.2
    some
      { network := .tron, txHash := t.transactionId, outputIndex := 0, toAddress := t.toAddress,
        asset := contract.2.1, amount := amount, blockNumber := block, blockHash := "" }
  else none

/-- `transfers_to`: one page, less the records whose block is not found. -/
def transfersTo (address : String) (contracts : TokenContracts) :
    Trc20Reply → Option (List ObservedTransfer)
  | .listed data transactionBlock => some <| (data.take trc20Limit).filterMap fun t =>
      match transactionBlock t.transactionId with
      | .ok (some block) => observedTrc20 address contracts t block
      | _ => none
  | .failed => none

/-! ## The world -/

/-- A query for one address, with what came of it. -/
structure TronQuery where
  address : String
  since : ℤ
  contracts : TokenContracts
  /-- No transfer lands afterwards with an earlier stamp. -/
  settled : ℤ
  answer : Option (List ObservedTransfer)
  /-- The reply was complete up to there. -/
  complete : Bool
  deriving DecidableEq

/-- The record says of the transfer what the watcher reads. -/
def Trc20Transfer.Lists (r : Trc20Transfer) (contracts : TokenContracts) (t : Trc20Transfer) :
    Prop :=
  r.transactionId = t.transactionId ∧ r.toAddress = t.toAddress ∧
    r.tokenAddress = t.tokenAddress ∧ ∀ c ∈ contracts, r.value c.2.2 = t.value c.2.2

instance (r : Trc20Transfer) (contracts : TokenContracts) (t : Trc20Transfer) :
    Decidable (r.Lists contracts t) := by
  unfold Trc20Transfer.Lists
  infer_instance

/-- A lookup that found a block. -/
def blockFound : Except Unit (Option ℤ) → Bool
  | .ok (some _) => true
  | _ => false

/-- The reply is complete: the request is answered with no more records than a page holds, each
block looked up is found, and each transfer to the address stamped from the bound up to the
instant settled is listed. -/
def Trc20Reply.Complete (landed : List Trc20Transfer) (address : String) (since settled : ℤ)
    (contracts : TokenContracts) : Trc20Reply → Prop
  | .listed data transactionBlock =>
      data.length ≤ trc20Limit ∧
      (∀ r ∈ data, (observedTrc20 address contracts r 0).isSome →
        blockFound (transactionBlock r.transactionId) = true) ∧
      ∀ t ∈ landed, t.toAddress = address → since ≤ t.blockTimestamp →
        t.blockTimestamp < settled → ∃ r ∈ data, r.Lists contracts t
  | .failed => False

instance (landed : List Trc20Transfer) (address : String) (since settled : ℤ)
    (contracts : TokenContracts) (reply : Trc20Reply) :
    Decidable (reply.Complete landed address since settled contracts) :=
  match reply with
  | .listed .. => inferInstanceAs (Decidable (_ ∧ _ ∧ _))
  | .failed => .isFalse id

/-- The transfer is one the watcher credits, and it is not among those of the answer. -/
def Misses (address : String) (contracts : TokenContracts) (answer : List ObservedTransfer)
    (t : Trc20Transfer) : Prop :=
  (observedTrc20 address contracts t 0).isSome ∧
    ∀ o ∈ answer, observedTrc20 address contracts t o.blockNumber ≠ some o

/-- The backend's database, the row of `chain_cursors`, the transfers on the chain, and what is
recorded of the watcher. -/
structure TronWorld where
  backend : World
  saved : Option (ℤ × Option String)
  landed : List Trc20Transfer
  /-- Addresses that became watched in the course of the run, and when. -/
  opened : List (String × ℤ)
  /-- When the watcher first started. -/
  started : Option ℤ
  /-- When the last sweep began. -/
  sweptAt : Time
  queries : List TronQuery

/-- Before the watcher's first start. -/
def TronWorld.fresh (backend : World) : TronWorld := ⟨backend, none, [], [], none, 0, []⟩

/-- The clock, in milliseconds. -/
def TronWorld.nowMillis (w : TronWorld) : ℤ := timestampMillis w.backend.now

/-- The keys of `watched_addresses` on TRON. -/
def tronAddresses (wallets : List Wallet) : List String :=
  (wallets.filter fun w => w.chain = .tron).map Wallet.address

/-- What the watcher does not decide. -/
structure TronOracle where
  base : Oracle := {}
  contracts : TokenContracts := []
  head : ℤ := 0
  /-- The order in which the map of addresses is gone through. -/
  keys : List String := []
  reply : Trc20Reply := .failed
  settled : ℤ := 0

/-- The two places where the clock is read. -/
inductive ClockUse where
  | start
  | sweep
  deriving DecidableEq

inductive TronOp where
  | tokenContracts
  | utcNow (use : ClockUse)
  | head
  | watchedAddresses
  | transfersTo (address : String) (since : ℤ) (contracts : TokenContracts)
  | saveCursor (head : ℤ)
  | backend (op : Op)

abbrev TronOp.Res : TronOp → Type
  | tokenContracts => TokenContracts
  | utcNow _ => Time
  | head => ℤ
  | watchedAddresses => List String
  | transfersTo .. => Option (List ObservedTransfer)
  | saveCursor _ => Unit
  | backend op => op.Res

/-- What each operation of the watcher does. -/
def execTron (cfg : Config) : (op : TronOp) → TronOracle → TronWorld → Option (op.Res × TronWorld)
  | .tokenContracts, ω, w => some (ω.contracts, w)
  | .utcNow .start, _, w =>
      some (w.backend.now, { w with started := w.started.or (some w.nowMillis) })
  | .utcNow .sweep, _, w => some (w.backend.now, { w with sweptAt := w.backend.now })
  | .head, ω, w => some (ω.head, w)
  | .watchedAddresses, ω, w =>
      if ω.keys.Nodup ∧ (∀ a ∈ ω.keys, a ∈ tronAddresses w.backend.wallets) ∧
          ∀ a ∈ tronAddresses w.backend.wallets, a ∈ ω.keys then some (ω.keys, w)
      else none
  | .transfersTo address since contracts, ω, w =>
      let answer := transfersTo address contracts ω.reply
      let complete := decide (ω.reply.Complete w.landed address since ω.settled contracts)
      some (answer, { w with
        queries := ⟨address, since, contracts, ω.settled, answer, complete⟩ :: w.queries })
  | .saveCursor head, _, w => some ((), { w with saved := some (head, none) })
  | .backend op, ω, w =>
      (exec cfg 0 op ω.base w.backend).map fun r => (r.1, { w with backend := r.2 })

/-- What happens without the watcher: transfers land on the chain, stamped as the chain's clock
has it but not before what was settled, time passes, users open wallets, other workers and
handlers use the database. -/
inductive TronEnv where
  | lands (t : Trc20Transfer)
  | backend (e : EnvMove)
  | other (tid : ℕ) (op : Op) (ω : Oracle)

/-- The addresses that a change of the wallets adds to those watched. -/
def newlyWatched (wallets wallets' : List Wallet) : List String :=
  (tronAddresses wallets').filter fun a => a ∉ tronAddresses wallets

def envTron (cfg : Config) : TronEnv → TronWorld → Option TronWorld
  | .lands t, w =>
      if ∀ q ∈ w.queries, q.settled ≤ t.blockTimestamp then
        some { w with landed := t :: w.landed }
      else none
  | .backend e, w => (execEnv e w.backend).map fun b =>
      { w with
        backend := b
        opened := (newlyWatched w.backend.wallets b.wallets).map (fun a => (a, w.nowMillis)) ++
          w.opened }
  | .other tid op ω, w => (exec cfg tid op ω w.backend).map fun r => { w with backend := r.2 }

/-! ## The loop -/

/-- What `watch_tron` keeps from sweep to sweep. -/
structure TronLoop where
  contracts : TokenContracts
  since : ℤ

/-- A program of the watcher. -/
abbrev TronProg (α : Type) := Prog TronOp TronOp.Res α

/-- A handler, run by the watcher. -/
abbrev TronProg.handler {α : Type} (p : Handler α) : TronProg α := p.lift .backend fun _ r => r

/-- `watch_tron` up to its loop. -/
def watchTronStart : TronProg (Option TronLoop) := do
  let contracts ← Prog.perform TronOp.tokenContracts
  let now ← Prog.perform (TronOp.utcNow .start)
  pure (some ⟨contracts, timestampMillis (now - startLookback)⟩)

/-- The query for one address.  One address failing does not stop the others. -/
def sweepAddress (s : TronLoop) (head : ℤ) (address : String) : TronProg Unit := do
  match ← Prog.perform (TronOp.transfersTo address s.since s.contracts) with
  | some transfers => TronProg.handler (handleTransfers head transfers)
  | none => pure ()

/-- The query for each address in turn. -/
def sweepAddresses (s : TronLoop) (head : ℤ) : List String → TronProg Unit
  | [] => pure ()
  | address :: rest => do
    sweepAddress s head address
    sweepAddresses s head rest

/-- `watch_tron`, once round its loop. -/
def watchTronPass (s : TronLoop) : TronProg (Option TronLoop) := do
  let sweptAt ← Prog.perform (TronOp.utcNow .sweep)
  let head ← Prog.perform TronOp.head
  let watched ← Prog.perform TronOp.watchedAddresses
  sweepAddresses s head watched
  TronProg.handler (advancePending .tron head)
  Prog.perform (TronOp.saveCursor head)
  pure (some { s with since := timestampMillis (sweptAt - sweepSlack) })

/-- `watch_tron` under its supervisor. -/
def tronWatcher (cfg : Config) :
    Service TronOp TronOp.Res TronOracle TronEnv TronWorld TronLoop where
  exec := execTron cfg
  env := envTron cfg
  worker := ⟨watchTronStart, watchTronPass⟩

/-- The watcher and its world. -/
abbrev TronSite := Site TronOp TronOp.Res TronWorld TronLoop

abbrev TronMove := SiteMove TronOracle TronEnv

/-- A database with the watcher not yet started. -/
def TronSite.fresh (backend : World) : TronSite := ⟨.fresh backend, none⟩

end Naivolt
