import Naivolt.Numbers.Reserve
import Naivolt.Payouts.Payout
import Naivolt.Funding.Intent
import Naivolt.Watcher.Deposit
import Naivolt.Foundation.Actors

/-!
# The world and its operations

`World` is the committed state of the database, the clock, the identifiers handed out so far
and the recorded history.  `Op` lists what a handler or worker can do in one atomic step: a
transaction or single statement of the modules below, the start or the answer of a call to a
supplier, a question to the funding provider or to a chain node, a look at the clock.

Everything the program does not decide comes from the schedule through an `Oracle`: fresh
identifiers, the answers of other services, what the catalogue queries return.  `execOp` is a
function of it.  Identifiers are fresh in the sense of `Uuid::new_v4` and `gen_random_uuid()`:
an operation whose oracle repeats one is not a step (`exec`).
-/

namespace Naivolt

open Foundation

/-! ## State -/

/-- The committed database, the clock, and what has been recorded. -/
structure World where
  now : Time
  /-- Identifiers already handed out. -/
  used : List Uuid
  ledger : Ledger
  orders : OrderTable
  messages : List Message
  slots : List Slot
  payouts : Table Uuid Payout
  tiers : Uuid → KycTier
  intents : IntentTable
  deposits : DepositTable
  wallets : List Wallet
  log : Log

namespace World

def numbers (w : World) : NumbersDb := ⟨w.ledger, w.orders, w.messages, w.slots⟩
def payoutsDb (w : World) : PayoutsDb := ⟨w.ledger, w.payouts, w.tiers⟩
def fundingDb (w : World) : FundingDb := ⟨w.ledger, w.intents⟩
def watcherDb (w : World) : WatcherDb := ⟨w.ledger, w.deposits, w.wallets⟩

/-- Commit a number-order transaction. -/
def putNumbers (w : World) (db : NumbersDb) (es : Log) : World :=
  { w with
    ledger := db.ledger, orders := db.orders, messages := db.messages, slots := db.slots,
    log := es ++ w.log }

def putPayouts (w : World) (db : PayoutsDb) (es : Log) : World :=
  { w with ledger := db.ledger, payouts := db.payouts, log := es ++ w.log }

def putFunding (w : World) (db : FundingDb) (es : Log) : World :=
  { w with ledger := db.ledger, intents := db.intents, log := es ++ w.log }

def putWatcher (w : World) (db : WatcherDb) (es : Log) : World :=
  { w with
    ledger := db.ledger, deposits := db.deposits, wallets := db.wallets, log := es ++ w.log }

/-- Record something without touching a table. -/
def record (w : World) (es : Log) : World := { w with log := es ++ w.log }

/-- A freshly migrated database: ten supplier slots, nothing else. -/
def fresh (now : Time) (wallets : List Wallet) : World :=
  { now := now, used := [], ledger := .empty, orders := .empty, messages := [],
    slots := (List.range 10).map (fun i => ⟨i + 1, none⟩), payouts := .empty,
    tiers := fun _ => .tier0, intents := .empty, deposits := .empty, wallets := wallets, log := [] }

end World

/-! ## Oracle -/

/-- What the program does not decide. -/
structure Oracle where
  fresh : List Uuid := []
  catalogue : Catalogue := ⟨none, none, [], none, none, none, false⟩
  buy : BuyAnswer := .ambiguous
  /-- 5SIM's recent orders; none when the request failed. -/
  recent : Option (List FiveSimOrder) := none
  check : Except ApiError ActivationCheck :=
    .error (.serviceUnavailable "We couldn't check that number just now.")
  cancel : Except ApiError Unit := .error (.serviceUnavailable "We couldn't release that number.")
  slot : Option ℕ := none
  /-- A refund with this key is already in the audit log. -/
  audited : Bool := false
  pinSet : Bool := true
  pinMatches : Bool := true
  destination : Except ApiError Uuid := .error .notFound
  charge : ChargeState := .pending
  initCharge : Except ApiError (Option String) := .ok none
  /-- The hash a node reports at a height, none when it did not answer. -/
  blockHash : Option String := none
  /-- The database fails under a statement whose caller goes on without it. -/
  dbFails : Bool := false
  /-- Where a node finds a transaction: an error, nowhere, or a block. -/
  location : Except Unit (Option (ℤ × String)) := .error ()

/-! ## Operations -/

/-- Statements and transactions on number orders. -/
inductive NumberOp where
  | reserve (userId key : Uuid) (body : CreateOrderBody)
  | claimPurchase (id : Uuid)
  | sweepClaim (id : Uuid)
  | tryClaimOrder (id : Uuid)
  | tryClaimHeldOrder (id : Uuid)
  | releaseOrder (id token : Uuid) (delay : Time) (error : Option String)
  | releaseClaim (id token : Uuid)
  | markReview (id token : Uuid) (reason : String)
  | assign (id token : Uuid) (activation : Activation)
  | pin (id : Uuid) (source : Source)
  | recoverAssign (id token : Uuid) (activation : Activation)
  | applyClaimed (id token : Uuid) (via : Via) (transition : OrderTransition)
  | applyCheck (id : Uuid) (token : Option Uuid) (check : ActivationCheck)
  | readOrder (id : Uuid)
  | taken (id : Uuid) (providerOrderId : String)
  | claimSlot (token : Uuid)
  | releaseSlot (slot : ℕ) (token : Uuid)

/-- Calls to suppliers.  A purchase is two steps, its start and its answer. -/
inductive SupplierOp where
  | buyStart (order token : Uuid) (label : SupplierLabel)
  | buyAnswer (call : ℕ) (order : Uuid) (label : SupplierLabel) (supplier : Supplier)
  | recentInPurchase (order : Uuid) (label : SupplierLabel) (country product : String)
  | recentForRecovery (order : Uuid) (country product : String)
  | check (order : Uuid) (supplier : Supplier) (providerOrderId : String)
  | cancel (order : Uuid) (supplier : Supplier) (providerOrderId : String)

inductive PayoutOp where
  | readUser (userId : Uuid)
  | usedToday (userId : Uuid)
  | resolveDestination (userId : Uuid) (body : CreatePayoutBody)
  | reserve (userId : Uuid) (key : String) (amount : ℚ) (bankAccountId : Uuid)

inductive FundingOp where
  | insertIntent (userId : Uuid) (amount : ℚ)
  | initCharge (reference : String) (amount : ℚ)
  | readIntent (id : Uuid)
  | verify (reference : String) (amount : ℚ)
  | credit (id userId : Uuid) (reference : String) (amount : ℚ)
  | fail (id : Uuid) (reason : String)
  | pending
  | abandon

inductive WatcherOp where
  | walletFor (network : Network) (address : String)
  | upsert (transfer : ObservedTransfer) (userId walletId : Uuid) (confirmations : ℤ)
      (status : DepositStatus)
  | credit (id : Uuid) (transfer : ObservedTransfer)
  | reverse (id : Uuid) (transfer : ObservedTransfer)
  | pending (network : Network)
  | reorgWindow (network : Network) (fromBlock : ℤ)
  | relocate (id : Uuid) (blockNumber : ℤ) (blockHash : String)
  | setConfirmations (id : Uuid) (confirmations : ℤ)
  | blockHash (number : ℤ)
  | transactionLocation (txHash : String)

/-- One atomic step of a handler or worker. -/
inductive Op where
  | numbers (op : NumberOp)
  | supplier (op : SupplierOp)
  | payouts (op : PayoutOp)
  | funding (op : FundingOp)
  | watcher (op : WatcherOp)
  | clock
  | auditReplay (order : Uuid)

/-! ## Results -/

abbrev NumberOp.Res : NumberOp → Type
  | reserve .. => Except ApiError Placed
  | claimPurchase .. | sweepClaim .. | tryClaimOrder .. | tryClaimHeldOrder .. =>
      Option (Uuid × Order)
  | releaseOrder .. | releaseClaim .. | markReview .. | assign .. | pin ..
  | recoverAssign .. | taken .. => Bool
  | applyClaimed .. | applyCheck .. => Except ApiError TransitionOutcome
  | readOrder .. => Option (Order × List Message)
  | claimSlot .. => Option ℕ
  | releaseSlot .. => Unit

abbrev SupplierOp.Res : SupplierOp → Type
  | buyStart .. => ℕ
  | buyAnswer .. => BuyAnswer
  | recentInPurchase .. | recentForRecovery .. => Option Activation
  | check .. => Except ApiError ActivationCheck
  | cancel .. => Except ApiError Unit

abbrev PayoutOp.Res : PayoutOp → Type
  | readUser .. => PayoutUser
  | usedToday .. => ℚ
  | resolveDestination .. => Except ApiError Uuid
  | reserve .. => Except ApiError (Uuid × Payout)

abbrev FundingOp.Res : FundingOp → Type
  | insertIntent .. => Uuid × Intent
  | initCharge .. => Except ApiError (Option String)
  | readIntent .. => Option Intent
  | verify .. => ChargeState
  | credit .. | fail .. => Bool
  | abandon => Unit
  | pending => List (Uuid × Intent)

abbrev WatcherOp.Res : WatcherOp → Type
  | walletFor .. => Option (Uuid × Uuid)
  | upsert .. => Option (Uuid × DepositStatus)
  | credit .. | reverse .. => Bool
  | pending .. | reorgWindow .. => List (Uuid × Deposit)
  | relocate .. | setConfirmations .. => Unit
  | blockHash .. => Option String
  | transactionLocation .. => Except Unit (Option (ℤ × String))

abbrev Op.Res : Op → Type
  | numbers op => op.Res
  | supplier op => op.Res
  | payouts op => op.Res
  | funding op => op.Res
  | watcher op => op.Res
  | clock => Time
  | auditReplay .. => Bool

/-! ## Execution -/

/-- The token a claim was granted under, with the claimed row. -/
def withToken (token : Uuid) (r : StmtResult (Option Order)) :
    Option (Option (Uuid × Order) × NumbersDb × Log) :=
  r.map fun (row, db, es) => (row.map (fun o => (token, o)), db, es)

/-- `claim_slot`: the slot taken, or none when every slot is taken or locked. -/
def execClaimSlot (now : Time) (token : Uuid) (slot : Option ℕ) (db : NumbersDb) :
    StmtResult (Option ℕ) :=
  match slot with
  | none => some (none, db, [])
  | some s => (claimSlot now token s db).map fun db' => (some s, db', [])

/-- What each operation on number orders does to their tables. -/
def execNumbers (cfg : Config) (tid : ℕ) (now : Time) (ω : Oracle) (db : NumbersDb) :
    (op : NumberOp) → Option (op.Res × NumbersDb × Log)
  | .reserve userId key body => reserveOrder cfg now ω.fresh ω.catalogue userId key body db
  | .claimPurchase id =>
      ω.fresh.head?.bind fun token => withToken token (claimPurchase now tid id token db)
  | .sweepClaim id =>
      ω.fresh.head?.bind fun token => withToken token (sweepClaim now tid id token db)
  | .tryClaimOrder id =>
      ω.fresh.head?.bind fun token => withToken token (tryClaimOrder now tid id token db)
  | .tryClaimHeldOrder id =>
      ω.fresh.head?.bind fun token => withToken token (tryClaimHeldOrder now tid id token db)
  | .releaseOrder id token delay error => releaseOrder now id token delay error db
  | .releaseClaim id token => releaseClaim id token db
  | .markReview id token reason => markReviewRequired now id token reason db
  | .assign id token a => assignActivation now id token a db
  | .pin id s => pinSource id s.provider s.country s.product s.operator db
  | .recoverAssign id token a => recoverActivation now id token a db
  | .applyClaimed id token via transition =>
      applyInner now ω.fresh id (some token) via transition db
  | .applyCheck id token check => applyCheck now ω.fresh id token check db
  | .readOrder id =>
      some ((db.orders.get? id).map (fun o => (o, inboxOf db.messages id)), db,
        ((db.orders.get? id).map (Event.read id)).toList)
  | .taken id providerOrderId => some (activationTaken id providerOrderId db, db, [])
  | .claimSlot token => execClaimSlot now token ω.slot db
  | .releaseSlot slot token => some ((), releaseSlot slot token db, [])

/-- The answer to a purchase call, with the supplier it was read from.  The stub always sells
a number. -/
def purchaseAnswer (cfg : Config) (supplier : Supplier) (answer : BuyAnswer) :
    Option BuyAnswer :=
  match answer with
  | .bought a => some (.bought { a with issuedBy := supplier })
  | other => if supplier = .primary && !cfg.providers.primaryLive then none else some other

/-- What a purchase answer hands to the order. -/
def handedBy (order : Uuid) (label : SupplierLabel) : BuyAnswer → Log
  | .bought a => [.handed order label a]
  | _ => []

/-- Calls to suppliers change no table. -/
def execSupplier (cfg : Config) (tid : ℕ) (ω : Oracle) (w : World) :
    (op : SupplierOp) → Option (op.Res × Log)
  | .buyStart order token label =>
      some (w.log.length,
        [.purchaseStarted ⟨w.log.length, order, token, label, tid, w.now, w.orders.get? order⟩])
  | .buyAnswer call order label supplier =>
      (purchaseAnswer cfg supplier ω.buy).map fun answer =>
        (answer, handedBy order label answer ++ [.purchaseAnswered call order answer])
  | .recentInPurchase order label country product =>
      let found := ω.recent.bind (recoverRecentBuy cfg.fivesimCurrency country product)
      some (found, (found.map (fun a => Event.handed order label a)).toList)
  | .recentForRecovery order country product =>
      let found := ω.recent.bind (recoverRecentBuy cfg.fivesimCurrency country product)
      some (found, (found.map (fun a => Event.found order a)).toList)
  | .check order supplier id => some (ω.check, [.asked order supplier id])
  | .cancel order supplier id => some (ω.cancel, [.asked order supplier id])

/-- What each payout operation does. -/
def execPayouts (now : Time) (ω : Oracle) (db : PayoutsDb) :
    (op : PayoutOp) → Option (op.Res × PayoutsDb × Log)
  | .readUser userId => some (⟨ω.pinSet, ω.pinMatches, db.tiers userId⟩, db, [])
  | .usedToday userId => some (usedToday now db.payouts userId, db, [])
  | .resolveDestination _ _ => some (ω.destination, db, [])
  | .reserve userId key amount bank => reservePayout now ω.fresh userId key amount bank db

/-- The provider's answer about a charge.  The stub confirms every intent at its own amount. -/
def chargeAnswer (cfg : Config) (ω : Oracle) (amount : ℚ) : ChargeState :=
  if cfg.fundingLive then ω.charge else .succeeded amount

/-- What each funding operation does. -/
def execFunding (cfg : Config) (now : Time) (ω : Oracle) (db : FundingDb) :
    (op : FundingOp) → Option (op.Res × FundingDb × Log)
  | .insertIntent userId amount =>
      (insertIntent now ω.fresh userId amount cfg.fundingLive db).map fun r => (r.1, r.2, [])
  | .initCharge _ _ => some (ω.initCharge, db, [])
  | .readIntent id => some (db.intents.get? id, db, [])
  | .verify reference amount =>
      some (chargeAnswer cfg ω amount, db, [.verified reference (chargeAnswer cfg ω amount)])
  | .credit id userId reference amount =>
      if ω.dbFails then some (false, db, [])
      else (creditIntent ω.fresh id userId reference amount db).map fun r => (true, r.2)
  | .fail id reason =>
      if ω.dbFails then some (false, db, [])
      else (failIntent id reason db).map fun db' => (true, db', [])
  | .pending => some (pendingIntents now db, db, [])
  | .abandon => (abandonIntents now db).map fun db' => ((), db', abandonedBy now db)

/-- What each watcher operation does.  The callers of the first three carry on when the
statement fails. -/
def execWatcher (ω : Oracle) (db : WatcherDb) :
    (op : WatcherOp) → Option (op.Res × WatcherDb × Log)
  | .walletFor network address =>
      some (if ω.dbFails then none else walletFor network address db, db, [])
  | .upsert t userId walletId confirmations status =>
      if ω.dbFails then some (none, db, [])
      else (upsertDeposit ω.fresh t userId walletId confirmations status db).map
        fun r => (some r.1, r.2, [])
  | .credit id t =>
      if ω.dbFails then some (false, db, []) else creditDeposit ω.fresh id t db
  | .reverse id t => reverseDeposit ω.fresh id t db
  | .pending network => some (pendingDeposits network db, db, [])
  | .reorgWindow network fromBlock => some (reorgWindow network fromBlock db, db, [])
  | .relocate id number hash => (relocateDeposit id number hash db).map fun db' => ((), db', [])
  | .setConfirmations id n => (setConfirmations id n db).map fun db' => ((), db', [])
  | .blockHash _ => some (ω.blockHash, db, [])
  | .transactionLocation _ => some (ω.location, db, [])

/-- One operation, its fresh identifiers accounted for. -/
def execOp (cfg : Config) (tid : ℕ) (ω : Oracle) (w : World) :
    (op : Op) → Option (op.Res × World)
  | .numbers op =>
      (execNumbers cfg tid w.now ω w.numbers op).map fun r => (r.1, w.putNumbers r.2.1 r.2.2)
  | .supplier op => (execSupplier cfg tid ω w op).map fun r => (r.1, w.record r.2)
  | .payouts op =>
      (execPayouts w.now ω w.payoutsDb op).map fun r => (r.1, w.putPayouts r.2.1 r.2.2)
  | .funding op =>
      (execFunding cfg w.now ω w.fundingDb op).map fun r => (r.1, w.putFunding r.2.1 r.2.2)
  | .watcher op =>
      (execWatcher ω w.watcherDb op).map fun r => (r.1, w.putWatcher r.2.1 r.2.2)
  | .clock => some (w.now, w)
  | .auditReplay _ => some (ω.audited, w)

/-- The identifiers of the oracle are new. -/
def Fresh (ω : Oracle) (w : World) : Prop := ω.fresh.Nodup ∧ ∀ u ∈ ω.fresh, u ∉ w.used

-- Spelled out, as there are only finitely many identifiers and instance search would try all.
instance (ω : Oracle) (w : World) : Decidable (Fresh ω w) :=
  @instDecidableAnd _ _ inferInstance (List.decidableBAll (fun u => u ∉ w.used) ω.fresh)

/-- One atomic step. -/
def exec (cfg : Config) (tid : ℕ) (op : Op) (ω : Oracle) (w : World) :
    Option (op.Res × World) :=
  if Fresh ω w then execOp cfg tid ω { w with used := ω.fresh ++ w.used } op else none

/-- What happens without the program: time passes, a user opens a deposit address, a user's
verification is decided. -/
inductive EnvMove where
  | tick (d : Time)
  | openWallet (wallet : Wallet)
  | setTier (userId : Uuid) (tier : KycTier)

def execEnv : EnvMove → World → Option World
  | .tick d, w => some { w with now := w.now + d }
  | .openWallet wallet, w => some { w with wallets := wallet :: w.wallets }
  | .setTier userId tier, w => some { w with tiers := Function.update w.tiers userId tier }

end Naivolt
