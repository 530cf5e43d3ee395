import Naivolt.Operators.AuditLog
import Naivolt.System.Handlers

/-!
# The operators' desk

The three operator actions that leave an audit row — `refund_order` and `recheck_order` of
`admin_recovery.rs`, `put_sell_settings` of `admin_routes.rs` — beside everything else the
backend does.  `desk` is the backend with the audit log, the operators' alerts and the sell
settings next to its world: an operation of the backend leaves these alone, and `insert_audit` is
two operations, the read of the last hash and the insert, between which anything may happen.

`Desk.refunds` is history that the program never reads: the refunds `refund_order` has committed,
each with the operator and the key it came with.  The operator is the one `require_operator` has
found; its own statements are left out.
-/

namespace Naivolt

open Foundation

/-! ## Suppliers on sale -/

/-- `SellSettings`: a `BTreeMap` from suppliers to flags. -/
structure SellSettings where
  enabled : List (String × Bool)
  ascending : Ascending enabled

namespace SellSettings

def isEnabled (s : SellSettings) (provider : String) : Bool :=
  s.enabled.any fun f => f.1 = provider && f.2

/-- `any_enabled`. -/
def anyEnabled (s : SellSettings) : Bool := s.enabled.any (·.2)

/-- `wanted.insert(provider, enabled)`. -/
def put (s : SellSettings) (provider : String) (enabled : Bool) : SellSettings :=
  ⟨putKey provider enabled s.enabled, s.ascending.putKey _ _⟩

/-- `seed`: 5SIM on, everything else off. -/
def seed : SellSettings :=
  ⟨[("daisysms", false), ("fivesim", true), ("smsactivate", false), ("smshub", false),
    ("smspool", false), ("tigersms", false)], by decide⟩

end SellSettings

/-- `KNOWN_PROVIDERS`. -/
def knownProviders : List String :=
  ["fivesim", "smspool", "smsactivate", "daisysms", "smshub", "tigersms"]

/-- `number_sell::AUDIT_TARGET`. -/
def sellAuditTarget : Uuid := 1

/-! ## Audit rows -/

/-- What an audit row is about. -/
inductive AuditAction where
  | refund | recheck | sellSettings
  deriving DecidableEq, Repr

def AuditAction.text : AuditAction → String
  | refund => "number_refund"
  | recheck => "number_recheck"
  | sellSettings => "sell_settings"

/-- The `status` column. -/
def OrderStatus.text : OrderStatus → String
  | reserved => "reserved"
  | awaitingCode => "awaiting_code"
  | delivered => "delivered"
  | expired => "expired"
  | cancelled => "cancelled"
  | failed => "failed"
  | reviewRequired => "review_required"

/-- What `order_journals` reads. -/
structure OrderJournals where
  status : OrderStatus
  reserved : Option Uuid
  refunded : Option Uuid
  settled : Option Uuid
  deriving DecidableEq

/-- An identifier or `null`. -/
def auditUuid : Option Uuid → AuditValue
  | some id => .text id.hyphenated
  | none => .null

lemma canonical_auditUuid (id : Option Uuid) : (auditUuid id).Canonical := by
  cases id <;> trivial

/-- `journal_snapshot`. -/
def journalSnapshot (j : OrderJournals) : Snapshot where
  fields := [("refundedJournalId", auditUuid j.refunded),
    ("reservedJournalId", auditUuid j.reserved), ("settledJournalId", auditUuid j.settled),
    ("status", .text j.status.text)]
  ascending := by
    simp only [Ascending, List.pairwise_cons, List.mem_cons, List.not_mem_nil, or_false,
      forall_eq_or_imp, forall_eq, IsEmpty.forall_iff, implies_true, List.Pairwise.nil, and_true]
    decide
  canonical := by
    simp only [List.mem_cons, List.not_mem_nil, or_false, forall_eq_or_imp, forall_eq,
      canonical_auditUuid, true_and]
    trivial

/-- The `after` of a refund: the idempotency key, and the reason if one was given. -/
def refundSnapshot (j : OrderJournals) (key : Uuid) (reason : Option String) : Snapshot :=
  let keyed := (journalSnapshot j).insertText "idempotencyKey" key.hyphenated
  match (reason.map trimText).filter (!·.toList.isEmpty) with
  | none => keyed
  | some reason => keyed.insertText "reason" (String.ofList (reason.toList.take 200))

/-- What the audit row of `put_sell_settings` says of the settings. -/
def settingsSnapshot (s : SellSettings) : Snapshot where
  fields := [("fivesimEnabled", .flag (s.isEnabled "fivesim")), ("providers", .flags s.enabled),
    ("smspoolEnabled", .flag (s.isEnabled "smspool"))]
  ascending := by
    simp only [Ascending, List.pairwise_cons, List.mem_cons, List.not_mem_nil, or_false,
      forall_eq_or_imp, forall_eq, IsEmpty.forall_iff, implies_true, List.Pairwise.nil, and_true]
    decide
  canonical := by
    simp only [List.mem_cons, List.not_mem_nil, or_false, forall_eq_or_imp, forall_eq]
    exact ⟨trivial, s.ascending, trivial⟩

/-! ## State and operations -/

/-- A refund that `refund_order` has committed, with the journal that was posted. -/
structure OperatorRefund where
  order : Uuid
  operator : Uuid
  key : Uuid
  journal : Option Uuid
  deriving DecidableEq

/-- The backend's world with the tables of the desk. -/
structure Desk where
  world : World
  /-- `audit_log` by identifier, the greatest first. -/
  audit : List AuditRow
  /-- The dedupe keys of `operator_alerts`. -/
  alerts : List String
  sell : SellSettings
  refunds : List OperatorRefund

/-- One atomic step. -/
inductive DeskOp where
  | backend (op : Op)
  | findReplay (order key : Uuid)
  | journals (order : Uuid)
  /-- `apply_claimed` as `refund_order` calls it. -/
  | refundClaimed (order claim operator key : Uuid)
  | lastHash
  | insertAudit (operator : Uuid) (action : AuditAction) (target : Uuid)
      (before after : Snapshot) (prev : Option String)
  | alert (order : Uuid) (dedupeKey : String)
  | sellRows
  | storeSell (provider : String) (enabled : Bool)

abbrev DeskOp.Res : DeskOp → Type
  | backend op => op.Res
  | findReplay .. => Option ℕ
  | journals _ => Option OrderJournals
  | refundClaimed .. => Except ApiError TransitionOutcome
  | lastHash => Option String
  | insertAudit .. => ℕ
  | alert .. | storeSell .. => Unit
  | sellRows => SellSettings

/-- What the program does not decide: beside the backend's oracle, the next value of the
sequence behind `audit_log.id`. -/
structure DeskOracle where
  backend : Oracle := {}
  auditId : ℕ := 0

/-- The backend's configuration, and hexadecimal SHA-256. -/
structure DeskConfig where
  backend : Config
  sha256 : List Char → String

/-- The refund that has been committed, if one was. -/
def refundRecord (order operator key : Uuid) (w : World) :
    Except ApiError TransitionOutcome → List OperatorRefund
  | .ok .applied => [⟨order, operator, key, (w.orders.get? order).bind Order.refundedJournalId⟩]
  | _ => []

/-- What each operation does. -/
def execDesk (cfg : DeskConfig) (tid : ℕ) (ω : DeskOracle) (d : Desk) :
    (op : DeskOp) → Option (op.Res × Desk)
  | .backend op =>
      (exec cfg.backend tid op ω.backend d.world).map fun r => (r.1, { d with world := r.2 })
  | .findReplay order key =>
      some (Naivolt.findReplay d.audit AuditAction.refund.text order.hyphenated key.hyphenated, d)
  | .journals order =>
      some ((d.world.orders.get? order).map fun o =>
        ⟨o.status, some o.reservedJournalId, o.refundedJournalId, o.settledJournalId⟩, d)
  | .refundClaimed order claim operator key =>
      (exec cfg.backend tid
        (.numbers (.applyClaimed order claim .operator (.refund .cancelled "operator")))
        ω.backend d.world).map fun r => (r.1, { d with
          world := r.2, refunds := refundRecord order operator key r.2 r.1 ++ d.refunds })
  | .lastHash => some (Naivolt.lastHash d.audit, d)
  | .insertAudit operator action target before after prev =>
      if d.audit.any (·.id = ω.auditId) then none
      else some (ω.auditId, { d with audit := insertRow (newRow cfg.sha256 ω.auditId operator
        action.text target.hyphenated before after prev) d.audit })
  | .alert _ dedupeKey =>
      some ((), { d with
        alerts := if dedupeKey ∈ d.alerts then d.alerts else dedupeKey :: d.alerts })
  | .sellRows => some (d.sell, d)
  | .storeSell provider enabled => some ((), { d with sell := d.sell.put provider enabled })

/-! ## Handlers -/

/-- A handler at the desk. -/
abbrev DeskHandler (α : Type) := Prog DeskOp DeskOp.Res α

abbrev desk (op : DeskOp) : DeskHandler op.Res := Prog.perform op

/-- A handler of the backend, run at the desk. -/
def onBackend {α : Type} : Handler α → DeskHandler α
  | .ret a => .ret a
  | .call op k => .call (.backend op) fun r => onBackend (k r)

/-- `ApiError`, with the variant only `put_sell_settings` raises. -/
inductive DeskError where
  | api (e : ApiError)
  | lastProvider
  deriving DecidableEq

inductive DeskResponse where
  /-- `OrderDetail`, as the row it is read from. -/
  | detail (id : Uuid) (o : Order)
  | settings (s : SellSettings)
  | backend (r : Response)

abbrev DeskResult := Except DeskError DeskResponse

def refuse (e : ApiError) : DeskHandler DeskResult := pure (.error (.api e))

/-- `insert_audit`. -/
def insertAudit (operator : Uuid) (action : AuditAction) (target : Uuid)
    (before after : Snapshot) : DeskHandler ℕ := do
  let prev ← desk .lastHash
  desk (.insertAudit operator action target before after prev)

/-- `load_detail`. -/
def loadDetail (id : Uuid) : DeskHandler DeskResult := do
  match ← desk (.backend (.numbers (.readOrder id))) with
  | none => refuse .notFound
  | some (o, _) => pure (.ok (.detail id o))

/-- `map_claim_err`. -/
def mapClaimErr : ApiError → ApiError
  | .conflict message =>
      if containsText (String.ofList (lowerAscii message)) "claim" then .claimConflict
      else .conflict message
  | e => e

/-- `reject_if_claimed`, and the refusal after it. -/
def rejectClaimed (id : Uuid) : DeskHandler DeskResult := do
  match ← onBackend (rejectIfClaimed id) with
  | .error e => refuse e
  | .ok _ => refuse .claimConflict

/-- The end of `refund_order`, once the refund is committed. -/
def auditRefund (operator key id : Uuid) (reason : Option String) (before : OrderJournals) :
    DeskHandler DeskResult := do
  match ← desk (.journals id) with
  | none => refuse .notFound
  | some after => do
    let auditId ← insertAudit operator .refund id (journalSnapshot before)
      (refundSnapshot after key reason)
    desk (.alert id ("number-refund:" ++ id.hyphenated ++ ":" ++ toString auditId))
    loadDetail id

/-- `refund_order`. -/
def refundAtDesk (cfg : DeskConfig) (operator key id : Uuid) (reason : Option String) :
    DeskHandler DeskResult := do
  match ← desk (.findReplay id key) with
  | some _ => loadDetail id
  | none =>
    match ← desk (.backend (.numbers (.readOrder id))) with
    | none => refuse .notFound
    | some (o, _) =>
      if o.refundedJournalId.isSome || !o.status.moneyOpen then
        refuse (.conflict "This order is not holding a reservation that can be refunded.")
      else if cfg.backend.adminRefundCapNgn < o.priceNgn then refuse .refundCap
      else
        match ← desk (.journals id) with
        | none => refuse .notFound
        | some before =>
          match ← desk (.backend (.numbers (.tryClaimHeldOrder id))) with
          | none => rejectClaimed id
          | some (claim, _) =>
            match ← desk (.refundClaimed id claim operator key) with
            | .error e => refuse (mapClaimErr e)
            | .ok _ => auditRefund operator key id reason before

/-- `recheck_order` leaves its audit row and answers. -/
def auditRecheck (operator id : Uuid) (before : OrderJournals) : DeskHandler DeskResult := do
  match ← desk (.journals id) with
  | none => refuse .notFound
  | some after => do
    let _ ← insertAudit operator .recheck id (journalSnapshot before) (journalSnapshot after)
    loadDetail id

/-- `recheck_order` on an order with an activation, read as `o`. -/
def recheckAtSupplier (cfg : DeskConfig) (operator id claim : Uuid) (o : Order)
    (providerOrderId : String) (before : OrderJournals) : DeskHandler DeskResult := do
  match ← desk (.backend (.numbers (.claimSlot claim))) with
  | none => do
    let _ ← desk (.backend (.numbers (.releaseOrder id claim (seconds 1) none)))
    refuse (.serviceUnavailable "Supplier checks are busy. Try again shortly.")
  | some slot => do
    let checked ← onBackend (checkFor cfg.backend id o.provider providerOrderId)
    desk (.backend (.numbers (.releaseSlot slot claim)))
    match checked with
    | .ok check => do
      let now ← desk (.backend .clock)
      match ← onBackend (applyReconciled cfg.backend id claim o.provider providerOrderId
          (o.expiresAt.any (fun expiry => expiry ≤ now)) check) with
      | .error e => refuse (mapClaimErr e)
      | .ok _ => auditRecheck operator id before
    | .error _ => do
      let _ ← desk (.backend (.numbers (.releaseOrder id claim (seconds 15)
        (some "provider_unavailable"))))
      if 4 ≤ o.reconcileAttemptCount then do
        desk (.alert id ("number-recheck-exhausted:" ++ id.hyphenated))
        loadDetail id
      else loadDetail id

/-- `recheck_order` once it holds a claim, on the row as it was read before. -/
def recheckAtDeskClaimed (cfg : DeskConfig) (operator id claim : Uuid) (o : Order)
    (before : OrderJournals) : DeskHandler DeskResult :=
  if o.status = .reserved && o.purchaseStartedAt.isNone then do
    match ← desk (.backend (.numbers (.applyClaimed id claim .operator
        (.refund .failed "purchase_not_started")))) with
    | .error e => refuse e
    | .ok _ => auditRecheck operator id before
  else if o.status = .reserved && o.providerOrderId.isNone then do
    if ← desk (.backend (.numbers (.markReview id claim "purchase_outcome_unknown"))) then
      auditRecheck operator id before
    else refuse claimNoLongerCurrent
  else
    match o.providerOrderId with
    | none => do
      let _ ← desk (.backend (.numbers (.releaseOrder id claim (seconds 1) none)))
      refuse .recheckUnavailable
    | some providerOrderId => recheckAtSupplier cfg operator id claim o providerOrderId before

/-- `recheck_order`. -/
def recheckAtDesk (cfg : DeskConfig) (operator id : Uuid) : DeskHandler DeskResult := do
  match ← desk (.backend (.numbers (.readOrder id))) with
  | none => refuse .notFound
  | some (o, _) =>
    if o.status = .reviewRequired && o.providerOrderId.isNone then refuse .recheckUnavailable
    else
      match ← desk (.journals id) with
      | none => refuse .notFound
      | some before =>
        match ← desk (.backend (.numbers (.tryClaimHeldOrder id))) with
        | none => rejectClaimed id
        | some (claim, _) => recheckAtDeskClaimed cfg operator id claim o before

/-- `store`, and the loop of `load` that recreates the seed. -/
def storeAll : List (String × Bool) → DeskHandler Unit
  | [] => pure ()
  | (provider, enabled) :: rest => do
    desk (.storeSell provider enabled)
    storeAll rest

/-- `number_sell::load`. -/
def loadSettings : DeskHandler SellSettings := do
  let rows ← desk .sellRows
  if rows.anyEnabled then pure rows
  else do
    storeAll (knownProviders.map fun p => (p, p = "fivesim"))
    pure .seed

/-- `SellSettingsBody`. -/
structure SellSettingsBody where
  fivesimEnabled : Bool
  smspoolEnabled : Bool
  providers : List (String × Bool)

/-- What the body asks for, starting from what is stored. -/
def SellSettingsBody.wanted (body : SellSettingsBody) (before : SellSettings) : SellSettings :=
  body.providers.foldl (fun s p => if p.1 ∈ knownProviders then s.put p.1 p.2 else s)
    ((before.put "fivesim" body.fivesimEnabled).put "smspool" body.smspoolEnabled)

/-- `put_sell_settings`. -/
def putSellSettings (operator : Uuid) (body : SellSettingsBody) : DeskHandler DeskResult := do
  let before ← loadSettings
  let wanted := body.wanted before
  if !wanted.anyEnabled then pure (.error .lastProvider)
  else do
    storeAll wanted.enabled
    let _ ← insertAudit operator .sellSettings sellAuditTarget (settingsSnapshot before)
      (settingsSnapshot wanted)
    pure (.ok (.settings wanted))

/-! ## The machine -/

/-- The request is an operator's. -/
def Request.byOperator : Request → Bool
  | .recheckOrder _ | .refundOrder _ => true
  | _ => false

/-- An operator's action, or anything else the backend serves. -/
inductive DeskRequest where
  | backend (req : { req : Request // req.byOperator = false })
  | refundOrder (operator key id : Uuid) (reason : Option String)
  | recheckOrder (operator id : Uuid)
  | putSellSettings (operator : Uuid) (body : SellSettingsBody)

/-- The answer of a handler of the backend. -/
def fromBackend : Result → DeskResult
  | .ok r => .ok (.backend r)
  | .error e => .error (.api e)

def deskProgram (cfg : DeskConfig) : DeskRequest → DeskHandler DeskResult
  | .backend req => onBackend (program cfg.backend req.1) >>= fun r => pure (fromBackend r)
  | .refundOrder operator key id reason => refundAtDesk cfg operator key id reason
  | .recheckOrder operator id => recheckAtDesk cfg operator id
  | .putSellSettings operator body => Naivolt.putSellSettings operator body

/-- The backend with its operators. -/
def deskMachine (cfg : DeskConfig) :
    Machine DeskOp DeskOp.Res DeskOracle EnvMove Desk DeskRequest Time DeskResult where
  exec tid op ω d := execDesk cfg tid ω d op
  env e d := (execEnv e d.world).map fun w => { d with world := w }
  program := deskProgram cfg
  stamp d := d.world.now

/-- A state of the desk. -/
abbrev DeskState := Sys DeskOp DeskOp.Res Desk DeskRequest Time DeskResult

/-- A freshly migrated database with nothing running. -/
def deskInitial (now : Time) (wallets : List Wallet) : DeskState :=
  Sys.idle ⟨World.fresh now wallets, [], [], .seed, []⟩

end Naivolt
