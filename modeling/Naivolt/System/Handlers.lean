import Naivolt.System.World

/-!
# Handlers and workers

The request handlers of the API, the reconciler's per-order work, the funding sweep and the
watcher's pass, as programs over the operations of `Naivolt.System.World`.  Each follows its
source statement by statement: what is read once and used later is read once and used later
here, and between any two operations anything else may happen, including the loss of the
handler (a crash, a dropped connection, the request timeout, an error it returns with `?`).

Reads that only build a response body, an audit row or a log line are left out; `loadOrder`
stands for the closing read of an order.
-/

namespace Naivolt

open Foundation

/-- A handler or worker. -/
abbrev Handler (α : Type) := Prog Op Op.Res α

/-- What a request is answered with. -/
inductive Response where
  | order (o : Order) (inbox : List Message)
  | payout (id : Uuid) (p : Payout)
  | intent (id : Uuid) (status : IntentStatus)
  | done

abbrev Result := Except ApiError Response

/-! ## Operations as handler steps -/

namespace Handler

abbrev numbers (op : NumberOp) : Handler op.Res := Prog.perform (Op.numbers op)
abbrev supplier (op : SupplierOp) : Handler op.Res := Prog.perform (Op.supplier op)
abbrev payouts (op : PayoutOp) : Handler op.Res := Prog.perform (Op.payouts op)
abbrev funding (op : FundingOp) : Handler op.Res := Prog.perform (Op.funding op)
abbrev watcher (op : WatcherOp) : Handler op.Res := Prog.perform (Op.watcher op)
abbrev clock : Handler Time := Prog.perform Op.clock
abbrev auditReplay (order : Uuid) : Handler Bool := Prog.perform (Op.auditReplay order)

end Handler

open Handler

/-! ## Suppliers -/

/-- `check_for`. -/
def checkFor (cfg : Config) (order : Uuid) (label : SupplierLabel) (providerOrderId : String) :
    Handler (Except ApiError ActivationCheck) :=
  match cfg.providers.askRoute label with
  | none => pure (.error (.serviceUnavailable
      "That number isn't available to check right now."))
  | some s => supplier (.check order s providerOrderId)

/-- `cancel_for`. -/
def cancelFor (cfg : Config) (order : Uuid) (label : SupplierLabel) (providerOrderId : String) :
    Handler (Except ApiError Unit) :=
  match cfg.providers.askRoute label with
  | none => pure (.error (.serviceUnavailable
      "That number isn't available to cancel right now."))
  | some s => supplier (.cancel order s providerOrderId)

/-- The outcome of a purchase: an activation, or `PurchaseError`. -/
abbrev Purchase := Except PurchaseError Activation

/-- One purchase call to an adapter that reports every unreadable answer as ambiguous. -/
def purchaseOnce (order token : Uuid) (label : SupplierLabel) (s : Supplier) :
    Handler Purchase := do
  let call ← supplier (.buyStart order token label)
  match ← supplier (.buyAnswer call order label s) with
  | .bought a => pure (.ok a)
  | .refused r => pure (.error (.rejected r.error))
  | .ambiguous | .unreadable => pure (.error .ambiguous)

/-- `FiveSimProvider::purchase`.  A success answer from which no order can be read is looked
up in the order history. -/
def fivesimPurchase (order token : Uuid) (label : SupplierLabel) (country product : String) :
    Handler Purchase := do
  let call ← supplier (.buyStart order token label)
  match ← supplier (.buyAnswer call order label .primary) with
  | .bought a => pure (.ok a)
  | .refused r => pure (.error (.rejected r.error))
  | .ambiguous => pure (.error .ambiguous)
  | .unreadable =>
    match ← supplier (.recentInPurchase order label country product) with
    | some a => pure (.ok a)
    | none => pure (.error .ambiguous)

/-- 5SIM's wildcard operator. -/
def anyOperator : String := "any"

/-- `FiveSimProvider::buy`: a named operator that is empty is retried with any. -/
def fivesimBuy (order token : Uuid) (label : SupplierLabel)
    (country product operator : String) : Handler Purchase := do
  let operator := if isBlank operator then anyOperator else operator
  match ← fivesimPurchase order token label country product with
  | .ok a => pure (.ok a)
  | .error e =>
    if e.isOutOfStock && !eqIgnoreAsciiCase operator anyOperator then
      fivesimPurchase order token label country product
    else pure (.error e)

/-- `AnyNumberProvider::buy_with` and `buy` on `primary`. -/
def primaryBuy (cfg : Config) (order token : Uuid) (label : SupplierLabel)
    (country product operator : String) : Handler Purchase :=
  if cfg.providers.primaryLive then fivesimBuy order token label country product operator
  else purchaseOnce order token label .primary

/-- `buy_source`. -/
def buySource (cfg : Config) (order token : Uuid) (s : Source) : Handler Purchase :=
  match cfg.providers.buyRoute s.provider with
  | .activate f => purchaseOnce order token s.provider (.activate f)
  | .smspool => purchaseOnce order token s.provider .smspool
  | .primaryWith => primaryBuy cfg order token s.provider s.country s.product s.operator
  | .primaryAny => primaryBuy cfg order token s.provider s.country s.product anyOperator
  | .refuse r => pure (.error (.rejected r.error))

/-! ## Reading an order back -/

/-- `load_order`. -/
def loadOrder (userId id : Uuid) : Handler Result := do
  match ← numbers (.readOrder id) with
  | none => pure (.error .notFound)
  | some (o, inbox) =>
    if o.userId = userId then pure (.ok (.order o inbox)) else pure (.error .notFound)

/-! ## `create_order` -/

/-- The refund of an order none of whose sources would sell. -/
def refundRejected (id token : Uuid) : Handler (Except ApiError TransitionOutcome) :=
  numbers (.applyClaimed id token .buyer (.refund .failed "supplier_rejected"))

/-- After an ambiguous purchase the order waits for review. -/
def reviewAmbiguous (userId id token : Uuid) : Handler Result := do
  if ← numbers (.markReview id token "purchase_outcome_unknown") then loadOrder userId id
  else pure (.error claimNoLongerCurrent)

/-- Store what was bought; hand it back if the order is no longer ours to move. -/
def storeActivation (cfg : Config) (userId id token : Uuid) (label : SupplierLabel)
    (a : Activation) : Handler Result := do
  let assigned ← numbers (.assign id token a)
  if !assigned && cfg.providers.isLive then
    let _ ← cancelFor cfg id label a.providerOrderId
    loadOrder userId id
  else loadOrder userId id

/-- The buy loop over an offer's sources.  `last` is the last refusal. -/
def buyLoop (cfg : Config) (userId id token : Uuid) :
    Option ApiError → List Source → Handler Result
  | last, [] => do
    match ← refundRejected id token with
    | .error e => pure (.error e)
    | .ok _ => pure (.error (last.getD optionGone))
  | _, s :: rest => do
    match ← buySource cfg id token s with
    | .ok a =>
      let _ ← numbers (.pin id s)
      storeActivation cfg userId id token s.provider a
    | .error (.rejected e) =>
      if tryNextSource e then buyLoop cfg userId id token (some e) rest
      else
        match ← refundRejected id token with
        | .error e' => pure (.error e')
        | .ok _ => pure (.error e)
    | .error .ambiguous => reviewAmbiguous userId id token

/-- The catalogue purchase. -/
def buyCatalogue (cfg : Config) (userId id token : Uuid) (q : Quote) : Handler Result := do
  match ← primaryBuy cfg id token q.label q.providerCountry q.providerProduct anyOperator with
  | .ok a => storeActivation cfg userId id token q.label a
  | .error (.rejected e) =>
    match ← refundRejected id token with
    | .error e' => pure (.error e')
    | .ok _ => pure (.error e)
  | .error .ambiguous => reviewAmbiguous userId id token

/-- `create_order` once the order is placed: claim it, then buy. -/
def purchaseOrder (cfg : Config) (userId id : Uuid) (q : Quote) : Handler Result := do
  match ← numbers (.claimPurchase id) with
  | none => loadOrder userId id
  | some (token, _) =>
    if q.offerId.isSome then buyLoop cfg userId id token none q.sources
    else buyCatalogue cfg userId id token q

/-- `create_order`. -/
def createOrder (cfg : Config) (userId key : Uuid) (body : CreateOrderBody) : Handler Result :=
  match refuseUnconfigured cfg body with
  | some e => pure (.error e)
  | none => do
    match ← numbers (.reserve userId key body) with
    | .error e => pure (.error e)
    | .ok (.replayed id) => loadOrder userId id
    | .ok (.placed id q) => purchaseOrder cfg userId id q

/-! ## Customer reads and cancels -/

/-- `status IN ('reserved', 'awaiting_code')`. -/
def beforeCode (s : OrderStatus) : Bool := s = .reserved || s = .awaitingCode

/-- `pull_inbox_from_provider`: an unclaimed check, its outcome ignored. -/
def pullInbox (cfg : Config) (userId id : Uuid) : Handler Unit :=
  if !cfg.providers.isLive then pure ()
  else do
    match ← numbers (.readOrder id) with
    | none => pure ()
    | some (o, _) =>
      match o.providerOrderId with
      | none => pure ()
      | some providerOrderId =>
        if o.userId = userId && beforeCode o.status then
          match ← checkFor cfg id o.provider providerOrderId with
          | .error _ => pure ()
          | .ok check =>
            let _ ← numbers (.applyCheck id none check)
            pure ()
        else pure ()

/-- `get_order`. -/
def getOrder (cfg : Config) (userId id : Uuid) : Handler Result := do
  pullInbox cfg userId id
  loadOrder userId id

def alreadyReceived : ApiError :=
  .conflict "That number already received a message, so it can't be cancelled."

/-- `cancel_order` once it holds a claim, for an order that had no activation when it was
read. -/
def cancelWithoutActivation (userId id claim : Uuid) : Handler Result := do
  match ← numbers (.applyClaimed id claim .customerCancel (.refund .cancelled "cancelled")) with
  | .error e => pure (.error e)
  | .ok _ => loadOrder userId id

/-- A claimed check during a cancel, then `answer`. -/
def applyAndAnswer (id claim : Uuid) (check : ActivationCheck) (answer : Handler Result) :
    Handler Result := do
  match ← numbers (.applyCheck id (some claim) check) with
  | .error e => pure (.error e)
  | .ok _ => answer

/-- Give the claim back and report that the number cannot be released. -/
def giveBack (id claim : Uuid) (message : String) : Handler Result := do
  let _ ← numbers (.releaseClaim id claim)
  pure (.error (.serviceUnavailable message))

/-- `cancel_order` once it holds a claim, for an order with an activation. -/
def cancelWithActivation (cfg : Config) (userId id claim : Uuid) (label : SupplierLabel)
    (providerOrderId : String) : Handler Result := do
  match ← checkFor cfg id label providerOrderId with
  | .error _ => giveBack id claim "We couldn't check that number just now."
  | .ok check =>
    if !check.messages.isEmpty then
      applyAndAnswer id claim check (pure (.error alreadyReceived))
    else if check.lifecycle = .closed then
      applyAndAnswer id claim check (loadOrder userId id)
    else if cfg.providers.isLive then
      match ← cancelFor cfg id label providerOrderId with
      | .error _ =>
        giveBack id claim "That number can't be released just yet — try again in a moment."
      | .ok _ => cancelWithoutActivation userId id claim
    else cancelWithoutActivation userId id claim

/-- A cancel of an order that already received something asks the supplier once more. -/
def refuseCancel (cfg : Config) (id : Uuid) (o : Order) : Handler Result :=
  if beforeCode o.status then
    match o.providerOrderId with
    | none => pure (.error alreadyReceived)
    | some providerOrderId => do
      match ← checkFor cfg id o.provider providerOrderId with
      | .error _ => pure (.error alreadyReceived)
      | .ok check =>
        let _ ← numbers (.applyCheck id none check)
        pure (.error alreadyReceived)
  else pure (.error alreadyReceived)

/-- Nothing has arrived for the order, as far as its row and inbox tell. -/
def locallyCancellable (o : Order) (inbox : List Message) : Bool :=
  beforeCode o.status && o.smsCode.all isBlank && inbox.isEmpty

/-- `cancel_order`. -/
def cancelOrder (cfg : Config) (userId id : Uuid) : Handler Result := do
  match ← numbers (.readOrder id) with
  | none => pure (.error .notFound)
  | some (o, inbox) =>
    if o.userId ≠ userId then pure (.error .notFound)
    else if o.status = .reviewRequired then loadOrder userId id
    else if !locallyCancellable o inbox then refuseCancel cfg id o
    else
      match ← numbers (.tryClaimOrder id) with
      | none => pure (.error (.conflict
          "That number is already being updated. Try again in a moment."))
      | some (claim, _) =>
        match o.providerOrderId with
        | none => cancelWithoutActivation userId id claim
        | some providerOrderId =>
          cancelWithActivation cfg userId id claim o.provider providerOrderId

/-! ## The reconciler -/

/-- `recover_activation`: only 5SIM keeps a history we can search. -/
def recoverFromHistory (cfg : Config) (id : Uuid) (country product : String) :
    Handler (Option Activation) :=
  if cfg.providers.primaryLive then supplier (.recentForRecovery id country product)
  else pure none

/-- After recovery found nothing to attach: refund once twenty minutes have passed. -/
def giveUpOrRelease (id token : Uuid) (createdAt : Time) : Handler Result := do
  let now ← clock
  if minutes 20 < now - createdAt then
    match ← numbers (.applyClaimed id token .reconciler
        (.refund .failed "purchase_unconfirmed")) with
    | .error e => pure (.error e)
    | .ok _ => pure (.ok .done)
  else
    let _ ← numbers (.releaseOrder id token (seconds 15) (some "purchase_outcome_unknown"))
    pure (.ok .done)

/-- The first look at a recovered activation. -/
def checkRecovered (cfg : Config) (id : Uuid) (label : SupplierLabel)
    (providerOrderId : String) : Handler Result := do
  match ← checkFor cfg id label providerOrderId with
  | .error _ => pure (.ok .done)
  | .ok check =>
    match ← numbers (.applyCheck id none check) with
    | .error e => pure (.error e)
    | .ok _ => pure (.ok .done)

/-- `recover_unknown_purchase`. -/
def recoverUnknownPurchase (cfg : Config) (id token : Uuid) : Handler Result := do
  match ← numbers (.readOrder id) with
  | none => pure (.ok .done)
  | some (o, _) =>
    match ← recoverFromHistory cfg id o.providerCountry o.productSlug with
    | none => giveUpOrRelease id token o.createdAt
    | some a =>
      if ← numbers (.taken id a.providerOrderId) then giveUpOrRelease id token o.createdAt
      else if ← numbers (.recoverAssign id token a) then
        checkRecovered cfg id o.provider a.providerOrderId
      else giveUpOrRelease id token o.createdAt

/-- The supplier answered the reconciler's check. -/
def applyReconciled (cfg : Config) (id token : Uuid) (label : SupplierLabel)
    (providerOrderId : String) (expired : Bool) (check : ActivationCheck) : Handler Result :=
  if check.messages.isEmpty && (check.lifecycle = .closed || expired) then do
    let _ ← cancelFor cfg id label providerOrderId
    applyAndAnswer id token check (pure (.ok .done))
  else applyAndAnswer id token check (pure (.ok .done))

/-- The delay after a failed check: fifteen seconds doubling, two minutes at most. -/
def backoff (attempts : ℕ) : Time := seconds (min (15 * 2 ^ min attempts 3) 120)

/-- The supplier could not be asked: back off. -/
def releaseUnavailable (id token : Uuid) : Handler Result := do
  match ← numbers (.readOrder id) with
  | none => pure (.error .notFound)
  | some (o, _) =>
    let _ ← numbers (.releaseOrder id token (backoff o.reconcileAttemptCount)
      (some "provider_unavailable"))
    pure (.ok .done)

/-- The reconciler's supplier check of one claimed order. -/
def checkClaimed (cfg : Config) (id token : Uuid) (o : Order) (providerOrderId : String) :
    Handler Result := do
  let now ← clock
  let expired := o.expiresAt.any (fun expiry => expiry ≤ now)
  match ← numbers (.claimSlot token) with
  | none =>
    let _ ← numbers (.releaseOrder id token (seconds 1) none)
    pure (.ok .done)
  | some slot =>
    let checked ← checkFor cfg id o.provider providerOrderId
    numbers (.releaseSlot slot token)
    match checked with
    | .ok check => applyReconciled cfg id token o.provider providerOrderId expired check
    | .error _ =>
      if o.status = .delivered && expired then
        applyAndAnswer id token .closed (pure (.ok .done))
      else releaseUnavailable id token

/-- `process`, on the row as the sweep's claim returned it. -/
def process (cfg : Config) (id token : Uuid) (o : Order) : Handler Result :=
  if o.status = .reserved then
    if o.purchaseStartedAt.isNone then do
      match ← numbers (.applyClaimed id token .reconciler
          (.refund .failed "purchase_not_started")) with
      | .error e => pure (.error e)
      | .ok _ => pure (.ok .done)
    else if o.providerOrderId.isNone then do
      if ← numbers (.markReview id token "purchase_outcome_unknown") then pure (.ok .done)
      else pure (.error claimNoLongerCurrent)
    else pure (.ok .done)
  else if o.status = .reviewRequired then recoverUnknownPurchase cfg id token
  else
    match o.providerOrderId with
    | none => pure (.error (.internal "awaiting order has no provider id"))
    | some providerOrderId => checkClaimed cfg id token o providerOrderId

/-- One order of a sweep. -/
def reconcile (cfg : Config) (id : Uuid) : Handler Result := do
  match ← numbers (.sweepClaim id) with
  | none => pure (.ok .done)
  | some (token, o) => process cfg id token o

/-! ## Operators -/

/-- `reject_if_claimed`, after the claim was refused. -/
def rejectIfClaimed (id : Uuid) : Handler Result := do
  match ← numbers (.readOrder id) with
  | none => pure (.error .notFound)
  | some (o, _) =>
    let now ← clock
    if o.claim.any (fun c => now < c.claimedUntil) then pure (.error .claimConflict)
    else pure (.error (.conflict
      "This order is not holding a reservation that can be updated."))

/-- `recheck_order` on an order with an activation. -/
def recheckActivation (cfg : Config) (id claim : Uuid) (o : Order) (providerOrderId : String) :
    Handler Result := do
  match ← numbers (.claimSlot claim) with
  | none =>
    let _ ← numbers (.releaseOrder id claim (seconds 1) none)
    pure (.error (.serviceUnavailable "Supplier checks are busy. Try again shortly."))
  | some slot =>
    let checked ← checkFor cfg id o.provider providerOrderId
    numbers (.releaseSlot slot claim)
    match checked with
    | .ok check =>
      let now ← clock
      applyReconciled cfg id claim o.provider providerOrderId
        (o.expiresAt.any (fun expiry => expiry ≤ now)) check
    | .error _ =>
      let _ ← numbers (.releaseOrder id claim (seconds 15) (some "provider_unavailable"))
      pure (.ok .done)

/-- `recheck_order` once it holds a claim, on the row as it was read before. -/
def recheckClaimed (cfg : Config) (id claim : Uuid) (o : Order) : Handler Result :=
  if o.status = .reserved && o.purchaseStartedAt.isNone then do
    match ← numbers (.applyClaimed id claim .operator
        (.refund .failed "purchase_not_started")) with
    | .error e => pure (.error e)
    | .ok _ => pure (.ok .done)
  else if o.status = .reserved && o.providerOrderId.isNone then do
    if ← numbers (.markReview id claim "purchase_outcome_unknown") then pure (.ok .done)
    else pure (.error claimNoLongerCurrent)
  else
    match o.providerOrderId with
    | none => do
      let _ ← numbers (.releaseOrder id claim (seconds 1) none)
      pure (.error .recheckUnavailable)
    | some providerOrderId => recheckActivation cfg id claim o providerOrderId

/-- `recheck_order`. -/
def recheckOrder (cfg : Config) (id : Uuid) : Handler Result := do
  match ← numbers (.readOrder id) with
  | none => pure (.error .notFound)
  | some (o, _) =>
    if o.status = .reviewRequired && o.providerOrderId.isNone then
      pure (.error .recheckUnavailable)
    else
      match ← numbers (.tryClaimHeldOrder id) with
      | none => rejectIfClaimed id
      | some (claim, _) => recheckClaimed cfg id claim o

/-- `refund_order`. -/
def refundOrder (cfg : Config) (id : Uuid) : Handler Result := do
  if ← auditReplay id then pure (.ok .done)
  else
    match ← numbers (.readOrder id) with
    | none => pure (.error .notFound)
    | some (o, _) =>
      if o.refundedJournalId.isSome || !o.status.moneyOpen then
        pure (.error (.conflict "This order is not holding a reservation that can be refunded."))
      else if cfg.adminRefundCapNgn < o.priceNgn then pure (.error .refundCap)
      else
        match ← numbers (.tryClaimHeldOrder id) with
        | none => rejectIfClaimed id
        | some (claim, _) =>
          match ← numbers (.applyClaimed id claim .operator (.refund .cancelled "operator")) with
          | .error e => pure (.error e)
          | .ok _ => pure (.ok .done)

/-! ## Payouts and top-ups -/

/-- `create_payout`. -/
def createPayout (userId : Uuid) (key : String) (body : CreatePayoutBody) : Handler Result :=
  match checkAmount body with
  | .error e => pure (.error e)
  | .ok () => do
    let user ← payouts (.readUser userId)
    match checkPin user with
    | .error e => pure (.error e)
    | .ok () =>
      let used ← payouts (.usedToday userId)
      match checkPayout user.tier body.amountNgn used with
      | .error e => pure (.error e)
      | .ok () =>
        match ← payouts (.resolveDestination userId body) with
        | .error e => pure (.error e)
        | .ok bank =>
          match ← payouts (.reserve userId key body.amountNgn bank) with
          | .error e => pure (.error e)
          | .ok (id, p) => pure (.ok (.payout id p))

/-- `settle` of `funding_routes.rs`: the status the intent now holds, none when the database
failed. -/
def settleIntent (id userId : Uuid) (reference : String) (amount : ℚ) :
    Handler (Option IntentStatus) := do
  match ← funding (.verify reference amount) with
  | .succeeded charged =>
    if ← funding (.credit id userId reference charged) then pure (some .succeeded)
    else pure none
  | .failed reason =>
    if ← funding (.fail id reason) then pure (some .failed) else pure none
  | .pending | .unreachable => pure (some .pending)

/-- `get_intent`. -/
def getIntent (userId id : Uuid) : Handler Result := do
  match ← funding (.readIntent id) with
  | none => pure (.error .notFound)
  | some i =>
    if i.userId ≠ userId then pure (.error .notFound)
    else if i.status = .pending then
      match ← settleIntent id userId i.reference i.amountNgn with
      | none => pure (.error (.internal "database error"))
      | some status => pure (.ok (.intent id status))
    else pure (.ok (.intent id i.status))

/-- `create_intent`. -/
def createIntent (userId : Uuid) (amount : ℚ) (scale : ℕ) : Handler Result :=
  match checkFundingAmount amount scale with
  | .error e => pure (.error e)
  | .ok () => do
    let (id, i) ← funding (.insertIntent userId amount)
    match ← funding (.initCharge i.reference amount) with
    | .error e => pure (.error e)
    | .ok _ => pure (.ok (.intent id .pending))

/-- The intents of a sweep, one after the other; one that fails is passed over. -/
def settleAll : List (Uuid × Intent) → Handler Unit
  | [] => pure ()
  | (id, i) :: rest => do
    let _ ← settleIntent id i.userId i.reference i.amountNgn
    settleAll rest

/-- `sweep` of `funding_reconciler.rs`.  The reconciler is not started with the stub. -/
def fundingSweep (cfg : Config) : Handler Result :=
  if !cfg.fundingLive then pure (.ok .done)
  else do
    let rows ← funding .pending
    settleAll rows
    funding .abandon
    pure (.ok .done)

/-! ## The watcher -/

/-- The status and confirmations a first observation records. -/
def recordedAs (t : ObservedTransfer) (head : ℤ) : DepositStatus × ℤ :=
  match classify t head with
  | .ignoreDust _ => (.ignored, 0)
  | .record confirmations | .credit confirmations => (.seen, confirmations)

/-- The transfer is deep enough to credit. -/
def creditable (t : ObservedTransfer) (head : ℤ) : Bool :=
  match classify t head with
  | .credit _ => true
  | _ => false

/-- `handle_transfer`. -/
def handleTransfer (t : ObservedTransfer) (head : ℤ) : Handler Unit := do
  match ← watcher (.walletFor t.network t.toAddress) with
  | none => pure ()
  | some (walletId, userId) =>
    match ← watcher (.upsert t userId walletId (recordedAs t head).2 (recordedAs t head).1) with
    | none => pure ()
    | some (id, status) =>
      if status = .confirmed || status = .reversed then pure ()
      else if creditable t head then
        let _ ← watcher (.credit id t)
        pure ()
      else pure ()

/-- `handle_transfer` on every transfer a scan returned. -/
def handleTransfers (head : ℤ) : List ObservedTransfer → Handler Unit
  | [] => pure ()
  | t :: rest => do
    handleTransfer t head
    handleTransfers head rest

/-- `advance_pending` over the rows it read. -/
def advanceRows (network : Network) (head : ℤ) : List (Uuid × Deposit) → Handler Unit
  | [] => pure ()
  | (id, d) :: rest => do
    if confirmationsAt head d.blockNumber < network.minConfirmations then
      watcher (.setConfirmations id (confirmationsAt head d.blockNumber))
      advanceRows network head rest
    else
      let _ ← watcher (.credit id (transferOfRow network d))
      advanceRows network head rest

/-- `advance_pending`. -/
def advancePending (network : Network) (head : ℤ) : Handler Unit := do
  let rows ← watcher (.pending network)
  advanceRows network head rows

/-- The hash at a height, asked for once per pass. -/
def cachedHash (cache : List (ℤ × Option String)) (number : ℤ) :
    Handler (Option String × List (ℤ × Option String)) :=
  match cache.find? (fun c => c.1 = number) with
  | some c => pure (c.2, cache)
  | none => do
    let hash ← watcher (.blockHash number)
    pure (hash, (number, hash) :: cache)

/-- The block a deposit was credited from is gone: find the transaction again, or reverse. -/
def relocateOrReverse (network : Network) (id : Uuid) (d : Deposit) : Handler Unit := do
  match ← watcher (.transactionLocation d.txHash) with
  | .error () => pure ()
  | .ok (some (number, hash)) => watcher (.relocate id number hash)
  | .ok none =>
    let _ ← watcher (.reverse id (transferOfRow network d))
    pure ()

/-- `check_reorgs` over the rows it read. -/
def reorgRows (network : Network) :
    List (ℤ × Option String) → List (Uuid × Deposit) → Handler Unit
  | _, [] => pure ()
  | cache, (id, d) :: rest =>
    if d.blockHash.all (· = "") then reorgRows network cache rest
    else do
      let (current, cache) ← cachedHash cache d.blockNumber
      match current with
      | none => reorgRows network cache rest
      | some hash =>
        if eqIgnoreAsciiCase hash (d.blockHash.getD "") then reorgRows network cache rest
        else do
          relocateOrReverse network id d
          reorgRows network cache rest

/-- `check_reorgs`. -/
def checkReorgs (network : Network) (head : ℤ) : Handler Unit := do
  let rows ← watcher (.reorgWindow network (head - network.rescanDepth))
  reorgRows network [] rows

/-- One pass of a network's watcher over the transfers its scan returned. -/
def watchPass (network : Network) (head : ℤ) (transfers : List ObservedTransfer) :
    Handler Result := do
  handleTransfers head (transfers.map (fun t => { t with network := network }))
  advancePending network head
  if network.chain = .evm then
    checkReorgs network head
    pure (.ok .done)
  else pure (.ok .done)

/-! ## The machine -/

/-- What arrives from outside or from a worker's timer. -/
inductive Request where
  | createOrder (userId key : Uuid) (body : CreateOrderBody)
  | getOrder (userId id : Uuid)
  | cancelOrder (userId id : Uuid)
  | reconcile (id : Uuid)
  | recheckOrder (id : Uuid)
  | refundOrder (id : Uuid)
  | createPayout (userId : Uuid) (key : String) (body : CreatePayoutBody)
  | createIntent (userId : Uuid) (amount : ℚ) (scale : ℕ)
  | getIntent (userId id : Uuid)
  | fundingSweep
  | watch (network : Network) (head : ℤ) (transfers : List ObservedTransfer)

/-- The request comes through the HTTP layer, which drops its handler after thirty seconds. -/
def Request.viaHttp : Request → Bool
  | .reconcile _ | .fundingSweep | .watch .. => false
  | _ => true

/-- The handler of a request. -/
def program (cfg : Config) : Request → Handler Result
  | .createOrder userId key body => createOrder cfg userId key body
  | .getOrder userId id => getOrder cfg userId id
  | .cancelOrder userId id => cancelOrder cfg userId id
  | .reconcile id => reconcile cfg id
  | .recheckOrder id => recheckOrder cfg id
  | .refundOrder id => refundOrder cfg id
  | .createPayout userId key body => createPayout userId key body
  | .createIntent userId amount scale => createIntent userId amount scale
  | .getIntent userId id => getIntent userId id
  | .fundingSweep => fundingSweep cfg
  | .watch network head transfers => watchPass network head transfers

/-- The backend: any number of requests and workers, interleaved in any way.  A task remembers
when it was started. -/
def backend (cfg : Config) : Machine Op Op.Res Oracle EnvMove World Request Time Result where
  exec tid op ω w := exec cfg tid op ω w
  env := execEnv
  program := program cfg
  stamp w := w.now

/-- A state of the backend. -/
abbrev State := Sys Op Op.Res World Request Time Result

/-- A move of its schedule. -/
abbrev Move := Act Oracle EnvMove Request

/-- A freshly migrated database with nothing running. -/
def initial (now : Time) (wallets : List Wallet) : State := Sys.idle (World.fresh now wallets)

/-! ## Schedules -/

/-- A request served without interruption, one oracle for each of its operations. -/
def serve (tid : ℕ) (req : Request) (answers : List Oracle) : List Move :=
  .spawn tid req :: answers.map (.resume tid)

/-- Time passes. -/
def wait (d : Time) : Move := .env (.tick d)

/-- A development deployment: the stub sells the numbers and confirms the top-ups. -/
def stubConfig : Config :=
  { providers := ⟨false, false, []⟩, fundingLive := false, numbersMinPriceFraction := 1 / 2,
    adminRefundCapNgn := 100000, fivesimCurrency := none,
    toLowercase := fun s => s, toUppercase := fun s => s }

/-- A deployment that buys from 5SIM and SMSPool. -/
def liveConfig : Config := { stubConfig with providers := ⟨true, true, []⟩ }

/-- A deployment that takes top-ups through the provider. -/
def paystackConfig : Config := { stubConfig with fundingLive := true }

/-- One option on sale. -/
def stubCatalogue (price : ℚ) : Catalogue :=
  ⟨none, none, [], some "telegram", some "nigeria", some price, true⟩

/-- An order of that option. -/
def stubOrder : CreateOrderBody := ⟨none, "telegram", "NG", none⟩

/-- One offer on sale, with its ranked sources. -/
def offerCatalogue (price : ℚ) (sources : List Source) : Catalogue :=
  ⟨some ⟨"telegram", "NG", "nigeria", price, 5, true⟩, none, sources, none, none, none, true⟩

/-- An order of that offer. -/
def offerOrder (offer : Uuid) (price : ℚ) : CreateOrderBody :=
  ⟨some offer, "telegram", "NG", some price⟩

/-- A top-up that the stub confirms. -/
def topUp (tid : ℕ) (user intent reference journal : Uuid) (amount : ℚ) : List Move :=
  serve tid (.createIntent user amount 0) [{ fresh := [intent, reference] }, {}] ++
    serve (tid + 1) (.getIntent user intent) [{}, {}, { fresh := [journal] }]

end Naivolt
