import Naivolt.Trace

/-!
# Ending an order

The transactions of `number_order_transitions.rs`.  `applyCheck` takes what a supplier said
about an activation and settles, refunds, reviews or keeps the order; `applyInner` performs a
requested delivery or refund.  Both lock the order's row first, so each is one atomic step,
and both are fenced: called with a claim token, they refuse unless the row's claim carries
that token and its lease has not run out.

A transaction returns its result, the tables it commits and the history entries it adds.
`none` is a statement the database refuses, or an internal error: nothing is committed and the
caller sees a failure.  An `.error` result leaves the tables as they were.
-/

namespace Naivolt

open Foundation

/-! ## Tables -/

/-- What identifies a message: the supplier's identifier, or the digest of its content. -/
inductive MessageKey where
  | sid (id : String)
  | digest (providerOrderId : String) (sender : Option String) (text : String)
      (code : Option String) (receivedAt : Option Time)
  deriving DecidableEq

/-- A row of `number_messages`. -/
structure Message where
  id : Uuid
  orderId : Uuid
  sender : Option String
  text : String
  code : Option String
  receivedAt : Time
  key : MessageKey
  deriving DecidableEq

/-- A row of `number_provider_slots`. -/
structure Slot where
  slot : ℕ
  claim : Option Claim
  deriving DecidableEq

/-- The tables a number order's transactions write. -/
structure NumbersDb where
  ledger : Ledger
  orders : OrderTable
  messages : List Message
  slots : List Slot

/-- A transaction's result, the tables it commits and what it records. -/
abbrev TxResult (β : Type) := Option (Except ApiError β × NumbersDb × Log)

/-! ## Requests and outcomes -/

/-- `RefundStatus`. -/
inductive RefundStatus where
  | failed | expired | cancelled
  deriving DecidableEq, Repr

def RefundStatus.status : RefundStatus → OrderStatus
  | failed => .failed
  | expired => .expired
  | cancelled => .cancelled

/-- `OrderTransition`. -/
inductive OrderTransition where
  | deliver (code text : String)
  | refund (status : RefundStatus) (reason : String)
  deriving DecidableEq

/-- `TransitionOutcome`. -/
inductive TransitionOutcome where
  | applied
  | alreadyTerminal (status : OrderStatus)
  deriving DecidableEq

def claimNoLongerCurrent : ApiError :=
  .conflict "The reconciliation claim is no longer current."

/-! ## Journals of an order -/

def pendingAccount : Account := .platform .numberPayablePending

/-- The reservation becomes revenue. -/
def settleJournal (reference : String) (priceNgn : ℚ) : JournalBuilder :=
  .transfer .numberSettle reference (settleKey reference)
    pendingAccount (.platform .numberRevenue) priceNgn

/-- The reservation goes back to the user. -/
def refundJournal (userId : Uuid) (reference : String) (priceNgn : ℚ) : JournalBuilder :=
  .transfer .numberRefund reference (refundKey reference)
    pendingAccount (.userNgn userId) priceNgn

/-! ## Inbox -/

/-- The `provider_message_key` of an incoming message. -/
def messageKey (providerOrderId : String) (m : Sms) : MessageKey :=
  match m.providerMessageId with
  | some sid =>
      if sid = "" then .digest providerOrderId m.sender m.text m.code m.receivedAt else .sid sid
  | none => .digest providerOrderId m.sender m.text m.code m.receivedAt

/-- The database takes the texts that the message is bound with. -/
def Sms.storable (m : Sms) : Bool :=
  storableText m.text && m.sender.all storableText && m.code.all storableText &&
    m.providerMessageId.all storableText

/-- `INSERT … ON CONFLICT (order_id, provider_message_key) DO NOTHING`. -/
def insertMessage (now : Time) (orderId : Uuid) (providerOrderId : String)
    (inbox : List Message) (id : Uuid) (m : Sms) : List Message :=
  if inbox.any (fun r => r.orderId = orderId && r.key = messageKey providerOrderId m) then inbox
  else ⟨id, orderId, m.sender, m.text, m.code, m.receivedAt.getD now,
    messageKey providerOrderId m⟩ :: inbox

/-- `insert_messages`, the new rows drawing their identifiers from `ids`. -/
def insertMessages (now : Time) (orderId : Uuid) (providerOrderId : String) :
    List Message → List Uuid → List Sms → Option (List Message)
  | inbox, _, [] => some inbox
  | _, [], _ :: _ => none
  | inbox, id :: ids, m :: ms =>
      insertMessages now orderId providerOrderId
        (insertMessage now orderId providerOrderId inbox id m) ids ms

/-- The messages an order has received. -/
def inboxOf (messages : List Message) (orderId : Uuid) : List Message :=
  messages.filter (fun m => m.orderId = orderId)

/-- `ORDER BY received_at ASC, id ASC`. -/
def Message.before (m m' : Message) : Bool :=
  m.receivedAt < m'.receivedAt || (m.receivedAt = m'.receivedAt && m.id.toNat ≤ m'.id.toNat)

/-- The earliest message with a code that is not blank. -/
def qualifying (messages : List Message) (orderId : Uuid) : Option (String × String) :=
  let coded := (inboxOf messages orderId).filter (fun m => m.code.any hasNonSpace)
  match coded.find? (fun m => coded.all (fun m' => m.before m')) with
  | some m => m.code.map (fun code => (code, m.text))
  | none => none

/-! ## Leaving an order open, settled, in review or refunded -/

/-- The delay before the next check: ten seconds in the first five minutes, then thirty. -/
def pollDelay (now createdAt : Time) : Time :=
  if now - createdAt < minutes 5 then seconds 10 else seconds 30

/-- `schedule_open`'s row. -/
def scheduledOpen (now : Time) (open_ : Bool) (o : Order) : Order :=
  { o with
    activationOpen := open_
    reconcileNextAt :=
      if open_ then
        some (min (o.expiresAt.getD (now + minutes 15)) (now + pollDelay now o.createdAt))
      else none
    claim := none
    reconcileLastCheckedAt := some now
    reconcileAttemptCount := 0 }

/-- `settle_open`'s row. -/
def settledOpen (now : Time) (journalId : Uuid) (code text : String) (stayOpen : Bool)
    (o : Order) : Order :=
  { o with
    status := .delivered
    smsCode := o.smsCode.or (some code)
    smsText := o.smsText.or (some text)
    receivedAt := o.receivedAt.or (some now)
    settledJournalId := some journalId
    activationOpen := stayOpen
    reconcileNextAt := if stayOpen then some (now + pollDelay now o.createdAt) else none
    claim := none }

/-- `review_open`'s row. -/
def reviewedOpen (now : Time) (reason : String) (o : Order) : Order :=
  { o with
    status := .reviewRequired
    reviewRequiredAt := some now
    reviewReason := some reason
    activationOpen := false
    reconcileNextAt := none
    claim := none }

/-- `refund_open`'s row, and that of a refund by `apply_inner`. -/
def refundedOpen (journalId : Uuid) (status : RefundStatus) (reason : String) (o : Order) :
    Order :=
  { o with
    status := status.status
    failureReason := some reason
    refundedJournalId := some journalId
    activationOpen := false
    reconcileNextAt := none
    claim := none }

/-- The row of a delivery by `apply_inner`. -/
def deliveredOpen (now : Time) (journalId : Uuid) (code text : String) (o : Order) : Order :=
  { o with
    status := .delivered
    failureReason := none
    smsCode := some code
    smsText := some text
    receivedAt := some now
    settledJournalId := some journalId
    activationOpen := true
    reconcileNextAt := none
    claim := none }

/-- Post an order's journal and move its row, in one transaction. -/
def postAndMove (db : NumbersDb) (id journalId : Uuid) (builder : JournalBuilder)
    (record : Order → OrderWrite) (move : Uuid → Order → Order) (row : Order) :
    TxResult TransitionOutcome :=
  match builder.build with
  | .error _ => none
  | .ok journal =>
    (db.ledger.post journal journalId).bind fun (posted, ledger) =>
    (db.orders.update id (fun _ => move posted.journalId row)).bind fun orders =>
    some (.ok .applied, { db with ledger := ledger, orders := orders },
      [.wrote (record (move posted.journalId row)), .posted journal posted])

/-- `settle_open`. -/
def settleOpen (now : Time) (db : NumbersDb) (id journalId : Uuid)
    (record : Order → OrderWrite) (code text : String) (stayOpen : Bool) (row : Order) :
    TxResult TransitionOutcome :=
  postAndMove db id journalId (settleJournal row.reference row.priceNgn) record
    (fun posted => settledOpen now posted code text stayOpen) row

/-- `refund_open`. -/
def refundOpen (db : NumbersDb) (id journalId : Uuid) (record : Order → OrderWrite)
    (status : RefundStatus) (reason : String) (row : Order) : TxResult TransitionOutcome :=
  if isBlank reason then none
  else postAndMove db id journalId (refundJournal row.userId row.reference row.priceNgn) record
    (fun posted => refundedOpen posted status reason) row

/-- `review_open`. -/
def reviewOpen (now : Time) (db : NumbersDb) (id : Uuid) (record : Order → OrderWrite)
    (reason : String) (row : Order) : TxResult TransitionOutcome :=
  (db.orders.update id (fun _ => reviewedOpen now reason row)).bind fun orders =>
  some (.ok .applied, { db with orders := orders },
    [.wrote (record (reviewedOpen now reason row))])

/-- `schedule_open`, then commit. -/
def keepOpen (now : Time) (db : NumbersDb) (id : Uuid) (open_ : Bool) (row : Order) :
    TxResult TransitionOutcome :=
  (db.orders.update id (fun _ => scheduledOpen now open_ row)).bind fun orders =>
  some (.ok .applied, { db with orders := orders }, [])

/-! ## The transactions -/

/-- A claim token was presented and is not the row's live claim. -/
def staleClaim (row : Order) (claimToken : Option Uuid) (now : Time) : Bool :=
  claimToken.any (fun token => !row.liveClaim token now)

/-- `expires_at` only ever moves later. -/
def extendExpiry (check : ActivationCheck) (o : Order) : Order :=
  match check.expiresAt with
  | none => o
  | some newer =>
      if o.expiresAt.all (fun current => current < newer) then { o with expiresAt := some newer }
      else o

/-- Store what the supplier returned.  Messages for an order without an activation are an
internal error, and so is a text that the database refuses. -/
def mergeInbox (now : Time) (id : Uuid) (row : Order) (incoming : List Sms) (ids : List Uuid)
    (messages : List Message) : Option (Except ApiError (List Message)) :=
  match incoming, row.providerOrderId with
  | [], _ => some (.ok messages)
  | _ :: _, none => some (.error (.internal "delivery has no provider order"))
  | _ :: _, some providerOrderId =>
      if incoming.all Sms.storable then
        (insertMessages now id providerOrderId messages ids incoming).map .ok
      else some (.error (.internal "invalid byte sequence for encoding"))

/-- Messages are merged if there are none, or the order has an activation and they are stored. -/
lemma mergeInbox_eq_ok {now : Time} {id : Uuid} {row : Order} {incoming : List Sms}
    {ids : List Uuid} {messages out : List Message}
    (h : mergeInbox now id row incoming ids messages = some (.ok out)) :
    (incoming = [] ∧ out = messages) ∨ ∃ providerOrderId,
      row.providerOrderId = some providerOrderId ∧ incoming.all Sms.storable = true ∧
        insertMessages now id providerOrderId messages ids incoming = some out := by
  unfold mergeInbox at h
  split at h
  · cases h
    exact .inl ⟨rfl, rfl⟩
  · cases h
  · rename_i providerOrderId hid
    split at h
    · rename_i hstorable
      obtain ⟨out', hinsert, heq⟩ := Option.map_eq_some_iff.mp h
      cases heq
      exact .inr ⟨providerOrderId, hid, hstorable, hinsert⟩
    · cases h

/-- The decision of `apply_check` once the row is locked, its expiry moved and the messages
merged. -/
def decideCheck (now : Time) (db : NumbersDb) (id journalId : Uuid)
    (record : Order → OrderWrite) (check : ActivationCheck) (row : Order) :
    TxResult TransitionOutcome :=
  let expired := row.expiresAt.any (fun expiry => expiry ≤ now)
  let stayOpen := check.lifecycle = .open && !expired
  if row.status.moneyOpen then
    match qualifying db.messages id with
    | some (code, text) => settleOpen now db id journalId record code text stayOpen row
    | none =>
      if check.lifecycle = .closed || expired then
        if (inboxOf db.messages id).length > 0 then
          reviewOpen now db id record
            (if check.lifecycle = .closed then "closed_without_code" else "expired_without_code")
            row
        else
          refundOpen db id journalId record .expired
            (if check.lifecycle = .closed then "supplier_finished" else "expired") row
      else keepOpen now db id true row
  else keepOpen now db id stayOpen row

/-- `apply_check`. -/
def applyCheck (now : Time) (fresh : List Uuid) (id : Uuid) (claimToken : Option Uuid)
    (check : ActivationCheck) (db : NumbersDb) : TxResult TransitionOutcome :=
  match db.orders.get? id with
  | none => some (.error .notFound, db, [])
  | some row =>
    if staleClaim row claimToken now then some (.error claimNoLongerCurrent, db, [])
    else if row.status.isRefunded then some (.ok (.alreadyTerminal row.status), db, [])
    else
      match fresh with
      | [] => none
      | journalId :: ids =>
        (mergeInbox now id row check.messages ids db.messages).bind fun
        | .error e => some (.error e, db, [])
        | .ok messages =>
          decideCheck now { db with messages := messages } id journalId
            (fun after => ⟨id, .applyCheck, claimToken, now, row, after⟩) check
            (extendExpiry check row)

/-- `apply_inner`, reached through `apply_claimed`; `via` names the caller. -/
def applyInner (now : Time) (fresh : List Uuid) (id : Uuid) (claimToken : Option Uuid)
    (via : Via) (transition : OrderTransition) (db : NumbersDb) : TxResult TransitionOutcome :=
  match db.orders.get? id with
  | none => some (.error .notFound, db, [])
  | some row =>
    if staleClaim row claimToken now then some (.error claimNoLongerCurrent, db, [])
    else if !row.status.moneyOpen then some (.ok (.alreadyTerminal row.status), db, [])
    else
      let record : Order → OrderWrite :=
        fun after => ⟨id, .applyClaimed via, claimToken, now, row, after⟩
      match fresh with
      | [] => none
      | journalId :: _ =>
        match transition with
        | .deliver code text =>
            postAndMove db id journalId (settleJournal row.reference row.priceNgn) record
              (fun posted => deliveredOpen now posted code text) row
        | .refund status reason => refundOpen db id journalId record status reason row

end Naivolt
