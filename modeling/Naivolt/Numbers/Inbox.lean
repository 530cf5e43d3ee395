import Naivolt.System.Contracted

/-!
# Refunds and the inbox

Messages are stored by one transaction, `applyCheck`, and refunds are decided by several paths.
The check decides on the inbox it has just merged.  The buy loop and the reconciler refund only
orders without an activation, which have no inbox.  `cancel_order` reads the inbox, takes its
claim in a second statement and refunds in a third: a message stored after the claim was taken
clears the claim, so the refund is refused, but one stored between the read and the claim is
not noticed, and the supplier need not repeat it.

`CancelUnread` is the condition that excludes exactly that window.  Under it
`refunds_unread` holds of every run, and `refund_after_message` runs the backend into a refund
of an order that holds a message.
-/

namespace Naivolt

open Foundation Foundation.Machine

/-! ## The messages an operation stores -/

lemma mem_insertMessage {now : Time} {orderId id : Uuid} {providerOrderId : String}
    {inbox : List Message} {sms : Sms} {m : Message}
    (hm : m ∈ insertMessage now orderId providerOrderId inbox id sms) :
    m ∈ inbox ∨ m.orderId = orderId := by
  unfold insertMessage at hm
  split at hm
  · exact .inl hm
  · rcases List.mem_cons.mp hm with rfl | hm
    · exact .inr rfl
    · exact .inl hm

lemma mem_insertMessages {now : Time} {orderId : Uuid} {providerOrderId : String}
    {inbox out : List Message} {ids : List Uuid} {incoming : List Sms}
    (h : insertMessages now orderId providerOrderId inbox ids incoming = some out)
    {m : Message} (hm : m ∈ out) : m ∈ inbox ∨ m.orderId = orderId := by
  induction incoming generalizing inbox ids with
  | nil =>
      cases ids <;> cases h <;> exact .inl hm
  | cons sms incoming ih =>
      cases ids with
      | nil => cases h
      | cons id ids =>
          rcases ih h with hm | hm
          · exact mem_insertMessage hm
          · exact .inr hm

/-- Only an order with an activation gets messages. -/
lemma mem_mergeInbox {now : Time} {id : Uuid} {row : Order} {incoming : List Sms}
    {ids : List Uuid} {messages out : List Message}
    (h : mergeInbox now id row incoming ids messages = some (.ok out)) {m : Message}
    (hm : m ∈ out) : m ∈ messages ∨ (m.orderId = id ∧ row.providerOrderId ≠ none) := by
  rcases mergeInbox_eq_ok h with ⟨-, rfl⟩ | ⟨providerOrderId, hid, -, hinsert⟩
  · exact .inl hm
  · refine (mem_insertMessages hinsert hm).imp_right fun ho => ⟨ho, ?_⟩
    rw [hid]
    exact Option.some_ne_none _

lemma postAndMove_messages {db db' : NumbersDb} {id journalId : Uuid} {builder : JournalBuilder}
    {record : Order → OrderWrite} {move : Uuid → Order → Order} {row : Order}
    {r : Except ApiError TransitionOutcome} {es : Log}
    (h : postAndMove db id journalId builder record move row = some (r, db', es)) :
    db'.messages = db.messages := by
  unfold postAndMove at h
  split at h
  · cases h
  · obtain ⟨⟨posted, ledger⟩, -, h⟩ := Option.bind_eq_some_iff.mp h
    obtain ⟨orders, -, h⟩ := Option.bind_eq_some_iff.mp h
    cases h
    rfl

lemma refundOpen_messages {db db' : NumbersDb} {id journalId : Uuid}
    {record : Order → OrderWrite} {status : RefundStatus} {reason : String} {row : Order}
    {r : Except ApiError TransitionOutcome} {es : Log}
    (h : refundOpen db id journalId record status reason row = some (r, db', es)) :
    db'.messages = db.messages := by
  unfold refundOpen at h
  split at h
  · cases h
  · exact postAndMove_messages h

/-- The decision of a check stores no message, and refunds only an order that has none. -/
lemma decideCheck_messages {now : Time} {db db' : NumbersDb} {id journalId : Uuid}
    {record : Order → OrderWrite} {row : Order} {check : ActivationCheck}
    {r : Except ApiError TransitionOutcome} {es : Log}
    (hrecord : ∀ after, (record after).after = after)
    (h : decideCheck now db id journalId record check row = some (r, db', es)) :
    db'.messages = db.messages ∧
      ∀ wr, Event.wrote wr ∈ es → wr.after.status.isRefunded = true →
        inboxOf db.messages id = [] := by
  have kept : ∀ {stayOpen : Bool}, keepOpen now db id stayOpen row = some (r, db', es) →
      db'.messages = db.messages ∧ es = [] := by
    intro stayOpen h
    unfold keepOpen at h
    obtain ⟨orders, -, h⟩ := Option.bind_eq_some_iff.mp h
    cases h
    exact ⟨rfl, rfl⟩
  unfold decideCheck at h
  simp only at h
  split at h
  · split at h
    · -- The order settles.
      unfold settleOpen at h
      refine ⟨postAndMove_messages h, fun wr hw hrefund => ?_⟩
      unfold postAndMove at h
      split at h
      · cases h
      · obtain ⟨⟨posted, ledger⟩, -, h⟩ := Option.bind_eq_some_iff.mp h
        obtain ⟨orders, -, h⟩ := Option.bind_eq_some_iff.mp h
        cases h
        cases (List.mem_pair.mp hw).resolve_right nofun
        rw [hrecord] at hrefund
        cases hrefund
    · split at h
      · split at h
        · unfold reviewOpen at h
          obtain ⟨orders, -, h⟩ := Option.bind_eq_some_iff.mp h
          cases h
          refine ⟨rfl, fun wr hw hrefund => ?_⟩
          cases List.mem_singleton.mp hw
          rw [hrecord] at hrefund
          cases hrefund
        · rename_i hempty
          exact ⟨refundOpen_messages h, fun _ _ _ => by simpa using hempty⟩
      · obtain ⟨hm, rfl⟩ := kept h
        exact ⟨hm, fun _ hw => absurd hw List.not_mem_nil⟩
  · obtain ⟨hm, rfl⟩ := kept h
    exact ⟨hm, fun _ hw => absurd hw List.not_mem_nil⟩

/-- A check that goes through clears the claim on the row. -/
lemma decideCheck_claim {now : Time} {db db' : NumbersDb} {id journalId : Uuid}
    {record : Order → OrderWrite} {row row' : Order} {check : ActivationCheck}
    {r : Except ApiError TransitionOutcome} {es : Log}
    (h : decideCheck now db id journalId record check row = some (r, db', es))
    (hrow' : db'.orders.get? id = some row') : row'.claim = none := by
  -- Every branch writes a row without a claim.
  have cleared : ∀ {after : Order}, db.orders.update id (fun _ => after) = some db'.orders →
      after.claim = none → row'.claim = none := by
    intro after hupdate hafter
    rw [OrderTable.get?_update hupdate, if_pos rfl] at hrow'
    obtain ⟨o, -, rfl⟩ := Option.map_eq_some_iff.mp hrow'
    exact hafter
  have moved : ∀ {builder : JournalBuilder} {move : Uuid → Order → Order},
      postAndMove db id journalId builder record move row = some (r, db', es) →
      (∀ posted, (move posted row).claim = none) → row'.claim = none := by
    intro builder move h hmove
    unfold postAndMove at h
    split at h
    · cases h
    · obtain ⟨⟨posted, ledger⟩, -, h⟩ := Option.bind_eq_some_iff.mp h
      obtain ⟨orders, hupdate, h⟩ := Option.bind_eq_some_iff.mp h
      cases h
      exact cleared hupdate (hmove _)
  have refunded : ∀ {reason : String},
      refundOpen db id journalId record .expired reason row = some (r, db', es) →
      row'.claim = none := by
    intro reason h
    unfold refundOpen at h
    split at h
    · cases h
    · exact moved h fun _ => rfl
  have kept : ∀ {stayOpen : Bool}, keepOpen now db id stayOpen row = some (r, db', es) →
      row'.claim = none := by
    intro stayOpen h
    unfold keepOpen at h
    obtain ⟨orders, hupdate, h⟩ := Option.bind_eq_some_iff.mp h
    cases h
    exact cleared hupdate rfl
  unfold decideCheck at h
  simp only at h
  split at h
  · split at h
    · exact moved h fun _ => rfl
    · split at h
      · split at h
        · unfold reviewOpen at h
          obtain ⟨orders, hupdate, h⟩ := Option.bind_eq_some_iff.mp h
          cases h
          exact cleared hupdate rfl
        · exact refunded h
      · exact kept h
  · exact kept h

/-- A check that stored something, or decided: the row it found, what it stored and what it may
have refunded. -/
structure CheckedInbox (id : Uuid) (db db' : NumbersDb) (es : Log) : Prop where
  row : ∃ row, db.orders.get? id = some row ∧ row.status.isRefunded = false
  stored : ∀ m ∈ db'.messages, m ∈ db.messages ∨
    (m.orderId = id ∧ ∃ row, db.orders.get? id = some row ∧ row.providerOrderId ≠ none)
  claim : ∀ row, db'.orders.get? id = some row → row.claim = none
  unread : ∀ wr, Event.wrote wr ∈ es → wr.after.status.isRefunded = true →
    inboxOf db'.messages id = []

lemma applyCheck_messages {now : Time} {fresh : List Uuid} {id : Uuid} {token : Option Uuid}
    {check : ActivationCheck} {db db' : NumbersDb} {r : Except ApiError TransitionOutcome}
    {es : Log} (h : applyCheck now fresh id token check db = some (r, db', es)) :
    (db' = db ∧ es = []) ∨ CheckedInbox id db db' es := by
  unfold applyCheck at h
  split at h
  · cases h
    exact .inl ⟨rfl, rfl⟩
  · rename_i row hrow
    split at h
    · cases h
      exact .inl ⟨rfl, rfl⟩
    · split at h
      · cases h
        exact .inl ⟨rfl, rfl⟩
      · rename_i hopen
        split at h
        · cases h
        · obtain ⟨messages | messages, hmerge, h⟩ := Option.bind_eq_some_iff.mp h
          · cases h
            exact .inl ⟨rfl, rfl⟩
          obtain ⟨hmessages, hunread⟩ := decideCheck_messages (fun _ => rfl) h
          refine .inr ⟨⟨row, hrow, by simpa using hopen⟩, fun m hm => ?_,
            fun _ hrow' => decideCheck_claim h hrow', fun wr hw hr => ?_⟩
          · rw [hmessages] at hm
            exact (mem_mergeInbox hmerge hm).imp_right fun ⟨ho, ha⟩ => ⟨ho, row, hrow, ha⟩
          · rw [hmessages]
            exact hunread wr hw hr

/-- **Messages are stored by checks only.** -/
lemma execNumbers_messages {cfg : Config} {tid : ℕ} {now : Time} {ω : Oracle}
    {db db' : NumbersDb} {op : NumberOp} {r : op.Res} {es : Log}
    (h : execNumbers cfg tid now ω db op = some (r, db', es)) :
    db'.messages = db.messages ∨
      ∃ id token check, op = .applyCheck id token check ∧ CheckedInbox id db db' es := by
  have granted : ∀ {id : Uuid} {purpose : ClaimPurpose} {guard : Order → Bool}
      {set : Order → Order} {r : Option (Uuid × Order)},
      (ω.fresh.head?.bind fun token =>
        withToken token (grantClaim now tid id token purpose guard set db)) =
          some (r, db', es) → db'.messages = db.messages := by
    intro id purpose guard set r h
    obtain ⟨token, -, h⟩ := Option.bind_eq_some_iff.mp h
    obtain ⟨⟨row?, db₁, es₁⟩, hgrant, hres⟩ := Option.map_eq_some_iff.mp h
    cases hres
    rcases grantClaim_cases hgrant with ⟨-, rfl, -⟩ | ⟨row, orders, -, -, -, -, -, rfl, -⟩ <;> rfl
  have updated : ∀ {id : Uuid} {guard : Order → Bool} {set : Order → Order}
      {record : Order → Log} {r : Bool},
      updateWhere id guard set record db = some (r, db', es) → db'.messages = db.messages := by
    intro id guard set record r h
    rcases updateWhere_cases h with ⟨-, rfl, -⟩ | ⟨row, orders, -, -, -, -, rfl, -⟩ <;> rfl
  cases op with
  | reserve userId key body =>
      rcases reserveOrder_cases h with ⟨rfl, -, -⟩ | ⟨orderId, journalId, referenceId, journal,
        posted, ledger, orders, q, -, -, -, -, -, -, -, -, rfl, -⟩ <;> exact .inl rfl
  | claimPurchase id => exact .inl (granted h)
  | sweepClaim id => exact .inl (granted h)
  | tryClaimOrder id => exact .inl (granted h)
  | tryClaimHeldOrder id => exact .inl (granted h)
  | releaseOrder id token delay error => exact .inl (updated h)
  | releaseClaim id token => exact .inl (updated h)
  | markReview id token reason => exact .inl (updated h)
  | assign id token a => exact .inl (updated h)
  | pin id s => exact .inl (updated h)
  | recoverAssign id token a => exact .inl (updated h)
  | applyClaimed id token via transition =>
      simp only [execNumbers, applyInner] at h
      split at h
      · cases h
        exact .inl rfl
      · split at h
        · cases h
          exact .inl rfl
        · split at h
          · cases h
            exact .inl rfl
          · split at h
            · cases h
            · split at h
              · exact .inl (postAndMove_messages h)
              · exact .inl (refundOpen_messages h)
  | applyCheck id token check =>
      rcases applyCheck_messages h with ⟨rfl, -⟩ | hchecked
      · exact .inl rfl
      · exact .inr ⟨id, token, check, rfl, hchecked⟩
  | claimSlot token =>
      simp only [execNumbers, execClaimSlot] at h
      split at h
      · cases h
        exact .inl rfl
      · obtain ⟨db₁, hslot, hres⟩ := Option.map_eq_some_iff.mp h
        cases hres
        unfold claimSlot at hslot
        split at hslot <;> cases hslot
        exact .inl rfl
  | _ =>
      cases h
      exact .inl rfl

/-! ## Refunds that find the inbox empty -/

/-- **No refund after a message.**  An order refunded without an operator has no message. -/
def RefundsUnread (w : World) : Prop :=
  ∀ r, Event.wrote r ∈ w.log → r.after.status.isRefunded = true →
    r.path ≠ .applyClaimed .operator → inboxOf w.messages r.order = []

/-- A customer's cancel that takes its claim finds the inbox as empty as it read it. -/
def CancelUnread (op : Op) (w : World) : Prop :=
  match op with
  | .numbers (.tryClaimOrder id) =>
      ∀ o ∈ w.orders.get? id, o.claimable w.now = true → inboxOf w.messages id = []
  | _ => True

instance (op : Op) (w : World) : Decidable (CancelUnread op w) := by
  unfold CancelUnread
  split <;> infer_instance

lemma inboxOf_eq_nil_iff {messages : List Message} {id : Uuid} :
    inboxOf messages id = [] ↔ ∀ m ∈ messages, m.orderId ≠ id := by
  simp [inboxOf, List.filter_eq_nil_iff]

/-- What carries the result: only activated orders have messages, an order under a cancel's
claim has none, and refunded orders stay refunded. -/
structure InboxSound (w : World) : Prop where
  activated : ∀ m ∈ w.messages, ∃ o, w.orders.get? m.orderId = some o ∧ o.providerOrderId ≠ none
  cancels : ∀ g, Event.granted g ∈ w.log → g.purpose = .cancel →
    ∀ o, w.orders.get? g.order = some o → o.claim = some g.claim →
      inboxOf w.messages g.order = []
  refunded : ∀ r, Event.wrote r ∈ w.log → r.after.status.isRefunded = true →
    ∃ o, w.orders.get? r.order = some o ∧ o.status.isRefunded = true
  unread : RefundsUnread w

/-- A refunded order stays refunded. -/
lemma RowChange.isRefunded {now : Time} {tid : ℕ} {fresh : List Uuid} {id : Uuid}
    {row row' : Order} {op : NumberOp} {es : Log}
    (h : RowChange now tid fresh id row op row' es) (hrow : row.status.isRefunded = true) :
    row'.status.isRefunded = true := by
  cases h with
  | kept hsame => exact hsame ▸ hrow
  | step hstep =>
      cases hstep with
      | granted hop hfree htoken => cases hop <;> exact hrow
      | released hop hheld hsame hjournals hstatus hclaim => rwa [hstatus]
      | markedForReview hstatus hlive =>
          rcases hstatus with hs | hs <;> rw [hs] at hrow <;> cases hrow
      | assigned hstatus hlive => rw [hstatus] at hrow; cases hrow
      | pinned => exact hrow
      | recovered hstatus hheld => rw [hstatus] at hrow; cases hrow
      | kept hfenced hopen hsame hjournals hstatus hclaim => rwa [hstatus]
      | checkedForReview hfenced hopen hsame hstatus hclaim =>
          rw [OrderStatus.isRefunded_eq_false (.inl hopen)] at hrow
          cases hrow
  | ended hop hfenced hopen hstep hes =>
      rw [OrderStatus.isRefunded_eq_false (.inl hopen)] at hrow
      cases hrow

/-- What a recorded write left in the table. -/
lemma NumbersMove.wrote_after {now : Time} {tid : ℕ} {fresh : List Uuid} {db db' : NumbersDb}
    {op : NumberOp} {es : Log} (h : NumbersMove now tid fresh db op db' es) {r : OrderWrite}
    (hr : Event.wrote r ∈ es) : db'.orders.get? r.order = some r.after := by
  cases h with
  | row hrow hstep hupdate hledger =>
      have hafter := OrderTable.get?_update_self hupdate hrow
      cases hstep with
      | recovered hstatus hheld =>
          cases (List.mem_pair.mp hr).resolve_right nofun
          exact hafter
      | markedForReview hstatus hlive => cases List.mem_singleton.mp hr; exact hafter
      | assigned hstatus hlive => cases List.mem_singleton.mp hr; exact hafter
      | checkedForReview hfenced hopen hsame hstatus hclaim =>
          cases List.mem_singleton.mp hr
          exact hafter
      | _ => simp at hr
  | ended hop hrow hfenced hopen hstep hbuild hpost hupdate =>
      cases (List.mem_pair.mp hr).resolve_right nofun
      exact OrderTable.get?_update_self hupdate hrow
  | _ => simp at hr

section Step

variable {cfg : Config} {tid : ℕ} {req : Request} {born : Time} {ω : Oracle} {w w' : World}
  {op : Op} {r : op.Res}

/-- A message in the inbox was there before, or this step stored it for an order that is
activated, not refunded, and left without a claim. -/
structure NewMessage (w w' : World) (m : Message) : Prop where
  row : ∃ o, w.orders.get? m.orderId = some o ∧ o.providerOrderId ≠ none ∧
    o.status.isRefunded = false
  claim : ∀ o, w'.orders.get? m.orderId = some o → o.claim = none

lemma new_message (he : exec cfg tid op ω w = some (r, w')) {m : Message}
    (hm : m ∈ w'.messages) : m ∈ w.messages ∨ NewMessage w w' m := by
  cases op with
  | numbers op =>
      obtain ⟨-, db, es, hexec, rfl⟩ := exec_numbers he
      rcases execNumbers_messages hexec with heq | ⟨id, token, check, rfl, hchecked⟩
      · exact .inl (by rwa [← show w.numbers.messages = w.messages from rfl, ← heq])
      · refine (hchecked.stored m hm).imp_right fun ⟨hid, row, hrow, hactivated⟩ => ?_
        subst hid
        obtain ⟨row', hrow', hopen⟩ := hchecked.row
        cases hrow.symm.trans hrow'
        exact ⟨⟨row, hrow, hactivated, hopen⟩, hchecked.claim⟩
  | _ =>
      refine .inl ?_
      cases (exec_move he).2 <;> exact hm

/-- The refund a step commits finds the inbox empty. -/
lemma InboxSound.refund (hI : InboxSound w) (hS : Sound w) (hC : Contract cfg tid req born op w)
    (he : exec cfg tid op ω w = some (r, w')) {wr : OrderWrite} (hold : Event.wrote wr ∉ w.log)
    (hnew : Event.wrote wr ∈ w'.log) (hrefund : wr.after.status.isRefunded = true)
    (hpath : wr.path ≠ .applyClaimed .operator) : inboxOf w'.messages wr.order = [] := by
  -- An order without an activation has no messages.
  have unactivated : ∀ {o : Order}, w.orders.get? wr.order = some o →
      o.providerOrderId = none → inboxOf w.messages wr.order = [] := by
    intro o ho hnone
    rw [inboxOf_eq_nil_iff]
    intro m hm hid
    obtain ⟨o', ho', hactivated⟩ := hI.activated m hm
    cases ho.symm.trans (hid ▸ ho')
    exact hactivated hnone
  have hmove := (exec_move he).2
  cases op with
  | numbers op =>
      obtain ⟨-, db, es, hexec, rfl⟩ := exec_numbers he
      have hes : Event.wrote wr ∈ es := (List.mem_append.mp hnew).resolve_right hold
      obtain ⟨past, hpast⟩ := exists_recorded hes
      obtain ⟨⟨hends, hrow, hfenced, hopen, -⟩, -⟩ :=
        (execNumbers_move hexec).refund hpast hrefund
      generalize hwpath : wr.path = path at hends hpath
      generalize hwtoken : wr.token = token at hends hfenced
      cases hends with
      | check =>
          rcases applyCheck_messages hexec with ⟨-, rfl⟩ | hchecked
          · exact absurd hes List.not_mem_nil
          · exact hchecked.unread wr hes hrefund
      | @claimed token via transition =>
          have hlive : wr.before.liveClaim token w.now = true := by
            simpa [staleClaim] using hfenced
          have hmessages : db.messages = w.messages :=
            (execNumbers_messages hexec).resolve_right fun h => by
              obtain ⟨_, _, _, hop, _⟩ := h
              cases hop
          simp only [World.putNumbers, hmessages]
          cases via with
          | buyer => exact unactivated hrow (hC.2.2.2 _ hrow hlive)
          | reconciler => exact unactivated hrow (hC.2 _ hrow hlive).1
          | customerCancel =>
              obtain ⟨g, hg, hid, hpurpose, htoken⟩ := hC.2
              obtain ⟨c, hc, hct, -⟩ := Order.liveClaim_iff.mp hlive
              have hgranted : Granted w g.tid wr.order g.claim := ⟨g, hg, hid, rfl, rfl⟩
              have hclaim := hS.claim_eq hrow hc hgranted (hct.trans htoken.symm)
              exact hid ▸ hI.cancels g hg hpurpose _ (hid ▸ hrow) (hclaim ▸ hc)
          | operator => exact absurd rfl hpath
  | supplier op =>
      refine absurd ((hmove.new_event hnew).resolve_right fun hnew => ?_) hold
      cases hnew with
      | supplier hevent => cases hevent
  | _ => exact absurd ((hmove.new_event hnew).resolve_right fun h => by cases h) hold

/-- Every step under its contract, a cancel's claim taken on an empty inbox, keeps the
invariant. -/
lemma InboxSound.step (hI : InboxSound w) (hS : Sound w) (hC : Contract cfg tid req born op w)
    (hguard : CancelUnread op w) (he : exec cfg tid op ω w = some (r, w')) : InboxSound w' := by
  obtain ⟨hfresh, hmove⟩ := exec_move he
  refine ⟨fun m hm => ?_, fun g hg hpurpose o' ho' hclaim => ?_, fun wr hwr hrefund => ?_,
    fun wr hwr hrefund hpath => ?_⟩
  · have hrow : ∃ o, w.orders.get? m.orderId = some o ∧ o.providerOrderId ≠ none := by
      rcases new_message he hm with hm | ⟨⟨o, ho, hactivated, -⟩, -⟩
      · exact hI.activated m hm
      · exact ⟨o, ho, hactivated⟩
    obtain ⟨o, ho, hactivated⟩ := hrow
    obtain ⟨o', ho', hlater⟩ := hmove.later ho
    exact ⟨o', ho', hlater.activated hactivated⟩
  · rw [inboxOf_eq_nil_iff]
    intro m hm hid
    rcases new_message he hm with hm | hnew
    · refine inboxOf_eq_nil_iff.mp ?_ m hm hid
      rcases hmove.new_grant hg with hold | ⟨nop, db, rfl, hgrant, -, -⟩
      · rcases hmove.origin ho' with ho | ⟨hop, ho, hlog, hchange⟩ | ⟨-, -, -, hnone, -⟩
        · exact hI.cancels g hold hpurpose o' ho hclaim
        · rcases hchange.claim hclaim with hc | ⟨-, -, -, -, -, htoken⟩
          · exact hI.cancels g hold hpurpose _ ho hc
          · -- A grant of this step has a token that none had before.
            exact absurd (hS.drawn g hold) (hfresh.2 _ htoken)
        · cases hnone.symm.trans hclaim
      · have hgrants := hgrant.grants
        rw [hpurpose] at hgrants
        cases hgrants with
        | cancel hstatus => exact hguard _ hgrant.before hgrant.free
    · cases (hnew.claim o' (hid ▸ ho')).symm.trans hclaim
  · by_cases hold : Event.wrote wr ∈ w.log
    · obtain ⟨o, ho, hrow⟩ := hI.refunded wr hold hrefund
      obtain ⟨o', ho', -⟩ := hmove.later ho
      refine ⟨o', ho', ?_⟩
      rcases hmove.origin ho' with hsame | ⟨-, ho₁, -, hchange⟩ | ⟨hnone, -⟩
      · cases ho.symm.trans hsame
        exact hrow
      · cases ho.symm.trans ho₁
        exact hchange.isRefunded hrow
      · cases hnone.symm.trans ho
    · cases op with
      | numbers op =>
          obtain ⟨-, db, es, hexec, rfl⟩ := exec_numbers he
          have hes : Event.wrote wr ∈ es := (List.mem_append.mp hwr).resolve_right hold
          exact ⟨_, (execNumbers_move hexec).wrote_after hes, hrefund⟩
      | supplier op =>
          refine absurd ((hmove.new_event hwr).resolve_right fun hnew => ?_) hold
          cases hnew with
          | supplier hevent => exact nomatch hevent
      | _ => exact absurd ((hmove.new_event hwr).resolve_right nofun) hold
  · by_cases hold : Event.wrote wr ∈ w.log
    · rw [inboxOf_eq_nil_iff]
      intro m hm hid
      rcases new_message he hm with hm | ⟨⟨o, ho, -, hopen⟩, -⟩
      · exact inboxOf_eq_nil_iff.mp (hI.unread wr hold hrefund hpath) m hm hid
      · obtain ⟨o', ho', hrow⟩ := hI.refunded wr hold hrefund
        cases ho'.symm.trans (hid ▸ ho)
        rw [hopen] at hrow
        cases hrow
    · exact hI.refund hS hC he hold hwr hrefund hpath

end Step

/-! ## Runs -/

/-- **No refund after a message**, in every run in which customers' cancels take their claims
on empty inboxes. -/
theorem refunds_unread {cfg : Config} {now : Time} {wallets : List Wallet} {s : State}
    (h : (backend cfg).Reachable (onOps fun _ _ _ op _ w => CancelUnread op w)
      (initial now wallets) s) : RefundsUnread s.world := by
  refine (Reachable.guarded_inv (I := InboxSound) ?_ (fun e w w' he hI => ?_)
    (fun tid req b op ω r w w' hP he hI => ?_) (contracted h)).unread
  · refine ⟨fun m hm => ?_, fun g hg => ?_, fun r hr => ?_, fun r hr => ?_⟩ <;>
      exact absurd ‹_› List.not_mem_nil
  · obtain ⟨now, wallets, tiers, -, rfl⟩ := execEnv_eq he
    exact ⟨hI.activated, hI.cancels, hI.refunded, hI.unread⟩
  · exact hI.step hP.2.1 hP.2.2 hP.1 he

/-- An order of the live deployment with the number `a1`. -/
def boughtOrder : List Move :=
  topUp 0 7 100 101 102 5000 ++
  serve 2 (.createOrder 7 50 stubOrder)
    [{ fresh := [200, 201, 2 <<< 100], catalogue := stubCatalogue 1500 }, { fresh := [203] }, {},
      { buy := .bought ⟨"a1", "+2341", none, none, none, .primary⟩ }, {}, {}]

/-- A cancel that the supplier lets through, with `meanwhile` between its read and its claim.
The supplier's check returns no message. -/
def cancelAround (meanwhile : List Move) : List Move :=
  .spawn 3 (.cancelOrder 7 200) :: .resume 3 {} :: meanwhile ++
  [.resume 3 { fresh := [400] }, .resume 3 { check := .ok ⟨[], .open, none⟩ },
    .resume 3 { cancel := .ok () }, .resume 3 { fresh := [401] }]

/-- The orders refunded without an operator, with what is in their inboxes. -/
def refundedInboxes (w : World) : List (OrderStatus × List String) :=
  ((writesOf w.log).filter fun r =>
    r.after.status.isRefunded && r.path ≠ .applyClaimed .operator).map fun r =>
      (r.after.status, (inboxOf w.messages r.order).map Message.text)

theorem refunds_unread_cancelled :
    ∃ s : State, refundedInboxes s.world = [(.cancelled, [])] ∧ RefundsUnread s.world := by
  obtain ⟨s, hs, hrefunds⟩ := exists_reachable_of_run (backend liveConfig)
    (onOps fun _ _ _ op _ w => CancelUnread op w) (initial 0 []) (boughtOrder ++ cancelAround [])
    (fun s => refundedInboxes s.world = [(.cancelled, [])]) (by decide +kernel)
  exact ⟨s, hrefunds, refunds_unread hs⟩

/-- A poll of the customer's, answered with a message that has no code. -/
def pollWithMessage : List Move :=
  serve 4 (.getOrder 7 200)
    [{}, { check := .ok ⟨[⟨none, "welcome", none, none, some "m1"⟩], .open, none⟩ },
      { fresh := [300, 301] }, {}]

/-- A poll stores a message between the cancel's read and its claim, and the refund follows. -/
theorem refund_after_message :
    ¬ ∀ s : State, (backend liveConfig).Reachable unguarded (initial 0 []) s →
      RefundsUnread s.world := by
  intro h
  obtain ⟨s, hs, hrefunds⟩ := exists_reachable_of_run (backend liveConfig) unguarded
    (initial 0 []) (boughtOrder ++ cancelAround pollWithMessage)
    (fun s => refundedInboxes s.world = [(.cancelled, ["welcome"])]) (by decide +kernel)
  have hmem : (OrderStatus.cancelled, ["welcome"]) ∈ refundedInboxes s.world := by
    rw [hrefunds]
    exact List.mem_cons_self
  obtain ⟨r, hr, heq⟩ := List.mem_map.mp hmem
  simp only [List.mem_filter, Bool.and_eq_true, decide_eq_true_eq] at hr
  obtain ⟨hw, hrefund, hpath⟩ := hr
  rw [h s hs r (mem_writesOf.mp hw) hrefund hpath] at heq
  simp at heq

end Naivolt
