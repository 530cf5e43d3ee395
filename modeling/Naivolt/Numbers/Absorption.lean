import Naivolt.Numbers.Inbox
import Naivolt.Numbers.Purchasing

/-!
# Orders that have ended

A delivered order stays claimable while its activation is open, so the statements and the
transaction that move open orders meet ended ones.  All they find to do there is bookkeeping:
`outcome` is the row without it, and no operation changes the outcome of an ended order but the
pin of a source, whose statement names the order only.  A handler that is dropped in time pins
only orders that are still reserved, so in every run `terminal_absorbing` holds.
-/

namespace Naivolt

open Foundation Foundation.Machine

/-- `status IN ('delivered', 'cancelled', 'expired', 'failed')`. -/
def OrderStatus.terminal (s : OrderStatus) : Bool := s = .delivered || s.isRefunded

lemma OrderStatus.terminal_eq (s : OrderStatus) : s.terminal = !s.moneyOpen := by
  cases s <;> rfl

/-- The order without its activation window and its reconcile bookkeeping. -/
def Order.outcome (o : Order) : Order :=
  { o with
    expiresAt := none
    activationOpen := false
    reconcileNextAt := none
    reconcileLastCheckedAt := none
    reconcileAttemptCount := 0
    reconcileLastErrorCategory := none
    claim := none }

lemma Order.status_of_outcome {o o' : Order} (h : o'.outcome = o.outcome) :
    o'.status = o.status :=
  (congrArg Order.status h : o'.outcome.status = o.outcome.status)

/-! ## One operation -/

section Operations

variable {cfg : Config} {tid : ℕ} {now : Time} {ω : Oracle} {db db' : NumbersDb} {id : Uuid}
  {row : Order}

lemma outcome_extendExpiry (check : ActivationCheck) (o : Order) :
    (extendExpiry check o).outcome = o.outcome := by
  unfold extendExpiry
  split
  · rfl
  · split <;> rfl

/-- A check of an ended order schedules the next one, if anything. -/
lemma outcome_of_applyCheck {fresh : List Uuid} {token : Option Uuid} {check : ActivationCheck}
    {r : Except ApiError TransitionOutcome} {es : Log}
    (h : applyCheck now fresh id token check db = some (r, db', es))
    (hrow : db.orders.get? id = some row) (hended : row.status.moneyOpen = false) :
    ∃ row', db'.orders.get? id = some row' ∧ row'.outcome = row.outcome := by
  unfold applyCheck at h
  simp only [hrow] at h
  split at h
  · cases h
    exact ⟨row, hrow, rfl⟩
  · split at h
    · cases h
      exact ⟨row, hrow, rfl⟩
    · split at h
      · cases h
      · obtain ⟨messages | messages, -, h⟩ := Option.bind_eq_some_iff.mp h
        · cases h
          exact ⟨row, hrow, rfl⟩
        have hclosed : (extendExpiry check row).status.moneyOpen = false := by
          rw [Order.status_of_outcome (outcome_extendExpiry check row), hended]
        unfold decideCheck keepOpen at h
        simp only [hclosed, Bool.false_eq_true, if_false] at h
        obtain ⟨orders, hupdate, h⟩ := Option.bind_eq_some_iff.mp h
        cases h
        exact ⟨_, OrderTable.get?_update_self hupdate hrow, outcome_extendExpiry check row⟩

/-- A statement that does bookkeeping. -/
lemma outcome_of_updateWhere {guard : Order → Bool} {set : Order → Order} {record : Order → Log}
    {r : Bool} {es : Log} (hset : ∀ o : Order, (set o).outcome = o.outcome)
    (h : updateWhere id guard set record db = some (r, db', es))
    (hrow : db.orders.get? id = some row) :
    ∃ row', db'.orders.get? id = some row' ∧ row'.outcome = row.outcome := by
  rcases updateWhere_cases h with ⟨-, rfl, -⟩ | ⟨row₁, orders, hrow₁, -, -, hupdate, rfl, -⟩
  · exact ⟨row, hrow, rfl⟩
  · cases hrow.symm.trans hrow₁
    exact ⟨_, OrderTable.get?_update_self hupdate hrow, hset row⟩

/-- **An ended order keeps its outcome**, whatever is done to it but a pin. -/
lemma outcome_of_exec {op : NumberOp} {r : op.Res} {es : Log}
    (h : execNumbers cfg tid now ω db op = some (r, db', es))
    (hrow : db.orders.get? id = some row) (hended : row.status.moneyOpen = false)
    (hpin : ∀ s, op ≠ .pin id s) :
    ∃ row', db'.orders.get? id = some row' ∧ row'.outcome = row.outcome := by
  have hne : ∀ {s : OrderStatus}, row.status = s → s.moneyOpen = true → False := by
    rintro s rfl hopen
    rw [hended] at hopen
    cases hopen
  obtain ⟨row', hrow', hchange⟩ := (execNumbers_move h).change hrow
  cases hchange with
  | kept hsame => exact ⟨row', hrow', hsame ▸ rfl⟩
  | ended _ _ hopen => exact (hne rfl hopen).elim
  | step hstep =>
      cases hstep with
      | granted hop =>
          cases hop with
          | purchase hs => exact (hne hs rfl).elim
          | sweep => exact ⟨_, hrow', rfl⟩
          | cancel hs => exact (hs.elim (hne · rfl) (hne · rfl)).elim
          | operator hopen => exact (hne rfl hopen).elim
      | released hop =>
          rcases hop with rfl | ⟨delay, e, rfl⟩
          · refine outcome_of_updateWhere ?_ h hrow
            exact fun _ => rfl
          · refine outcome_of_updateWhere ?_ h hrow
            exact fun _ => rfl
      | markedForReview hs => exact (hs.elim (hne · rfl) (hne · rfl)).elim
      | assigned hs => exact (hne hs rfl).elim
      | pinned => exact absurd rfl (hpin _)
      | recovered hs => exact (hne hs rfl).elim
      | kept => exact outcome_of_applyCheck h hrow hended
      | checkedForReview _ hopen => exact (hne rfl hopen).elim

/-- An ended order keeps its status and its journals, also under a pin. -/
lemma ended_of_exec {op : Op} {r : op.Res} {w w' : World}
    (h : exec cfg tid op ω w = some (r, w')) (hrow : w.orders.get? id = some row)
    (hended : row.status.moneyOpen = false) :
    ∃ row', w'.orders.get? id = some row' ∧ row'.status = row.status ∧ row.SameJournals row' := by
  by_cases hop : ∃ nop, op = .numbers nop
  · obtain ⟨nop, rfl⟩ := hop
    obtain ⟨-, db, es, hexec, rfl⟩ := exec_numbers h
    by_cases hpin : ∃ s, nop = .pin id s
    · obtain ⟨s, rfl⟩ := hpin
      rcases updateWhere_cases hexec with ⟨-, rfl, -⟩ | ⟨row₁, orders, hrow₁, -, -, hupdate, rfl, -⟩
      · exact ⟨row, hrow, rfl, rfl, rfl⟩
      · cases hrow.symm.trans hrow₁
        exact ⟨_, OrderTable.get?_update_self hupdate hrow, rfl, rfl, rfl⟩
    · obtain ⟨row', hrow', hout⟩ := outcome_of_exec hexec hrow hended
        fun s heq => hpin ⟨s, heq⟩
      have hjournals : row'.outcome.settledJournalId = row.outcome.settledJournalId ∧
          row'.outcome.refundedJournalId = row.outcome.refundedJournalId :=
        ⟨congrArg Order.settledJournalId hout, congrArg Order.refundedJournalId hout⟩
      exact ⟨row', hrow', Order.status_of_outcome hout, hjournals⟩
  · refine ⟨row, ?_, rfl, rfl, rfl⟩
    rw [(exec_move h).2.orders_eq fun nop heq => hop ⟨nop, heq⟩, hrow]

/-- A refund that was applied has ended the order. -/
lemma refunded_of_applied {fresh : List Uuid} {token : Option Uuid} {via : Via}
    {status : RefundStatus} {reason : String} {es : Log}
    (h : applyInner now fresh id token via (.refund status reason) db =
      some (.ok .applied, db', es)) :
    ∃ row', db'.orders.get? id = some row' ∧ row'.status.isRefunded = true := by
  unfold applyInner at h
  split at h
  · cases h
  · rename_i row hrow
    split at h
    · cases h
    · split at h
      · cases h
      · split at h
        · cases h
        · dsimp only at h
          unfold refundOpen postAndMove at h
          split at h
          · cases h
          · split at h
            · cases h
            · obtain ⟨⟨posted, ledger⟩, -, h⟩ := Option.bind_eq_some_iff.mp h
              obtain ⟨orders, hupdate, h⟩ := Option.bind_eq_some_iff.mp h
              cases h
              refine ⟨_, OrderTable.get?_update_self hupdate hrow, ?_⟩
              cases status <;> rfl

/-! ## The inbox only grows -/

lemma insertMessages_suffix {orderId : Uuid} {providerOrderId : String}
    {inbox out : List Message} {ids : List Uuid} {incoming : List Sms}
    (h : insertMessages now orderId providerOrderId inbox ids incoming = some out) :
    inbox <:+ out := by
  induction incoming generalizing inbox ids with
  | nil => cases ids <;> cases h <;> exact List.suffix_rfl
  | cons sms incoming ih =>
      cases ids with
      | nil => cases h
      | cons id ids =>
          refine List.IsSuffix.trans ?_ (ih h)
          unfold insertMessage
          split
          · exact List.suffix_rfl
          · exact List.suffix_cons _ _

lemma mergeInbox_suffix {incoming : List Sms} {ids : List Uuid} {messages out : List Message}
    (h : mergeInbox now id row incoming ids messages = some (.ok out)) : messages <:+ out := by
  rcases mergeInbox_eq_ok h with ⟨-, rfl⟩ | ⟨_, -, -, hinsert⟩
  · exact List.suffix_rfl
  · exact insertMessages_suffix hinsert

lemma messages_of_applyCheck {fresh : List Uuid} {token : Option Uuid} {check : ActivationCheck}
    {r : Except ApiError TransitionOutcome} {es : Log}
    (h : applyCheck now fresh id token check db = some (r, db', es)) :
    db.messages <:+ db'.messages := by
  unfold applyCheck at h
  split at h
  · cases h
    exact List.suffix_rfl
  · split at h
    · cases h
      exact List.suffix_rfl
    · split at h
      · cases h
        exact List.suffix_rfl
      · split at h
        · cases h
        · obtain ⟨messages | messages, hmerge, h⟩ := Option.bind_eq_some_iff.mp h
          · cases h
            exact List.suffix_rfl
          rw [(decideCheck_messages (fun _ => rfl) h).1]
          exact mergeInbox_suffix hmerge

/-- Messages are never removed. -/
lemma messages_of_exec {op : Op} {r : op.Res} {w w' : World}
    (h : exec cfg tid op ω w = some (r, w')) : w.messages <:+ w'.messages := by
  cases op with
  | numbers nop =>
      obtain ⟨-, db, es, hexec, rfl⟩ := exec_numbers h
      rcases execNumbers_messages hexec with heq | ⟨id, token, check, rfl, -⟩
      · exact (show db.messages = w.messages from heq) ▸ List.suffix_rfl
      · exact messages_of_applyCheck hexec
  | _ =>
      cases (exec_move h).2 <;> exact List.suffix_rfl

end Operations

/-! ## Every run -/

/-- **Terminal orders are absorbing.**  In every run whose handlers are dropped in time, once
an order is delivered, failed, expired or cancelled, all its row says but for its activation
window and its reconcile bookkeeping stays as it is — status, price, journals, code — and
its inbox only grows. -/
theorem terminal_absorbing {cfg : Config} {now : Time} {wallets : List Wallet} {s s' : State}
    (h : (backend cfg).Reachable (onOps fun _ req born _ _ w => DroppedInTime req born w)
      (initial now wallets) s)
    (h' : (backend cfg).Reachable (onOps fun _ req born _ _ w => DroppedInTime req born w) s s')
    {id : Uuid} {o : Order} (ho : s.world.orders.get? id = some o)
    (hended : o.status.terminal = true) :
    ∃ o', s'.world.orders.get? id = some o' ∧ o'.outcome = o.outcome ∧
      inboxOf s.world.messages id <:+ inboxOf s'.world.messages id := by
  have hfinal : ∃ o', s'.world.orders.get? id = some o' ∧ o'.outcome = o.outcome ∧
      s.world.messages <:+ s'.world.messages := by
    refine Reachable.guarded_inv
      (I := fun w => ∃ o', w.orders.get? id = some o' ∧ o'.outcome = o.outcome ∧
        s.world.messages <:+ w.messages) ⟨o, ho, rfl, List.suffix_rfl⟩
      (fun e w w' he hI => ?_) (fun tid req born op ω r w w' hP he hI => ?_)
      (contracted_later h h')
    · obtain ⟨now, wallets, tiers, -, rfl⟩ := execEnv_eq he
      exact hI
    · obtain ⟨htime, -, hC⟩ := hP
      obtain ⟨o₁, ho₁, hout, hmessages⟩ := hI
      have hmessages' := hmessages.trans (messages_of_exec he)
      have hclosed : o₁.status.moneyOpen = false := by
        rw [Order.status_of_outcome hout]
        simpa [OrderStatus.terminal_eq] using hended
      by_cases hop : ∃ nop, op = .numbers nop
      · obtain ⟨nop, rfl⟩ := hop
        obtain ⟨-, db, es, hexec, rfl⟩ := exec_numbers he
        have hpin : ∀ source, nop ≠ .pin id source := by
          rintro source rfl
          obtain ⟨-, hhttp, hreserved⟩ := hC
          obtain ⟨o₂, ho₂, hs⟩ := hreserved (htime hhttp)
          cases ho₁.symm.trans ho₂
          rw [hs] at hclosed
          cases hclosed
        obtain ⟨o', ho', hout'⟩ := outcome_of_exec hexec ho₁ hclosed hpin
        exact ⟨o', ho', hout'.trans hout, hmessages'⟩
      · refine ⟨o₁, ?_, hout, hmessages'⟩
        rw [(exec_move he).2.orders_eq fun nop heq => hop ⟨nop, heq⟩, ho₁]
  obtain ⟨o', ho', hout, hmessages⟩ := hfinal
  exact ⟨o', ho', hout, hmessages.filter _⟩

/-- An order whose code has arrived. -/
def codeArrived : List Move :=
  topUp 0 7 100 101 102 5000 ++
  serve 2 (.createOrder 7 50 stubOrder)
    [{ fresh := [200, 201, 2 <<< 100], catalogue := stubCatalogue 1500 }, { fresh := [203] }, {},
      { buy := .bought ⟨"a1", "+2341", none, none, none, .primary⟩ }, {}, {}] ++
  wait (seconds 11) ::
  serve 3 (.reconcile 200)
    [{ fresh := [300] }, {}, { slot := some 1 },
      { check := .ok ⟨[⟨none, "code 1234", some "1234", none, some "m1"⟩], .open, none⟩ }, {},
      { fresh := [301, 302] }]

/-- A later check finds a second message, with another code. -/
def secondCode : List Move :=
  wait (seconds 11) ::
  serve 4 (.reconcile 200)
    [{ fresh := [400] }, {}, { slot := some 1 },
      { check := .ok ⟨[⟨none, "code 9999", some "9999", none, some "m2"⟩], .closed, none⟩ }, {},
      { fresh := [401, 402] }]

theorem terminal_absorbing_secondCode : ∃ (s s' : State) (o o' : Order),
    s.world.orders.get? 200 = some o ∧ o.status = .delivered ∧
      s'.world.orders.get? 200 = some o' ∧ o'.outcome = o.outcome ∧
      (inboxOf s'.world.messages 200).map Message.code = [some "9999", some "1234"] := by
  obtain ⟨s, s', hs, hs', hstatus, hcodes⟩ := exists_later_of_run (backend stubConfig)
    (onOps fun _ req born _ _ w => DroppedInTime req born w) (initial 0 []) codeArrived secondCode
    (fun s s' => (s.world.orders.get? 200).map Order.status = some .delivered ∧
      (inboxOf s'.world.messages 200).map Message.code = [some "9999", some "1234"])
    (by decide +kernel)
  obtain ⟨o, ho, hdelivered⟩ := Option.map_eq_some_iff.mp hstatus
  obtain ⟨o', ho', hout, -⟩ := terminal_absorbing hs hs' ho (by rw [hdelivered]; rfl)
  exact ⟨s, s', o, o', ho, hdelivered, ho', hout, hcodes⟩

end Naivolt
