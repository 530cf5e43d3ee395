import Naivolt.System.Purchases

/-!
# Ending an order under contract

The programs that read, cancel, recheck, refund and reconcile number orders.  Most of what they
owe rests on facts that nothing invalidates: the token they were granted (`HoldsToken`) and the
activation they saw the order with (`Known`), so their contracts are read off their operations.
The reconciler's refunds rest on what it knows under its live claim (`Holding`).
-/

namespace Naivolt

open Foundation Foundation.Machine

/-! ## What was seen -/

lemma Asks.mono {cfg : Config} {log log' : Log} {order : Uuid} {s : Supplier} {id : String}
    (h : Asks cfg log order s id) (hlog : log <:+ log') : Asks cfg log' order s id := by
  cases h with
  | seen hseen hid hroute => exact .seen (hseen.mono hlog) hid hroute
  | handed hhanded hid hroute => exact .handed (hlog.subset hhanded) hid hroute
  | recovered hseen hleft hroute hwrote horder hpath hid =>
      exact .recovered (hseen.mono hlog) hleft hroute (hlog.subset hwrote) horder hpath hid

/-- The order has the activation, and it is asked about at the supplier of that label. -/
def Known (cfg : Config) (id : Uuid) (label : SupplierLabel) (providerOrderId : String)
    (w : World) : Prop :=
  (∀ s, cfg.providers.askRoute label = some s → Asks cfg w.log id s providerOrderId) ∧
    ∃ o, w.orders.get? id = some o ∧ o.providerOrderId ≠ none

/-- The row's activation, if it has one, is known. -/
def KnownRow (cfg : Config) (id : Uuid) (o : Order) (w : World) : Prop :=
  ∀ providerOrderId, o.providerOrderId = some providerOrderId →
    Known cfg id o.provider providerOrderId w

section Known

variable {cfg : Config} {tid : ℕ} {req : Request} {born : Time} {w w' : World} {id : Uuid}
  {label : SupplierLabel} {providerOrderId : String} {o : Order}

lemma Known.mono (h : Known cfg id label providerOrderId w) (hlog : w.log <:+ w'.log)
    (hlater : ∀ id o, w.orders.get? id = some o → ∃ o', w'.orders.get? id = some o' ∧ o.Later o') :
    Known cfg id label providerOrderId w' := by
  obtain ⟨hasks, o, ho, ha⟩ := h
  obtain ⟨o', ho', hl⟩ := hlater id o ho
  exact ⟨fun s hs => (hasks s hs).mono hlog, o', ho', hl.activated ha⟩

lemma KnownRow.rely (h : Rely cfg tid w w') (hA : KnownRow cfg id o w) :
    KnownRow cfg id o w' := fun p hp => (hA p hp).mono h.log h.later

lemma KnownRow.exec {ω : Oracle} {op : Op} {r : op.Res}
    (hA : KnownRow cfg id o w) (he : exec cfg tid op ω w = some (r, w')) :
    KnownRow cfg id o w' :=
  fun p hp => (hA p hp).mono (log_of_exec he) fun _ _ ho => (exec_move he).2.later ho

lemma stays_known : Stays cfg tid req born (Known cfg id label providerOrderId) where
  rely h hA := hA.mono h.log h.later
  exec _ _ he hA := hA.mono (log_of_exec he) fun _ _ ho => (exec_move he).2.later ho

/-- A row that is in the table and was seen is known, with what a claim changes of it. -/
lemma KnownRow.of_seen {row : Order} (hseen : Seen w.log id o)
    (ho : w.orders.get? id = some row) (hprovider : row.provider = o.provider)
    (hid : row.providerOrderId = o.providerOrderId) : KnownRow cfg id row w := by
  intro p hp
  refine ⟨fun s hs => .seen hseen (hid ▸ hp) (hprovider ▸ hs), row, ho, ?_⟩
  rw [hp]
  exact Option.some_ne_none p

/-- The row a handler has just read. -/
lemma exec_readOrder {ω : Oracle} {inbox : List Message}
    (he : exec cfg tid (.numbers (.readOrder id)) ω w = some (some (o, inbox), w')) :
    w.orders.get? id = some o ∧ Seen w'.log id o ∧ w'.orders = w.orders ∧ w'.now = w.now := by
  obtain ⟨-, db, es, hexec, rfl⟩ := exec_numbers he
  simp only [execNumbers] at hexec
  cases ho : w.numbers.orders.get? id with
  | none =>
      rw [ho] at hexec
      cases hexec
  | some row =>
      rw [ho] at hexec
      cases hexec
      exact ⟨ho, .inl List.mem_cons_self, rfl, rfl⟩

lemma holdsToken_of_cancelClaim {ω : Oracle} {token : Uuid} {row : Order}
    (he : Naivolt.exec cfg tid (.numbers (.tryClaimOrder id)) ω w =
      some (some (token, row), w')) : HoldsToken w' tid id token := by
  obtain ⟨-, db, es, hexec, rfl⟩ := exec_numbers he
  obtain ⟨o, -, -, htaken⟩ := taken_of_grant hexec
  exact htaken.holdsToken

lemma holdsToken_of_operatorClaim {ω : Oracle} {token : Uuid} {row : Order}
    (he : Naivolt.exec cfg tid (.numbers (.tryClaimHeldOrder id)) ω w =
      some (some (token, row), w')) : HoldsToken w' tid id token := by
  obtain ⟨-, db, es, hexec, rfl⟩ := exec_numbers he
  obtain ⟨o, -, -, htaken⟩ := taken_of_grant hexec
  exact htaken.holdsToken

/-- A claim taken for a cancel. -/
lemma cancels_of_cancelClaim {ω : Oracle} {token : Uuid} {row : Order}
    (he : Naivolt.exec cfg tid (.numbers (.tryClaimOrder id)) ω w =
      some (some (token, row), w')) : CancelsUnder w'.log id token := by
  obtain ⟨-, db, es, hexec, rfl⟩ := exec_numbers he
  obtain ⟨o, -, -, htaken⟩ := taken_of_grant hexec
  exact ⟨_, htaken.log ▸ List.mem_cons_self, rfl, rfl, rfl⟩

/-- The rule of a read: afterwards the row is known. -/
lemma meets_readOrder {β : Type} {Q : β → World → Prop}
    {k : Option (Order × List Message) → Handler β}
    (hnone : ∀ w, Meets cfg tid req born Q (k none) w)
    (hsome : ∀ o inbox w, KnownRow cfg id o w → Meets cfg tid req born Q (k (some (o, inbox))) w) :
    Meets cfg tid req born Q (.call (.numbers (.readOrder id)) k) w := by
  refine Meets.call (A := fun _ => True) trivial (fun _ _ => trivial) (fun _ _ _ => trivial)
    fun w ω r w' _ _ he => ?_
  match r, he with
  | none, _ => exact hnone w'
  | some (o, inbox), he =>
      obtain ⟨ho, hseen, horders, -⟩ := exec_readOrder he
      exact hsome o inbox w' (.of_seen hseen (horders ▸ ho) rfl rfl)

end Known

/-! ## Pieces that owe only what stays -/

section Pieces

variable {cfg : Config} {tid : ℕ} {req : Request} {born : Time} {id token : Uuid}
  {label : SupplierLabel} {providerOrderId : String} {A : World → Prop}

lemma every_checkFor (hknown : ∀ w, A w → Known cfg id label providerOrderId w) :
    (checkFor cfg id label providerOrderId).Every (Owed cfg tid req born A) := by
  unfold checkFor
  split
  · trivial
  · rename_i s hroute
    exact ⟨fun w _ hw => (hknown w hw).1 s hroute, fun _ => trivial⟩

lemma every_cancelFor (hknown : ∀ w, A w → Known cfg id label providerOrderId w) :
    (cancelFor cfg id label providerOrderId).Every (Owed cfg tid req born A) := by
  unfold cancelFor
  split
  · trivial
  · rename_i s hroute
    exact ⟨fun w _ hw => (hknown w hw).1 s hroute, fun _ => trivial⟩

/-- An unclaimed check, whatever comes after it. -/
lemma every_applyCheck {check : ActivationCheck} {β : Type}
    {k : Except ApiError TransitionOutcome → Handler β}
    (hknown : ∀ w, A w → Known cfg id label providerOrderId w)
    (hk : ∀ r, (k r).Every (Owed cfg tid req born A)) :
    (.call (.numbers (.applyCheck id none check)) k : Handler β).Every (Owed cfg tid req born A) :=
  ⟨fun w _ hw => ⟨nofun, (hknown w hw).2⟩, hk⟩

/-- A conditional write under the token, whatever comes after it. -/
lemma every_releaseOrder {delay : Time} {error : Option String} {β : Type}
    {k : Bool → Handler β} (htoken : ∀ w, A w → HoldsToken w tid id token)
    (hk : ∀ r, (k r).Every (Owed cfg tid req born A)) :
    (.call (.numbers (.releaseOrder id token delay error)) k : Handler β).Every
      (Owed cfg tid req born A) :=
  ⟨fun w _ hw => htoken w hw, hk⟩

lemma every_applyAndAnswer {check : ActivationCheck} {answer : Handler Result}
    (hknown : ∀ w, A w → Known cfg id label providerOrderId w)
    (htoken : ∀ w, A w → HoldsToken w tid id token)
    (hanswer : answer.Every (Owed cfg tid req born A)) :
    (applyAndAnswer id token check answer).Every (Owed cfg tid req born A) := by
  unfold applyAndAnswer
  simp only [Prog.perform_bind, Prog.every_call]
  refine ⟨fun w _ hw => ⟨fun t ht => ?_, (hknown w hw).2⟩, fun r => ?_⟩
  · cases ht
    exact htoken w hw
  · cases r with
    | error e => trivial
    | ok r => exact hanswer

lemma every_giveBack {message : String} (htoken : ∀ w, A w → HoldsToken w tid id token) :
    (giveBack id token message).Every (Owed cfg tid req born A) :=
  ⟨fun w _ hw => htoken w hw, fun _ => trivial⟩

lemma every_cancelWithoutActivation {userId : Uuid}
    (htoken : ∀ w, A w → HoldsToken w tid id token)
    (hcancels : ∀ w, A w → CancelsUnder w.log id token) :
    (cancelWithoutActivation userId id token).Every (Owed cfg tid req born A) := by
  unfold cancelWithoutActivation
  simp only [Prog.perform_bind, Prog.every_call]
  refine ⟨fun w _ hw => ⟨htoken w hw, hcancels w hw⟩, fun r => ?_⟩
  cases r with
  | error e => trivial
  | ok r => exact every_loadOrder

lemma every_cancelWithActivation {userId : Uuid}
    (hknown : ∀ w, A w → Known cfg id label providerOrderId w)
    (htoken : ∀ w, A w → HoldsToken w tid id token)
    (hcancels : ∀ w, A w → CancelsUnder w.log id token) :
    (cancelWithActivation cfg userId id token label providerOrderId).Every
      (Owed cfg tid req born A) := by
  unfold cancelWithActivation
  refine (every_checkFor hknown).bind fun checked => ?_
  cases checked with
  | error e => exact every_giveBack htoken
  | ok check =>
      dsimp only
      split
      · exact every_applyAndAnswer hknown htoken trivial
      · split
        · exact every_applyAndAnswer hknown htoken every_loadOrder
        · split
          · refine (every_cancelFor hknown).bind fun cancelled => ?_
            cases cancelled with
            | error e => exact every_giveBack htoken
            | ok r => exact every_cancelWithoutActivation htoken hcancels
          · exact every_cancelWithoutActivation htoken hcancels

lemma every_applyReconciled {expired : Bool} {check : ActivationCheck}
    (hknown : ∀ w, A w → Known cfg id label providerOrderId w)
    (htoken : ∀ w, A w → HoldsToken w tid id token) :
    (applyReconciled cfg id token label providerOrderId expired check).Every
      (Owed cfg tid req born A) := by
  unfold applyReconciled
  split
  · exact (every_cancelFor hknown).bind fun _ => every_applyAndAnswer hknown htoken trivial
  · exact every_applyAndAnswer hknown htoken trivial

lemma every_releaseUnavailable (htoken : ∀ w, A w → HoldsToken w tid id token) :
    (releaseUnavailable id token).Every (Owed cfg tid req born A) := by
  unfold releaseUnavailable
  simp only [Prog.perform_bind, Prog.every_call]
  refine ⟨fun _ _ _ => trivial, fun r => ?_⟩
  rcases r with _ | ⟨o, inbox⟩
  · trivial
  · exact every_releaseOrder htoken fun _ => trivial

/-- The reconciler's check of a claimed order. -/
lemma every_checkClaimed {o : Order}
    (hknown : ∀ w, A w → Known cfg id o.provider providerOrderId w)
    (htoken : ∀ w, A w → HoldsToken w tid id token) :
    (checkClaimed cfg id token o providerOrderId).Every (Owed cfg tid req born A) := by
  unfold checkClaimed
  simp only [Prog.perform_bind, Prog.every_call]
  refine ⟨fun _ _ _ => trivial, fun now => ⟨fun _ _ _ => trivial, fun slot => ?_⟩⟩
  cases slot with
  | none => exact every_releaseOrder htoken fun _ => trivial
  | some slot =>
      refine (every_checkFor hknown).bind fun checked => ⟨fun _ _ _ => trivial, fun _ => ?_⟩
      cases checked with
      | ok check => exact every_applyReconciled hknown htoken
      | error e =>
          dsimp only [Prog.ret_bind]
          split
          · exact every_applyAndAnswer hknown htoken trivial
          · exact every_releaseUnavailable htoken

/-- An operator's check of a claimed order. -/
lemma every_recheckActivation {o : Order}
    (hknown : ∀ w, A w → Known cfg id o.provider providerOrderId w)
    (htoken : ∀ w, A w → HoldsToken w tid id token) :
    (recheckActivation cfg id token o providerOrderId).Every (Owed cfg tid req born A) := by
  unfold recheckActivation
  simp only [Prog.perform_bind, Prog.every_call]
  refine ⟨fun _ _ _ => trivial, fun slot => ?_⟩
  cases slot with
  | none => exact every_releaseOrder htoken fun _ => trivial
  | some slot =>
      refine (every_checkFor hknown).bind fun checked => ⟨fun _ _ _ => trivial, fun _ => ?_⟩
      cases checked with
      | ok check => exact ⟨fun _ _ _ => trivial, fun _ => every_applyReconciled hknown htoken⟩
      | error e => exact every_releaseOrder htoken fun _ => trivial

end Pieces

/-! ## Customers -/

section Customers

variable {cfg : Config} {tid : ℕ} {req : Request} {born : Time} {id userId : Uuid} {w w' : World}

lemma meets_pullInbox : Meets cfg tid req born Done (pullInbox cfg userId id) w := by
  unfold pullInbox
  split
  · trivial
  · simp only [Prog.perform_bind]
    refine meets_readOrder (fun w => trivial) fun o inbox w hrow => ?_
    dsimp only
    split
    · trivial
    · rename_i providerOrderId hid
      split
      · refine .of_stays stays_known ?_ (hrow providerOrderId hid)
        refine (every_checkFor fun _ h => h).bind fun checked => ?_
        cases checked with
        | error e => trivial
        | ok check => exact every_applyCheck (fun _ h => h) fun _ => trivial
      · trivial

lemma meets_getOrder : Meets cfg tid req born Done (getOrder cfg userId id) w :=
  meets_pullInbox.bind fun _ _ _ => meets_loadOrder

lemma meets_refuseCancel {o : Order} (hrow : KnownRow cfg id o w) :
    Meets cfg tid req born Done (refuseCancel cfg id o) w := by
  unfold refuseCancel
  split
  · split
    · trivial
    · rename_i providerOrderId hid
      refine .of_stays stays_known ?_ (hrow providerOrderId hid)
      refine (every_checkFor fun _ h => h).bind fun checked => ?_
      cases checked with
      | error e => trivial
      | ok check => exact every_applyCheck (fun _ h => h) fun _ => trivial
  · trivial

/-- `cancel_order` claims the order after it has read it, and uses the row as it was read. -/
lemma meets_cancelOrder : Meets cfg tid req born Done (cancelOrder cfg userId id) w := by
  unfold cancelOrder
  simp only [Prog.perform_bind]
  refine meets_readOrder (fun w => trivial) fun o inbox w hrow => ?_
  dsimp only
  split
  · trivial
  · split
    · exact meets_loadOrder
    · split
      · exact meets_refuseCancel hrow
      · refine Meets.call hrow KnownRow.rely (fun _ _ _ => trivial) fun w ω r w' hI hrow he => ?_
        match r, he with
        | none, _ => trivial
        | some (claim, row), he =>
            have htoken := holdsToken_of_cancelClaim he
            have hcancels := cancels_of_cancelClaim he
            have hrow' := hrow.exec he
            dsimp only
            split
            · exact .of_stays ((stays_token _ _).and stays_cancels)
                (every_cancelWithoutActivation (fun _ h => h.1) fun _ h => h.2)
                ⟨htoken, hcancels⟩
            · rename_i providerOrderId hid
              exact .of_stays (stays_known.and ((stays_token _ _).and stays_cancels))
                (every_cancelWithActivation (fun _ h => h.1) (fun _ h => h.2.1) fun _ h => h.2.2)
                ⟨hrow' providerOrderId hid, htoken, hcancels⟩

end Customers

/-! ## Operators -/

section Operators

variable {cfg : Config} {tid : ℕ} {req : Request} {born : Time} {id : Uuid} {w w' : World}

lemma every_rejectIfClaimed {A : World → Prop} :
    (rejectIfClaimed id).Every (Owed cfg tid req born A) := by
  unfold rejectIfClaimed
  simp only [Prog.perform_bind, Prog.every_call]
  refine ⟨fun _ _ _ => trivial, fun r => ?_⟩
  rcases r with _ | ⟨o, inbox⟩
  · trivial
  · refine ⟨fun _ _ _ => trivial, fun now => ?_⟩
    dsimp only [Prog.ret_bind]
    split <;> trivial

lemma meets_recheckClaimed {token : Uuid} {o : Order} (hrow : KnownRow cfg id o w)
    (htoken : HoldsToken w tid id token) :
    Meets cfg tid req born Done (recheckClaimed cfg id token o) w := by
  unfold recheckClaimed
  simp only [Prog.perform_bind]
  split
  · refine .of_stays (stays_token id token) ⟨fun w _ h => ⟨h, trivial⟩, fun r => ?_⟩ htoken
    cases r <;> trivial
  · split
    · refine .of_stays (stays_token id token) ⟨fun w _ h => h, fun r => ?_⟩ htoken
      cases r <;> trivial
    · split
      · exact .of_stays (stays_token _ _) (every_releaseOrder (fun _ h => h) fun _ => trivial)
          htoken
      · rename_i providerOrderId hid
        exact .of_stays (stays_known.and (stays_token _ _))
          (every_recheckActivation (fun _ h => h.1) fun _ h => h.2)
          ⟨hrow providerOrderId hid, htoken⟩

lemma meets_recheckOrder : Meets cfg tid req born Done (recheckOrder cfg id) w := by
  unfold recheckOrder
  simp only [Prog.perform_bind]
  refine meets_readOrder (fun w => trivial) fun o inbox w hrow => ?_
  dsimp only
  split
  · trivial
  · refine Meets.call hrow KnownRow.rely (fun _ _ _ => trivial) fun w ω r w' hI hrow he => ?_
    match r, he with
    | none, _ => exact .of_stays stays_true every_rejectIfClaimed trivial
    | some (claim, row), he =>
        exact meets_recheckClaimed (hrow.exec he) (holdsToken_of_operatorClaim he)

lemma meets_refundOrder : Meets cfg tid req born Done (refundOrder cfg id) w := by
  unfold refundOrder
  simp only [Prog.perform_bind]
  refine Meets.call (A := fun _ => True) trivial (fun _ _ => trivial) (fun _ _ _ => trivial)
    fun w ω replay w' _ _ _ => ?_
  split
  · trivial
  · refine meets_readOrder (fun w => trivial) fun o inbox w hrow => ?_
    dsimp only
    split
    · trivial
    · split
      · trivial
      · refine Meets.call hrow KnownRow.rely (fun _ _ _ => trivial)
          fun w ω r w' hI hrow he => ?_
        match r, he with
        | none, _ => exact .of_stays stays_true every_rejectIfClaimed trivial
        | some (claim, row), he =>
            refine .of_stays (stays_token id claim)
              ⟨fun w _ h => ⟨h, trivial⟩, fun r => ?_⟩ (holdsToken_of_operatorClaim he)
            cases r <;> trivial

end Operators

/-! ## The reconciler -/

section Reconciler

variable {cfg : Config} {tid : ℕ} {req : Request} {born : Time} {id : Uuid} {w w' : World}
  {c : Claim} {status : OrderStatus} {started : Option Time} {o : Order}

/-- What the reconciler's refunds are owed, from what its live claim tells. -/
lemma Holding.refundContract (hI : Sound w) (hA : Holding w tid id c status started)
    (h : started = none ∨ (status = .reviewRequired ∧
      ∀ o, w.orders.get? id = some o → minutes 20 < w.now - o.createdAt)) :
    RefundContract w tid id c.token .reconciler := by
  intro o ho hlive
  obtain ⟨hs, hn, hp⟩ := hA.live hI ho hlive
  exact ⟨hn, h.imp hp.trans fun ⟨hreview, htime⟩ => ⟨hs.trans hreview, htime o ho⟩⟩

/-- The reconciler holds an order in review, whose row it saw after it left `reserved`. -/
structure Recovering (w : World) (tid : ℕ) (id : Uuid) (c : Claim) (started : Option Time)
    (o : Order) : Prop where
  holding : Holding w tid id c .reviewRequired started
  seen : Seen w.log id o
  left : o.status ≠ .reserved

lemma Recovering.rely (h : Rely cfg tid w w') (hA : Recovering w tid id c started o) :
    Recovering w' tid id c started o :=
  ⟨hA.holding.rely h, hA.seen.mono h.log, hA.left⟩

lemma Recovering.frame (hA : Recovering w tid id c started o) (hlog : w.log <:+ w'.log)
    (hnow : w'.now = w.now) (horders : w'.orders = w.orders) :
    Recovering w' tid id c started o :=
  ⟨hA.holding.frame hlog hnow horders, hA.seen.mono hlog, hA.left⟩

/-- The refund after twenty minutes: the clock was read before, and time only passes. -/
lemma meets_giveUpOrRelease (hA : Recovering w tid id c started o) :
    Meets cfg tid req born Done (giveUpOrRelease id c.token o.createdAt) w := by
  unfold giveUpOrRelease
  simp only [Prog.perform_bind]
  refine Meets.call hA Recovering.rely (fun _ _ _ => trivial) fun w ω now w' _ hA he => ?_
  obtain ⟨-, hclock⟩ := exec_eq_some he
  cases hclock
  have hA' : Recovering (w.draw ω) tid id c started o := hA.frame List.suffix_rfl rfl rfl
  split
  · rename_i htime
    refine Meets.call (A := fun w₁ => Recovering w₁ tid id c started o ∧ w.now ≤ w₁.now)
      ⟨hA', le_rfl⟩ (fun h hA => ⟨hA.1.rely h, hA.2.trans h.now_le⟩)
      (fun w₁ hI hA => ⟨hA.1.holding.token, hA.1.holding.refundContract hI (.inr ⟨rfl, ?_⟩)⟩)
      fun w ω r w' _ _ _ => ?_
    · intro o' ho'
      obtain ⟨o'', ho'', hlater⟩ := hI.seen id o hA.1.seen
      cases ho'.symm.trans ho''
      have hcreated : o'.createdAt = o.createdAt := congrArg Order.Terms.createdAt hlater.terms
      rw [hcreated]
      exact htime.trans_le (Nat.sub_le_sub_right hA.2 _)
    · cases r <;> trivial
  · exact .of_stays (stays_token _ _) (every_releaseOrder (fun _ h => h) fun _ => trivial)
      hA'.holding.token

/-- What recovery stores, it may ask about. -/
lemma exec_recoverAssign {ω : Oracle} {a : Activation} {r : Bool}
    (hA : Recovering w tid id c started o)
    (he : exec cfg tid (.numbers (.recoverAssign id c.token a)) ω w = some (r, w')) :
    (r = true → Known cfg id o.provider a.providerOrderId w') ∧
      (r = false → Recovering w' tid id c started o) := by
  have hlog := log_of_exec he
  obtain ⟨-, db, es, hexec, rfl⟩ := exec_numbers he
  rcases updateWhere_cases hexec with ⟨rfl, rfl, rfl⟩ |
    ⟨row, orders, hrow, -, rfl, hupdate, rfl, rfl⟩
  · exact ⟨nofun, fun _ => hA.frame hlog rfl rfl⟩
  · refine ⟨fun _ => ⟨fun s hs => ?_, _, OrderTable.get?_update_self hupdate hrow,
      Option.some_ne_none _⟩, nofun⟩
    exact .recovered (hA.seen.mono hlog) hA.left hs List.mem_cons_self rfl rfl rfl

/-- 5SIM's history is all that recovery searches. -/
lemma meets_recoverFromHistory {country product : String}
    (hA : Recovering w tid id c started o) :
    Meets cfg tid req born (fun r w => Recovering w tid id c started o ∧
      ∀ a, r = some a → a.issuedBy = .primary) (recoverFromHistory cfg id country product) w := by
  unfold recoverFromHistory
  split
  · refine Meets.call hA Recovering.rely (fun _ _ _ => trivial) fun w ω r w' _ hA he => ?_
    have hlog := log_of_exec he
    obtain ⟨es, hexec, rfl⟩ := exec_supplier he
    cases hexec
    refine ⟨hA.frame hlog rfl rfl, fun a ha => ?_⟩
    obtain ⟨recent, -, hrecent⟩ := Option.bind_eq_some_iff.mp ha
    exact issuedBy_of_recoverRecentBuy hrecent
  · exact ⟨hA, nofun⟩

lemma every_checkRecovered {A : World → Prop} {label : SupplierLabel} {providerOrderId : String}
    (hknown : ∀ w, A w → Known cfg id label providerOrderId w) :
    (checkRecovered cfg id label providerOrderId).Every (Owed cfg tid req born A) := by
  unfold checkRecovered
  refine (every_checkFor hknown).bind fun checked => ?_
  cases checked with
  | error e => trivial
  | ok check =>
      refine every_applyCheck hknown fun r => ?_
      cases r <;> trivial

/-- `recover_unknown_purchase`: read, search, then attach or give up. -/
lemma meets_recoverUnknownPurchase (hA : Holding w tid id c .reviewRequired started)
    (hleft : ∃ o, w.orders.get? id = some o ∧ o.status ≠ .reserved) :
    Meets cfg tid req born Done (recoverUnknownPurchase cfg id c.token) w := by
  unfold recoverUnknownPurchase
  simp only [Prog.perform_bind]
  refine Meets.call (A := fun w => Holding w tid id c .reviewRequired started ∧
      ∃ o, w.orders.get? id = some o ∧ o.status ≠ .reserved) ⟨hA, hleft⟩
    (fun h ⟨hA, o, ho, hs⟩ => ?_) (fun _ _ _ => trivial) fun w ω r w' _ hA he => ?_
  · obtain ⟨o', ho', hlater⟩ := h.later id o ho
    exact ⟨hA.rely h, o', ho', hlater.left hs⟩
  · match r, he with
    | none, _ => trivial
    | some (o, inbox), he =>
        obtain ⟨hA, o', ho', hs⟩ := hA
        obtain ⟨ho, hseen, horders, hnow⟩ := exec_readOrder he
        cases ho.symm.trans ho'
        have hA : Recovering w' tid id c started o :=
          ⟨hA.frame (log_of_exec he) hnow horders, hseen, hs⟩
        refine (meets_recoverFromHistory hA).bind fun found w ⟨hA, hissued⟩ => ?_
        cases found with
        | none => exact meets_giveUpOrRelease hA
        | some a =>
            refine Meets.call hA Recovering.rely (fun _ _ _ => trivial)
              fun w ω taken w' _ hA he => ?_
            have hlog := log_of_exec he
            obtain ⟨-, db, es, hexec, rfl⟩ := exec_numbers he
            cases hexec
            have hA := hA.frame hlog rfl rfl
            split
            · exact meets_giveUpOrRelease hA
            · refine Meets.call hA Recovering.rely
                (fun w _ hA => ⟨hA.holding.token, hissued a rfl⟩) fun w ω r w' _ hA he => ?_
              obtain ⟨hknown, hkept⟩ := exec_recoverAssign hA he
              cases r with
              | true => exact .of_stays stays_known (every_checkRecovered fun _ h => h) (hknown rfl)
              | false => exact meets_giveUpOrRelease (hkept rfl)

/-- `process`, on a row just claimed. -/
lemma meets_process {token : Uuid} {row : Order} (hI : Sound w)
    (hdue : dueForSweep w.now o = true)
    (htaken : Taken tid w w' id .sweep token o row)
    (hrow : row = { o with claim := some ⟨token, w.now + leaseLength⟩ }) :
    Meets cfg tid req born Done (process cfg id token row) w' := by
  have hknown : KnownRow cfg id row w' :=
    .of_seen htaken.seen htaken.after (by rw [hrow]) (by rw [hrow])
  unfold process
  split
  · rename_i hreserved
    have hstatus : o.status = .reserved := by rw [hrow] at hreserved; exact hreserved
    have hnone : row.providerOrderId = none := by
      rw [hrow]
      exact hI.unassigned id o htaken.found hstatus
    split
    · -- Nothing was ever bought for the order.
      rename_i hstarted
      have hholding := htaken.holding hnone
      rw [Option.isNone_iff_eq_none.mp hstarted] at hholding
      refine Meets.call hholding Holding.rely
        (fun w hI hA => ⟨hA.token, hA.refundContract hI (.inl rfl)⟩) fun w ω r w' _ _ _ => ?_
      cases r <;> trivial
    · split
      · refine .of_stays (stays_token id token)
          ⟨fun w _ h => h, fun r => ?_⟩ htaken.holdsToken
        cases r <;> trivial
      · trivial
  · split
    · rename_i hreserved hreview
      have hnone : row.providerOrderId = none := by
        subst hrow
        exact dueForSweep_reviewRequired hdue hreview
      have hholding := htaken.holding hnone
      rw [hreview] at hholding
      exact meets_recoverUnknownPurchase hholding ⟨row, htaken.after, hreserved⟩
    · split
      · trivial
      · rename_i providerOrderId hid
        exact .of_stays (stays_known.and (stays_token _ _))
          (every_checkClaimed (fun _ h => h.1) fun _ h => h.2)
          ⟨hknown providerOrderId hid, htaken.holdsToken⟩

lemma meets_reconcile : Meets cfg tid req born Done (reconcile cfg id) w := by
  unfold reconcile
  simp only [Prog.perform_bind]
  refine Meets.call (A := fun _ => True) trivial (fun _ _ => trivial) (fun _ _ _ => trivial)
    fun w ω r w' hI _ he => ?_
  match r, he with
  | none, _ => trivial
  | some (token, row), he =>
      obtain ⟨-, db, es, hexec, rfl⟩ := exec_numbers he
      obtain ⟨o, hdue, hrow, htaken⟩ := taken_of_grant hexec
      exact meets_process hI hdue htaken hrow

end Reconciler

end Naivolt
