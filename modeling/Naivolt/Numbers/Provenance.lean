import Naivolt.Numbers.Activations

/-!
# The supplier an order names

`check_for` and `cancel_for` choose the supplier by the order's label.  The label is inserted
from the first-ranked source, rewritten by the buy loop when a source sells, in a statement that
names the order only, and left alone by the reconciler's recovery, whose activations are
5SIM's.  So an order whose label is another supplier's may end up with an activation of
5SIM's, and a label may change after the order has left the buy loop.

`Labelled` is the condition that excludes both.  Under it `order_names_its_supplier` holds of
every run, and `stranger_asked` runs the backend into a question to the wrong supplier.
-/

namespace Naivolt

open Foundation Foundation.Machine

/-! ## The statement -/

/-- Every activation on a row was handed to that order under the row's label, by the supplier
that is asked under it. -/
def LabelsTrue (p : NumberProviders) (w : World) : Prop :=
  ∀ id o i, w.orders.get? id = some o → o.providerOrderId = some i →
    ∃ a, Event.handed id o.provider a ∈ w.log ∧ a.providerOrderId = i ∧
      p.askRoute o.provider = some a.issuedBy

/-- The activation was handed to the order by that supplier. -/
def IssuedTo (log : Log) (order : Uuid) (s : Supplier) (i : String) : Prop :=
  ∃ l a, Event.handed order l a ∈ log ∧ a.providerOrderId = i ∧ a.issuedBy = s

/-- Every supplier was asked only about what it had issued for the order. -/
def AsksTrue (log : Log) : Prop :=
  ∀ order s i, Event.asked order s i ∈ log → IssuedTo log order s i

/-- The reconciler attaches what it found at 5SIM to an order that is asked about there, and a
source is pinned to an order that is still reserved, or already carries its label. -/
def Labelled (cfg : Config) (op : Op) (w : World) : Prop :=
  match op with
  | .numbers (.recoverAssign id token _) =>
      ∀ o ∈ w.orders.get? id, o.status = .reviewRequired → o.claimedBy token = true →
        cfg.providers.askRoute o.provider = some .primary
  | .numbers (.pin id s) =>
      ∀ o ∈ w.orders.get? id, o.status ≠ .reserved → s.provider = o.provider
  | _ => True

instance (cfg : Config) (op : Op) (w : World) : Decidable (Labelled cfg op w) := by
  cases op with
  | numbers op =>
      cases op with
      | recoverAssign id token _ =>
          exact inferInstanceAs (Decidable (∀ o ∈ w.orders.get? id, o.status = .reviewRequired →
            o.claimedBy token = true → cfg.providers.askRoute o.provider = some .primary))
      | pin id s =>
          exact inferInstanceAs (Decidable (∀ o ∈ w.orders.get? id, o.status ≠ .reserved →
            s.provider = o.provider))
      | _ => exact .isTrue trivial
  | _ => exact .isTrue trivial

/-! ## What carries it -/

/-- The row carries that label and has left `reserved`. -/
def LeftUnder (w : World) (order : Uuid) (label : SupplierLabel) : Prop :=
  ∃ o, w.orders.get? order = some o ∧ o.provider = label ∧ o.status ≠ .reserved

/-- Labels and activations, on the rows, on the rows that were seen and in the recoveries that
were written. -/
structure Provenance (p : NumberProviders) (w : World) : Prop where
  handings : ∀ id l a, Event.handed id l a ∈ w.log → p.askRoute l = some a.issuedBy
  rows : ∀ id o i, w.orders.get? id = some o → o.providerOrderId = some i →
    ∃ a, Event.handed id o.provider a ∈ w.log ∧ a.providerOrderId = i
  seen : ∀ id o i, Seen w.log id o → o.providerOrderId = some i →
    ∃ a, Event.handed id o.provider a ∈ w.log ∧ a.providerOrderId = i
  labels : ∀ id o, Seen w.log id o → o.status ≠ .reserved → LeftUnder w id o.provider
  recoveries : ∀ r, Event.wrote r ∈ w.log → r.path = .recoverAssign →
    (∃ a, Event.handed r.order r.before.provider a ∈ w.log ∧
      r.after.providerOrderId = some a.providerOrderId) ∧
    LeftUnder w r.order r.before.provider
  asked : AsksTrue w.log

section Step

variable {cfg : Config} {tid : ℕ} {req : Request} {born : Time} {ω : Oracle} {w w' : World}
  {op : Op}

/-- Once an order has left `reserved` its label stays. -/
lemma LeftUnder.step {id : Uuid} {label : SupplierLabel} (hleft : LeftUnder w id label)
    (hguard : Labelled cfg op w) (h : WorldMove cfg tid ω w op w') : LeftUnder w' id label := by
  obtain ⟨o, ho, hl, hs⟩ := hleft
  obtain ⟨o', ho', hlater⟩ := h.later ho
  refine ⟨o', ho', ?_, hlater.left hs⟩
  rcases h.origin ho' with hsame | ⟨hop, ho₁, -, hchange⟩ | ⟨hnone, -⟩
  · cases ho.symm.trans hsame
    exact hl
  · cases ho.symm.trans ho₁
    cases hchange.supplied with
    | same hprovider => exact hprovider.trans hl
    | assigned _ hprovider => exact hprovider.trans hl
    | recovered _ _ _ hprovider => exact hprovider.trans hl
    | pinned hpin hprovider =>
        subst hop hpin
        exact hprovider.trans ((hguard o ho hs).trans hl)
  · cases hnone.symm.trans ho

/-- What a recovery hands, and the row it leaves. -/
lemma WorldMove.new_recovery (h : WorldMove cfg tid ω w op w') {r : OrderWrite}
    (hr : Event.wrote r ∈ w'.log) (hpath : r.path = .recoverAssign) :
    Event.wrote r ∈ w.log ∨
    ∃ a, Event.handed r.order r.before.provider a ∈ w'.log ∧
      r.after.providerOrderId = some a.providerOrderId ∧
      w'.orders.get? r.order = some r.after ∧ r.after.provider = r.before.provider ∧
      r.after.status ≠ .reserved := by
  have hnew := h.new_event hr
  cases h with
  | numbers hmove =>
      refine (List.mem_append.mp hr).symm.imp_right fun he => ?_
      cases hmove with
      | row hrow hstep hupdate hledger =>
          cases hstep with
          | recovered hstatus hheld =>
              cases (List.mem_pair.mp he).resolve_right nofun
              exact ⟨_, List.mem_cons_of_mem _ List.mem_cons_self, rfl,
                OrderTable.get?_update_self hupdate hrow, rfl, OrderStatus.noConfusion⟩
          | markedForReview => cases List.mem_singleton.mp he; cases hpath
          | assigned => cases List.mem_singleton.mp he; cases hpath
          | checkedForReview => cases List.mem_singleton.mp he; cases hpath
          | _ => simp at he
      | ended hop =>
          cases (List.mem_pair.mp he).resolve_right nofun
          cases hop <;> cases hpath
      | _ => simp at he
  | supplier hexec =>
      refine .inl (hnew.resolve_right fun hnew => ?_)
      cases hnew with
      | supplier hevent => exact nomatch hevent
  | look hop => exact .inl hr
  | _ => exact .inl (hnew.resolve_right nofun)

/-- A new question was asked under its contract. -/
lemma WorldMove.new_asked (h : WorldMove cfg tid ω w op w')
    (hC : Contract cfg tid req born op w) {order : Uuid} {s : Supplier} {i : String}
    (ha : Event.asked order s i ∈ w'.log) :
    Event.asked order s i ∈ w.log ∨ Asks cfg w.log order s i := by
  refine (h.new_event ha).imp_right fun hnew => ?_
  cases hnew with
  | numbers hmove he => exact nomatch hmove.ofOrders he
  | supplier hevent =>
      cases hevent with
      | checked => exact hC
      | cancelled => exact hC

/-- What an order may be asked about was issued for it by the supplier that is asked. -/
lemma Provenance.issued (hI : Provenance cfg.providers w) {order : Uuid} {s : Supplier}
    {i : String} (h : Asks cfg w.log order s i) : IssuedTo w.log order s i := by
  cases h with
  | @seen o hseen hid hroute =>
      obtain ⟨a, hh, hi⟩ := hI.seen order o i hseen hid
      exact ⟨_, a, hh, hi, Option.some.inj ((hI.handings _ _ _ hh).symm.trans hroute)⟩
  | handed hh hid hroute =>
      exact ⟨_, _, hh, hid, Option.some.inj ((hI.handings _ _ _ hh).symm.trans hroute)⟩
  | @recovered o r hseen hleft hroute hwrote horder hpath hid =>
      subst horder
      -- The label that was read is the label under which the recovery was written.
      obtain ⟨⟨a, hh, hafter⟩, o₂, ho₂, hl₂, -⟩ := hI.recoveries r hwrote hpath
      obtain ⟨o₁, ho₁, hl₁, -⟩ := hI.labels r.order o hseen hleft
      cases ho₁.symm.trans ho₂
      have hlabel : o.provider = r.before.provider := hl₁.symm.trans hl₂
      rw [hlabel] at hroute
      exact ⟨_, a, hh, Option.some.inj (hafter.symm.trans hid),
        Option.some.inj ((hI.handings _ _ _ hh).symm.trans hroute)⟩

/-- A handing of this step is by the supplier that is asked under its label. -/
lemma Hands.askRoute {order : Uuid} {l : SupplierLabel} {a : Activation}
    (h : Hands cfg ω w order op l a) (hC : Contract cfg tid req born op w)
    (hguard : Labelled cfg op w) : cfg.providers.askRoute l = some a.issuedBy := by
  cases h with
  | bought hbought => exact hC
  | recent hfound =>
      obtain ⟨recent, -, hrecent⟩ := Option.bind_eq_some_iff.mp hfound
      rw [issuedBy_of_recoverRecentBuy hrecent]
      exact hC
  | recovered hrow hstatus hheld =>
      rw [hC.2]
      exact hguard _ hrow hstatus hheld

/-- Every step under its contract that keeps the labels true keeps the invariant. -/
lemma Provenance.step (hI : Provenance cfg.providers w) (hS : Sound w)
    (hC : Contract cfg tid req born op w) (hguard : Labelled cfg op w)
    (h : WorldMove cfg tid ω w op w') : Provenance cfg.providers w' := by
  obtain ⟨es, hlog⟩ := h.log_eq
  have hsub : ∀ {e}, e ∈ w.log → e ∈ w'.log := fun he => hlog ▸ List.mem_append_right _ he
  have hmono : ∀ {id l i}, (∃ a, Event.handed id l a ∈ w.log ∧ a.providerOrderId = i) →
      ∃ a, Event.handed id l a ∈ w'.log ∧ a.providerOrderId = i :=
    fun ⟨a, hh, hi⟩ => ⟨a, hsub hh, hi⟩
  refine ⟨fun id l a hh => ?_, fun id o' i ho' hi => ?_, fun id o i hseen hi => ?_,
    fun id o hseen hleft => ?_, fun r hr hpath => ?_, fun order s i ha => ?_⟩
  · rcases h.new_handed hh with hh | hhands
    · exact hI.handings id l a hh
    · exact hhands.askRoute hC hguard
  · obtain ⟨o, es', ho, hlog', ⟨hprovider, hid⟩ | ⟨nop, rfl, hsupplied⟩⟩ := h.supplied ho' hi
    · rw [hprovider]
      exact hmono (hI.rows id o i ho hid)
    · cases hsupplied with
      | same hprovider hid =>
          rw [hprovider]
          exact hmono (hI.rows id o i ho (hid ▸ hi))
      | assigned hop hprovider hid =>
          subst hop
          obtain ⟨hhanded, -⟩ := hC.2 o ho
          rw [hprovider]
          exact ⟨_, hsub hhanded, Option.some.inj (hid.symm.trans hi)⟩
      | recovered hop hstatus hheld hprovider hid hhanded =>
          rw [hprovider]
          exact ⟨_, hlog' ▸ List.mem_append_left _ hhanded,
            Option.some.inj (hid.symm.trans hi)⟩
      | pinned hop hprovider hid hstatus =>
          subst hop
          have hid₀ : o.providerOrderId = some i := hid ▸ hi
          have hleft : o.status ≠ .reserved := fun hs => by
            cases (hS.unassigned id o ho hs).symm.trans hid₀
          rw [hprovider, hguard o ho hleft]
          exact hmono (hI.rows id o i ho hid₀)
  · rcases h.new_seen hseen with hseen | ho
    · exact hmono (hI.seen id o i hseen hi)
    · exact hmono (hI.rows id o i ho hi)
  · rcases h.new_seen hseen with hseen | ho
    · exact (hI.labels id o hseen hleft).step hguard h
    · exact LeftUnder.step ⟨o, ho, rfl, hleft⟩ hguard h
  · rcases h.new_recovery hr hpath with hr | ⟨a, hh, hid, hafter, hprovider, hleft⟩
    · obtain ⟨⟨a, hh, hid⟩, hunder⟩ := hI.recoveries r hr hpath
      exact ⟨⟨a, hsub hh, hid⟩, hunder.step hguard h⟩
    · exact ⟨⟨a, hh, hid⟩, _, hafter, hprovider, hleft⟩
  · have hissued : IssuedTo w.log order s i := by
      rcases h.new_asked hC ha with ha | hasks
      · exact hI.asked order s i ha
      · exact hI.issued hasks
    obtain ⟨l, a, hh, hrest⟩ := hissued
    exact ⟨l, a, hsub hh, hrest⟩

end Step

/-! ## Runs -/

/-- **The order names the supplier that issued its activation**, and every supplier is asked
only about what it issued for the order, in every run that keeps the labels true. -/
theorem order_names_its_supplier {cfg : Config} {now : Time} {wallets : List Wallet} {s : State}
    (h : (backend cfg).Reachable (onOps fun _ _ _ op _ w => Labelled cfg op w)
      (initial now wallets) s) :
    LabelsTrue cfg.providers s.world ∧ AsksTrue s.world.log := by
  have hI : Provenance cfg.providers s.world := by
    refine Reachable.guarded_inv (I := Provenance cfg.providers) ?_ (fun e w w' he hI => ?_)
      (fun tid req b op ω r w w' hP he hI => ?_) (contracted h)
    · refine ⟨fun _ _ _ hh => absurd hh List.not_mem_nil, fun id o i ho => ?_,
        fun id o i hseen => ?_, fun id o hseen => ?_, fun r hr => absurd hr List.not_mem_nil,
        fun _ _ _ ha => absurd ha List.not_mem_nil⟩
      · simp [initial, Sys.idle, World.fresh] at ho
      · simp [initial, Sys.idle, World.fresh, Seen] at hseen
      · simp [initial, Sys.idle, World.fresh, Seen] at hseen
    · obtain ⟨now, wallets, tiers, -, rfl⟩ := execEnv_eq he
      exact ⟨hI.handings, hI.rows, hI.seen, hI.labels, hI.recoveries, hI.asked⟩
    · exact hI.step hP.2.1 hP.2.2 hP.1 (exec_move he).2
  refine ⟨fun id o i ho hi => ?_, hI.asked⟩
  obtain ⟨a, hh, hid⟩ := hI.rows id o i ho hi
  exact ⟨a, hh, hid, hI.handings _ _ _ hh⟩

/-- An order whose last source, 5SIM, does not say whether it sold; the reconciler finds the
number in 5SIM's history and asks about it. -/
def recoveredAfter (refused : List Move) (sources : List Source) : List Move :=
  topUp 0 7 100 101 102 5000 ++
  serve 2 (.createOrder 7 50 (offerOrder 9 1000))
    [{ fresh := [200, 201, 2 <<< 100],
       catalogue := offerCatalogue 1000 (sources ++ [⟨.fivesim, "nigeria", "telegram", ""⟩]) },
      { fresh := [203] }] ++
  refused ++ [.resume 2 {}, .resume 2 { buy := .ambiguous }, .resume 2 {}, .resume 2 {}] ++
  wait (seconds 5) :: serve 3 (.reconcile 200)
    [{ fresh := [204] }, {}, { recent := some [recentOrder "a9"] }, {}, {},
      { check := .ok ⟨[], .open, none⟩ }]

/-- Whom the history says was asked about what. -/
def questions (log : Log) : List (Uuid × Supplier × String) :=
  log.filterMap fun e => match e with
    | .asked order s i => some (order, s, i)
    | _ => none

/-- The suppliers that handed something over. -/
def handers (log : Log) : List Supplier :=
  log.filterMap fun e => match e with
    | .handed _ _ a => some a.issuedBy
    | _ => none

theorem order_names_its_supplier_recovered :
    ∃ s : State, questions s.world.log = [(200, .primary, "a9")] ∧
      LabelsTrue liveConfig.providers s.world ∧ AsksTrue s.world.log := by
  obtain ⟨s, hs, hasked⟩ := exists_reachable_of_run (backend liveConfig)
    (onOps fun _ _ _ op _ w => Labelled liveConfig op w) (initial 0 []) (recoveredAfter [] [])
    (fun s => questions s.world.log = [(200, .primary, "a9")]) (by decide +kernel)
  exact ⟨s, hasked, order_names_its_supplier hs⟩

/-- SMSPool is out of stock and 5SIM does not say; the number found at 5SIM is asked about at
SMSPool. -/
theorem stranger_asked :
    ¬ ∀ s : State, (backend liveConfig).Reachable unguarded (initial 0 []) s →
      LabelsTrue liveConfig.providers s.world ∧ AsksTrue s.world.log := by
  intro h
  obtain ⟨s, hs, hasked, hhanded⟩ := exists_reachable_of_run (backend liveConfig) unguarded
    (initial 0 [])
    (recoveredAfter [.resume 2 {}, .resume 2 { buy := .refused .outOfStock }]
      [⟨.smspool, "NG", "telegram", ""⟩])
    (fun s => questions s.world.log = [(200, .smspool, "a9")] ∧
      handers s.world.log = [.primary]) (by decide +kernel)
  have hq : ((200 : Uuid), Supplier.smspool, "a9") ∈ questions s.world.log := by
    rw [hasked]
    exact List.mem_cons_self
  obtain ⟨e, he, hmatch⟩ := List.mem_filterMap.mp hq
  split at hmatch
  · cases hmatch
    obtain ⟨l, a, hh, -, hissued⟩ := (h s hs).2 _ _ _ he
    have hmem : a.issuedBy ∈ handers s.world.log := List.mem_filterMap.mpr ⟨_, hh, rfl⟩
    rw [hhanded, hissued] at hmem
    cases List.mem_singleton.mp hmem
  · cases hmatch

end Naivolt
