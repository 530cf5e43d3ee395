import Naivolt.System.Contracted

/-!
# Which order an activation belongs to

An activation reaches an order's row by three ways: the answer to its purchase call, 5SIM's
order history read inside a purchase whose answer could not be read, and the same history read
by the reconciler.  Only the last looks whether another order has the activation, and in a
statement of its own; no index of `number_orders` backs it.

`Supplied` says how one operation can change the activation or the label of a row, `Hands` what
it can give an order that was not the order's before.  `Unshared` is the condition that no
operation gives away what another order was given; under it `activation_ownership_injective`
holds of every run, and `activation_shared` runs the backend into two orders with one number.
-/

namespace Naivolt

open Foundation Foundation.Machine

/-! ## Rows and their activations -/

/-- What one operation does to the activation and the label of a row. -/
inductive Supplied (id : Uuid) (row : Order) (op : NumberOp) (row' : Order) (es : Log) : Prop where
  | same (hprovider : row'.provider = row.provider)
      (hid : row'.providerOrderId = row.providerOrderId)
  | assigned {token : Uuid} {a : Activation} (hop : op = .assign id token a)
      (hprovider : row'.provider = row.provider)
      (hid : row'.providerOrderId = some a.providerOrderId)
  | recovered {token : Uuid} {a : Activation} (hop : op = .recoverAssign id token a)
      (hstatus : row.status = .reviewRequired) (hheld : row.claimedBy token = true)
      (hprovider : row'.provider = row.provider)
      (hid : row'.providerOrderId = some a.providerOrderId)
      (hhanded : Event.handed id row.provider a ∈ es)
  | pinned {s : Source} (hop : op = .pin id s) (hprovider : row'.provider = s.provider)
      (hid : row'.providerOrderId = row.providerOrderId) (hstatus : row'.status = row.status)

lemma RowChange.supplied {now : Time} {tid : ℕ} {fresh : List Uuid} {id : Uuid}
    {row row' : Order} {op : NumberOp} {es : Log}
    (h : RowChange now tid fresh id row op row' es) : Supplied id row op row' es := by
  cases h with
  | kept hsame => exact hsame ▸ .same rfl rfl
  | step hstep =>
      cases hstep with
      | granted hop hfree htoken => cases hop <;> exact .same rfl rfl
      | released hop hheld hsame hjournals hstatus hclaim =>
          exact .same hsame.provider hsame.providerOrderId
      | markedForReview hstatus hlive => exact .same rfl rfl
      | assigned hstatus hlive => exact .assigned rfl rfl rfl
      | pinned => exact .pinned rfl rfl rfl rfl
      | recovered hstatus hheld =>
          exact .recovered rfl hstatus hheld rfl rfl (List.mem_cons_of_mem _ List.mem_cons_self)
      | kept hfenced hopen hsame hjournals hstatus hclaim =>
          exact .same hsame.provider hsame.providerOrderId
      | checkedForReview hfenced hopen hsame hstatus hclaim =>
          exact .same hsame.provider hsame.providerOrderId
  | ended hop hfenced hopen hstep hes =>
      exact .same hstep.same.provider hstep.same.providerOrderId

/-- The activation in a purchase answer. -/
def BuyAnswer.activation? : BuyAnswer → Option Activation
  | .bought a => some a
  | _ => none

/-- The activation an operation newly hands to an order, under which label. -/
inductive Hands (cfg : Config) (ω : Oracle) (w : World) (order : Uuid) :
    Op → SupplierLabel → Activation → Prop where
  | bought {call : ℕ} {label : SupplierLabel} {supplier : Supplier} {a : Activation}
      (hbought : ω.buy.activation? = some a) :
      Hands cfg ω w order (.supplier (.buyAnswer call order label supplier)) label
        { a with issuedBy := supplier }
  | recent {label : SupplierLabel} {country product : String} {a : Activation}
      (hfound : ω.recent.bind (recoverRecentBuy cfg.fivesimCurrency country product) = some a) :
      Hands cfg ω w order (.supplier (.recentInPurchase order label country product)) label a
  | recovered {token : Uuid} {a : Activation} {row : Order}
      (hrow : w.orders.get? order = some row) (hstatus : row.status = .reviewRequired)
      (hheld : row.claimedBy token = true) :
      Hands cfg ω w order (.numbers (.recoverAssign order token a)) row.provider a

lemma purchaseAnswer_bought {cfg : Config} {supplier : Supplier} {answer : BuyAnswer}
    {a : Activation} (h : purchaseAnswer cfg supplier answer = some (.bought a)) :
    ∃ a₀, answer.activation? = some a₀ ∧ a = { a₀ with issuedBy := supplier } := by
  unfold purchaseAnswer at h
  split at h
  · cases h
    exact ⟨_, rfl, rfl⟩
  · rename_i hother
    split at h
    · cases h
    · cases h
      exact absurd rfl (hother a)

section Steps

variable {cfg : Config} {tid : ℕ} {ω : Oracle} {w w' : World} {op : Op}

/-- A handing in the history was there before, or is the step's. -/
lemma WorldMove.new_handed (h : WorldMove cfg tid ω w op w') {order : Uuid}
    {label : SupplierLabel} {a : Activation} (hh : Event.handed order label a ∈ w'.log) :
    Event.handed order label a ∈ w.log ∨ Hands cfg ω w order op label a := by
  refine (h.new_event hh).imp_right fun hnew => ?_
  cases hnew with
  | numbers hmove he =>
      cases hmove with
      | row hrow hstep hupdate hledger =>
          cases hstep with
          | recovered hstatus hheld =>
              cases (List.mem_pair.mp he).resolve_left nofun
              exact .recovered hrow hstatus hheld
          | _ => simp at he
      | _ => simp at he
  | supplier hevent =>
      cases hevent with
      | bought hanswer =>
          obtain ⟨a₀, hbought, rfl⟩ := purchaseAnswer_bought hanswer
          exact .bought hbought
      | recovered hfound => exact .recent hfound

/-- Where the activation and the label of a row come from. -/
lemma WorldMove.supplied (h : WorldMove cfg tid ω w op w') {id : Uuid} {o' : Order} {i : String}
    (ho' : w'.orders.get? id = some o') (hi : o'.providerOrderId = some i) :
    ∃ o es, w.orders.get? id = some o ∧ w'.log = es ++ w.log ∧
      ((o'.provider = o.provider ∧ o.providerOrderId = some i) ∨
        ∃ nop, op = .numbers nop ∧ Supplied id o nop o' es) := by
  rcases h.origin ho' with ho | ⟨hop, ho, hlog, hchange⟩ | ⟨-, -, hnone, -, -⟩
  · obtain ⟨es, hlog⟩ := h.log_eq
    exact ⟨o', es, ho, hlog, .inl ⟨rfl, hi⟩⟩
  · exact ⟨_, _, ho, hlog, .inr ⟨_, hop, hchange.supplied⟩⟩
  · cases hnone.symm.trans hi

end Steps

/-! ## Who was given an activation -/

/-- The labels name one supplier: they are equal, or the process asks one adapter under both. -/
def NumberProviders.sameSupplier (p : NumberProviders) (l l' : SupplierLabel) : Bool :=
  l = l' || (p.askRoute l = p.askRoute l' && (p.askRoute l).isSome)

section SameSupplier

variable {p : NumberProviders} {l l' l'' : SupplierLabel}

lemma sameSupplier_iff : p.sameSupplier l l' = true ↔
    l = l' ∨ (p.askRoute l = p.askRoute l' ∧ (p.askRoute l).isSome = true) := by
  simp [NumberProviders.sameSupplier]

@[simp] lemma sameSupplier_refl : p.sameSupplier l l = true := sameSupplier_iff.mpr (.inl rfl)

lemma sameSupplier_symm (h : p.sameSupplier l l' = true) : p.sameSupplier l' l = true := by
  rw [sameSupplier_iff] at h ⊢
  exact h.imp Eq.symm fun ⟨heq, hsome⟩ => ⟨heq.symm, heq ▸ hsome⟩

lemma sameSupplier_trans (h : p.sameSupplier l l' = true) (h' : p.sameSupplier l' l'' = true) :
    p.sameSupplier l l'' = true := by
  rw [sameSupplier_iff] at h h' ⊢
  rcases h with rfl | ⟨heq, hsome⟩
  · exact h'
  · rcases h' with rfl | ⟨heq', -⟩
    · exact .inr ⟨heq, hsome⟩
    · exact .inr ⟨heq.trans heq', hsome⟩

end SameSupplier

/-- The order was handed that supplier's activation `i`, or its row carries it. -/
def Given (p : NumberProviders) (w : World) (order : Uuid) (label : SupplierLabel)
    (i : String) : Prop :=
  (∃ l a, Event.handed order l a ∈ w.log ∧ a.providerOrderId = i ∧
    p.sameSupplier l label = true) ∨
  ∃ o, w.orders.get? order = some o ∧ o.providerOrderId = some i ∧
    p.sameSupplier o.provider label = true

/-- The entry hands that supplier's activation `i` to an order. -/
def Event.handsTo? (p : NumberProviders) (label : SupplierLabel) (i : String) :
    Event → Option Uuid
  | .handed order l a =>
      if a.providerOrderId = i && p.sameSupplier l label then some order else none
  | _ => none

/-- The orders that were given the activation. -/
def givenTo (p : NumberProviders) (w : World) (label : SupplierLabel) (i : String) : List Uuid :=
  w.log.filterMap (Event.handsTo? p label i) ++
    (w.orders.table.rows.filter fun r =>
      r.2.providerOrderId = some i && p.sameSupplier r.2.provider label).map Prod.fst

lemma handsTo?_eq_some {p : NumberProviders} {label : SupplierLabel} {i : String} {e : Event}
    {order : Uuid} : e.handsTo? p label i = some order ↔
      ∃ l a, e = .handed order l a ∧ a.providerOrderId = i ∧ p.sameSupplier l label = true := by
  unfold Event.handsTo?
  split
  · rename_i order' l a
    simp only [Bool.and_eq_true, decide_eq_true_eq, Option.ite_none_right_eq_some,
      Option.some.injEq, Event.handed.injEq]
    constructor
    · rintro ⟨hi, rfl⟩
      exact ⟨l, a, ⟨rfl, rfl, rfl⟩, hi⟩
    · rintro ⟨l', a', ⟨rfl, rfl, rfl⟩, hi⟩
      exact ⟨hi, rfl⟩
  · rename_i hother
    simp only [reduceCtorEq, false_iff]
    rintro ⟨l, a, rfl, -⟩
    exact hother _ _ _ rfl

lemma mem_givenTo {p : NumberProviders} {w : World} {label : SupplierLabel} {i : String}
    {order : Uuid} : order ∈ givenTo p w label i ↔ Given p w order label i := by
  unfold givenTo Given
  rw [List.mem_append, List.mem_filterMap]
  refine or_congr ⟨fun ⟨e, he, hto⟩ => ?_, fun ⟨l, a, hh, hi, hl⟩ => ?_⟩
    ⟨fun hm => ?_, fun ⟨o, ho, hi, hl⟩ => ?_⟩
  · obtain ⟨l, a, rfl, hi, hl⟩ := handsTo?_eq_some.mp hto
    exact ⟨l, a, he, hi, hl⟩
  · exact ⟨_, hh, handsTo?_eq_some.mpr ⟨l, a, rfl, hi, hl⟩⟩
  · obtain ⟨⟨id, o⟩, hr, rfl⟩ := List.mem_map.mp hm
    simp only [List.mem_filter, Bool.and_eq_true, decide_eq_true_eq] at hr
    exact ⟨o, Table.get?_eq_some_iff.mpr hr.1, hr.2⟩
  · refine List.mem_map.mpr ⟨(order, o), List.mem_filter.mpr ⟨?_, by simp [hi, hl]⟩, rfl⟩
    exact Table.get?_eq_some_iff.mp ho

lemma Given.sameSupplier {p : NumberProviders} {w : World} {order : Uuid}
    {l l' : SupplierLabel} {i : String} (h : Given p w order l i)
    (hl : p.sameSupplier l l' = true) : Given p w order l' i :=
  h.imp (fun ⟨k, a, hh, hi, hk⟩ => ⟨k, a, hh, hi, sameSupplier_trans hk hl⟩)
    fun ⟨o, ho, hi, hk⟩ => ⟨o, ho, hi, sameSupplier_trans hk hl⟩

/-! ## Ownership -/

/-- No two orders carry one supplier's activation. -/
def OwnershipInjective (p : NumberProviders) (w : World) : Prop :=
  ∀ id id' o o' i, w.orders.get? id = some o → w.orders.get? id' = some o' →
    o.providerOrderId = some i → o'.providerOrderId = some i →
    p.sameSupplier o.provider o'.provider = true → id = id'

/-- No order but this was given the activation. -/
def GivenToNoOther (p : NumberProviders) (w : World) (order : Uuid) (label : SupplierLabel)
    (i : String) : Prop := ∀ id ∈ givenTo p w label i, id = order

instance (p : NumberProviders) (w : World) (order : Uuid) (label : SupplierLabel) (i : String) :
    Decidable (GivenToNoOther p w order label i) :=
  List.decidableBAll (fun id => id = order) _

/-- Nothing is given to an order that another order was given: a supplier does not sell an
activation twice, what 5SIM's history is searched for is not another order's, nor is what the
reconciler is about to attach, and a relabelled row does not come to name another order's. -/
def Unshared (cfg : Config) (op : Op) (ω : Oracle) (w : World) : Prop :=
  match op with
  | .supplier (.buyAnswer _ order label _) =>
      ∀ a ∈ ω.buy.activation?, GivenToNoOther cfg.providers w order label a.providerOrderId
  | .supplier (.recentInPurchase order label country product) =>
      ∀ a ∈ ω.recent.bind (recoverRecentBuy cfg.fivesimCurrency country product),
        GivenToNoOther cfg.providers w order label a.providerOrderId
  | .numbers (.recoverAssign id token a) =>
      ∀ o ∈ w.orders.get? id, o.status = .reviewRequired → o.claimedBy token = true →
        GivenToNoOther cfg.providers w id o.provider a.providerOrderId
  | .numbers (.pin id s) =>
      ∀ o ∈ w.orders.get? id, ∀ i ∈ o.providerOrderId,
        GivenToNoOther cfg.providers w id s.provider i
  | _ => True

instance (cfg : Config) (op : Op) (ω : Oracle) (w : World) : Decidable (Unshared cfg op ω w) := by
  unfold Unshared
  split <;> infer_instance

/-- What an operation newly gives an order: an activation it hands over, or the one on the row
under a new label. -/
inductive Gives (cfg : Config) (ω : Oracle) (w : World) (order : Uuid) :
    Op → SupplierLabel → String → Prop where
  | handed {op : Op} {label : SupplierLabel} {a : Activation}
      (hhands : Hands cfg ω w order op label a) : Gives cfg ω w order op label a.providerOrderId
  | relabelled {s : Source} {row : Order} {i : String} (hrow : w.orders.get? order = some row)
      (hid : row.providerOrderId = some i) :
      Gives cfg ω w order (.numbers (.pin order s)) s.provider i

/-- An operation gives to one order only. -/
lemma Gives.order_eq {cfg : Config} {ω : Oracle} {w : World} {id id' : Uuid} {op : Op}
    {l l' : SupplierLabel} {i i' : String} (h : Gives cfg ω w id op l i)
    (h' : Gives cfg ω w id' op l' i') : id = id' := by
  cases h with
  | handed hhands =>
      cases h' with
      | handed hhands' => cases hhands <;> cases hhands' <;> rfl
      | relabelled => cases hhands
  | relabelled =>
      cases h' with
      | handed hhands' => cases hhands'
      | relabelled => rfl

/-- The condition is about what the operation gives. -/
lemma Gives.unshared {cfg : Config} {ω : Oracle} {w : World} {id : Uuid} {op : Op}
    {l : SupplierLabel} {i : String} (h : Gives cfg ω w id op l i)
    (hguard : Unshared cfg op ω w) : GivenToNoOther cfg.providers w id l i := by
  cases h with
  | handed hhands =>
      cases hhands with
      | bought hbought =>
          have hno := hguard _ hbought
          exact hno
      | recent hfound => exact hguard _ hfound
      | recovered hrow hstatus hheld => exact hguard _ hrow hstatus hheld
  | relabelled hrow hid => exact hguard _ hrow _ hid

section Step

variable {cfg : Config} {tid : ℕ} {req : Request} {born : Time} {ω : Oracle} {w w' : World}
  {op : Op}

/-- What an order has been given it had before, or the step gives it. -/
lemma WorldMove.new_given (h : WorldMove cfg tid ω w op w')
    (hC : Contract cfg tid req born op w) {id : Uuid} {label : SupplierLabel} {i : String}
    (hg : Given cfg.providers w' id label i) : Given cfg.providers w id label i ∨
      ∃ l, Gives cfg ω w id op l i ∧ cfg.providers.sameSupplier l label = true := by
  rcases hg with ⟨l, a, hh, rfl, hl⟩ | ⟨o', ho', hi, hl⟩
  · rcases h.new_handed hh with hh | hhands
    · exact .inl (.inl ⟨l, a, hh, rfl, hl⟩)
    · exact .inr ⟨l, .handed hhands, hl⟩
  · obtain ⟨o, es, ho, -, ⟨hprovider, hid⟩ | ⟨nop, rfl, hsupplied⟩⟩ := h.supplied ho' hi
    · exact .inl (.inr ⟨o, ho, hid, hprovider ▸ hl⟩)
    · cases hsupplied with
      | same hprovider hid => exact .inl (.inr ⟨o, ho, hid ▸ hi, hprovider ▸ hl⟩)
      | assigned hop hprovider hid =>
          -- What is stored was handed to the order under the label of its row.
          subst hop
          obtain ⟨hhanded, -⟩ := hC.2 o ho
          refine .inl (.inl ⟨o.provider, _, hhanded, ?_, hprovider ▸ hl⟩)
          exact Option.some.inj (hid.symm.trans hi)
      | recovered hop hstatus hheld hprovider hid hhanded =>
          subst hop
          cases Option.some.inj (hid.symm.trans hi)
          exact .inr ⟨o.provider, .handed (.recovered ho hstatus hheld), hprovider ▸ hl⟩
      | pinned hop hprovider hid hstatus =>
          subst hop
          exact .inr ⟨_, .relabelled ho (hid ▸ hi), hprovider ▸ hl⟩

/-- What every order was given is its own. -/
def GivenOnce (p : NumberProviders) (w : World) : Prop :=
  ∀ id id' label i, Given p w id label i → Given p w id' label i → id = id'

lemma GivenOnce.step (hI : GivenOnce cfg.providers w) (hC : Contract cfg tid req born op w)
    (hguard : Unshared cfg op ω w) (h : WorldMove cfg tid ω w op w') :
    GivenOnce cfg.providers w' := by
  -- What the step gives one order, no other had.
  have own : ∀ {id id' l label i}, Gives cfg ω w id op l i →
      cfg.providers.sameSupplier l label = true → Given cfg.providers w id' label i →
      id' = id := by
    intro id id' l label i hgives hl hgiven
    exact hgives.unshared hguard id'
      (mem_givenTo.mpr (hgiven.sameSupplier (sameSupplier_symm hl)))
  intro id id' label i hg hg'
  rcases h.new_given hC hg with hold | ⟨l, hgives, hl⟩ <;>
    rcases h.new_given hC hg' with hold' | ⟨l', hgives', hl'⟩
  · exact hI id id' label i hold hold'
  · exact own hgives' hl' hold
  · exact (own hgives hl hold').symm
  · exact hgives.order_eq hgives'

end Step

/-! ## Runs -/

/-- **Activation ownership is injective**, in every run in which no operation gives an order
what another order was given. -/
theorem activation_ownership_injective {cfg : Config} {now : Time} {wallets : List Wallet}
    {s : State}
    (h : (backend cfg).Reachable (onOps fun _ _ _ op ω w => Unshared cfg op ω w)
      (initial now wallets) s) : OwnershipInjective cfg.providers s.world := by
  have honce : GivenOnce cfg.providers s.world := by
    refine Reachable.guarded_inv (I := GivenOnce cfg.providers) ?_ (fun e w w' he hI => ?_)
      (fun tid req b op ω r w w' hP he hI => ?_) (contracted h)
    · rintro id id' label i (⟨l, a, hh, -⟩ | ⟨o, ho, -⟩)
      · exact absurd hh List.not_mem_nil
      · simp [initial, Sys.idle, World.fresh] at ho
    · obtain ⟨now, wallets, tiers, -, rfl⟩ := execEnv_eq he
      exact hI
    · exact hI.step hP.2.2 hP.1 (exec_move he).2
  intro id id' o o' i ho ho' hi hi' hl
  exact honce id id' o'.provider i (.inr ⟨o, ho, hi, hl⟩) (.inr ⟨o', ho', hi', sameSupplier_refl⟩)

/-- Two orders of the same product from 5SIM.  The answer to the second purchase cannot be
read, and 5SIM's history is answered with `recent`. -/
def secondUnreadable (recent : List FiveSimOrder) : List Move :=
  topUp 0 7 100 101 102 5000 ++
  serve 2 (.createOrder 7 50 stubOrder)
    [{ fresh := [200, 201, 2 <<< 100], catalogue := stubCatalogue 1500 }, { fresh := [203] }, {},
      { buy := .bought ⟨"a1", "+2341", none, none, none, .primary⟩ }, {}, {}] ++
  serve 3 (.createOrder 7 51 stubOrder)
    [{ fresh := [210, 211, 3 <<< 100], catalogue := stubCatalogue 1500 }, { fresh := [213] }, {},
      { buy := .unreadable }, { recent := some recent }, {}, {}]

/-- An entry of 5SIM's history, for the product the two orders are of. -/
def recentOrder (id : String) : FiveSimOrder :=
  ⟨some id, "+2341", none, none, some "nigeria", some "telegram"⟩

/-- The orders with their labels and activations. -/
def ownedActivations (w : World) : List (Uuid × SupplierLabel × Option String) :=
  w.orders.table.rows.map fun r => (r.1, r.2.provider, r.2.providerOrderId)

theorem activation_ownership_injective_recovered :
    ∃ s : State, ownedActivations s.world =
        [(210, .fivesimCatalogue, some "a2"), (200, .fivesimCatalogue, some "a1")] ∧
      OwnershipInjective liveConfig.providers s.world := by
  obtain ⟨s, hs, howned⟩ := exists_reachable_of_run (backend liveConfig)
    (onOps fun _ _ _ op ω w => Unshared liveConfig op ω w) (initial 0 [])
    (secondUnreadable [recentOrder "a2", recentOrder "a1"])
    (fun s => ownedActivations s.world =
      [(210, .fivesimCatalogue, some "a2"), (200, .fivesimCatalogue, some "a1")])
    (by decide +kernel)
  exact ⟨s, howned, activation_ownership_injective hs⟩

/-- The history names the first order's number, and the second order gets it too. -/
theorem activation_shared :
    ¬ ∀ s : State, (backend liveConfig).Reachable unguarded (initial 0 []) s →
      OwnershipInjective liveConfig.providers s.world := by
  intro h
  obtain ⟨s, hs, howned⟩ := exists_reachable_of_run (backend liveConfig) unguarded (initial 0 [])
    (secondUnreadable [recentOrder "a1"])
    (fun s => ownedActivations s.world =
      [(210, .fivesimCatalogue, some "a1"), (200, .fivesimCatalogue, some "a1")])
    (by decide +kernel)
  have row : ∀ id : Uuid, (id, SupplierLabel.fivesimCatalogue, some "a1") ∈
      ownedActivations s.world → ∃ o, s.world.orders.get? id = some o ∧
        o.provider = .fivesimCatalogue ∧ o.providerOrderId = some "a1" := by
    intro id hm
    obtain ⟨⟨id', o⟩, hr, heq⟩ := List.mem_map.mp hm
    simp only [Prod.mk.injEq] at heq
    obtain ⟨rfl, hl, hi⟩ := heq
    exact ⟨o, Table.get?_eq_some_iff.mpr hr, hl, hi⟩
  obtain ⟨o, ho, hl, hi⟩ := row 210 (by rw [howned]; exact List.mem_cons_self)
  obtain ⟨o', ho', hl', hi'⟩ := row 200
    (by rw [howned]; exact List.mem_cons_of_mem _ List.mem_cons_self)
  have heq := h s hs 210 200 o o' "a1" ho ho' hi hi' (by rw [hl, hl']; exact sameSupplier_refl)
  exact absurd heq (by decide)

end Naivolt
