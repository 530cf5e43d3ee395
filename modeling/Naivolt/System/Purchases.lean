import Naivolt.System.Guarantee

/-!
# Buying under contract

`create_order` from the reservation to the stored activation, operation by operation.  What the
handler knows between two operations is an assertion that the interference of the others
respects: `Holding`, that the row under its live claim is as the claim found it, and `Buyer`,
that a purchase is in progress.  Assertions that nothing invalidates at all are `Stays`; a
program that owes no more than such an assertion is read off its operations (`Owed`).

The results are the contracts of every operation of `createOrder`: purchases start under the
live claim, what is stored was handed to the order under the label of its row, and the refund
of an order none of whose sources would sell follows the refusal of every call.
-/

namespace Naivolt

open Foundation Foundation.Machine

/-! ## Programs under contract -/

/-- The program keeps its contracts from `w` on, and returns what satisfies `Q`. -/
abbrev Meets (cfg : Config) (tid : ℕ) (req : Request) (born : Time) {β : Type}
    (Q : β → World → Prop) (p : Handler β) (w : World) : Prop :=
  Safe (backend cfg) Sound (Rely cfg) anyOp (Contract cfg) tid req born Q p w

/-- An assertion that nothing invalidates. -/
abbrev Stays (cfg : Config) (tid : ℕ) (req : Request) (born : Time) (A : World → Prop) : Prop :=
  Lasting (backend cfg) Sound (Rely cfg) (Contract cfg) tid req born A

/-- Under the assertion the operation is owed nothing more. -/
def Owed (cfg : Config) (tid : ℕ) (req : Request) (born : Time) (A : World → Prop) (op : Op) :
    Prop := ∀ w, Sound w → A w → Contract cfg tid req born op w

/-- Nothing is asked of the result. -/
def Done {β : Type} (_ : β) (_ : World) : Prop := True

section Rules

variable {cfg : Config} {tid : ℕ} {req : Request} {born : Time} {β : Type}
  {Q : β → World → Prop} {op : Op} {k : op.Res → Handler β} {p : Handler β} {w : World}
  {A B : World → Prop}

/-- One operation under an assertion. -/
lemma Meets.call (hA : A w) (hstable : ∀ {w w'}, Rely cfg tid w w' → A w → A w')
    (hC : Owed cfg tid req born A op)
    (hk : ∀ w ω r w', Sound w → A w → exec cfg tid op ω w = some (r, w') →
      Meets cfg tid req born Q (k r) w') :
    Meets cfg tid req born Q (.call op k) w :=
  Safe.step hA hstable fun w ω hI hA _ => ⟨hC w hI hA, fun r w' he => hk w ω r w' hI hA he⟩

/-- A program whose operations are owed no more than an assertion that stays. -/
lemma Meets.of_stays (hA : Stays cfg tid req born A)
    (hp : p.Every (Owed cfg tid req born A)) (hw : A w) : Meets cfg tid req born Done p w :=
  (Safe.of_lasting hA hp hw).mono fun _ _ _ => trivial

lemma Stays.of_log (h : ∀ w w', w.log <:+ w'.log → A w → A w') : Stays cfg tid req born A where
  rely hR hA := h _ _ hR.log hA
  exec _ _ he hA := h _ _ (log_of_exec he) hA

lemma Stays.and (hA : Stays cfg tid req born A) (hB : Stays cfg tid req born B) :
    Stays cfg tid req born fun w => A w ∧ B w where
  rely hR h := ⟨hA.rely hR h.1, hB.rely hR h.2⟩
  exec hI hC he h := ⟨hA.exec hI hC he h.1, hB.exec hI hC he h.2⟩

lemma Stays.ball {ι : Type} {S : ι → Prop} {A : ι → World → Prop}
    (h : ∀ i, Stays cfg tid req born (A i)) :
    Stays cfg tid req born fun w => ∀ i, S i → A i w where
  rely hR hA i hi := (h i).rely hR (hA i hi)
  exec hI hC he hA i hi := (h i).exec hI hC he (hA i hi)

lemma stays_true : Stays cfg tid req born fun _ => True where
  rely _ _ := trivial
  exec _ _ _ _ := trivial

lemma stays_token (id token : Uuid) :
    Stays cfg tid req born fun w => HoldsToken w tid id token :=
  .of_log fun _ _ hlog h => h.mono hlog

lemma stays_cancels {id token : Uuid} :
    Stays cfg tid req born fun w => CancelsUnder w.log id token :=
  .of_log fun _ _ hlog h => h.mono hlog

/-- `load_order` owes nothing. -/
lemma every_loadOrder {userId id : Uuid} :
    (loadOrder userId id).Every (Owed cfg tid req born A) := by
  unfold loadOrder
  simp only [Prog.perform_bind, Prog.every_call]
  refine ⟨fun _ _ _ => trivial, fun r => ?_⟩
  rcases r with _ | ⟨o, inbox⟩
  · trivial
  · dsimp only
    split <;> trivial

lemma meets_loadOrder {userId id : Uuid} :
    Meets cfg tid req born Done (loadOrder userId id) w :=
  .of_stays stays_true every_loadOrder trivial

end Rules

/-! ## Holding a claim, buying under it -/

/-- As long as the claim granted to the task is live, the order has no activation and is as the
claim found it. -/
structure Holding (w : World) (tid : ℕ) (id : Uuid) (c : Claim) (status : OrderStatus)
    (started : Option Time) : Prop where
  granted : Granted w tid id c
  row : w.now < c.claimedUntil → ∃ o, w.orders.get? id = some o ∧ o.claim = some c ∧
    o.status = status ∧ o.providerOrderId = none ∧ o.purchaseStartedAt = started

/-- The task is buying for the order, whose row is labelled `label`. -/
structure Buyer (w : World) (tid : ℕ) (req : Request) (born : Time) (id : Uuid) (c : Claim)
    (label : SupplierLabel) : Prop where
  holding : ∃ t, Holding w tid id c .reserved (some t)
  under : BuysUnder w tid id c.token
  http : req.viaHttp = true
  lease : born + seconds 30 ≤ c.claimedUntil
  label : ∃ o, w.orders.get? id = some o ∧ o.provider = label

/-- What the outcome of a purchase says of the history. -/
def Bought (cfg : Config) (id : Uuid) (label : SupplierLabel) (r : Purchase) (w : World) :
    Prop :=
  match r with
  | .ok a => Event.handed id label a ∈ w.log ∧ cfg.providers.askRoute label = some a.issuedBy
  | .error (.rejected _) => AllRefused w.log id
  | .error .ambiguous => True

lemma Buyer.buys {w : World} {tid : ℕ} {req : Request} {born : Time} {id : Uuid} {c : Claim}
    {label : SupplierLabel} (h : Buyer w tid req born id c label) : Buys w tid id := h.under.buys

section Stability

variable {cfg : Config} {tid : ℕ} {req : Request} {born : Time} {w w' : World} {id : Uuid}
  {c : Claim} {status : OrderStatus} {started : Option Time} {label : SupplierLabel}

lemma Holding.token (h : Holding w tid id c status started) : HoldsToken w tid id c.token :=
  ⟨c, h.granted, rfl⟩

/-- The row under the task's live claim. -/
lemma Holding.live (hA : Holding w tid id c status started) (hI : Sound w) {o : Order}
    (ho : w.orders.get? id = some o) (hlive : o.liveClaim c.token w.now = true) :
    o.status = status ∧ o.providerOrderId = none ∧ o.purchaseStartedAt = started := by
  obtain ⟨c', hc', ht, huntil⟩ := Order.liveClaim_iff.mp hlive
  cases hI.claim_eq ho hc' hA.granted ht
  obtain ⟨o', ho', -, hrow⟩ := hA.row huntil
  cases ho.symm.trans ho'
  exact hrow

lemma Holding.rely (h : Rely cfg tid w w') (hA : Holding w tid id c status started) :
    Holding w' tid id c status started := by
  refine ⟨hA.granted.mono h.log, fun hlive => ?_⟩
  obtain ⟨o, ho, hc, hs, hn, hp⟩ := hA.row (h.now_le.trans_lt hlive)
  obtain ⟨o', ho', hc', hs', hn', hp'⟩ := h.held id o c ho hc hA.granted hn hlive
  exact ⟨o', ho', hc', hs'.trans hs, hn', hp'.trans hp⟩

/-- Operations that leave the orders alone. -/
lemma Holding.frame (hA : Holding w tid id c status started) (hlog : w.log <:+ w'.log)
    (hnow : w'.now = w.now) (horders : w'.orders = w.orders) :
    Holding w' tid id c status started :=
  ⟨hA.granted.mono hlog, by rw [hnow, horders]; exact hA.row⟩

lemma Buyer.rely (h : Rely cfg tid w w') (hA : Buyer w tid req born id c label) :
    Buyer w' tid req born id c label := by
  obtain ⟨t, ht⟩ := hA.holding
  obtain ⟨o, ho, hl⟩ := hA.label
  obtain ⟨o', ho', -⟩ := h.later id o ho
  have hbuys := hA.under.mono h.log
  exact ⟨⟨t, ht.rely h⟩, hbuys, hA.http, hA.lease, o', ho',
    (h.label id o o' ho ho' (.inr hbuys.buys)).trans hl⟩

lemma Buyer.frame (hA : Buyer w tid req born id c label) (hlog : w.log <:+ w'.log)
    (hnow : w'.now = w.now) (horders : w'.orders = w.orders) :
    Buyer w' tid req born id c label := by
  obtain ⟨t, ht⟩ := hA.holding
  exact ⟨⟨t, ht.frame hlog hnow horders⟩, hA.under.mono hlog, hA.http, hA.lease,
    horders ▸ hA.label⟩

lemma AllRefused.rely (h : Rely cfg tid w w') (hb : Buys w tid id)
    (hA : AllRefused w.log id) : AllRefused w'.log id := by
  intro c hc hid
  obtain ⟨r, hr⟩ := hA c (h.calls id hb c hc hid) hid
  exact ⟨r, h.log.subset hr⟩

end Stability

/-! ## Purchase calls -/

section Purchases

variable {cfg : Config} {tid : ℕ} {req : Request} {born : Time} {w w' : World} {id : Uuid}
  {c : Claim} {label current : SupplierLabel}

lemma supplier_frame {ω : Oracle} {op : SupplierOp} {r : op.Res}
    (h : exec cfg tid (.supplier op) ω w = some (r, w')) :
    w'.orders = w.orders ∧ w'.now = w.now := by
  obtain ⟨es, -, rfl⟩ := exec_supplier h
  exact ⟨rfl, rfl⟩

/-- A purchase that starts in time starts under the live claim. -/
lemma Buyer.contract (cfg : Config) (label : SupplierLabel)
    (hA : Buyer w tid req born id c current) :
    SupplierContract cfg w tid req born (.buyStart id c.token label) := by
  refine ⟨hA.under, hA.http, fun htime => ?_⟩
  obtain ⟨t, ht⟩ := hA.holding
  have hlive := htime.trans_le hA.lease
  obtain ⟨o, ho, hc, hs, -, -⟩ := ht.row hlive
  exact ⟨o, ho, hs, Order.liveClaim_iff.mpr ⟨c, hc, rfl, hlive⟩⟩

/-- All calls made for the order are refused but the one in progress. -/
def OneInFlight (log : Log) (id : Uuid) (call : ℕ) : Prop :=
  ∀ c, Event.purchaseStarted c ∈ log → c.order = id → c.call = call ∨
    ∃ r, Event.purchaseAnswered c.call id (.refused r) ∈ log

lemma OneInFlight.rely {call : ℕ} (h : Rely cfg tid w w') (hb : Buys w tid id)
    (hA : OneInFlight w.log id call) : OneInFlight w'.log id call := by
  intro c hc hid
  refine (hA c (h.calls id hb c hc hid) hid).imp_right fun ⟨r, hr⟩ => ?_
  exact ⟨r, h.log.subset hr⟩

/-- The call starts. -/
lemma exec_buyStart {ω : Oracle} {token : Uuid} {call : ℕ}
    (h : exec cfg tid (.supplier (.buyStart id token label)) ω w = some (call, w'))
    (hA : AllRefused w.log id) : OneInFlight w'.log id call := by
  obtain ⟨es, he, rfl⟩ := exec_supplier h
  cases he
  intro c hc hid
  rcases List.mem_append.mp hc with hc | hc
  · cases List.mem_singleton.mp hc
    exact .inl rfl
  · obtain ⟨r, hr⟩ := hA c hc hid
    exact .inr ⟨r, List.mem_append_right _ hr⟩

/-- The call is answered. -/
lemma exec_buyAnswer {ω : Oracle} {call : ℕ} {s : Supplier} {answer : BuyAnswer}
    (h : exec cfg tid (.supplier (.buyAnswer call id label s)) ω w = some (answer, w'))
    (hA : OneInFlight w.log id call) :
    (∀ a, answer = .bought a → Event.handed id label a ∈ w'.log ∧ a.issuedBy = s) ∧
      (∀ r, answer = .refused r → AllRefused w'.log id) := by
  obtain ⟨es, he, rfl⟩ := exec_supplier h
  obtain ⟨answer', hanswer, hres⟩ := Option.map_eq_some_iff.mp he
  cases hres
  refine ⟨fun a ha => ?_, fun r hr c hc hid => ?_⟩
  · subst ha
    refine ⟨by simp [World.record, handedBy], ?_⟩
    unfold purchaseAnswer at hanswer
    generalize ω.buy = bought at hanswer
    split at hanswer
    · cases hanswer
      rfl
    · rename_i hother
      split at hanswer
      · cases hanswer
      · cases hanswer
        exact absurd rfl (hother a)
  · subst hr
    have hc₀ : Event.purchaseStarted c ∈ w.log := by simpa [World.record, handedBy] using hc
    rcases hA c hc₀ hid with rfl | ⟨r', hr'⟩
    · exact ⟨r, by simp [World.record]⟩
    · exact ⟨r', List.mem_append_right _ hr'⟩

lemma exec_recentInPurchase {ω : Oracle} {country product : String} {found : Option Activation}
    (h : exec cfg tid (.supplier (.recentInPurchase id label country product)) ω w =
      some (found, w')) :
    ∀ a, found = some a → Event.handed id label a ∈ w'.log ∧ a.issuedBy = .primary := by
  obtain ⟨es, he, rfl⟩ := exec_supplier h
  cases he
  intro a ha
  refine ⟨by simp [World.record, ha], ?_⟩
  obtain ⟨recent, -, hrecent⟩ := Option.bind_eq_some_iff.mp ha
  exact issuedBy_of_recoverRecentBuy hrecent

/-- The result of a purchase, with the purchase still ours. -/
def Purchased (cfg : Config) (tid : ℕ) (req : Request) (born : Time) (id : Uuid) (c : Claim)
    (current label : SupplierLabel) (r : Purchase) (w : World) : Prop :=
  Buyer w tid req born id c current ∧ Bought cfg id label r w

/-- The start of a purchase call. -/
lemma meets_buyStart {β : Type} {Q : β → World → Prop} {k : ℕ → Handler β}
    (hbuyer : Buyer w tid req born id c current) (hrefused : AllRefused w.log id)
    (hk : ∀ call w, Buyer w tid req born id c current → OneInFlight w.log id call →
      Meets cfg tid req born Q (k call) w) :
    Meets cfg tid req born Q (.call (.supplier (.buyStart id c.token label)) k) w := by
  refine .call (A := fun w => Buyer w tid req born id c current ∧ AllRefused w.log id)
    ⟨hbuyer, hrefused⟩ (fun h hA => ⟨hA.1.rely h, hA.2.rely h hA.1.buys⟩)
    (fun w _ hA => hA.1.contract cfg label) fun w ω call w' _ hA he => ?_
  obtain ⟨horders, hnow⟩ := supplier_frame he
  exact hk call w' (hA.1.frame (log_of_exec he) hnow horders) (exec_buyStart he hA.2)

/-- The answer to a purchase call. -/
lemma meets_buyAnswer {β : Type} {Q : β → World → Prop} {k : BuyAnswer → Handler β} {call : ℕ}
    {s : Supplier} (hroute : cfg.providers.askRoute label = some s)
    (hbuyer : Buyer w tid req born id c current) (hcall : OneInFlight w.log id call)
    (hk : ∀ answer w, Buyer w tid req born id c current →
      (∀ a, answer = .bought a → Bought cfg id label (.ok a) w) →
      (∀ r, answer = .refused r → AllRefused w.log id) →
      Meets cfg tid req born Q (k answer) w) :
    Meets cfg tid req born Q (.call (.supplier (.buyAnswer call id label s)) k) w := by
  refine .call (A := fun w => Buyer w tid req born id c current ∧ OneInFlight w.log id call)
    ⟨hbuyer, hcall⟩ (fun h hA => ⟨hA.1.rely h, hA.2.rely h hA.1.buys⟩) (fun w _ _ => hroute)
    fun w ω answer w' _ hA he => ?_
  obtain ⟨horders, hnow⟩ := supplier_frame he
  obtain ⟨hbought, hrefused⟩ := exec_buyAnswer he hA.2
  refine hk answer w' (hA.1.frame (log_of_exec he) hnow horders) (fun a ha => ?_) hrefused
  obtain ⟨hhanded, hissued⟩ := hbought a ha
  exact ⟨hhanded, hissued ▸ hroute⟩

lemma meets_purchaseOnce {s : Supplier} (hroute : cfg.providers.askRoute label = some s)
    (hbuyer : Buyer w tid req born id c current) (hrefused : AllRefused w.log id) :
    Meets cfg tid req born (Purchased cfg tid req born id c current label)
      (purchaseOnce id c.token label s) w := by
  unfold purchaseOnce
  simp only [Prog.perform_bind]
  refine meets_buyStart hbuyer hrefused fun call w hbuyer hcall => ?_
  refine meets_buyAnswer hroute hbuyer hcall fun answer w hbuyer hbought hrefused => ?_
  cases answer with
  | bought a => exact ⟨hbuyer, hbought a rfl⟩
  | refused r => exact ⟨hbuyer, hrefused r rfl⟩
  | _ => exact ⟨hbuyer, trivial⟩

lemma meets_fivesimPurchase {country product : String}
    (hroute : cfg.providers.askRoute label = some .primary)
    (hbuyer : Buyer w tid req born id c current) (hrefused : AllRefused w.log id) :
    Meets cfg tid req born (Purchased cfg tid req born id c current label)
      (fivesimPurchase id c.token label country product) w := by
  unfold fivesimPurchase
  simp only [Prog.perform_bind]
  refine meets_buyStart hbuyer hrefused fun call w hbuyer hcall => ?_
  refine meets_buyAnswer hroute hbuyer hcall fun answer w hbuyer hbought hrefused => ?_
  cases answer with
  | bought a => exact ⟨hbuyer, hbought a rfl⟩
  | refused r => exact ⟨hbuyer, hrefused r rfl⟩
  | ambiguous => exact ⟨hbuyer, trivial⟩
  | unreadable =>
      refine .call hbuyer Buyer.rely (fun w _ _ => hroute) fun w ω found w' _ hbuyer he => ?_
      obtain ⟨horders, hnow⟩ := supplier_frame he
      have hbuyer' := hbuyer.frame (log_of_exec he) hnow horders
      cases found with
      | none => exact ⟨hbuyer', trivial⟩
      | some a =>
          obtain ⟨hhanded, hissued⟩ := exec_recentInPurchase he a rfl
          exact ⟨hbuyer', hhanded, hissued ▸ hroute⟩

lemma meets_fivesimBuy {country product operator : String}
    (hroute : cfg.providers.askRoute label = some .primary)
    (hbuyer : Buyer w tid req born id c current) (hrefused : AllRefused w.log id) :
    Meets cfg tid req born (Purchased cfg tid req born id c current label)
      (fivesimBuy id c.token label country product operator) w := by
  unfold fivesimBuy
  generalize (if isBlank operator then anyOperator else operator) = operator
  refine (meets_fivesimPurchase hroute hbuyer hrefused).bind fun r w ⟨hbuyer, hbought⟩ => ?_
  match r with
  | .ok a => exact ⟨hbuyer, hbought⟩
  | .error e =>
      dsimp only
      split
      · -- Only an outright refusal is retried with any operator.
        rename_i hretry
        cases e with
        | rejected e => exact meets_fivesimPurchase hroute hbuyer hbought
        | ambiguous => simp [PurchaseError.isOutOfStock] at hretry
      · exact ⟨hbuyer, hbought⟩

lemma meets_primaryBuy {country product operator : String}
    (hroute : cfg.providers.askRoute label = some .primary)
    (hbuyer : Buyer w tid req born id c current) (hrefused : AllRefused w.log id) :
    Meets cfg tid req born (Purchased cfg tid req born id c current label)
      (primaryBuy cfg id c.token label country product operator) w := by
  unfold primaryBuy
  split
  · exact meets_fivesimBuy hroute hbuyer hrefused
  · exact meets_purchaseOnce hroute hbuyer hrefused

lemma meets_buySource {s : Source} (hbuyer : Buyer w tid req born id c current)
    (hrefused : AllRefused w.log id) :
    Meets cfg tid req born (Purchased cfg tid req born id c current s.provider)
      (buySource cfg id c.token s) w := by
  unfold buySource
  split
  · rename_i hroute
    exact meets_purchaseOnce (NumberProviders.askRoute_of_buyRoute_activate hroute) hbuyer
      hrefused
  · rename_i hroute
    exact meets_purchaseOnce (NumberProviders.askRoute_of_buyRoute_smspool hroute) hbuyer
      hrefused
  · rename_i hroute
    exact meets_primaryBuy (NumberProviders.askRoute_of_buyRoute_primary (.inl hroute)) hbuyer
      hrefused
  · rename_i hroute
    exact meets_primaryBuy (NumberProviders.askRoute_of_buyRoute_primary (.inr hroute)) hbuyer
      hrefused
  · exact ⟨hbuyer, hrefused⟩

end Purchases

/-! ## After the purchase -/

section AfterPurchase

variable {cfg : Config} {tid : ℕ} {req : Request} {born : Time} {w w' : World} {id userId : Uuid}
  {c : Claim} {label current : SupplierLabel}

lemma meets_refundRejected {β : Type} {Q : β → World → Prop}
    {f : Except ApiError TransitionOutcome → Handler β}
    (hbuyer : Buyer w tid req born id c current) (hrefused : AllRefused w.log id)
    (hf : ∀ r w, Meets cfg tid req born Q (f r) w) :
    Meets cfg tid req born Q (refundRejected id c.token >>= f) w := by
  refine .call (A := fun w => Buyer w tid req born id c current ∧ AllRefused w.log id)
    ⟨hbuyer, hrefused⟩ (fun h hA => ⟨hA.1.rely h, hA.2.rely h hA.1.buys⟩) (fun w hI hA => ?_)
    fun _ _ r w' _ _ _ => hf r w'
  obtain ⟨t, ht⟩ := hA.1.holding
  exact ⟨ht.token, hA.1.buys, hA.2, fun o ho hlive => (ht.live hI ho hlive).2.1⟩

lemma meets_reviewAmbiguous (htoken : HoldsToken w tid id c.token) :
    Meets cfg tid req born Done (reviewAmbiguous userId id c.token) w := by
  refine .of_stays (stays_token id c.token) ?_ htoken
  unfold reviewAmbiguous
  simp only [Prog.perform_bind, Prog.every_call]
  refine ⟨fun w _ h => h, fun r => ?_⟩
  split
  · exact every_loadOrder
  · trivial

/-- What was bought is stored under the label it was bought for. -/
lemma meets_storeActivation {a : Activation} (hbuyer : Buyer w tid req born id c label)
    (hbought : Bought cfg id label (.ok a) w) :
    Meets cfg tid req born Done (storeActivation cfg userId id c.token label a) w := by
  unfold storeActivation
  simp only [Prog.perform_bind]
  refine .call (A := fun w => Buyer w tid req born id c label ∧ Bought cfg id label (.ok a) w)
    ⟨hbuyer, hbought⟩ (fun h hA => ⟨hA.1.rely h, h.log.subset hA.2.1, hA.2.2⟩)
    (fun w _ hA => ?_) fun w ω r w' _ hA he => ?_
  · obtain ⟨t, ht⟩ := hA.1.holding
    obtain ⟨o, ho, hl⟩ := hA.1.label
    refine ⟨ht.token, fun o' ho' => ?_⟩
    cases ho.symm.trans ho'
    exact hl ▸ hA.2
  · split
    · -- The activation is handed back to the supplier it was bought from.
      refine .of_stays (A := fun w => Event.handed id label a ∈ w.log)
        (.of_log fun _ _ hlog h => hlog.subset h) ?_ ((log_of_exec he).subset hA.2.1)
      refine Prog.Every.bind ?_ fun _ => every_loadOrder
      unfold cancelFor
      split
      · trivial
      · rename_i s hroute
        exact ⟨fun w _ h => .handed h rfl hroute, fun _ => trivial⟩
    · exact meets_loadOrder

/-- The buyer may pin the source that has sold. -/
lemma Buyer.pins (cfg : Config) (hbuyer : Buyer w tid req born id c label) (s : Source) :
    NumberContract cfg w tid req born (.pin id s) := by
  refine ⟨hbuyer.buys, hbuyer.http, fun htime => ?_⟩
  obtain ⟨t, ht⟩ := hbuyer.holding
  obtain ⟨o, ho, -, hreserved, -⟩ := ht.row (htime.trans_le hbuyer.lease)
  exact ⟨o, ho, hreserved⟩

/-- Pinning a source relabels the row of the order being bought. -/
lemma Buyer.pin {ω : Oracle} {s : Source} {r : Bool}
    (hbuyer : Buyer w tid req born id c current)
    (he : exec cfg tid (.numbers (.pin id s)) ω w = some (r, w')) :
    Buyer w' tid req born id c s.provider := by
  have hlog := log_of_exec he
  obtain ⟨-, db, es, hexec, rfl⟩ := exec_numbers he
  obtain ⟨o, ho, -⟩ := hbuyer.label
  rcases updateWhere_cases hexec with ⟨rfl, -, -⟩ | ⟨row, orders, hrow, -, -, hupdate, rfl, rfl⟩
  · -- The order is there, so the statement finds it.
    have hfound : pinSource id s.provider s.country s.product s.operator w.numbers =
        some (false, db, es) := hexec
    unfold pinSource updateWhere at hfound
    have ho' : w.numbers.orders.get? id = some o := ho
    simp only [ho', if_true, Option.bind_eq_some_iff] at hfound
    obtain ⟨orders, -, hres⟩ := hfound
    cases hres
  · have hafter := OrderTable.get?_update_self hupdate hrow
    obtain ⟨t, ht⟩ := hbuyer.holding
    refine ⟨⟨t, ht.granted.mono hlog, fun hlive => ?_⟩, hbuyer.under.mono hlog, hbuyer.http,
      hbuyer.lease, _, hafter, rfl⟩
    obtain ⟨o', ho', hc, hs, hn, hp⟩ := ht.row hlive
    cases hrow.symm.trans ho'
    exact ⟨_, hafter, hc, hs, hn, hp⟩

/-- **The buy loop.**  Induction on the sources still to try: the purchase stays ours, and so
far every call was refused. -/
lemma meets_buyLoop (sources : List Source) {last : Option ApiError}
    (hbuyer : Buyer w tid req born id c current) (hrefused : AllRefused w.log id) :
    Meets cfg tid req born Done (buyLoop cfg userId id c.token last sources) w := by
  induction sources generalizing last w with
  | nil =>
      unfold buyLoop
      refine meets_refundRejected hbuyer hrefused fun r w => ?_
      cases r <;> trivial
  | cons s rest ih =>
      unfold buyLoop
      refine (meets_buySource hbuyer hrefused).bind fun r w ⟨hbuyer, hbought⟩ => ?_
      match r with
      | .ok a =>
          simp only [Prog.perform_bind]
          refine Meets.call (A := fun w => Buyer w tid req born id c current ∧
              Bought cfg id s.provider (.ok a) w) ⟨hbuyer, hbought⟩
            (fun h hA => ⟨hA.1.rely h, h.log.subset hA.2.1, hA.2.2⟩)
            (fun w _ hA => hA.1.pins cfg s) fun w ω r w' _ hA he => ?_
          exact meets_storeActivation (hA.1.pin he)
            ⟨(log_of_exec he).subset hA.2.1, hA.2.2⟩
      | .error (.rejected e) =>
          dsimp only
          split
          · exact ih hbuyer hbought
          · refine meets_refundRejected hbuyer hbought fun r w => ?_
            cases r <;> trivial
      | .error .ambiguous =>
          obtain ⟨t, ht⟩ := hbuyer.holding
          exact meets_reviewAmbiguous ht.token

lemma meets_buyCatalogue {q : Quote} (hlabel : q.label = cfg.providers.catalogueLabel)
    (hbuyer : Buyer w tid req born id c q.label) (hrefused : AllRefused w.log id) :
    Meets cfg tid req born Done (buyCatalogue cfg userId id c.token q) w := by
  have hroute : cfg.providers.askRoute q.label = some .primary :=
    hlabel ▸ NumberProviders.askRoute_catalogueLabel _
  unfold buyCatalogue
  refine (meets_primaryBuy hroute hbuyer hrefused).bind fun r w ⟨hbuyer, hbought⟩ => ?_
  match r with
  | .ok a => exact meets_storeActivation hbuyer hbought
  | .error (.rejected e) =>
      refine meets_refundRejected hbuyer hbought fun r w => ?_
      cases r <;> trivial
  | .error .ambiguous =>
      obtain ⟨t, ht⟩ := hbuyer.holding
      exact meets_reviewAmbiguous ht.token

end AfterPurchase

/-! ## Claims -/

/-- A claim was taken: the row it found and the row it left. -/
structure Taken (tid : ℕ) (w w' : World) (id : Uuid) (purpose : ClaimPurpose) (token : Uuid)
    (o row : Order) : Prop where
  found : w.orders.get? id = some o
  after : w'.orders.get? id = some row
  claim : row.claim = some ⟨token, w.now + leaseLength⟩
  log : w'.log = .granted ⟨id, ⟨token, w.now + leaseLength⟩, purpose, tid, w.now, o⟩ :: w.log
  now : w'.now = w.now

section Claims

variable {cfg : Config} {tid : ℕ} {w w' : World} {id token : Uuid} {o row : Order}
  {purpose : ClaimPurpose}

lemma Taken.granted (h : Taken tid w w' id purpose token o row) :
    Granted w' tid id ⟨token, w.now + leaseLength⟩ :=
  ⟨_, h.log ▸ List.mem_cons_self, rfl, rfl, rfl⟩

lemma Taken.holdsToken (h : Taken tid w w' id purpose token o row) : HoldsToken w' tid id token :=
  ⟨_, h.granted, rfl⟩

lemma Taken.seen (h : Taken tid w w' id purpose token o row) : Seen w'.log id o :=
  .inr ⟨_, h.log ▸ List.mem_cons_self, rfl, rfl⟩

/-- What a claim that was taken says of the row. -/
lemma taken_of_grant {ω : Oracle} {guard : Order → Bool} {set : Order → Order} {db : NumbersDb}
    {es : Log}
    (h : (ω.fresh.head?.bind fun token =>
      withToken token (grantClaim w.now tid id token purpose guard set w.numbers)) =
        some (some (token, row), db, es)) :
    ∃ o, guard o = true ∧ row = { set o with claim := some ⟨token, w.now + leaseLength⟩ } ∧
      Taken tid w ((w.draw ω).putNumbers db es) id purpose token o row := by
  obtain ⟨token', -, h⟩ := Option.bind_eq_some_iff.mp h
  obtain ⟨⟨row?, db₁, es₁⟩, hgrant, hres⟩ := Option.map_eq_some_iff.mp h
  cases hres' : row? with
  | none => simp [hres'] at hres
  | some row' =>
      simp only [hres', Option.map_some, Prod.mk.injEq, Option.some.injEq] at hres
      obtain ⟨⟨rfl, rfl⟩, rfl, rfl⟩ := hres
      rcases grantClaim_cases hgrant with ⟨hnone, -, -⟩ |
        ⟨o, orders, ho, hguard, -, hrow, hupdate, rfl, rfl⟩
      · rw [hres'] at hnone
        cases hnone
      · rw [hres', Option.some.injEq] at hrow
        subst hrow
        exact ⟨o, hguard, rfl, ho, OrderTable.get?_update_self hupdate ho, rfl, rfl, rfl⟩

/-- Whoever has just taken a claim on an order without an activation holds it. -/
lemma Taken.holding (h : Taken tid w w' id purpose token o row)
    (hnone : row.providerOrderId = none) :
    Holding w' tid id ⟨token, w.now + leaseLength⟩ row.status row.purchaseStartedAt :=
  ⟨h.granted, fun _ => ⟨row, h.after, h.claim, rfl, hnone, rfl⟩⟩

end Claims

/-! ## `create_order` -/

section CreateOrder

variable {cfg : Config} {tid : ℕ} {req : Request} {born : Time} {w w' : World} {id userId : Uuid}

/-- The order was placed by this request and its purchase may not have been granted yet. -/
def PlacedAs (label : SupplierLabel) (born : Time) (id : Uuid) (w : World) : Prop :=
  born ≤ w.now ∧ ∃ o, w.orders.get? id = some o ∧
    (o.purchaseStartedAt = none → o.provider = label)

lemma PlacedAs.rely {label : SupplierLabel} (h : Rely cfg tid w w')
    (hA : PlacedAs label born id w) : PlacedAs label born id w' := by
  obtain ⟨hborn, o, ho, hl⟩ := hA
  obtain ⟨o', ho', hlater⟩ := h.later id o ho
  refine ⟨hborn.trans h.now_le, o', ho', fun hnone => ?_⟩
  rw [h.label id o o' ho ho' (.inl hnone)]
  refine hl (Classical.byContradiction fun hs => ?_)
  exact hs ((hlater.started hs).symm.trans hnone)

/-- The purchase is granted: nothing was bought for the order before. -/
lemma PlacedAs.claimed {label : SupplierLabel} {ω : Oracle} {token : Uuid} {row : Order}
    (hI : Sound w) (hhttp : req.viaHttp = true) (hA : PlacedAs label born id w)
    (he : exec cfg tid (.numbers (.claimPurchase id)) ω w = some (some (token, row), w')) :
    Buyer w' tid req born id ⟨token, w.now + leaseLength⟩ label ∧ AllRefused w'.log id := by
  obtain ⟨-, db, es, hexec, rfl⟩ := exec_numbers he
  obtain ⟨o, hguard, rfl, htaken⟩ := taken_of_grant hexec
  simp only [Bool.and_eq_true, decide_eq_true_eq, Option.isNone_iff_eq_none] at hguard
  obtain ⟨hstatus, hnone⟩ := hguard
  obtain ⟨hborn, o', ho', hl⟩ := hA
  cases htaken.found.symm.trans ho'
  have hholding := htaken.holding (hI.unassigned id o htaken.found hstatus)
  rw [show ({ o with purchaseStartedAt := some w.now, claim := _ } : Order).status = .reserved
    from hstatus] at hholding
  refine ⟨⟨⟨_, hholding⟩, ⟨_, htaken.log ▸ List.mem_cons_self, rfl, rfl, rfl, rfl⟩, hhttp, ?_,
    _, htaken.after, hl hnone⟩, fun c hc hid => ?_⟩
  · exact Nat.add_le_add hborn (by decide)
  · rw [htaken.log, List.mem_cons] at hc
    obtain ⟨tid', hb⟩ := hI.calls c (hc.resolve_left nofun)
    obtain ⟨o', ho', hs⟩ := hI.started tid' id (hid ▸ hb)
    cases htaken.found.symm.trans ho'
    exact absurd hnone hs

lemma meets_purchaseOrder {q : Quote}
    (hlabel : q.offerId = none → q.label = cfg.providers.catalogueLabel)
    (hhttp : req.viaHttp = true) (hA : PlacedAs q.label born id w) :
    Meets cfg tid req born Done (purchaseOrder cfg userId id q) w := by
  unfold purchaseOrder
  simp only [Prog.perform_bind]
  refine .call hA PlacedAs.rely (fun _ _ _ => trivial) fun w ω r w' hI hA he => ?_
  match r, he with
  | none, _ => exact meets_loadOrder
  | some (token, row), he =>
      obtain ⟨hbuyer, hrefused⟩ := hA.claimed hI hhttp he
      dsimp only
      split
      · exact meets_buyLoop q.sources hbuyer hrefused
      · rename_i hoffer
        exact meets_buyCatalogue (hlabel (by simpa using hoffer)) hbuyer hrefused

/-- **`create_order` keeps its contracts.** -/
theorem meets_createOrder {key : Uuid} {body : CreateOrderBody} (hhttp : req.viaHttp = true)
    (hborn : born ≤ w.now) :
    Meets cfg tid req born Done (createOrder cfg userId key body) w := by
  unfold createOrder
  split
  · trivial
  · simp only [Prog.perform_bind]
    refine .call (A := fun w => born ≤ w.now) hborn (fun h hA => hA.trans h.now_le)
      (fun _ _ _ => trivial) fun w ω r w' _ hborn he => ?_
    match r, he with
    | .error e, _ => trivial
    | .ok (.replayed id), _ => exact meets_loadOrder
    | .ok (.placed id q), he =>
        obtain ⟨-, db, es, hexec, rfl⟩ := exec_numbers he
        rcases reserveOrder_cases hexec with ⟨-, -, hno⟩ | ⟨orderId, journalId, referenceId,
          journal, posted, ledger, orders, q', -, -, hq, -, -, -, hinsert, hres, rfl, rfl⟩
        · exact absurd rfl (hno id q)
        · cases hres
          exact meets_purchaseOrder (quote_label hq) hhttp
            ⟨hborn, _, OrderTable.get?_insert_self hinsert, fun _ => rfl⟩

end CreateOrder

end Naivolt
