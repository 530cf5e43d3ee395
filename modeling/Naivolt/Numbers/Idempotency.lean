import Naivolt.System.Contracted

/-!
# One order per key

`create_order` looks its key up, reserves and inserts in one transaction, claims the order in a
second, and calls suppliers outside any.  A request that finds the key answers with the stored
order and buys nothing, so however often a request is repeated and wherever its handlers are
lost, the key has one row, one reservation and one sequence of purchase calls, made by the task
that was granted the purchase (`create_order_once`).
-/

namespace Naivolt

open Foundation Foundation.Machine

/-! ## Orders of a key -/

/-- The order was placed by the user under that idempotency key. -/
def Order.PlacedUnder (o : Order) (userId key : Uuid) : Prop :=
  o.userId = userId ∧ o.idempotencyKey = key

lemma Order.PlacedUnder.later {o o' : Order} {userId key : Uuid} (h : o.PlacedUnder userId key)
    (hterms : o'.terms = o.terms) : o'.PlacedUnder userId key :=
  ⟨(congrArg Order.Terms.userId hterms).trans h.1,
    (congrArg Order.Terms.idempotencyKey hterms).trans h.2⟩

/-- The row `id` is the order of the key. -/
def OrderOf (userId key id : Uuid) (w : World) : Prop :=
  ∃ o, w.orders.get? id = some o ∧ o.PlacedUnder userId key

/-- **At most once.**  The key has one row, one reservation, and one sequence of purchase
calls. -/
structure OncePerKey (userId key : Uuid) (w : World) : Prop where
  order : ∀ {id id'}, OrderOf userId key id w → OrderOf userId key id' w → id = id'
  reserve : ∀ {p p'}, p ∈ w.ledger.postings → p' ∈ w.ledger.postings →
    p.journal.idempotencyKey = reservationKey userId key →
    p'.journal.idempotencyKey = reservationKey userId key → p = p'
  purchase : ∀ {c c'}, c ∈ purchaseCalls w.log → c' ∈ purchaseCalls w.log →
    OrderOf userId key c.order w → OrderOf userId key c'.order w →
    c.order = c'.order ∧ c.tid = c'.tid ∧ c.token = c'.token

/-- A request for the key that succeeded was answered with its order. -/
def AnsweredWith (userId key : Uuid) (answer : Result) (w : World) : Prop :=
  ∀ r, answer = .ok r → ∃ id o row inbox, r = .order o inbox ∧ w.orders.get? id = some row ∧
    row.PlacedUnder userId key ∧ row.terms = o.terms

/-! ## What a request answers -/

section Answers

variable {cfg : Config} {userId key id : Uuid} {w w' : World}

/-- No order disappears or changes its terms. -/
def OrdersKept (w w' : World) : Prop :=
  ∀ id o, w.orders.get? id = some o → ∃ o', w'.orders.get? id = some o' ∧ o'.terms = o.terms

lemma OrdersKept.refl (w : World) : OrdersKept w w := fun _ o ho => ⟨o, ho, rfl⟩

lemma OrdersKept.trans {w₁ w₂ w₃ : World} (h : OrdersKept w₁ w₂) (h' : OrdersKept w₂ w₃) :
    OrdersKept w₁ w₃ := by
  intro id o ho
  obtain ⟨o', ho', ht⟩ := h id o ho
  obtain ⟨o'', ho'', ht'⟩ := h' id o' ho'
  exact ⟨o'', ho'', ht'.trans ht⟩

lemma ordersKept_of_step (h : (backend cfg).WorldStep w w') : OrdersKept w w' := by
  intro id o ho
  cases h with
  | env he =>
      obtain ⟨now, wallets, tiers, -, rfl⟩ := execEnv_eq he
      exact ⟨o, ho, rfl⟩
  | exec he =>
      obtain ⟨o', ho', hlater⟩ := (exec_move he).2.later ho
      exact ⟨o', ho', hlater.terms⟩

lemma OrderOf.kept (h : OrdersKept w w') (hid : OrderOf userId key id w) :
    OrderOf userId key id w' := by
  obtain ⟨o, ho, hunder⟩ := hid
  obtain ⟨o', ho', ht⟩ := h id o ho
  exact ⟨o', ho', hunder.later ht⟩

lemma AnsweredWith.kept {answer : Result} (h : OrdersKept w w')
    (ha : AnsweredWith userId key answer w) : AnsweredWith userId key answer w' := by
  intro r hr
  obtain ⟨id, o, row, inbox, rfl, hrow, hunder, ht⟩ := ha r hr
  obtain ⟨row', hrow', ht'⟩ := h id row hrow
  exact ⟨id, o, row', inbox, rfl, hrow', hunder.later ht', ht'.trans ht⟩

lemma answeredWith_error (e : ApiError) : AnsweredWith userId key (.error e) w := by
  intro r hr
  cases hr

/-- The program, once the key has its order, answers with that order. -/
abbrev Answers (cfg : Config) (userId key : Uuid) (p : Handler Result) (w : World) : Prop :=
  Returns (backend cfg) OrdersKept (AnsweredWith userId key) p w

/-- The rule of a first part that is of no consequence for the answer. -/
lemma Answers.bind {β : Type} {p : Handler β} {f : β → Handler Result}
    (hid : OrderOf userId key id w)
    (hf : ∀ a w, OrderOf userId key id w → Answers cfg userId key (f a) w) :
    Answers cfg userId key (p >>= f) w :=
  Returns.bind OrderOf.kept (fun he => OrderOf.kept (ordersKept_of_step (.exec he))) hid hf

lemma answers_loadOrder (hid : OrderOf userId key id w) :
    Answers cfg userId key (loadOrder userId id) w := by
  unfold loadOrder
  simp only [Prog.perform_bind]
  intro w₁ h tid ω r w₂ he
  match r, he with
  | none, _ => exact answeredWith_error _
  | some (o, inbox), he =>
      obtain ⟨row, hrow, hunder⟩ := hid.kept h
      obtain ⟨ho, -, horders, -⟩ := exec_readOrder he
      cases hrow.symm.trans ho
      dsimp only
      split
      · intro r hr
        cases hr
        exact ⟨id, o, o, inbox, rfl, horders ▸ hrow, hunder, rfl⟩
      · exact answeredWith_error _

lemma answers_storeActivation {token : Uuid} {label : SupplierLabel} {a : Activation}
    (hid : OrderOf userId key id w) :
    Answers cfg userId key (storeActivation cfg userId id token label a) w := by
  unfold storeActivation
  refine Answers.bind hid fun assigned w hid => ?_
  split
  · exact Answers.bind hid fun _ _ hid => answers_loadOrder hid
  · exact answers_loadOrder hid

lemma answers_reviewAmbiguous {token : Uuid} (hid : OrderOf userId key id w) :
    Answers cfg userId key (reviewAmbiguous userId id token) w := by
  unfold reviewAmbiguous
  refine Answers.bind hid fun marked w hid => ?_
  split
  · exact answers_loadOrder hid
  · exact answeredWith_error _

/-- The buy loop, by induction on the sources still to try. -/
lemma answers_buyLoop {token : Uuid} (sources : List Source) {last : Option ApiError}
    (hid : OrderOf userId key id w) :
    Answers cfg userId key (buyLoop cfg userId id token last sources) w := by
  induction sources generalizing last w with
  | nil =>
      unfold buyLoop
      refine Answers.bind hid fun r w hid => ?_
      cases r <;> exact answeredWith_error _
  | cons s rest ih =>
      unfold buyLoop
      refine Answers.bind hid fun r w hid => ?_
      cases r with
      | ok a => exact Answers.bind hid fun _ _ hid => answers_storeActivation hid
      | error failure =>
          cases failure with
          | rejected e =>
              dsimp only
              split
              · exact ih hid
              · refine Answers.bind hid fun r w hid => ?_
                cases r <;> exact answeredWith_error _
          | ambiguous => exact answers_reviewAmbiguous hid

lemma answers_buyCatalogue {token : Uuid} {q : Quote} (hid : OrderOf userId key id w) :
    Answers cfg userId key (buyCatalogue cfg userId id token q) w := by
  unfold buyCatalogue
  refine Answers.bind hid fun r w hid => ?_
  match r with
  | .ok a => exact answers_storeActivation hid
  | .error (.rejected e) =>
      refine Answers.bind hid fun r w hid => ?_
      cases r <;> exact answeredWith_error _
  | .error .ambiguous => exact answers_reviewAmbiguous hid

lemma answers_purchaseOrder {q : Quote} (hid : OrderOf userId key id w) :
    Answers cfg userId key (purchaseOrder cfg userId id q) w := by
  unfold purchaseOrder
  refine Answers.bind hid fun r w hid => ?_
  match r with
  | none => exact answers_loadOrder hid
  | some (token, o) =>
      dsimp only
      split
      · exact answers_buyLoop q.sources hid
      · exact answers_buyCatalogue hid

/-- The order that a placing or a replay comes back with is that of the key. -/
lemma orderOf_reserve {tid : ℕ} {ω : Oracle} {body : CreateOrderBody} {placed : Placed}
    (he : exec cfg tid (.numbers (.reserve userId key body)) ω w = some (.ok placed, w')) :
    match placed with
    | .replayed id | .placed id _ => OrderOf userId key id w' := by
  obtain ⟨-, db, es, hexec, rfl⟩ := exec_numbers he
  rcases reserveOrder_cases hexec with ⟨rfl, rfl, hno⟩ | ⟨orderId, journalId, referenceId, journal,
    posted, ledger, orders, q, -, -, -, -, -, -, hinsert, hres, rfl, rfl⟩
  · cases placed with
    | placed id q => exact absurd rfl (hno id q)
    | replayed id =>
        simp only [execNumbers, reserveOrder] at hexec
        split at hexec
        · rename_i orderId stored hfound
          split at hexec <;> cases hexec
          have hget := Table.get?_eq_some_iff.mpr (List.mem_of_find?_eq_some hfound)
          exact ⟨stored, hget, by simpa [Order.PlacedUnder] using List.find?_some hfound⟩
        · split at hexec
          · cases hexec
          · split at hexec
            · cases hexec
            · unfold placeOrder at hexec
              split at hexec
              · simp only at hexec
                split at hexec
                · cases hexec
                · split at hexec
                  · cases hexec
                  · obtain ⟨⟨posted, ledger⟩, -, hexec⟩ := Option.bind_eq_some_iff.mp hexec
                    obtain ⟨orders, -, hexec⟩ := Option.bind_eq_some_iff.mp hexec
                    cases hexec
              · cases hexec
  · cases hres
    exact ⟨_, OrderTable.get?_insert_self hinsert, rfl, rfl⟩

/-- **Every success answers with the order of the key.** -/
lemma answers_createOrder {body : CreateOrderBody} :
    Answers cfg userId key (createOrder cfg userId key body) w := by
  unfold createOrder
  split
  · exact answeredWith_error _
  · simp only [Prog.perform_bind]
    intro w₁ _ tid ω r w₂ he
    match r, he with
    | .error e, _ => exact answeredWith_error _
    | .ok (.replayed id), he => exact answers_loadOrder (orderOf_reserve he)
    | .ok (.placed id q), he => exact answers_purchaseOrder (orderOf_reserve he)

end Answers

/-! ## One purchase -/

/-- A purchase is granted once per order, and every call is made under the grant. -/
structure PurchasedOnce (log : Log) : Prop where
  grants : ∀ {g g'}, Event.granted g ∈ log → Event.granted g' ∈ log →
    g.purpose = .purchase → g'.purpose = .purchase → g.order = g'.order → g = g'
  calls : ∀ c, Event.purchaseStarted c ∈ log → ∃ g, Event.granted g ∈ log ∧
    g.order = c.order ∧ g.purpose = .purchase ∧ g.tid = c.tid ∧ g.claim.token = c.token

/-- A second grant would find the order marked by the first. -/
lemma PurchasedOnce.step {cfg : Config} {tid : ℕ} {req : Request} {born : Time} {ω : Oracle}
    {w w' : World} {op : Op} (hI : PurchasedOnce w.log) (hS : Sound w)
    (hC : Contract cfg tid req born op w) (h : WorldMove cfg tid ω w op w') :
    PurchasedOnce w'.log := by
  have not_again : ∀ {g g' : Grant} {nop : NumberOp} {db : NumbersDb}, Event.granted g ∈ w.log →
      g.purpose = .purchase → GrantOf w.now tid ω.fresh w.numbers db nop g' →
      g'.purpose = .purchase → g.order = g'.order → False := by
    intro g g' nop db hg hp hgrant hp' horder
    obtain ⟨o, ho, hstarted⟩ := hS.started g.tid g.order ⟨g, hg, rfl, hp, rfl⟩
    have hbefore : w.orders.get? g.order = some g'.before := horder ▸ hgrant.before
    cases ho.symm.trans hbefore
    have hgrants := hgrant.grants
    rw [hp'] at hgrants
    cases hgrants with
    | purchase hstatus hnone => exact hstarted hnone
  obtain ⟨es, hlog⟩ := h.log_eq
  refine ⟨fun {g g'} hg hg' hp hp' horder => ?_, fun c hc => ?_⟩
  · rcases h.new_grant hg with hold | ⟨nop, db, -, hgrant, -, hl⟩ <;>
      rcases h.new_grant hg' with hold' | ⟨nop', db', -, hgrant', -, hl'⟩
    · exact hI.grants hold hold' hp hp' horder
    · exact (not_again hold hp hgrant' hp' horder).elim
    · exact (not_again hold' hp' hgrant hp horder.symm).elim
    · exact Event.granted.inj (List.cons.inj (hl.symm.trans hl')).1
  · rcases h.new_call hc with hc | ⟨order, token, label, rfl, rfl⟩
    · obtain ⟨g, hg, hrest⟩ := hI.calls c hc
      exact ⟨g, hlog ▸ List.mem_append_right _ hg, hrest⟩
    · obtain ⟨⟨g, hg, horder, hp, htid, htoken⟩, -⟩ := hC
      exact ⟨g, hlog ▸ List.mem_append_right _ hg, horder, hp, htid, htoken⟩

lemma purchasedOnce {cfg : Config} {now : Time} {wallets : List Wallet} {s : State}
    (h : (backend cfg).Reachable unguarded (initial now wallets) s) :
    PurchasedOnce s.world.log := by
  have hfree : (backend cfg).Reachable (onOps anyOp) (initial now wallets) s :=
    h.mono fun s a _ => onOps_anyOp s a
  refine Reachable.guarded_inv (I := fun w => PurchasedOnce w.log) ?_ (fun e w w' he hI => ?_)
    (fun tid req b op ω r w w' hP he hI => ?_) (contracted hfree)
  · exact ⟨fun hg => absurd hg List.not_mem_nil, fun c hc => absurd hc List.not_mem_nil⟩
  · obtain ⟨now, wallets, tiers, -, rfl⟩ := execEnv_eq he
    exact hI
  · exact hI.step hP.2.1 hP.2.2 (exec_move he).2

/-! ## Runs -/

/-- **`create_order` runs at most once per key**, and every request for the key that succeeds
answers with its order. -/
theorem create_order_once {cfg : Config} {now : Time} {wallets : List Wallet} {s : State}
    (h : (backend cfg).Reachable unguarded (initial now wallets) s) (userId key : Uuid) :
    OncePerKey userId key s.world ∧
      ∀ tid body born answer, s.task tid = some ⟨.createOrder userId key body, born, .ret answer⟩ →
        AnsweredWith userId key answer s.world := by
  refine ⟨⟨fun {id id'} hid hid' => ?_, fun hp hp' hkey hkey' => ?_,
    fun {c c'} hc hc' ho ho' => ?_⟩, fun tid body born answer htask => ?_⟩
  · obtain ⟨o, ho, hu, hk⟩ := hid
    obtain ⟨o', ho', hu', hk'⟩ := hid'
    exact s.world.orders.eq_of_key ho ho' (hu.trans hu'.symm) (hk.trans hk'.symm)
  · exact List.inj_on_of_nodup_map s.world.ledger.keysUnique hp hp' (hkey.trans hkey'.symm)
  · obtain ⟨o, hget, hu, hk⟩ := ho
    obtain ⟨o', hget', hu', hk'⟩ := ho'
    have hid := s.world.orders.eq_of_key hget hget' (hu.trans hu'.symm) (hk.trans hk'.symm)
    have honce := purchasedOnce h
    obtain ⟨g, hg, horder, hp, htid, htoken⟩ := honce.calls c (mem_purchaseCalls.mp hc)
    obtain ⟨g', hg', horder', hp', htid', htoken'⟩ := honce.calls c' (mem_purchaseCalls.mp hc')
    cases honce.grants hg hg' hp hp' (horder.trans (hid.trans horder'.symm))
    exact ⟨hid, htid.symm.trans htid', htoken.symm.trans htoken'⟩
  · refine Reachable.answers (R := OrdersKept)
      (Q := fun req answer w => match req with
        | .createOrder userId key _ => AnsweredWith userId key answer w
        | _ => True)
      .refl .trans (fun _ _ => ordersKept_of_step) (fun {req a w w'} hR hQ => ?_) (fun req w => ?_)
      (fun _ => rfl) h tid _ born _ htask
    · cases req with
      | createOrder userId key body => exact AnsweredWith.kept hR hQ
      | _ => trivial
    · cases req with
      | createOrder userId key body => exact answers_createOrder
      | _ => exact Returns.of_forall (fun _ _ => trivial) _ _

/-- A request whose handler is lost while its purchase call is out, repeated with its key. -/
def repeatedAfterLoss : List Move :=
  topUp 0 7 100 101 102 5000 ++
  serve 2 (.createOrder 7 50 stubOrder)
    [{ fresh := [200, 201, 2 <<< 100], catalogue := stubCatalogue 1500 }, { fresh := [203] },
      {}] ++
  .drop 2 :: serve 3 (.createOrder 7 50 stubOrder) [{ catalogue := stubCatalogue 1500 }, {}]

/-- The task's answer is an order. -/
def answeredOrder (s : State) (tid : ℕ) : Bool :=
  match s.task tid with
  | some ⟨_, _, .ret (.ok (.order _ _))⟩ => true
  | _ => false

theorem create_order_once_repeated :
    ∃ s : State, answeredOrder s 3 = true ∧ (purchaseCalls s.world.log).length = 1 ∧
      OncePerKey 7 50 s.world := by
  obtain ⟨s, hs, hanswered, hcalls⟩ := exists_reachable_of_run (backend stubConfig) unguarded
    (initial 0 []) repeatedAfterLoss
    (fun s => answeredOrder s 3 = true ∧ (purchaseCalls s.world.log).length = 1)
    (by decide +kernel)
  exact ⟨s, hanswered, hcalls, (create_order_once hs 7 50).1⟩

end Naivolt
