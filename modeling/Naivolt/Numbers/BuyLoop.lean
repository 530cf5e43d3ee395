import Naivolt.Foundation.Histories
import Naivolt.Numbers.Activations
import Naivolt.Numbers.Conservation

/-!
# What the buy loop comes to

`create_order` tries the sources of an offer in turn.  A source that is out of stock or not
available is passed over; any other refusal ends the order with a refund, and an answer that may
have bought a number ends it in review.

Two arguments meet here.  `backend_passes_on` carries through every interleaving that a purchase
call leaves only after every earlier call for the order was refused so that the next source may be
tried: only `create_order` calls, only one request may buy for an order (`Sound`), and that request
has seen the answers.  `ends_createOrder` runs `create_order` with nobody in between, and reads off
how the order ends.  `buy_loop_outcome` puts them together with the books.
-/

namespace Naivolt

open Foundation Foundation.Machine

/-! ## Refusals that are passed over -/

/-- Every purchase call made for the order came back refused in a way that lets the loop try the
next source. -/
def AllPassedOver (log : Log) (order : Uuid) : Prop :=
  ∀ c, Event.purchaseStarted c ∈ log → c.order = order →
    ∃ r, Event.purchaseAnswered c.call order (.refused r) ∈ log ∧ tryNextSource r.error = true

/-- The same of all but the call in progress. -/
def PassedOverBut (log : Log) (order : Uuid) (call : ℕ) : Prop :=
  ∀ c, Event.purchaseStarted c ∈ log → c.order = order → c.call = call ∨
    ∃ r, Event.purchaseAnswered c.call order (.refused r) ∈ log ∧ tryNextSource r.error = true

/-- 5SIM's own second try follows only a refusal that is passed over. -/
lemma tryNextSource_of_isOutOfStock {e : ApiError}
    (h : (PurchaseError.rejected e).isOutOfStock = true) : tryNextSource e = true := by
  cases e with
  | serviceUnavailable m =>
      have hstock : containsText m "out of stock" = true := h
      simp [tryNextSource, ApiError.message, hstock]
  | _ => cases h

/-- What a purchase call is owed here. -/
def PassesOn (op : Op) (w : World) : Prop :=
  match op with
  | .supplier (.buyStart order _ _) => AllPassedOver w.log order
  | _ => True

/-- The remaining program calls a supplier only after every earlier call was passed over, in a
run whose operations keep their contracts. -/
abbrev Passes (cfg : Config) (tid : ℕ) (req : Request) (born : Time) {β : Type}
    (Q : β → World → Prop) (p : Handler β) (w : World) : Prop :=
  Safe (backend cfg) Sound (Rely cfg)
    (fun tid req born op _ w => Contract cfg tid req born op w) (fun _ _ _ => PassesOn)
    tid req born Q p w

/-! ## Nobody else buys -/

/-- The program makes no purchase calls. -/
abbrev BuysNothing {β : Type} (p : Handler β) : Prop := p.Every fun op => ∀ w, PassesOn op w

/-- One operation that is no purchase call. -/
lemma BuysNothing.call {β : Type} {op : Op} {k : op.Res → Handler β} (hop : ∀ w, PassesOn op w)
    (hk : ∀ r, BuysNothing (k r)) : BuysNothing (Prog.perform op >>= k) := ⟨hop, hk⟩

section Quiet

variable {cfg : Config} {userId id token : Uuid} {label : SupplierLabel}
  {providerOrderId : String} {check : ActivationCheck} {o : Order}

lemma quiet_checkFor : BuysNothing (checkFor cfg id label providerOrderId) := by
  unfold checkFor
  split
  · trivial
  · exact ⟨fun _ => trivial, fun _ => trivial⟩

lemma quiet_cancelFor : BuysNothing (cancelFor cfg id label providerOrderId) := by
  unfold cancelFor
  split
  · trivial
  · exact ⟨fun _ => trivial, fun _ => trivial⟩

lemma quiet_loadOrder : BuysNothing (loadOrder userId id) := by
  unfold loadOrder
  refine BuysNothing.call (fun _ => trivial) fun r => ?_
  match r with
  | none => trivial
  | some (o, inbox) =>
      dsimp only
      split <;> trivial

lemma quiet_applyAndAnswer {answer : Handler Result} (h : BuysNothing answer) :
    BuysNothing (applyAndAnswer id token check answer) := by
  unfold applyAndAnswer
  refine BuysNothing.call (fun _ => trivial) fun r => ?_
  cases r with
  | error e => trivial
  | ok outcome => exact h

lemma quiet_pullInbox : BuysNothing (pullInbox cfg userId id) := by
  unfold pullInbox
  split
  · trivial
  · refine BuysNothing.call (fun _ => trivial) fun r => ?_
    match r with
    | none => trivial
    | some (o, inbox) =>
        dsimp only
        split
        · trivial
        · split
          · refine quiet_checkFor.bind fun r => ?_
            cases r with
            | error e => trivial
            | ok check => exact ⟨fun _ => trivial, fun _ => trivial⟩
          · trivial

lemma quiet_getOrder : BuysNothing (getOrder cfg userId id) :=
  quiet_pullInbox.bind fun _ => quiet_loadOrder

lemma quiet_cancelWithoutActivation : BuysNothing (cancelWithoutActivation userId id token) := by
  unfold cancelWithoutActivation
  refine BuysNothing.call (fun _ => trivial) fun r => ?_
  cases r with
  | error e => trivial
  | ok outcome => exact quiet_loadOrder

lemma quiet_cancelWithActivation :
    BuysNothing (cancelWithActivation cfg userId id token label providerOrderId) := by
  unfold cancelWithActivation
  refine quiet_checkFor.bind fun r => ?_
  cases r with
  | error e => exact ⟨fun _ => trivial, fun _ => trivial⟩
  | ok check =>
      dsimp only
      split
      · exact quiet_applyAndAnswer trivial
      · split
        · exact quiet_applyAndAnswer quiet_loadOrder
        · split
          · refine quiet_cancelFor.bind fun r => ?_
            cases r with
            | error e => exact ⟨fun _ => trivial, fun _ => trivial⟩
            | ok u => exact quiet_cancelWithoutActivation
          · exact quiet_cancelWithoutActivation

lemma quiet_refuseCancel : BuysNothing (refuseCancel cfg id o) := by
  unfold refuseCancel
  split
  · split
    · trivial
    · refine quiet_checkFor.bind fun r => ?_
      cases r with
      | error e => trivial
      | ok check => exact ⟨fun _ => trivial, fun _ => trivial⟩
  · trivial

lemma quiet_cancelOrder : BuysNothing (cancelOrder cfg userId id) := by
  unfold cancelOrder
  refine BuysNothing.call (fun _ => trivial) fun r => ?_
  match r with
  | none => trivial
  | some (o, inbox) =>
      dsimp only
      split
      · trivial
      · split
        · exact quiet_loadOrder
        · split
          · exact quiet_refuseCancel
          · refine BuysNothing.call (fun _ => trivial) fun r => ?_
            match r with
            | none => trivial
            | some (claim, row) =>
                dsimp only
                split
                · exact quiet_cancelWithoutActivation
                · exact quiet_cancelWithActivation

/-- An operation whose outcome only makes the answer. -/
lemma quiet_last {op : Op} {k : op.Res → Handler Result} (hop : ∀ w, PassesOn op w)
    (hk : ∀ r, ∃ a, k r = .ret a) : BuysNothing (Prog.perform op >>= k) := by
  refine BuysNothing.call hop fun r => ?_
  obtain ⟨a, ha⟩ := hk r
  rw [ha]
  trivial

lemma quiet_giveUpOrRelease {createdAt : Time} :
    BuysNothing (giveUpOrRelease id token createdAt) := by
  unfold giveUpOrRelease
  refine BuysNothing.call (fun _ => trivial) fun now => ?_
  split
  · exact quiet_last (fun _ => trivial) fun r => by cases r <;> exact ⟨_, rfl⟩
  · exact ⟨fun _ => trivial, fun _ => trivial⟩

lemma quiet_checkRecovered : BuysNothing (checkRecovered cfg id label providerOrderId) := by
  unfold checkRecovered
  refine quiet_checkFor.bind fun r => ?_
  cases r with
  | error e => trivial
  | ok check => exact quiet_last (fun _ => trivial) fun r => by cases r <;> exact ⟨_, rfl⟩

lemma quiet_recoverUnknownPurchase : BuysNothing (recoverUnknownPurchase cfg id token) := by
  unfold recoverUnknownPurchase
  refine BuysNothing.call (fun _ => trivial) fun r => ?_
  match r with
  | none => trivial
  | some (o, inbox) =>
      have hhistory : BuysNothing (recoverFromHistory cfg id o.providerCountry o.productSlug) := by
        unfold recoverFromHistory
        split
        · exact ⟨fun _ => trivial, fun _ => trivial⟩
        · trivial
      refine hhistory.bind fun found => ?_
      cases found with
      | none => exact quiet_giveUpOrRelease
      | some a =>
          refine BuysNothing.call (fun _ => trivial) fun taken => ?_
          split
          · exact quiet_giveUpOrRelease
          · refine BuysNothing.call (fun _ => trivial) fun stored => ?_
            split
            · exact quiet_checkRecovered
            · exact quiet_giveUpOrRelease

lemma quiet_applyReconciled {expired : Bool} :
    BuysNothing (applyReconciled cfg id token label providerOrderId expired check) := by
  unfold applyReconciled
  split
  · exact quiet_cancelFor.bind fun _ => quiet_applyAndAnswer trivial
  · exact quiet_applyAndAnswer trivial

lemma quiet_releaseUnavailable : BuysNothing (releaseUnavailable id token) := by
  unfold releaseUnavailable
  refine BuysNothing.call (fun _ => trivial) fun r => ?_
  match r with
  | none => trivial
  | some (o, inbox) => exact ⟨fun _ => trivial, fun _ => trivial⟩

lemma quiet_checkClaimed : BuysNothing (checkClaimed cfg id token o providerOrderId) := by
  unfold checkClaimed
  refine BuysNothing.call (fun _ => trivial) fun now => ?_
  refine BuysNothing.call (fun _ => trivial) fun slot => ?_
  cases slot with
  | none => exact ⟨fun _ => trivial, fun _ => trivial⟩
  | some slot =>
      refine quiet_checkFor.bind fun checked => ?_
      refine BuysNothing.call (fun _ => trivial) fun _ => ?_
      cases checked with
      | ok check => exact quiet_applyReconciled
      | error e =>
          dsimp only
          split
          · exact quiet_applyAndAnswer trivial
          · exact quiet_releaseUnavailable

lemma quiet_process : BuysNothing (process cfg id token o) := by
  unfold process
  split
  · split
    · exact quiet_last (fun _ => trivial) fun r => by cases r <;> exact ⟨_, rfl⟩
    · split
      · exact quiet_last (fun _ => trivial) fun r => by split <;> exact ⟨_, rfl⟩
      · trivial
  · split
    · exact quiet_recoverUnknownPurchase
    · split
      · trivial
      · exact quiet_checkClaimed

lemma quiet_reconcile : BuysNothing (reconcile cfg id) := by
  unfold reconcile
  refine BuysNothing.call (fun _ => trivial) fun r => ?_
  match r with
  | none => trivial
  | some (token, o) => exact quiet_process

lemma quiet_rejectIfClaimed : BuysNothing (rejectIfClaimed id) := by
  unfold rejectIfClaimed
  refine BuysNothing.call (fun _ => trivial) fun r => ?_
  match r with
  | none => trivial
  | some (o, inbox) =>
      exact quiet_last (fun _ => trivial) fun now => by split <;> exact ⟨_, rfl⟩

lemma quiet_recheckClaimed : BuysNothing (recheckClaimed cfg id token o) := by
  unfold recheckClaimed
  split
  · exact quiet_last (fun _ => trivial) fun r => by cases r <;> exact ⟨_, rfl⟩
  · split
    · exact quiet_last (fun _ => trivial) fun r => by split <;> exact ⟨_, rfl⟩
    · split
      · exact ⟨fun _ => trivial, fun _ => trivial⟩
      · unfold recheckActivation
        refine BuysNothing.call (fun _ => trivial) fun slot => ?_
        cases slot with
        | none => exact ⟨fun _ => trivial, fun _ => trivial⟩
        | some slot =>
            refine quiet_checkFor.bind fun checked => ?_
            refine BuysNothing.call (fun _ => trivial) fun _ => ?_
            cases checked with
            | ok check => exact BuysNothing.call (fun _ => trivial) fun _ => quiet_applyReconciled
            | error e => exact ⟨fun _ => trivial, fun _ => trivial⟩

lemma quiet_recheckOrder : BuysNothing (recheckOrder cfg id) := by
  unfold recheckOrder
  refine BuysNothing.call (fun _ => trivial) fun r => ?_
  match r with
  | none => trivial
  | some (o, inbox) =>
      dsimp only
      split
      · trivial
      · refine BuysNothing.call (fun _ => trivial) fun claimed => ?_
        match claimed with
        | none => exact quiet_rejectIfClaimed
        | some (claim, row) => exact quiet_recheckClaimed

lemma quiet_refundOrder : BuysNothing (refundOrder cfg id) := by
  unfold refundOrder
  refine BuysNothing.call (fun _ => trivial) fun replayed => ?_
  split
  · trivial
  · refine BuysNothing.call (fun _ => trivial) fun r => ?_
    match r with
    | none => trivial
    | some (o, inbox) =>
        dsimp only
        split
        · trivial
        · split
          · trivial
          · refine BuysNothing.call (fun _ => trivial) fun claimed => ?_
            match claimed with
            | none => exact quiet_rejectIfClaimed
            | some (claim, row) =>
                exact quiet_last (fun _ => trivial) fun r => by cases r <;> exact ⟨_, rfl⟩

lemma quiet_createPayout {key : String} {body : CreatePayoutBody} :
    BuysNothing (createPayout userId key body) := by
  unfold createPayout
  split
  · trivial
  · refine BuysNothing.call (fun _ => trivial) fun user => ?_
    split
    · trivial
    · refine BuysNothing.call (fun _ => trivial) fun used => ?_
      split
      · trivial
      · refine BuysNothing.call (fun _ => trivial) fun destination => ?_
        cases destination with
        | error e => trivial
        | ok bank => exact quiet_last (fun _ => trivial) fun r => by cases r <;> exact ⟨_, rfl⟩

lemma quiet_settleIntent {reference : String} {amount : ℚ} :
    BuysNothing (settleIntent id userId reference amount) := by
  unfold settleIntent
  refine BuysNothing.call (fun _ => trivial) fun charge => ?_
  cases charge with
  | succeeded charged =>
      refine BuysNothing.call (fun _ => trivial) fun stored => ?_
      split <;> trivial
  | failed reason =>
      refine BuysNothing.call (fun _ => trivial) fun stored => ?_
      split <;> trivial
  | _ => trivial

lemma quiet_getIntent : BuysNothing (getIntent userId id) := by
  unfold getIntent
  refine BuysNothing.call (fun _ => trivial) fun r => ?_
  cases r with
  | none => trivial
  | some i =>
      dsimp only
      split
      · trivial
      · split
        · refine quiet_settleIntent.bind fun status => ?_
          cases status <;> trivial
        · trivial

lemma quiet_createIntent {amount : ℚ} {scale : ℕ} :
    BuysNothing (createIntent userId amount scale) := by
  unfold createIntent
  split
  · trivial
  · exact BuysNothing.call (fun _ => trivial) fun ⟨id, i⟩ =>
      quiet_last (fun _ => trivial) fun r => by cases r <;> exact ⟨_, rfl⟩

lemma quiet_settleAll (rows : List (Uuid × Intent)) : BuysNothing (settleAll rows) := by
  induction rows with
  | nil => trivial
  | cons r rest ih => exact quiet_settleIntent.bind fun _ => ih

lemma quiet_fundingSweep : BuysNothing (fundingSweep cfg) := by
  unfold fundingSweep
  split
  · trivial
  · exact BuysNothing.call (fun _ => trivial) fun rows =>
      (quiet_settleAll rows).bind fun _ => ⟨fun _ => trivial, fun _ => trivial⟩

end Quiet

section QuietWatcher

variable {network : Network} {head : ℤ}

lemma quiet_handleTransfers (transfers : List ObservedTransfer) :
    BuysNothing (handleTransfers head transfers) := by
  induction transfers with
  | nil => trivial
  | cons t rest ih =>
      refine Prog.Every.bind ?_ fun _ => ih
      unfold handleTransfer
      refine BuysNothing.call (fun _ => trivial) fun wallet => ?_
      match wallet with
      | none => trivial
      | some (walletId, userId) =>
          refine BuysNothing.call (fun _ => trivial) fun row => ?_
          match row with
          | none => trivial
          | some (id, status) =>
              dsimp only
              split
              · trivial
              · split
                · exact ⟨fun _ => trivial, fun _ => trivial⟩
                · trivial

lemma quiet_advanceRows (rows : List (Uuid × Deposit)) :
    BuysNothing (advanceRows network head rows) := by
  induction rows with
  | nil => trivial
  | cons r rest ih =>
      obtain ⟨id, d⟩ := r
      unfold advanceRows
      split
      · exact BuysNothing.call (fun _ => trivial) fun _ => ih
      · exact BuysNothing.call (fun _ => trivial) fun _ => ih

lemma quiet_reorgRows (cache : List (ℤ × Option String)) (rows : List (Uuid × Deposit)) :
    BuysNothing (reorgRows network cache rows) := by
  induction rows generalizing cache with
  | nil => trivial
  | cons r rest ih =>
      obtain ⟨id, d⟩ := r
      unfold reorgRows
      split
      · exact ih cache
      · have hhash : BuysNothing (cachedHash cache d.blockNumber) := by
          unfold cachedHash
          split
          · trivial
          · exact ⟨fun _ => trivial, fun _ => trivial⟩
        refine hhash.bind fun found => ?_
        obtain ⟨current, cache⟩ := found
        cases current with
        | none => exact ih cache
        | some hash =>
            dsimp only
            split
            · exact ih cache
            · refine Prog.Every.bind ?_ fun _ => ih cache
              unfold relocateOrReverse
              refine BuysNothing.call (fun _ => trivial) fun location => ?_
              cases location with
              | error => trivial
              | ok place => cases place <;> exact ⟨fun _ => trivial, fun _ => trivial⟩

lemma quiet_watchPass {transfers : List ObservedTransfer} :
    BuysNothing (watchPass network head transfers) := by
  unfold watchPass
  refine (quiet_handleTransfers _).bind fun _ => ?_
  refine Prog.Every.bind (BuysNothing.call (fun _ => trivial) fun rows =>
    quiet_advanceRows rows) fun _ => ?_
  split
  · exact Prog.Every.bind (BuysNothing.call (fun _ => trivial) fun rows =>
      quiet_reorgRows [] rows) fun _ => trivial
  · trivial

end QuietWatcher

/-! ## The buyer -/

section Buyer

variable {cfg : Config} {tid : ℕ} {req : Request} {born : Time} {w w' : World}
  {id userId token : Uuid} {label : SupplierLabel} {β : Type} {Q : β → World → Prop}

/-- One operation that is no purchase call, under an assertion. -/
lemma Passes.call {A : World → Prop} {op : Op} {k : op.Res → Handler β} (hA : A w)
    (hstable : ∀ {w w'}, Rely cfg tid w w' → A w → A w') (hop : ∀ w, A w → PassesOn op w)
    (hk : ∀ w ω r w', Sound w → A w → exec cfg tid op ω w = some (r, w') →
      Passes cfg tid req born Q (k r) w') : Passes cfg tid req born Q (.call op k) w :=
  Safe.step hA hstable fun w ω hI hA _ => ⟨hop w hA, fun r w' he => hk w ω r w' hI hA he⟩

lemma Passes.of_quiet {p : Handler β} (hp : BuysNothing p) : Passes cfg tid req born Done p w :=
  (Safe.of_lasting (A := fun _ => True) ⟨fun _ _ => trivial, fun _ _ _ _ => trivial⟩
    (hp.mono fun _ hop w _ _ => hop w) trivial).mono fun _ _ _ => trivial

/-- The order is ours to buy, and so far every call was passed over. -/
def Shopping (tid : ℕ) (id : Uuid) (w : World) : Prop := Buys w tid id ∧ AllPassedOver w.log id

/-- The order is ours to buy, and every call but that one was passed over. -/
def Calling (tid : ℕ) (id : Uuid) (call : ℕ) (w : World) : Prop :=
  Buys w tid id ∧ PassedOverBut w.log id call

lemma Shopping.rely (h : Rely cfg tid w w') (hA : Shopping tid id w) : Shopping tid id w' := by
  refine ⟨hA.1.mono h.log, fun c hc hid => ?_⟩
  obtain ⟨r, hr, hnext⟩ := hA.2 c (h.calls id hA.1 c hc hid) hid
  exact ⟨r, h.log.subset hr, hnext⟩

lemma Calling.rely {call : ℕ} (h : Rely cfg tid w w') (hA : Calling tid id call w) :
    Calling tid id call w' := by
  refine ⟨hA.1.mono h.log, fun c hc hid => (hA.2 c (h.calls id hA.1 c hc hid) hid).imp_right ?_⟩
  rintro ⟨r, hr, hnext⟩
  exact ⟨r, h.log.subset hr, hnext⟩

/-- What the outcome of an attempt says: after a refusal that is passed over we may go on. -/
def Attempted (tid : ℕ) (id : Uuid) (r : Purchase) (w : World) : Prop :=
  ∀ e, r = .error (.rejected e) → tryNextSource e = true → Shopping tid id w

/-- A purchase call starts. -/
lemma passes_buyStart {k : ℕ → Handler β} (hA : Shopping tid id w)
    (hk : ∀ call w, Calling tid id call w → Passes cfg tid req born Q (k call) w) :
    Passes cfg tid req born Q (.call (.supplier (.buyStart id token label)) k) w := by
  refine Passes.call hA Shopping.rely (fun w hA => hA.2) fun w ω call w' _ hA hexec => ?_
  refine hk call w' ⟨hA.1.mono (log_of_exec hexec), ?_⟩
  obtain ⟨es, he, rfl⟩ := exec_supplier hexec
  cases he
  intro c hc hid
  rcases List.mem_append.mp hc with hc | hc
  · cases List.mem_singleton.mp hc
    exact .inl rfl
  · obtain ⟨r, hr, hnext⟩ := hA.2 c hc hid
    exact .inr ⟨r, List.mem_append_right _ hr, hnext⟩

/-- It is answered. -/
lemma passes_buyAnswer {s : Supplier} {k : BuyAnswer → Handler β} {call : ℕ}
    (hA : Calling tid id call w)
    (hk : ∀ answer w, (∀ r, answer = .refused r → tryNextSource r.error = true →
      Shopping tid id w) → Passes cfg tid req born Q (k answer) w) :
    Passes cfg tid req born Q (.call (.supplier (.buyAnswer call id label s)) k) w := by
  refine Passes.call hA Calling.rely (fun _ _ => trivial) fun w ω answer w' _ hA hexec => ?_
  refine hk answer w' fun r hr hnext => ⟨hA.1.mono (log_of_exec hexec), ?_⟩
  obtain ⟨es, he, rfl⟩ := exec_supplier hexec
  obtain ⟨answer', -, hres⟩ := Option.map_eq_some_iff.mp he
  cases hres
  subst hr
  intro c hc hid
  have hc₀ : Event.purchaseStarted c ∈ w.log := by simpa [World.record, handedBy] using hc
  rcases hA.2 c hc₀ hid with rfl | ⟨r', hr', hnext'⟩
  · exact ⟨r, by simp [World.record], hnext⟩
  · exact ⟨r', List.mem_append_right _ hr', hnext'⟩

lemma passes_purchaseOnce {s : Supplier} (hA : Shopping tid id w) :
    Passes cfg tid req born (Attempted tid id) (purchaseOnce id token label s) w := by
  unfold purchaseOnce
  simp only [Prog.perform_bind]
  refine passes_buyStart hA fun call w hA => passes_buyAnswer hA fun answer w hrefused => ?_
  cases answer with
  | refused r =>
      rintro e ⟨⟩ hnext
      exact hrefused r rfl hnext
  | _ => exact fun e he => nomatch he

lemma passes_fivesimPurchase {country product : String} (hA : Shopping tid id w) :
    Passes cfg tid req born (Attempted tid id)
      (fivesimPurchase id token label country product) w := by
  unfold fivesimPurchase
  simp only [Prog.perform_bind]
  refine passes_buyStart hA fun call w hA => passes_buyAnswer hA fun answer w hrefused => ?_
  cases answer with
  | refused r =>
      rintro e ⟨⟩ hnext
      exact hrefused r rfl hnext
  | unreadable =>
      refine Passes.call (A := fun _ => True) trivial (fun _ _ => trivial) (fun _ _ => trivial)
        fun w ω found w' _ _ _ => ?_
      cases found with
      | none => exact fun e he => nomatch he
      | some a => exact fun e he => nomatch he
  | _ => exact fun e he => nomatch he

lemma passes_primaryBuy {country product operator : String} (hA : Shopping tid id w) :
    Passes cfg tid req born (Attempted tid id)
      (primaryBuy cfg id token label country product operator) w := by
  unfold primaryBuy
  split
  · unfold fivesimBuy
    generalize (if isBlank operator then anyOperator else operator) = operator
    refine (passes_fivesimPurchase hA).bind fun r w hA => ?_
    match r with
    | .ok a => exact hA
    | .error e =>
        dsimp only
        split
        · rename_i hretry
          have hstock : e.isOutOfStock = true := by
            rw [Bool.and_eq_true] at hretry
            exact hretry.1
          cases e with
          | rejected e =>
              exact passes_fivesimPurchase (hA e rfl (tryNextSource_of_isOutOfStock hstock))
          | ambiguous => cases hstock
        · exact hA
  · exact passes_purchaseOnce hA

lemma passes_buySource {s : Source} (hA : Shopping tid id w) :
    Passes cfg tid req born (Attempted tid id) (buySource cfg id token s) w := by
  unfold buySource
  split
  · exact passes_purchaseOnce hA
  · exact passes_purchaseOnce hA
  · exact passes_primaryBuy hA
  · exact passes_primaryBuy hA
  · exact fun _ _ _ => hA

lemma quiet_refund {k : Except ApiError TransitionOutcome → Handler Result}
    (hk : ∀ r, ∃ a, k r = .ret a) : BuysNothing (refundRejected id token >>= k) :=
  quiet_last (fun _ => trivial) hk

lemma quiet_storeActivation {a : Activation} :
    BuysNothing (storeActivation cfg userId id token label a) := by
  unfold storeActivation
  refine BuysNothing.call (fun _ => trivial) fun assigned => ?_
  split
  · exact quiet_cancelFor.bind fun _ => quiet_loadOrder
  · exact quiet_loadOrder

lemma quiet_reviewAmbiguous : BuysNothing (reviewAmbiguous userId id token) := by
  unfold reviewAmbiguous
  refine BuysNothing.call (fun _ => trivial) fun marked => ?_
  split
  · exact quiet_loadOrder
  · trivial

/-- **The buy loop passes on.**  Induction on the sources still to try. -/
lemma passes_buyLoop (sources : List Source) {last : Option ApiError} (hA : Shopping tid id w) :
    Passes cfg tid req born Done (buyLoop cfg userId id token last sources) w := by
  induction sources generalizing last w with
  | nil => exact Passes.of_quiet (quiet_refund fun r => by cases r <;> exact ⟨_, rfl⟩)
  | cons s rest ih =>
      unfold buyLoop
      refine (passes_buySource hA).bind fun r w hA => ?_
      cases r with
      | ok a => exact Passes.of_quiet (BuysNothing.call (fun _ => trivial) fun _ =>
          quiet_storeActivation)
      | error failure =>
          cases failure with
          | rejected e =>
              dsimp only
              split
              · rename_i hnext
                exact ih (hA e rfl hnext)
              · exact Passes.of_quiet (quiet_refund fun r => by cases r <;> exact ⟨_, rfl⟩)
          | ambiguous => exact Passes.of_quiet quiet_reviewAmbiguous

lemma passes_buyCatalogue {q : Quote} (hA : Shopping tid id w) :
    Passes cfg tid req born Done (buyCatalogue cfg userId id token q) w := by
  unfold buyCatalogue
  refine (passes_primaryBuy hA).bind fun r w hA => ?_
  match r with
  | .ok a => exact Passes.of_quiet quiet_storeActivation
  | .error (.rejected e) =>
      exact Passes.of_quiet (quiet_refund fun r => by cases r <;> exact ⟨_, rfl⟩)
  | .error .ambiguous => exact Passes.of_quiet quiet_reviewAmbiguous

/-- Nothing was called for an order whose purchase has just been claimed. -/
lemma shopping_of_claim {ω : Oracle} {row : Order} (hI : Sound w)
    (he : Naivolt.exec cfg tid (.numbers (.claimPurchase id)) ω w =
      some (some (token, row), w')) : Shopping tid id w' := by
  obtain ⟨-, db, es, hexec, rfl⟩ := exec_numbers he
  obtain ⟨o, hguard, -, htaken⟩ := taken_of_grant hexec
  simp only [Bool.and_eq_true, decide_eq_true_eq, Option.isNone_iff_eq_none] at hguard
  refine ⟨⟨_, htaken.log ▸ List.mem_cons_self, rfl, rfl, rfl⟩, fun c hc hid => ?_⟩
  rw [htaken.log, List.mem_cons] at hc
  obtain ⟨tid', hb⟩ := hI.calls c (hc.resolve_left nofun)
  obtain ⟨o', ho', hs⟩ := hI.started tid' id (hid ▸ hb)
  cases htaken.found.symm.trans ho'
  exact absurd hguard.2 hs

lemma passes_createOrder {key : Uuid} {body : CreateOrderBody} :
    Passes cfg tid req born Done (createOrder cfg userId key body) w := by
  have harmless : ∀ {w w' : World}, Rely cfg tid w w' → True → True := fun _ _ => trivial
  unfold createOrder
  split
  · trivial
  · refine Passes.call (A := fun _ => True) trivial harmless (fun _ _ => trivial)
      fun w ω r w' _ _ _ => ?_
    match r with
    | .error e => trivial
    | .ok (.replayed id) => exact Passes.of_quiet quiet_loadOrder
    | .ok (.placed id q) =>
        refine Passes.call (A := fun _ => True) trivial harmless (fun _ _ => trivial)
          fun w ω r w' hI _ he => ?_
        match r, he with
        | none, _ => exact Passes.of_quiet quiet_loadOrder
        | some (token, row), he =>
            have hA := shopping_of_claim hI he
            split
            · exact passes_buyLoop q.sources hA
            · exact passes_buyCatalogue hA

end Buyer

/-- **Purchase calls pass on**, in every interleaving. -/
theorem backend_passes_on (cfg : Config) :
    Keeps (backend cfg) Sound (Rely cfg)
      (fun tid req born op _ w => Contract cfg tid req born op w)
      (fun _ _ _ => PassesOn) where
  refl _ := .refl
  trans := .trans
  env hI he := (backend_keeps cfg).env hI he
  op hI hC _ he := (backend_keeps cfg).op hI trivial hC he
  spawn tid req w _ := by
    refine Safe.mono (Q := Done) ?_ fun _ _ _ => trivial
    cases req with
    | createOrder userId key body => exact passes_createOrder
    | getOrder userId id => exact Passes.of_quiet quiet_getOrder
    | cancelOrder userId id => exact Passes.of_quiet quiet_cancelOrder
    | reconcile id => exact Passes.of_quiet quiet_reconcile
    | recheckOrder id => exact Passes.of_quiet quiet_recheckOrder
    | refundOrder id => exact Passes.of_quiet quiet_refundOrder
    | createPayout userId key body => exact Passes.of_quiet quiet_createPayout
    | createIntent userId amount scale => exact Passes.of_quiet quiet_createIntent
    | getIntent userId id => exact Passes.of_quiet quiet_getIntent
    | fundingSweep => exact Passes.of_quiet quiet_fundingSweep
    | watch network head transfers => exact Passes.of_quiet quiet_watchPass

/-! ## Undisturbed -/

/-- The order waits for its purchase under the live claim. -/
structure Ready (w : World) (id token : Uuid) (o : Order) : Prop where
  row : w.orders.get? id = some o
  status : o.status = .reserved
  activation : o.providerOrderId = none
  live : o.liveClaim token w.now = true

/-- A purchase call of the order came back with an answer that may hide a purchase. -/
def MayHaveBought (log : Log) (id : Uuid) : Prop :=
  ∃ c, Event.purchaseStarted c ∈ log ∧ c.order = id ∧
    (Event.purchaseAnswered c.call id .ambiguous ∈ log ∨
      Event.purchaseAnswered c.call id .unreadable ∈ log)

/-- How the buy loop leaves an order, by what it was told. -/
inductive BuyEnd (log : Log) (id : Uuid) (o : Order) : Prop where
  | bought {a : Activation} (hstatus : o.status = .awaitingCode)
      (hhanded : Event.handed id o.provider a ∈ log)
      (hid : o.providerOrderId = some a.providerOrderId)
  | refunded (hstatus : o.status = .failed) (hrefused : AllRefused log id)
  | inReview (hstatus : o.status = .reviewRequired) (hid : o.providerOrderId = none)
      (hmay : MayHaveBought log id)

/-- What a purchase attempt found out, the order being as it was. -/
structure Tried (id token : Uuid) (o : Order) (label : SupplierLabel) (r : Purchase)
    (w : World) : Prop where
  ready : Ready w id token o
  told : match r with
    | .ok a => Event.handed id label a ∈ w.log
    | .error (.rejected _) => AllRefused w.log id
    | .error .ambiguous => MayHaveBought w.log id

section Undisturbed

variable {cfg : Config} {w w' : World} {id userId token : Uuid} {o : Order}
  {label : SupplierLabel}

lemma Ready.supplier {tid : ℕ} {ω : Oracle} {op : SupplierOp} {r : op.Res}
    (h : Ready w id token o) (he : exec cfg tid (.supplier op) ω w = some (r, w')) :
    Ready w' id token o := by
  obtain ⟨horders, hnow⟩ := supplier_frame he
  exact ⟨horders ▸ h.row, h.status, h.activation, hnow ▸ h.live⟩

/-- One purchase call, undisturbed. -/
lemma undisturbed_buyStart {β : Type} {Q : β → World → Prop} {k : ℕ → Handler β}
    (hready : Ready w id token o) (hrefused : AllRefused w.log id)
    (hk : ∀ call w, Ready w id token o → OneInFlight w.log id call →
      (∃ c, Event.purchaseStarted c ∈ w.log ∧ c.order = id ∧ c.call = call) →
      (backend cfg).Undisturbed Q (k call) w) :
    (backend cfg).Undisturbed Q (.call (.supplier (.buyStart id token label)) k) w := by
  refine Undisturbed.call fun tid ω call w' hexec => ?_
  refine hk call w' (hready.supplier hexec) (exec_buyStart hexec hrefused) ?_
  obtain ⟨es, he, rfl⟩ := exec_supplier hexec
  cases he
  exact ⟨_, List.mem_cons_self, rfl, rfl⟩

lemma undisturbed_buyAnswer {β : Type} {Q : β → World → Prop} {k : BuyAnswer → Handler β}
    {call : ℕ} {s : Supplier} (hready : Ready w id token o)
    (hcall : OneInFlight w.log id call)
    (hstarted : ∃ c, Event.purchaseStarted c ∈ w.log ∧ c.order = id ∧ c.call = call)
    (hk : ∀ answer w, Ready w id token o →
      (∀ a, answer = .bought a → Event.handed id label a ∈ w.log) →
      (∀ r, answer = .refused r → AllRefused w.log id) →
      (answer = .ambiguous ∨ answer = .unreadable → MayHaveBought w.log id) →
      (backend cfg).Undisturbed Q (k answer) w) :
    (backend cfg).Undisturbed Q (.call (.supplier (.buyAnswer call id label s)) k) w := by
  refine Undisturbed.call fun tid ω answer w' hexec => ?_
  obtain ⟨hbought, hrefused⟩ := exec_buyAnswer hexec hcall
  refine hk answer w' (hready.supplier hexec) (fun a ha => (hbought a ha).1) hrefused
    fun hanswer => ?_
  obtain ⟨c, hc, hid, hcall⟩ := hstarted
  refine ⟨c, (log_of_exec hexec).subset hc, hid, ?_⟩
  obtain ⟨es, he, rfl⟩ := exec_supplier hexec
  obtain ⟨answer', -, hres⟩ := Option.map_eq_some_iff.mp he
  cases hres
  rcases hanswer with rfl | rfl
  · exact .inl (by simp [World.record, hcall])
  · exact .inr (by simp [World.record, hcall])

lemma undisturbed_purchaseOnce {s : Supplier} (hready : Ready w id token o)
    (hrefused : AllRefused w.log id) :
    (backend cfg).Undisturbed (Tried id token o label) (purchaseOnce id token label s) w := by
  unfold purchaseOnce
  simp only [Prog.perform_bind]
  refine undisturbed_buyStart hready hrefused fun call w hready hcall hstarted =>
    undisturbed_buyAnswer hready hcall hstarted fun answer w hready hbought hrefused hmay => ?_
  cases answer with
  | bought a => exact ⟨hready, hbought a rfl⟩
  | refused r => exact ⟨hready, hrefused r rfl⟩
  | ambiguous => exact ⟨hready, hmay (.inl rfl)⟩
  | unreadable => exact ⟨hready, hmay (.inr rfl)⟩

lemma undisturbed_fivesimPurchase {country product : String} (hready : Ready w id token o)
    (hrefused : AllRefused w.log id) :
    (backend cfg).Undisturbed (Tried id token o label)
      (fivesimPurchase id token label country product) w := by
  unfold fivesimPurchase
  simp only [Prog.perform_bind]
  refine undisturbed_buyStart hready hrefused fun call w hready hcall hstarted =>
    undisturbed_buyAnswer hready hcall hstarted fun answer w hready hbought hrefused hmay => ?_
  cases answer with
  | bought a => exact ⟨hready, hbought a rfl⟩
  | refused r => exact ⟨hready, hrefused r rfl⟩
  | ambiguous => exact ⟨hready, hmay (.inl rfl)⟩
  | unreadable =>
      refine Undisturbed.call fun tid ω found w' hexec => ?_
      have hready' := hready.supplier hexec
      obtain ⟨c, hc, hid, hanswer⟩ := hmay (.inr rfl)
      have hlog := log_of_exec hexec
      have hfound := exec_recentInPurchase hexec
      cases found with
      | none => exact ⟨hready', c, hlog.subset hc, hid, hanswer.imp (hlog.subset ·) (hlog.subset ·)⟩
      | some a => exact ⟨hready', (hfound a rfl).1⟩

lemma undisturbed_primaryBuy {country product operator : String} (hready : Ready w id token o)
    (hrefused : AllRefused w.log id) :
    (backend cfg).Undisturbed (Tried id token o label)
      (primaryBuy cfg id token label country product operator) w := by
  unfold primaryBuy
  split
  · unfold fivesimBuy
    generalize (if isBlank operator then anyOperator else operator) = operator
    refine (undisturbed_fivesimPurchase hready hrefused).bind fun r w htried => ?_
    match r with
    | .ok a => exact htried
    | .error e =>
        dsimp only
        split
        · rename_i hretry
          cases e with
          | rejected e => exact undisturbed_fivesimPurchase htried.ready htried.told
          | ambiguous => simp [PurchaseError.isOutOfStock] at hretry
        · exact htried
  · exact undisturbed_purchaseOnce hready hrefused

lemma undisturbed_buySource {s : Source} (hready : Ready w id token o)
    (hrefused : AllRefused w.log id) :
    (backend cfg).Undisturbed (Tried id token o s.provider) (buySource cfg id token s) w := by
  unfold buySource
  split
  · exact undisturbed_purchaseOnce hready hrefused
  · exact undisturbed_purchaseOnce hready hrefused
  · exact undisturbed_primaryBuy hready hrefused
  · exact undisturbed_primaryBuy hready hrefused
  · exact ⟨hready, hrefused⟩

/-- How the order is left, at whatever the handler answers. -/
def Leaves (id : Uuid) (terms : Order.Terms) (_ : Result) (w : World) : Prop :=
  ∃ o, w.orders.get? id = some o ∧ o.terms = terms ∧ BuyEnd w.log id o

lemma undisturbed_loadOrder {o' : Order} (ho : w.orders.get? id = some o')
    (hterms : o'.terms = o.terms) (hend : BuyEnd w.log id o') :
    (backend cfg).Undisturbed (Leaves id o.terms) (loadOrder userId id) w := by
  unfold loadOrder
  simp only [Prog.perform_bind]
  refine Undisturbed.call fun tid ω r w' he => ?_
  have hlog := log_of_exec he
  obtain ⟨-, db, es, hexec, rfl⟩ := exec_numbers he
  cases hexec
  have hleaves : ∀ a : Result, Leaves id o.terms a ((w.draw ω).putNumbers w.numbers
      ((w.numbers.orders.get? id).map (Event.read id)).toList) := fun _ => by
    refine ⟨o', ho, hterms, ?_⟩
    cases hend with
    | bought hstatus hhanded hid => exact .bought hstatus (hlog.subset hhanded) hid
    | refunded hstatus hrefused =>
        refine .refunded hstatus fun c hc hid => ?_
        rcases List.mem_append.mp hc with hc | hc
        · cases hrow : w.numbers.orders.get? id <;> simp [hrow] at hc
        · obtain ⟨r, hr⟩ := hrefused c hc hid
          exact ⟨r, hlog.subset hr⟩
    | inReview hstatus hid hmay =>
        obtain ⟨c, hc, horder, hanswer⟩ := hmay
        exact .inReview hstatus hid ⟨c, hlog.subset hc, horder,
          hanswer.imp (hlog.subset ·) (hlog.subset ·)⟩
  split
  · exact hleaves _
  · split <;> exact hleaves _

/-- What was bought is stored. -/
lemma undisturbed_storeActivation (label : SupplierLabel) {a : Activation} {o' : Order}
    (hready : Ready w id token o') (hterms : o'.terms = o.terms)
    (hhanded : Event.handed id o'.provider a ∈ w.log) :
    (backend cfg).Undisturbed (Leaves id o.terms)
      (storeActivation cfg userId id token label a) w := by
  unfold storeActivation
  simp only [Prog.perform_bind]
  refine Undisturbed.call fun tid ω assigned w' he => ?_
  have hlog := log_of_exec he
  obtain ⟨-, db, es, hexec, rfl⟩ := exec_numbers he
  obtain ⟨rfl, ho'⟩ := updateWhere_of_guard hexec hready.row
    (by simp [hready.status, hready.live])
  exact undisturbed_loadOrder ho' hterms (.bought rfl (hlog.subset hhanded) rfl)

/-- The refund of an order every call for which was refused. -/
lemma undisturbed_refundRejected {k : Except ApiError TransitionOutcome → Handler Result}
    (hready : Ready w id token o) (hrefused : AllRefused w.log id)
    (hk : ∀ r, ∃ a, k r = .ret a) :
    (backend cfg).Undisturbed (Leaves id o.terms) (refundRejected id token >>= k) w := by
  unfold refundRejected
  simp only [Prog.perform_bind]
  refine Undisturbed.call fun tid ω r w' he => ?_
  obtain ⟨a, ha⟩ := hk r
  rw [ha]
  obtain ⟨-, db, es, hexec, rfl⟩ := exec_numbers he
  have hrow : w.numbers.orders.get? id = some o := hready.row
  have hfenced : staleClaim o (some token) w.now = false := by
    simp [staleClaim, hready.live]
  have hopen : (!o.status.moneyOpen) = false := by
    rw [hready.status]
    rfl
  simp only [execNumbers, applyInner, hrow, hfenced, hopen, Bool.false_eq_true, if_false] at hexec
  split at hexec
  · cases hexec
  · rename_i journalId rest
    unfold refundOpen postAndMove at hexec
    split at hexec
    · cases hexec
    · split at hexec
      · cases hexec
      · obtain ⟨⟨posted, ledger⟩, -, hexec⟩ := Option.bind_eq_some_iff.mp hexec
        obtain ⟨orders, hupdate, hexec⟩ := Option.bind_eq_some_iff.mp hexec
        cases hexec
        have hmoved := OrderTable.get?_update_self hupdate hrow
        refine ⟨_, hmoved, rfl, .refunded rfl fun c hc hid => ?_⟩
        obtain ⟨r, hr⟩ := hrefused c (by simpa [World.putNumbers] using hc) hid
        exact ⟨r, List.mem_append_right _ hr⟩

/-- An order whose purchase may have gone through waits for review. -/
lemma undisturbed_reviewAmbiguous (hready : Ready w id token o)
    (hmay : MayHaveBought w.log id) :
    (backend cfg).Undisturbed (Leaves id o.terms) (reviewAmbiguous userId id token) w := by
  unfold reviewAmbiguous
  simp only [Prog.perform_bind]
  refine Undisturbed.call fun tid ω marked w' he => ?_
  have hlog := log_of_exec he
  obtain ⟨-, db, es, hexec, rfl⟩ := exec_numbers he
  obtain ⟨rfl, ho'⟩ := updateWhere_of_guard hexec hready.row
    (by simp [hready.status, hready.live])
  obtain ⟨c, hc, hid, hanswer⟩ := hmay
  exact undisturbed_loadOrder ho' rfl (.inReview rfl hready.activation
    ⟨c, hlog.subset hc, hid, hanswer.imp (hlog.subset ·) (hlog.subset ·)⟩)

/-- **The buy loop, undisturbed.**  Induction on the sources still to try. -/
lemma undisturbed_buyLoop (sources : List Source) {last : Option ApiError}
    (hready : Ready w id token o) (hrefused : AllRefused w.log id) :
    (backend cfg).Undisturbed (Leaves id o.terms) (buyLoop cfg userId id token last sources) w := by
  induction sources generalizing last w with
  | nil => exact undisturbed_refundRejected hready hrefused fun r => by cases r <;> exact ⟨_, rfl⟩
  | cons s rest ih =>
      unfold buyLoop
      refine (undisturbed_buySource hready hrefused).bind fun r w hbuying => ?_
      obtain ⟨hready, htold⟩ := hbuying
      cases r with
      | ok a =>
          simp only [Prog.perform_bind]
          refine Undisturbed.call fun tid ω pinned w' he => ?_
          have hlog := log_of_exec he
          obtain ⟨-, db, es, hexec, rfl⟩ := exec_numbers he
          obtain ⟨-, ho'⟩ := updateWhere_of_guard hexec hready.row rfl
          exact undisturbed_storeActivation s.provider
            ⟨ho', hready.status, hready.activation, hready.live⟩ rfl (hlog.subset htold)
      | error failure =>
          cases failure with
          | rejected e =>
              dsimp only
              split
              · exact ih hready htold
              · exact undisturbed_refundRejected hready htold fun r => by cases r <;> exact ⟨_, rfl⟩
          | ambiguous => exact undisturbed_reviewAmbiguous hready htold

lemma undisturbed_buyCatalogue {q : Quote} (hready : Ready w id token o)
    (hlabel : o.provider = q.label) (hrefused : AllRefused w.log id) :
    (backend cfg).Undisturbed (Leaves id o.terms) (buyCatalogue cfg userId id token q) w := by
  unfold buyCatalogue
  refine (undisturbed_primaryBuy hready hrefused).bind fun r w ⟨hready, htold⟩ => ?_
  match r with
  | .ok a => exact undisturbed_storeActivation _ hready rfl (hlabel ▸ htold)
  | .error (.rejected e) =>
      exact undisturbed_refundRejected hready htold fun r => by cases r <;> exact ⟨_, rfl⟩
  | .error .ambiguous => exact undisturbed_reviewAmbiguous hready htold

/-- A claim that finds its row free. -/
lemma grantClaim_of_guard {db db' : NumbersDb} {now : Time} {tid : ℕ} {purpose : ClaimPurpose}
    {guard : Order → Bool} {set : Order → Order} {r : Option Order} {es : Log}
    (h : grantClaim now tid id token purpose guard set db = some (r, db', es))
    (ho : db.orders.get? id = some o) (hguard : guard o = true)
    (hfree : o.claimable now = true) :
    r = some { set o with claim := some ⟨token, now + leaseLength⟩ } ∧
      db'.orders.get? id = some { set o with claim := some ⟨token, now + leaseLength⟩ } := by
  unfold grantClaim at h
  simp only [ho, hguard, hfree, Bool.and_self, if_true] at h
  obtain ⟨orders, hupdate, hres⟩ := Option.bind_eq_some_iff.mp h
  have hmoved := OrderTable.get?_update_self hupdate ho
  cases hres
  exact ⟨rfl, hmoved⟩

/-- A new order is claimed, and bought for. -/
lemma undisturbed_purchaseOrder {q : Quote} (ho : w.orders.get? id = some o)
    (hstatus : o.status = .reserved) (hactivation : o.providerOrderId = none)
    (hstarted : o.purchaseStartedAt = none) (hclaim : o.claim = none)
    (hlabel : o.provider = q.label) (hrefused : AllRefused w.log id) :
    (backend cfg).Undisturbed (Leaves id o.terms) (purchaseOrder cfg userId id q) w := by
  unfold purchaseOrder
  simp only [Prog.perform_bind]
  refine Undisturbed.call fun tid ω r w' he => ?_
  have hnone : AllRefused w'.log id := by
    intro c hc hid
    rcases (exec_move he).2.new_call hc with hc | ⟨order, token, label, hop, -⟩
    · obtain ⟨r, hr⟩ := hrefused c hc hid
      exact ⟨r, (log_of_exec he).subset hr⟩
    · cases hop
  obtain ⟨-, db, es, hexec, rfl⟩ := exec_numbers he
  obtain ⟨token, -, hexec⟩ := Option.bind_eq_some_iff.mp hexec
  obtain ⟨⟨row?, db₁, es₁⟩, hgrant, hres⟩ := Option.map_eq_some_iff.mp hexec
  obtain ⟨rfl, ho'⟩ := grantClaim_of_guard hgrant ho (by simp [hstatus, hstarted])
    (by simp [Order.claimable, hclaim])
  cases hres
  have hlive : w.now < w.now + leaseLength := Nat.lt_add_of_pos_right (by decide)
  obtain ⟨row, hready, hterms, hprovider⟩ : ∃ row, Ready ((w.draw ω).putNumbers db es) id token
      row ∧ row.terms = o.terms ∧ row.provider = o.provider :=
    ⟨_, ⟨ho', hstatus, hactivation, Order.liveClaim_iff.mpr ⟨_, rfl, rfl, hlive⟩⟩, rfl, rfl⟩
  rw [← hterms]
  dsimp only [Option.map_some]
  split
  · exact undisturbed_buyLoop q.sources hready hnone
  · exact undisturbed_buyCatalogue hready (hprovider.trans hlabel) hnone

/-- What `create_order`, undisturbed, makes of an order under a key that was free. -/
theorem ends_createOrder {key : Uuid} {body : CreateOrderBody} (hI : Sound w)
    (hfree : ∀ id o, w.orders.get? id = some o → ¬ (o.userId = userId ∧ o.idempotencyKey = key)) :
    (backend cfg).Undisturbed (fun _ w' => ∀ id o, w'.orders.get? id = some o →
      o.userId = userId → o.idempotencyKey = key → BuyEnd w'.log id o)
      (createOrder cfg userId key body) w := by
  have unplaced : ∀ {w' : World}, w'.orders = w.orders →
      ∀ id o, w'.orders.get? id = some o → o.userId = userId → o.idempotencyKey = key →
        BuyEnd w'.log id o := by
    intro w' horders id o ho hu hk
    rw [horders] at ho
    exact absurd ⟨hu, hk⟩ (hfree id o ho)
  unfold createOrder
  split
  · exact unplaced rfl
  · simp only [Prog.perform_bind]
    refine Undisturbed.call fun tid ω r w' he => ?_
    have hcalls : ∀ {c}, Event.purchaseStarted c ∈ w'.log → Event.purchaseStarted c ∈ w.log :=
      fun hc => ((exec_move he).2.new_call hc).resolve_right fun ⟨_, _, _, hop, _⟩ => nomatch hop
    obtain ⟨-, db, es, hexec, rfl⟩ := exec_numbers he
    rcases reserveOrder_cases hexec with ⟨rfl, rfl, hno⟩ | ⟨id, journalId, referenceId, journal,
      posted, ledger, orders, q, -, -, -, -, -, -, hinsert, rfl, rfl, rfl⟩
    · match r with
      | .error e => exact unplaced rfl
      | .ok (.placed id q) => exact absurd rfl (hno id q)
      | .ok (.replayed id) =>
          unfold loadOrder
          simp only [Prog.perform_bind]
          refine Undisturbed.call fun tid ω r w' he => ?_
          obtain ⟨-, db, es, hexec, rfl⟩ := exec_numbers he
          cases hexec
          split
          · exact unplaced rfl
          · split <;> exact unplaced rfl
    · -- The order has just been placed, so nothing was called for it.
      have hnew := OrderTable.get?_insert_self hinsert
      have hnone : w.orders.get? id = none := OrderTable.get?_of_insert hinsert
      have hrefused : AllRefused ((w.draw ω).putNumbers
          { w.numbers with ledger := ledger, orders := orders } [.posted journal posted]).log
          id := by
        intro c hc hid
        obtain ⟨tid', hb⟩ := hI.calls c (hcalls hc)
        obtain ⟨o, ho, -⟩ := hI.started tid' c.order hb
        rw [hid, hnone] at ho
        cases ho
      refine (undisturbed_purchaseOrder hnew rfl rfl rfl rfl rfl hrefused).mono
        fun r w' hleaves => ?_
      obtain ⟨o', ho', hterms, hend⟩ := hleaves
      intro id' o ho hu hk
      have hsame : id = id' := w'.orders.eq_of_key ho' ho
        ((congrArg Order.Terms.userId hterms).trans hu.symm)
        ((congrArg Order.Terms.idempotencyKey hterms).trans hk.symm)
      subst hsame
      cases ho'.symm.trans ho
      exact hend

end Undisturbed

/-! ## Every run -/

/-- In a history, purchase calls left only after every earlier call for the order was passed
over. -/
def CallsPassOn (log : Log) : Prop :=
  ∀ c past, Recorded log (.purchaseStarted c) past → AllPassedOver past c.order

/-- In a history, the buy loop has stored an activation at most once for any order. -/
def AssignsOnce (log : Log) : Prop :=
  ∀ r past, Recorded log (.wrote r) past → r.path = .assign →
    ∀ r', Event.wrote r' ∈ past → r'.order = r.order → r'.path ≠ .assign

/-- The activation of an order that awaits its code was handed to the order. -/
def AwaitsOwn (w : World) : Prop :=
  ∀ id o, w.orders.get? id = some o → o.status = .awaitingCode →
    ∃ label a, Event.handed id label a ∈ w.log ∧ o.providerOrderId = some a.providerOrderId

section Runs

variable {cfg : Config} {tid : ℕ} {ω : Oracle} {w w' : World} {op : Op}

lemma callsPassOn_of_reachable {now : Time} {wallets : List Wallet} {s : State}
    (h : (backend cfg).Reachable unguarded (initial now wallets) s) :
    CallsPassOn s.world.log := by
  have hcontracts : (backend cfg).Reachable
      (onOps fun tid req born op _ w => Contract cfg tid req born op w) (initial now wallets) s :=
    (contracted (h.mono fun s a _ => onOps_anyOp s a)).mono fun _ _ =>
      onOps_mono fun _ _ _ _ _ _ hP => hP.2.2
  refine Reachable.guarded_inv (I := fun w => CallsPassOn w.log) ?_ (fun e w w' he hI => ?_)
    (fun tid req b op ω r w w' hP he hI => ?_)
    ((backend_passes_on cfg).contracted (sound_fresh now wallets) (fun _ => rfl)
      (fun _ _ _ _ _ _ hP => hP) hcontracts)
  · exact fun c past hc => absurd hc.mem List.not_mem_nil
  · obtain ⟨now, wallets, tiers, -, rfl⟩ := execEnv_eq he
    exact hI
  · intro c past hc
    by_cases hold : Recorded w.log (.purchaseStarted c) past
    · exact hI c past hold
    · have hnew := ((exec_move he).2.new_recorded hc).resolve_left hold
      cases hnew with
      | numbers hmove he => exact absurd he (hmove.no_call c)
      | supplier hevent =>
          cases hevent
          obtain ⟨es, hes, rfl⟩ := exec_supplier he
          cases hes
          rcases recorded_cons_iff.mp hc with ⟨-, rfl⟩ | hc
          · exact hP.2.2
          · exact absurd hc hold

/-- A write in the history was there before, or is of a move of the number orders. -/
lemma WorldMove.new_write (h : WorldMove cfg tid ω w op w') {r : OrderWrite} {past : Log}
    (hr : Recorded w'.log (.wrote r) past) : Recorded w.log (.wrote r) past ∨
      ∃ nop db es p, w' = (w.draw ω).putNumbers db es ∧
        NumbersMove w.now tid ω.fresh w.numbers nop db es ∧ Recorded es (.wrote r) p ∧
        past = p ++ w.log := by
  by_cases hop : ∃ nop, op = .numbers nop
  · obtain ⟨nop, rfl⟩ := hop
    cases h with
    | @numbers nop db es hmove =>
        rcases recorded_append_iff.mp hr with ⟨p, hp, hpast⟩ | hr
        · exact .inr ⟨nop, db, es, p, rfl, hmove, hp, hpast⟩
        · exact .inl hr
    | look hop => rcases hop with hop | ⟨id, hop⟩ <;> cases hop
  · refine .inl ((h.new_recorded hr).resolve_right fun hnew => ?_)
    cases hnew with
    | numbers => exact hop ⟨_, rfl⟩
    | supplier hevent => exact nomatch hevent

/-- An activation is stored by the buy loop while the order is reserved, and leaves it so no
longer. -/
lemma NumbersMove.assign {now : Time} {fresh : List Uuid} {db db' : NumbersDb} {nop : NumberOp}
    {es p : Log} (h : NumbersMove now tid fresh db nop db' es) {r : OrderWrite}
    (hr : Recorded es (.wrote r) p) (hpath : r.path = .assign) : p = [] ∧
      (∃ o, db.orders.get? r.order = some o ∧ o.status = .reserved) ∧
      ∃ o, db'.orders.get? r.order = some o ∧ o.status ≠ .reserved := by
  have hmem := hr.mem
  cases h with
  | row hrow hstep hupdate hledger =>
      cases hstep with
      | assigned hstatus hlive =>
          rcases recorded_cons_iff.mp hr with ⟨heq, rfl⟩ | hr
          · cases heq
            have hmoved := OrderTable.get?_update_self hupdate hrow
            exact ⟨rfl, ⟨_, hrow, hstatus⟩, _, hmoved, by simp [withActivation]⟩
          · exact absurd hr.mem List.not_mem_nil
      | recovered hstatus hheld =>
          rcases List.mem_pair.mp hmem with heq | heq <;> cases heq
          cases hpath
      | released => exact absurd hmem List.not_mem_nil
      | kept => exact absurd hmem List.not_mem_nil
      | _ =>
          cases List.mem_singleton.mp hmem <;> cases hpath
  | ended hop hrow hfenced hopen hstep hbuild hpost hupdate =>
      rcases List.mem_pair.mp hmem with heq | heq <;> cases heq
      cases hop <;> cases hpath
  | _ => simp at hmem

/-- Once the buy loop has stored an activation the order is never reserved again. -/
def AssignedLeft (w : World) : Prop :=
  ∀ r, Event.wrote r ∈ w.log → r.path = .assign →
    ∃ o, w.orders.get? r.order = some o ∧ o.status ≠ .reserved

lemma assigned_step (h : WorldMove cfg tid ω w op w')
    (hI : AssignsOnce w.log ∧ AssignedLeft w) : AssignsOnce w'.log ∧ AssignedLeft w' := by
  refine ⟨fun r past hr hpath r' hr' horder => ?_, fun r hr hpath => ?_⟩
  · rcases h.new_write hr with hr | ⟨nop, db, es, p, rfl, hmove, hp, rfl⟩
    · exact hI.1 r past hr hpath r' hr' horder
    · obtain ⟨rfl, ⟨o, ho, hreserved⟩, -⟩ := hmove.assign hp hpath
      intro hpath'
      obtain ⟨o', ho', hleft⟩ := hI.2 r' hr' hpath'
      rw [horder] at ho'
      have ho : w.orders.get? r.order = some o := ho
      cases ho.symm.trans ho'
      exact hleft hreserved
  · obtain ⟨past, hr⟩ := exists_recorded hr
    rcases h.new_write hr with hr | ⟨nop, db, es, p, rfl, hmove, hp, rfl⟩
    · obtain ⟨o, ho, hleft⟩ := hI.2 r hr.mem hpath
      obtain ⟨o', ho', hlater⟩ := h.later ho
      exact ⟨o', ho', hlater.left hleft⟩
    · exact (hmove.assign hp hpath).2.2

/-- An operation under contract leaves orders that await their code with activations of their
own. -/
lemma awaitsOwn_step {req : Request} {born : Time} (h : WorldMove cfg tid ω w op w')
    (hC : Contract cfg tid req born op w) (hI : AwaitsOwn w) : AwaitsOwn w' := by
  intro id o' ho' hstatus
  have kept : ∀ {o : Order}, w.orders.get? id = some o → o.status = .awaitingCode →
      o'.providerOrderId = o.providerOrderId →
      ∃ label a, Event.handed id label a ∈ w'.log ∧
        o'.providerOrderId = some a.providerOrderId := by
    intro o ho hs hid
    obtain ⟨label, a, hhanded, hactivation⟩ := hI id o ho hs
    obtain ⟨es, hlog⟩ := h.log_eq
    exact ⟨label, a, hlog ▸ List.mem_append_right _ hhanded, hid.trans hactivation⟩
  cases h.origin ho' with
  | same ho => exact kept ho hstatus rfl
  | placed hnone hreserved => cases hstatus.symm.trans hreserved
  | @changed nop o es hop ho hlog hchange =>
      subst hop
      cases hchange with
      | kept hsame => exact kept ho (hsame ▸ hstatus) (by rw [hsame])
      | ended hop hfenced hopen hstep hes =>
          have hclosed := OrderStatus.moneyOpen_eq_false hstep.status
          rw [hstatus] at hclosed
          cases hclosed
      | step hstep =>
          cases hstep with
          | @granted _ purpose => cases purpose <;> exact kept ho hstatus rfl
          | released hop hheld hsame hjournals hs =>
              exact kept ho (hs.symm.trans hstatus) hsame.providerOrderId
          | markedForReview => cases hstatus
          | @assigned token a =>
              exact ⟨_, a, hlog ▸ List.mem_append_right _ (hC.2 o ho).1, rfl⟩
          | pinned => exact kept ho hstatus rfl
          | @recovered token a =>
              exact ⟨_, a, hlog ▸ List.mem_append_left _
                (List.mem_cons_of_mem _ List.mem_cons_self), rfl⟩
          | kept hfenced hopen hsame hjournals hs =>
              exact kept ho (hs.symm.trans hstatus) hsame.providerOrderId
          | checkedForReview hfenced hopen hsame hs => cases hs.symm.trans hstatus

end Runs

/-- **What the buy loop comes to.**  In every run, whatever the sources, the answers and the
interleaving: a purchase call leaves only after every earlier call for its order was refused so
that the next source may be tried, and no order is given an activation twice; an order that awaits
its code awaits it on an activation it was handed, and its journals come to its status (none but the
reservation while it is open, one refund once refunded), as long as no other producer holds its
keys.  And a request under a free key that is served undisturbed leaves its order with the
activation it bought, refunded when every call was refused, or in review when one may have
bought. -/
theorem buy_loop_outcome {cfg : Config} {now : Time} {wallets : List Wallet} {s : State}
    (h : (backend cfg).Reachable unguarded (initial now wallets) s) :
    CallsPassOn s.world.log ∧ AssignsOnce s.world.log ∧ AwaitsOwn s.world ∧
    (KeysOwn s.world → ∀ id o, s.world.orders.get? id = some o →
      OrderConserved s.world.ledger o) ∧
    ∀ tid userId key body answers s' req born r, s.task tid = none →
      (∀ id o, s.world.orders.get? id = some o → ¬ (o.userId = userId ∧ o.idempotencyKey = key)) →
      (backend cfg).run (fun _ _ => true) s (serve tid (.createOrder userId key body) answers) =
        some s' →
      s'.task tid = some ⟨req, born, .ret r⟩ →
      ∀ id o, s'.world.orders.get? id = some o → o.userId = userId → o.idempotencyKey = key →
        BuyEnd s'.world.log id o := by
  have hcontracted := contracted (h.mono fun s a _ => onOps_anyOp s a)
  have hassigned : AssignsOnce s.world.log ∧ AssignedLeft s.world := by
    refine Reachable.world_inv (I := fun w => AssignsOnce w.log ∧ AssignedLeft w)
      ⟨fun r past hr => absurd hr.mem List.not_mem_nil, fun r hr => absurd hr List.not_mem_nil⟩
      (fun w w' hstep hI => ?_) h
    cases hstep with
    | env he =>
        obtain ⟨now, wallets, tiers, -, rfl⟩ := execEnv_eq he
        exact hI
    | exec he => exact assigned_step (exec_move he).2 hI
  have hawaits : AwaitsOwn s.world := by
    refine Reachable.guarded_inv (I := AwaitsOwn) (fun id o ho => (by cases ho))
      (fun e w w' he hI => ?_) (fun tid req b op ω r w w' hP he hI => ?_) hcontracted
    · obtain ⟨now, wallets, tiers, -, rfl⟩ := execEnv_eq he
      exact hI
    · exact awaitsOwn_step (exec_move he).2 hP.2.2 hI
  refine ⟨callsPassOn_of_reachable h, hassigned.1, hawaits, fun hown id o ho =>
    (books_of_reachable h hown).conserved ho, ?_⟩
  intro tid userId key body answers s' req born r hidle hfree hrun hend
  have hsound : Sound s.world := ((backend_keeps cfg).holds (sound_fresh now wallets)
    (fun _ => rfl) (h.mono fun s a _ => onOps_anyOp s a)).1
  simp only [serve, run, if_true, step, hidle, Option.bind_some] at hrun
  exact Undisturbed.of_run (s := s.setTask tid (some ⟨.createOrder userId key body, s.world.now,
    createOrder cfg userId key body⟩)) (ends_createOrder (w := s.world) hsound hfree)
    (if_pos rfl) hrun hend

/-- The first source is out of stock, the second refuses for good, the third is not asked. -/
def secondRefuses : List Oracle :=
  [{ fresh := [200, 201, 2 <<< 100],
     catalogue := offerCatalogue 1000 [⟨.smspool, "NG", "telegram", ""⟩,
       ⟨.fivesim, "nigeria", "telegram", "any"⟩, ⟨.smspool, "GH", "telegram", ""⟩] },
    { fresh := [203] }, {}, { buy := .refused .outOfStock }, {}, { buy := .refused .buyRestored },
    { fresh := [204, 205] }]

/-- The order is refunded after two calls. -/
theorem buy_loop_outcome_refunded : ∃ (s s' : State) (o : Order),
    (backend liveConfig).run (fun _ _ => true) s
        (serve 2 (.createOrder 7 50 (offerOrder 9 1000)) secondRefuses) = some s' ∧
      s'.world.orders.get? 200 = some o ∧ o.status = .failed ∧ BuyEnd s'.world.log 200 o := by
  obtain ⟨s, hs, hidle, hrows, hrun⟩ := exists_reachable_of_run (backend liveConfig) unguarded
    (initial 0 []) (topUp 0 7 100 101 102 5000)
    (fun s => (s.task 2).isNone = true ∧ s.world.orders.table.rows = [] ∧
      ((backend liveConfig).run (fun _ _ => true) s
        (serve 2 (.createOrder 7 50 (offerOrder 9 1000)) secondRefuses)).any (fun s' =>
          (s'.world.orders.get? 200).any (fun o => o.status = .failed && o.userId = 7 &&
            o.idempotencyKey = 50) &&
          (s'.task 2).any (fun t => match t.prog with
            | .ret _ => true
            | .call _ _ => false)) = true)
    (by decide +kernel)
  obtain ⟨s', hs', hend⟩ := (Option.any_eq_true _ _).mp hrun
  rw [Bool.and_eq_true] at hend
  obtain ⟨o, ho, hrow⟩ := (Option.any_eq_true _ _).mp hend.1
  obtain ⟨⟨req, born, p⟩, ht, hret⟩ := (Option.any_eq_true _ _).mp hend.2
  simp only [Bool.and_eq_true, decide_eq_true_eq] at hrow
  cases p with
  | call op k => cases hret
  | ret r =>
      have hfree : ∀ id o, s.world.orders.get? id = some o →
          ¬ (o.userId = 7 ∧ o.idempotencyKey = 50) := fun id o ho => by
        have hmem := Table.get?_eq_some_iff.mp ho
        rw [hrows] at hmem
        exact absurd hmem List.not_mem_nil
      exact ⟨s, s', o, hs', ho, hrow.1.1, (buy_loop_outcome hs).2.2.2.2 2 7 50 _ _ s' req born r
        (Option.isNone_iff_eq_none.mp hidle) hfree hs' ht 200 o ho hrow.1.2 hrow.2⟩

end Naivolt
