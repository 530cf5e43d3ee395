import Naivolt.System.Steps

/-!
# Which top-ups are abandoned

A sweep of the funding reconciler asks the provider about at most fifty pending intents, oldest
first, passes over those the provider did not answer for, and then closes every intent that is
still pending a day after it was made.  The closing statement looks at the row only: whether the
provider was ever reached about it is nowhere recorded.

`DueAnswered` is the condition that is missing.  `nothing_abandoned_blind` shows that with it no
run abandons an intent the provider did not just call unpaid, `abandons_blind` that without it
the closing statement does, and `abandoned_after_outage` is such a run.

What sees to the condition is a provider that always answers, and sweeps that have asked about an
intent before its day is over (`nothing_abandoned_of_asked`); a sweep asks about all of them as
long as there are fewer than fifty (`asked_of_sweep`).
-/

namespace Naivolt

open Foundation Foundation.Machine

/-! ## What the provider last said -/

/-- The provider's most recent answer about the reference, an error included. -/
def lastAnswer (log : Log) (reference : String) : Option ChargeState :=
  log.findSome? fun e => match e with
    | .verified asked answer => if asked = reference then some answer else none
    | _ => none

/-- An actual answer that the charge has not succeeded. -/
def ChargeState.isUnpaid : ChargeState → Bool
  | .failed _ | .pending => true
  | .succeeded _ | .unreachable => false

/-- The provider was asked about the reference and last said that it is not paid. -/
def AnsweredUnpaid (log : Log) (reference : String) : Prop :=
  (lastAnswer log reference).any ChargeState.isUnpaid = true

instance (log : Log) (reference : String) : Decidable (AnsweredUnpaid log reference) := by
  unfold AnsweredUnpaid
  infer_instance

/-- No intent was abandoned but after such an answer. -/
def NothingAbandonedBlind (log : Log) : Prop :=
  ∀ reference past, Recorded log (.abandoned reference) past → AnsweredUnpaid past reference

/-- A sweep about to close finds that the provider last called every intent due unpaid. -/
def DueAnswered (op : Op) (w : World) : Prop :=
  match op with
  | .funding .abandon => ∀ r ∈ w.intents.table.rows, dueForAbandon w.now r.2 = true →
      AnsweredUnpaid w.log r.2.reference
  | _ => True

instance (op : Op) (w : World) : Decidable (DueAnswered op w) := by
  unfold DueAnswered
  split <;> infer_instance

lemma lastAnswer_append {es log : Log}
    (h : ∀ reference answer, Event.verified reference answer ∉ es) (reference : String) :
    lastAnswer (es ++ log) reference = lastAnswer log reference := by
  induction es with
  | nil => rfl
  | cons e es ih =>
      have hes := ih fun r a he => h r a (List.mem_cons_of_mem _ he)
      cases e with
      | verified r a => exact absurd List.mem_cons_self (h r a)
      | _ => exact hes

lemma lastAnswer_verified (asked reference : String) (said : ChargeState) (log : Log) :
    lastAnswer (.verified asked said :: log) reference =
      if asked = reference then some said else lastAnswer log reference := by
  by_cases hsame : asked = reference
  · simp [lastAnswer, hsame]
  · simp [lastAnswer, hsame]

/-! ## One step -/

section Step

variable {cfg : Config} {tid : ℕ} {ω : Oracle} {w w' : World} {op : Op}

/-- Closing records what it closes and nothing else. -/
lemma not_verified_of_suffix {now : Time} {db : FundingDb} {p : Log} (hp : p <:+ abandonedBy now db)
    (reference : String) (answer : ChargeState) : Event.verified reference answer ∉ p := by
  intro he
  obtain ⟨r, -, hr⟩ := List.mem_map.mp (hp.subset he)
  cases hr

lemma mem_abandonedBy {now : Time} {db : FundingDb} {reference : String} :
    Event.abandoned reference ∈ abandonedBy now db ↔
      ∃ r ∈ db.intents.table.rows, dueForAbandon now r.2 = true ∧ r.2.reference = reference := by
  simp [abandonedBy, List.mem_filter, and_assoc]

/-- An intent in the history of the abandoned was there before, or this step closed it. -/
lemma WorldMove.new_abandoned (h : WorldMove cfg tid ω w op w') {reference : String} {past : Log}
    (hr : Recorded w'.log (.abandoned reference) past) :
    Recorded w.log (.abandoned reference) past ∨
    op = .funding .abandon ∧ (∃ r ∈ w.intents.table.rows, dueForAbandon w.now r.2 = true ∧
      r.2.reference = reference) ∧ lastAnswer past reference = lastAnswer w.log reference := by
  rcases h.new_recorded hr with hold | hnew
  · exact .inl hold
  cases hnew with
  | numbers hmove he => cases hmove.ofOrders he
  | supplier hevent => exact nomatch hevent
  | abandoned hi hdue =>
      cases h with
      | funding hexec =>
          refine (recorded_append_iff.mp hr).symm.imp_right ?_
          rintro ⟨p, hp, rfl⟩
          cases execFunding_move hexec with
          | idle => exact absurd hp.mem List.not_mem_nil
          | abandoned =>
              exact ⟨rfl, mem_abandonedBy.mp hp.mem, lastAnswer_append
                (not_verified_of_suffix ((List.suffix_cons _ _).trans hp)) _⟩
      | look hop => rcases hop with hop | ⟨id, hop⟩ <;> cases hop

/-- A step that closes only intents last called unpaid keeps the rule. -/
lemma NothingAbandonedBlind.step (h : WorldMove cfg tid ω w op w') (hdue : DueAnswered op w)
    (hI : NothingAbandonedBlind w.log) : NothingAbandonedBlind w'.log := by
  intro reference past hr
  rcases h.new_abandoned hr with hr | ⟨rfl, ⟨r, hrow, hd, rfl⟩, hlast⟩
  · exact hI reference past hr
  · unfold AnsweredUnpaid
    rw [hlast]
    exact hdue r hrow hd

/-- **Nothing else keeps it**: a sweep that closes an intent the provider did not last call
unpaid breaks the rule. -/
theorem abandons_blind {r : op.Res} (he : exec cfg tid op ω w = some (r, w'))
    (hdue : ¬ DueAnswered op w) : ¬ NothingAbandonedBlind w'.log := by
  intro hrule
  refine hdue ?_
  unfold DueAnswered
  split
  · intro row hrow hd
    obtain ⟨db, es, hexec, rfl⟩ := exec_funding he
    obtain ⟨db₁, -, hres⟩ := Option.map_eq_some_iff.mp hexec
    cases hres
    have hmem : Event.abandoned row.2.reference ∈ abandonedBy w.now w.fundingDb :=
      mem_abandonedBy.mpr ⟨row, hrow, hd, rfl⟩
    obtain ⟨before, past, hsplit⟩ := List.append_of_mem hmem
    have hrecorded : Recorded (abandonedBy w.now w.fundingDb ++ w.log)
        (.abandoned row.2.reference) (past ++ w.log) :=
      recorded_append_iff.mpr (.inl ⟨past, ⟨before, hsplit.symm⟩, rfl⟩)
    have hunpaid := hrule _ _ hrecorded
    unfold AnsweredUnpaid at hunpaid ⊢
    rwa [lastAnswer_append (not_verified_of_suffix
      ((List.suffix_cons _ _).trans ⟨before, hsplit.symm⟩))] at hunpaid
  · trivial

end Step

/-! ## The two results -/

/-- **Nothing is abandoned blind** in every run whose sweeps close only intents that the provider
last called unpaid. -/
theorem nothing_abandoned_blind {cfg : Config} {now : Time} {wallets : List Wallet} {s : State}
    (h : (backend cfg).Reachable (onOps fun _ _ _ op _ w => DueAnswered op w)
      (initial now wallets) s) : NothingAbandonedBlind s.world.log := by
  refine Reachable.guarded_inv (I := fun w => NothingAbandonedBlind w.log) ?_
    (fun e w w' he hI => ?_) (fun tid req b op ω r w w' hdue he hI => ?_) h
  · exact fun reference past hr => absurd hr.mem List.not_mem_nil
  · obtain ⟨now, wallets, tiers, -, rfl⟩ := execEnv_eq he
    exact hI
  · exact hI.step (exec_move he).2 hdue

/-! ## What sees to the condition -/

/-- The provider was asked about the reference. -/
def Asked (log : Log) (reference : String) : Prop := ∃ answer, Event.verified reference answer ∈ log

/-- The provider answers, and calls no charge paid. -/
def AnswersUnpaid (cfg : Config) (op : Op) (ω : Oracle) : Prop :=
  match op with
  | .funding (.verify _ amount) => (chargeAnswer cfg ω amount).isUnpaid = true
  | _ => True

/-- A sweep about to close finds that the provider was asked about every intent due. -/
def DueAsked (op : Op) (w : World) : Prop :=
  match op with
  | .funding .abandon => ∀ r ∈ w.intents.table.rows, dueForAbandon w.now r.2 = true →
      Asked w.log r.2.reference
  | _ => True

/-- Whatever a provider says that never calls a charge paid, it said last. -/
lemma answeredUnpaid_of_asked {log : Log} {reference : String} (h : Asked log reference)
    (hall : ∀ reference answer, Event.verified reference answer ∈ log →
      answer.isUnpaid = true) : AnsweredUnpaid log reference := by
  induction log with
  | nil =>
      obtain ⟨answer, hmem⟩ := h
      cases hmem
  | cons e log ih =>
      have htail : (∃ answer, Event.verified reference answer ∈ log) →
          AnsweredUnpaid log reference := fun h =>
        ih h fun r a hr => hall r a (List.mem_cons_of_mem _ hr)
      obtain ⟨answer, hmem⟩ := h
      cases e with
      | verified asked said =>
          unfold AnsweredUnpaid
          rw [lastAnswer_verified]
          split
          · exact hall asked said List.mem_cons_self
          · rename_i hne
            rcases List.mem_cons.mp hmem with heq | hmem
            · cases heq
              exact absurd rfl hne
            · exact htail ⟨answer, hmem⟩
      | _ =>
          rcases List.mem_cons.mp hmem with heq | hmem
          · cases heq
          · exact htail ⟨answer, hmem⟩

/-- **Nothing is abandoned blind** in every run in which the provider answers whenever it is asked,
with charges that are not paid, and was asked about every intent before a sweep closes it. -/
theorem nothing_abandoned_of_asked {cfg : Config} {now : Time} {wallets : List Wallet} {s : State}
    (h : (backend cfg).Reachable (onOps fun _ _ _ op ω w => AnswersUnpaid cfg op ω ∧ DueAsked op w)
      (initial now wallets) s) : NothingAbandonedBlind s.world.log := by
  have hunpaid : ∀ {s : State}, (backend cfg).Reachable
      (onOps fun _ _ _ op ω w => AnswersUnpaid cfg op ω ∧ DueAsked op w) (initial now wallets) s →
      ∀ reference answer, Event.verified reference answer ∈ s.world.log →
        answer.isUnpaid = true := by
    intro s hs
    refine Reachable.guarded_inv (I := fun w => ∀ reference answer,
      Event.verified reference answer ∈ w.log → answer.isUnpaid = true) ?_ ?_ ?_ hs
    · exact fun reference answer he => absurd he List.not_mem_nil
    · intro e w w' he hI
      obtain ⟨now, wallets, tiers, -, rfl⟩ := execEnv_eq he
      exact hI
    · intro tid req b op ω r w w' hP he hI reference answer hmem
      rcases (exec_move he).2.new_event hmem with hold | hnew
      · exact hI reference answer hold
      · cases hnew with
        | numbers hmove he => cases hmove.ofOrders he
        | supplier hevent => exact nomatch hevent
        | verified => exact hP.1
  have hguarded := Reachable.and_inv (I := fun w => ∀ reference answer,
    Event.verified reference answer ∈ w.log → answer.isUnpaid = true) hunpaid h
  refine nothing_abandoned_blind (hguarded.mono fun s a => onOps_mono ?_)
  intro tid req b op ω w hP
  unfold DueAnswered
  split
  · exact fun r hr hdue => answeredUnpaid_of_asked (hP.1.2 r hr hdue) hP.2
  · trivial

/-- The intents that a sweep is after. -/
def Chased (now : Time) (i : Intent) : Prop :=
  i.status = .pending ∧ i.paystack = true ∧ i.createdAt + settleAfter < now ∧
    now < i.createdAt + abandonAfter

/-- A sweep is after the oldest fifty, and after all of them where there are fewer. -/
lemma mem_pendingIntents {now : Time} {db : FundingDb} (hfew : (pendingIntents now db).length < 50)
    {id : Uuid} {i : Intent} (hi : db.intents.get? id = some i) (hchased : Chased now i) :
    (id, i) ∈ pendingIntents now db := by
  obtain ⟨hpending, hpaystack, hold, hyoung⟩ := hchased
  have hall : pendingIntents now db = (db.intents.table.rows.filter (fun r =>
      r.2.status = .pending && r.2.paystack && r.2.createdAt + settleAfter < now &&
        now < r.2.createdAt + abandonAfter)).mergeSort
          (fun r r' => r.2.createdAt ≤ r'.2.createdAt) := by
    refine List.take_of_length_le ?_
    by_contra hmany
    unfold pendingIntents at hfew
    rw [List.length_take] at hfew
    omega
  rw [hall, List.mem_mergeSort, List.mem_filter]
  refine ⟨Table.get?_eq_some_iff.mp hi, ?_⟩
  simp [hpending, hpaystack, hold, hyoung]

section Sweep

variable {cfg : Config} {w w' : World}

lemma Asked.mono {reference : String} (h : Asked w.log reference) (hlog : w.log <:+ w'.log) :
    Asked w'.log reference := h.imp fun _ he => hlog.subset he

lemma asked_of_verify {tid : ℕ} {ω : Oracle} {reference : String} {amount : ℚ}
    {answer : ChargeState}
    (he : (backend cfg).exec tid (.funding (.verify reference amount)) ω w = some (answer, w')) :
    Asked w'.log reference := by
  obtain ⟨db, es, hexec, rfl⟩ := exec_funding he
  cases hexec
  exact ⟨_, List.mem_cons_self⟩

/-- Whoever else is at work meanwhile, a sweep asks about each of its intents. -/
lemma asked_of_settleAll {rows : List (Uuid × Intent)} :
    Returns (backend cfg) (fun w w' => w.log <:+ w'.log)
      (fun _ w' => ∀ r ∈ rows, Asked w'.log r.2.reference) (settleAll rows) w := by
  suffices hstep : ∀ (done rest : List (Uuid × Intent)) (w : World),
      (∀ r ∈ done, Asked w.log r.2.reference) →
      Returns (backend cfg) (fun w w' => w.log <:+ w'.log)
        (fun _ w' => ∀ r ∈ done ++ rest, Asked w'.log r.2.reference) (settleAll rest) w from
    hstep [] rows w fun r hr => absurd hr List.not_mem_nil
  intro done rest
  induction rest generalizing done with
  | nil => exact fun w hdone => by simpa [settleAll, Returns] using hdone
  | cons r rest ih =>
      intro w hdone
      obtain ⟨id, i⟩ := r
      rw [settleAll]
      unfold settleIntent
      simp only [Prog.perform_bind, Prog.call_bind]
      intro w₁ hgrown tid ω answer w₂ he
      have hasked : ∀ r ∈ done ++ [(id, i)], Asked w₂.log r.2.reference := by
        intro r hr
        rcases List.mem_append.mp hr with hr | hr
        · exact ((hdone r hr).mono hgrown).mono (log_of_exec he)
        · obtain rfl := List.mem_singleton.mp hr
          exact asked_of_verify he
      have hrest := ih (done ++ [(id, i)])
      rw [List.append_assoc] at hrest
      exact Returns.bind (A := fun w => ∀ r ∈ done ++ [(id, i)], Asked w.log r.2.reference)
        (fun hlog hA r hr => (hA r hr).mono hlog)
        (fun he hA r hr => (hA r hr).mono (log_of_exec he)) hasked fun _ w hA => hrest w hA

/-- **A sweep asks about every intent it is after**, if there are fewer than fifty, whatever
happens meanwhile. -/
lemma asked_of_sweep {now : Time} {db : FundingDb} (hfew : (pendingIntents now db).length < 50)
    {id : Uuid} {i : Intent} (hi : db.intents.get? id = some i) (hchased : Chased now i) :
    Returns (backend cfg) (fun w w' => w.log <:+ w'.log) (fun _ w' => Asked w'.log i.reference)
      (settleAll (pendingIntents now db)) w := by
  have hmem := mem_pendingIntents hfew hi hchased
  exact asked_of_settleAll.mono fun _ _ hall => hall (id, i) hmem

end Sweep

/-- A top-up that one sweep asks about, with this answer, and a sweep a day later closes. -/
def forgottenTopUp (answer : ChargeState) : List Move :=
  serve 0 (.createIntent 7 5000 0) [{ fresh := [100, 101] }, {}] ++ wait (seconds 60) ::
  serve 1 .fundingSweep [{}, { charge := answer }, {}] ++ wait (hours 24) ::
  serve 2 .fundingSweep [{}, {}]

theorem nothing_abandoned_blind_forgotten :
    ∃ s : State, s.world.log.length = 2 ∧ NothingAbandonedBlind s.world.log := by
  obtain ⟨s, hs, hlog⟩ := exists_reachable_of_run (backend paystackConfig)
    (onOps fun _ _ _ op _ w => DueAnswered op w) (initial 0 []) (forgottenTopUp .pending)
    (fun s => s.world.log.length = 2) (by decide +kernel)
  exact ⟨s, hlog, nothing_abandoned_blind hs⟩

/-- The history ends with an intent abandoned without such an answer. -/
def lastAbandonedBlind (log : Log) : Bool :=
  match log with
  | .abandoned reference :: past => !decide (AnsweredUnpaid past reference)
  | _ => false

/-- While the provider is out of reach, a sweep abandons a top-up nobody could verify. -/
theorem abandoned_after_outage :
    ¬ ∀ s : State, (backend paystackConfig).Reachable unguarded (initial 0 []) s →
      NothingAbandonedBlind s.world.log := by
  intro h
  obtain ⟨s, hs, hlast⟩ := exists_reachable_of_run (backend paystackConfig) unguarded
    (initial 0 []) (forgottenTopUp .unreachable)
    (fun s => lastAbandonedBlind s.world.log = true) (by decide +kernel)
  unfold lastAbandonedBlind at hlast
  split at hlast
  · rename_i reference past hlog
    have hrecorded : Recorded s.world.log (.abandoned reference) past := by
      rw [hlog]
      exact recorded_cons_iff.mpr (.inl ⟨rfl, rfl⟩)
    simp [h s hs reference past hrecorded] at hlast
  · cases hlast

end Naivolt
