import Naivolt.Foundation.Moments
import Naivolt.Numbers.Absorption
import Naivolt.Operators.Chain

/-!
# Operator refunds and their audit rows

`refund_order` commits the refund, then reads the order's journals and the last hash, and then
inserts the audit row by which a retry is recognised.  `Unaudited` is what is left of it in
between.  Every refund has its audit row or a handler that is about to write it
(`RefundsAudited`), as long as no handler is stopped there.  Once the row is in, a retry answers
from it and posts nothing: `refund_replayable`.
-/

namespace Naivolt

open Foundation Foundation.Machine

/-! ## Audit rows of refunds -/

/-- The row is the audit row of the refund. -/
def AuditRow.Of (t : AuditRow) (rec : OperatorRefund) : Prop :=
  t.action = AuditAction.refund.text ∧ t.actorId = rec.operator ∧
    t.target = rec.order.hyphenated ∧ hasField t.after "idempotencyKey" rec.key.hyphenated = true

instance (t : AuditRow) (rec : OperatorRefund) : Decidable (t.Of rec) := by
  unfold AuditRow.Of
  infer_instance

/-- A text of an object is found in its `JSONB`. -/
lemma Snapshot.hasField_jsonb {s : Snapshot} {key value : String}
    (h : (key, AuditValue.text value) ∈ s.fields) : hasField s.jsonb key value = true := by
  refine List.any_eq_true.mpr ⟨(key, .text value), ?_, by simp⟩
  refine (List.mem_insertionSort _).mpr (List.mem_map.mpr ⟨_, h, rfl⟩)

/-- What a refund's audit row says holds the idempotency key. -/
lemma refundSnapshot_key (j : OrderJournals) (key : Uuid) (reason : Option String) :
    hasField (refundSnapshot j key reason).jsonb "idempotencyKey" key.hyphenated = true := by
  refine Snapshot.hasField_jsonb ?_
  have hkeyed := mem_putKey_self "idempotencyKey" (AuditValue.text key.hyphenated)
    (journalSnapshot j).fields
  unfold refundSnapshot
  split
  · exact hkeyed
  · exact mem_putKey_of_ne hkeyed (show "idempotencyKey" ≠ "reason" by decide)

/-! ## The window -/

/-- What is left of `refund_order` between the commit of its refund and that of its audit row. -/
inductive Unaudited (rec : OperatorRefund) : DeskHandler DeskResult → Prop where
  | journals (reason : Option String) (before : OrderJournals) :
      Unaudited rec (auditRefund rec.operator rec.key rec.order reason before)
  | lastHash (reason : Option String) (before after : OrderJournals)
      (k : ℕ → DeskHandler DeskResult) :
      Unaudited rec (insertAudit rec.operator .refund rec.order (journalSnapshot before)
        (refundSnapshot after rec.key reason) >>= k)
  | insert (reason : Option String) (before after : OrderJournals) (prev : Option String)
      (k : ℕ → DeskHandler DeskResult) :
      Unaudited rec (.call (.insertAudit rec.operator .refund rec.order (journalSnapshot before)
        (refundSnapshot after rec.key reason) prev) k)

/-- The operation may commit a refund by an operator. -/
def DeskOp.mayRefund : DeskOp → Bool
  | .refundClaimed .. => true
  | _ => false

/-- Whenever the program commits a refund, what is left is to audit it. -/
def Audits : DeskHandler DeskResult → Prop
  | .ret _ => True
  | .call (.refundClaimed order _ operator key) k =>
      (∀ r, Audits (k r)) ∧
        ∀ outcome journal, Unaudited ⟨order, operator, key, journal⟩ (k (.ok outcome))
  | .call _ k => ∀ r, Audits (k r)

lemma Audits.bind {β : Type} {p : DeskHandler β} {f : β → DeskHandler DeskResult}
    (hp : p.Every fun op => op.mayRefund = false) (hf : ∀ a, Audits (f a)) :
    Audits (p >>= f) := by
  induction p with
  | ret a => exact hf a
  | call op k ih =>
      obtain ⟨hop, hk⟩ := hp
      cases op with
      | refundClaimed => cases hop
      | _ => exact fun r => ih r (hk r)

lemma Audits.of_every {p : DeskHandler DeskResult}
    (hp : p.Every fun op => op.mayRefund = false) : Audits p := by
  induction p with
  | ret a => trivial
  | call op k ih =>
      obtain ⟨hop, hk⟩ := hp
      cases op with
      | refundClaimed => cases hop
      | _ => exact fun r => ih r (hk r)

lemma Audits.next {op : DeskOp} {k : op.Res → DeskHandler DeskResult} (h : Audits (.call op k))
    (r : op.Res) : Audits (k r) := by
  cases op with
  | refundClaimed => exact h.1 r
  | _ => exact h r

/-! ## The programs -/

lemma every_onBackend {β : Type} (p : Handler β) :
    (onBackend p).Every fun op => op.mayRefund = false := by
  induction p with
  | ret a => trivial
  | call op k ih => exact ⟨rfl, ih⟩

lemma every_loadDetail (id : Uuid) :
    (loadDetail id).Every fun op => op.mayRefund = false := by
  refine ⟨rfl, fun r => ?_⟩
  rcases r with _ | ⟨o, inbox⟩ <;> trivial

lemma every_rejectClaimed (id : Uuid) :
    (rejectClaimed id).Every fun op => op.mayRefund = false :=
  (every_onBackend _).bind fun r => by cases r <;> trivial

lemma every_auditRefund (operator key id : Uuid) (reason : Option String)
    (before : OrderJournals) :
    (auditRefund operator key id reason before).Every fun op => op.mayRefund = false := by
  refine ⟨rfl, fun r => ?_⟩
  cases r with
  | none => trivial
  | some after => exact ⟨rfl, fun _ => ⟨rfl, fun _ => ⟨rfl, fun _ => every_loadDetail id⟩⟩⟩

lemma every_auditRecheck (operator id : Uuid) (before : OrderJournals) :
    (auditRecheck operator id before).Every fun op => op.mayRefund = false := by
  refine ⟨rfl, fun r => ?_⟩
  cases r with
  | none => trivial
  | some after => exact ⟨rfl, fun _ => ⟨rfl, fun _ => every_loadDetail id⟩⟩

lemma every_recheckAtSupplier (cfg : DeskConfig) (operator id claim : Uuid) (o : Order)
    (providerOrderId : String) (before : OrderJournals) :
    (recheckAtSupplier cfg operator id claim o providerOrderId before).Every
      fun op => op.mayRefund = false := by
  simp only [recheckAtSupplier, desk, Prog.perform_bind]
  refine ⟨rfl, fun r => ?_⟩
  cases r with
  | none => exact ⟨rfl, fun _ => trivial⟩
  | some slot =>
      refine (every_onBackend _).bind fun checked => ⟨rfl, fun _ => ?_⟩
      cases checked with
      | ok check =>
          refine ⟨rfl, fun now => (every_onBackend _).bind fun r => ?_⟩
          cases r with
          | error e => trivial
          | ok _ => exact every_auditRecheck operator id before
      | error e =>
          refine ⟨rfl, fun _ => ?_⟩
          dsimp only
          split
          · exact ⟨rfl, fun _ => every_loadDetail id⟩
          · exact every_loadDetail id

lemma every_recheckAtDesk (cfg : DeskConfig) (operator id : Uuid) :
    (recheckAtDesk cfg operator id).Every fun op => op.mayRefund = false := by
  have claimed : ∀ claim o before, (recheckAtDeskClaimed cfg operator id claim o before).Every
      fun op => op.mayRefund = false := by
    intro claim o before
    unfold recheckAtDeskClaimed
    split_ifs
    · refine ⟨rfl, fun r => ?_⟩
      cases r with
      | error e => trivial
      | ok _ => exact every_auditRecheck operator id before
    · refine ⟨rfl, fun r => ?_⟩
      cases r with
      | false => trivial
      | true => exact every_auditRecheck operator id before
    · split
      · exact ⟨rfl, fun _ => trivial⟩
      · exact every_recheckAtSupplier cfg operator id claim o _ before
  simp only [recheckAtDesk, desk, Prog.perform_bind]
  refine ⟨rfl, fun r => ?_⟩
  rcases r with _ | ⟨o, inbox⟩
  · trivial
  · dsimp only
    split
    · trivial
    · refine ⟨rfl, fun r => ?_⟩
      cases r with
      | none => trivial
      | some before =>
          refine ⟨rfl, fun r => ?_⟩
          rcases r with _ | ⟨claim, o'⟩
          · exact every_rejectClaimed id
          · exact claimed claim o before

lemma every_storeAll {β : Type} (rows : List (String × Bool)) {f : Unit → DeskHandler β}
    (hf : (f ()).Every fun op => op.mayRefund = false) :
    (storeAll rows >>= f).Every fun op => op.mayRefund = false := by
  induction rows with
  | nil => exact hf
  | cons row rest ih => exact ⟨rfl, fun _ => ih⟩

lemma every_putSellSettings (operator : Uuid) (body : SellSettingsBody) :
    (putSellSettings operator body).Every fun op => op.mayRefund = false := by
  have hload : loadSettings.Every fun op => op.mayRefund = false := by
    simp only [loadSettings, desk, Prog.perform_bind]
    refine ⟨rfl, fun rows => ?_⟩
    dsimp only
    split
    · trivial
    · exact every_storeAll _ trivial
  refine hload.bind fun before => ?_
  dsimp only
  split
  · trivial
  · exact every_storeAll _ ⟨rfl, fun _ => ⟨rfl, fun _ => trivial⟩⟩

/-- `refund_order` audits what it commits. -/
lemma audits_refundAtDesk (cfg : DeskConfig) (operator key id : Uuid) (reason : Option String) :
    Audits (refundAtDesk cfg operator key id reason) := by
  have hdetail : Audits (loadDetail id) := .of_every (every_loadDetail id)
  simp only [refundAtDesk, desk, Prog.perform_bind]
  intro r
  rcases r with _ | replayed
  · intro r
    rcases r with _ | ⟨o, inbox⟩
    · trivial
    · dsimp only
      split_ifs
      · trivial
      · trivial
      · intro r
        rcases r with _ | before
        · trivial
        · intro r
          rcases r with _ | ⟨claim, o'⟩
          · exact .of_every (every_rejectClaimed id)
          · refine ⟨fun r => ?_, fun outcome journal => ?_⟩
            · cases r with
              | error e => trivial
              | ok _ => exact .of_every (every_auditRefund operator key id reason before)
            · exact @Unaudited.journals ⟨id, operator, key, journal⟩ reason before
  · exact hdetail

lemma audits_deskProgram (cfg : DeskConfig) (req : DeskRequest) :
    Audits (deskProgram cfg req) := by
  cases req with
  | backend req => exact .bind (every_onBackend _) fun _ => trivial
  | refundOrder operator key id reason => exact audits_refundAtDesk cfg operator key id reason
  | recheckOrder operator id => exact .of_every (every_recheckAtDesk cfg operator id)
  | putSellSettings operator body => exact .of_every (every_putSellSettings operator body)

/-! ## Steps -/

variable {cfg : DeskConfig} {tid : ℕ} {ω : DeskOracle} {d d' : Desk}

/-- The order of the refund is refunded, by its journal. -/
def Desk.Refunded (d : Desk) (rec : OperatorRefund) : Prop :=
  ∃ o, d.world.orders.get? rec.order = some o ∧ o.status.isRefunded = true ∧
    o.refundedJournalId = rec.journal

/-- The refund has its audit row. -/
def Desk.Audited (d : Desk) (rec : OperatorRefund) : Prop := ∃ t ∈ d.audit, t.Of rec

/-- What later states keep: refunds and audit rows. -/
def Desk.Keeps (d d' : Desk) : Prop :=
  ∀ rec, (d.Refunded rec → d'.Refunded rec) ∧ (d.Audited rec → d'.Audited rec)

lemma Desk.Keeps.refl (d : Desk) : d.Keeps d := fun _ => ⟨id, id⟩

lemma Desk.Keeps.trans {d₁ d₂ d₃ : Desk} (h : d₁.Keeps d₂) (h' : d₂.Keeps d₃) : d₁.Keeps d₃ :=
  fun rec => ⟨(h' rec).1 ∘ (h rec).1, (h' rec).2 ∘ (h rec).2⟩

lemma Desk.Refunded.of_orders {rec : OperatorRefund} (h : d.Refunded rec)
    (heq : d'.world.orders = d.world.orders) : d'.Refunded rec := by
  unfold Desk.Refunded
  rw [heq]
  exact h

/-- What an operation does to the backend's world. -/
lemma world_of_exec {op : DeskOp} {r : op.Res} (h : execDesk cfg tid ω d op = some (r, d')) :
    d'.world = d.world ∨
      ∃ bop r', exec cfg.backend tid bop ω.backend d.world = some (r', d'.world) := by
  cases op with
  | backend bop =>
      obtain ⟨⟨r', w'⟩, hexec, hs⟩ := Option.map_eq_some_iff.mp h
      cases hs
      exact .inr ⟨bop, r', hexec⟩
  | refundClaimed order claim operator key =>
      obtain ⟨⟨r', w'⟩, hexec, hs⟩ := Option.map_eq_some_iff.mp h
      cases hs
      exact .inr ⟨_, r', hexec⟩
  | insertAudit operator action target before after prev =>
      simp only [execDesk] at h
      split at h <;> cases h
      exact .inl rfl
  | _ =>
      cases h
      exact .inl rfl

lemma keeps_of_exec {op : DeskOp} {r : op.Res} (h : execDesk cfg tid ω d op = some (r, d')) :
    d.Keeps d' := by
  intro rec
  constructor
  · rintro ⟨o, ho, hstatus, hjournal⟩
    rcases world_of_exec h with heq | ⟨bop, r', hexec⟩
    · exact ⟨o, by rw [heq, ho], hstatus, hjournal⟩
    · obtain ⟨o', ho', hstatus', hjournals⟩ :=
        ended_of_exec hexec ho (OrderStatus.moneyOpen_eq_false (.inr hstatus))
      exact ⟨o', ho', by rw [hstatus', hstatus], hjournals.2.trans hjournal⟩
  · rintro ⟨t, ht, hof⟩
    rcases audit_of_exec h with heq | ⟨operator, action, target, before, after, prev, rfl, heq⟩
    · exact ⟨t, heq ▸ ht, hof⟩
    · exact ⟨t, heq ▸ mem_insertRow.mpr (.inr ht), hof⟩

lemma keeps_of_env {e : EnvMove} (h : (deskMachine cfg).env e d = some d') : d.Keeps d' := by
  obtain ⟨w, hw, rfl⟩ := Option.map_eq_some_iff.mp h
  obtain ⟨now, wallets, tiers, -, rfl⟩ := execEnv_eq hw
  exact fun rec => ⟨fun hr => hr.of_orders rfl, id⟩

lemma keeps_of_worldStep (h : (deskMachine cfg).WorldStep d d') : d.Keeps d' := by
  cases h with
  | env he => exact keeps_of_env he
  | exec he => exact keeps_of_exec he

/-- A refund that is committed leaves its program in the window. -/
lemma refunds_of_exec {op : DeskOp} {k : op.Res → DeskHandler DeskResult} {r : op.Res}
    (h : execDesk cfg tid ω d op = some (r, d')) (haudits : Audits (.call op k))
    {rec : OperatorRefund} (hrec : rec ∈ d'.refunds) :
    rec ∈ d.refunds ∨ (d'.Refunded rec ∧ Unaudited rec (k r)) := by
  cases op with
  | refundClaimed order claim operator key =>
      obtain ⟨⟨r', w'⟩, hexec, hs⟩ := Option.map_eq_some_iff.mp h
      cases hs
      rcases List.mem_append.mp hrec with hnew | hold
      · unfold refundRecord at hnew
        split at hnew
        · rename_i happlied
          change r' = .ok .applied at happlied
          subst happlied
          cases List.mem_singleton.mp hnew
          obtain ⟨-, db, es, hnumbers, rfl⟩ := exec_numbers hexec
          obtain ⟨o, ho, hstatus⟩ := refunded_of_applied hnumbers
          refine .inr ⟨⟨o, ho, hstatus, ?_⟩, haudits.2 _ _⟩
          exact (congrArg (Option.bind · Order.refundedJournalId) ho).symm
        · cases hnew
      · exact .inl hold
  | backend bop =>
      obtain ⟨⟨r', w'⟩, hexec, hs⟩ := Option.map_eq_some_iff.mp h
      cases hs
      exact .inl hrec
  | insertAudit operator action target before after prev =>
      simp only [execDesk] at h
      split at h <;> cases h
      exact .inl hrec
  | _ =>
      cases h
      exact .inl hrec

/-- In the window the next operation goes on to the audit row, or writes it. -/
lemma Unaudited.next {rec : OperatorRefund} {op : DeskOp} {k : op.Res → DeskHandler DeskResult}
    (h : Unaudited rec (.call op k)) {r : op.Res}
    (hexec : execDesk cfg tid ω d op = some (r, d')) (hrefunded : d.Refunded rec) :
    Unaudited rec (k r) ∨ d'.Audited rec := by
  generalize hp : Prog.call op k = p at h
  cases h with
  | journals reason before =>
      cases hp
      obtain ⟨o, ho, -⟩ := hrefunded
      cases hexec
      refine .inl ?_
      simp only [ho, Option.map_some]
      exact .lastHash reason before _ _
  | lastHash reason before after k' =>
      cases hp
      exact .inl (.insert reason before after _ _)
  | insert reason before after prev k' =>
      cases hp
      refine .inr ?_
      simp only [execDesk] at hexec
      split at hexec
      · cases hexec
      · cases hexec
        exact ⟨_, mem_insertRow.mpr (.inl rfl), rfl, rfl, rfl, refundSnapshot_key _ _ _⟩

/-! ## Every run -/

/-- No handler is stopped between the commit of its refund and that of its audit row. -/
def AuditedFirst (s : DeskState) : Act DeskOracle EnvMove DeskRequest → Prop
  | .drop tid => ∀ rec ∈ s.world.refunds, ∀ t, s.task tid = some t → ¬ Unaudited rec t.prog
  | _ => True

/-- No handler stands there. -/
def NoneInWindow (s : DeskState) : Prop :=
  ∀ rec ∈ s.world.refunds, ∀ tid t, s.task tid = some t → ¬ Unaudited rec t.prog

/-- Every refund stands, and has its audit row or a handler that is about to write it. -/
structure RefundsAudited (s : DeskState) : Prop where
  audits : ∀ tid t, s.task tid = some t → Audits t.prog
  refunded : ∀ rec ∈ s.world.refunds, s.world.Refunded rec
  answered : ∀ rec ∈ s.world.refunds,
    s.world.Audited rec ∨ ∃ tid t, s.task tid = some t ∧ Unaudited rec t.prog

lemma RefundsAudited.step {s s' : DeskState} {a : Act DeskOracle EnvMove DeskRequest}
    (h : RefundsAudited s) (hg : AuditedFirst s a) (hs : (deskMachine cfg).step s a = some s') :
    RefundsAudited s' := by
  rcases step_cases hs with ⟨e, -, hw, htask⟩ | ⟨tid, req, rfl, rfl⟩ |
    ⟨tid, ω, req, b, op, k, r, rfl, ht, hw, htask⟩ | ⟨tid, rfl, rfl⟩
  · have hkeeps := keeps_of_env hw
    have hrefunds : s'.world.refunds = s.world.refunds := by
      obtain ⟨w, -, heq⟩ := Option.map_eq_some_iff.mp hw
      exact heq ▸ rfl
    refine ⟨fun tid t ht => h.audits tid t (htask ▸ ht), fun rec hrec => ?_, fun rec hrec => ?_⟩
    · exact (hkeeps rec).1 (h.refunded rec (hrefunds ▸ hrec))
    · rw [htask]
      exact (h.answered rec (hrefunds ▸ hrec)).imp_left (hkeeps rec).2
  · have hfree : s.task tid = none := by
      rcases hslot : s.task tid with _ | t
      · rfl
      · simp [Machine.step, hslot] at hs
    refine ⟨fun i t ht => ?_, h.refunded, fun rec hrec => ?_⟩
    · simp only [Sys.setTask_task] at ht
      split at ht
      · cases ht
        exact audits_deskProgram cfg req
      · exact h.audits i t ht
    · refine (h.answered rec hrec).imp_right fun hwindow => ?_
      obtain ⟨i, t, hi, ht⟩ := hwindow
      refine ⟨i, t, ?_, ht⟩
      have hne : i ≠ tid := fun heq => by simp [heq, hfree] at hi
      rw [Sys.setTask_task, if_neg hne, hi]
  · have hkeeps := keeps_of_exec hw
    have haudits := h.audits tid _ ht
    have hnext : s'.task tid = some ⟨req, b, k r⟩ := by rw [htask, Sys.setTask_task, if_pos rfl]
    have hother : ∀ i, i ≠ tid → s'.task i = s.task i := fun i hi => by
      rw [htask, Sys.setTask_task, if_neg hi]
    refine ⟨fun i t hi => ?_, fun rec hrec => ?_, fun rec hrec => ?_⟩
    · by_cases heq : i = tid
      · cases (heq ▸ hi).symm.trans hnext
        exact haudits.next r
      · exact h.audits i t (hother i heq ▸ hi)
    · rcases refunds_of_exec hw haudits hrec with hold | ⟨hnew, -⟩
      · exact (hkeeps rec).1 (h.refunded rec hold)
      · exact hnew
    · rcases refunds_of_exec hw haudits hrec with hold | ⟨-, hwindow⟩
      · rcases h.answered rec hold with haudited | ⟨i, t, hi, hwindow⟩
        · exact .inl ((hkeeps rec).2 haudited)
        · by_cases heq : i = tid
          · cases (heq ▸ hi).symm.trans ht
            rcases hwindow.next hw (h.refunded rec hold) with hwindow | haudited
            · exact .inr ⟨tid, _, hnext, hwindow⟩
            · exact .inl haudited
          · exact .inr ⟨i, t, hother i heq ▸ hi, hwindow⟩
      · exact .inr ⟨tid, _, hnext, hwindow⟩
  · refine ⟨fun i t ht => ?_, h.refunded, fun rec hrec => ?_⟩
    · simp only [Sys.setTask_task] at ht
      split at ht
      · cases ht
      · exact h.audits i t ht
    · refine (h.answered rec hrec).imp_right fun hwindow => ?_
      obtain ⟨i, t, hi, ht⟩ := hwindow
      refine ⟨i, t, ?_, ht⟩
      have hne : i ≠ tid := by
        rintro rfl
        exact hg rec hrec t hi ht
      rw [Sys.setTask_task, if_neg hne, hi]

lemma refundsAudited {now : Time} {wallets : List Wallet} {s : DeskState}
    (h : (deskMachine cfg).Reachable AuditedFirst (deskInitial now wallets) s) :
    RefundsAudited s := by
  induction h with
  | init =>
      exact ⟨fun _ _ h => (by cases h), fun _ h => (by cases h), fun _ h => (by cases h)⟩
  | step _ hg hs ih => exact ih.step hg hs

/-! ## Retries -/

/-- The retry finds the audit row. -/
lemma findReplay_of_audited {rec : OperatorRefund} (h : d.Audited rec) :
    (Naivolt.findReplay d.audit AuditAction.refund.text rec.order.hyphenated
      rec.key.hyphenated).isSome = true := by
  obtain ⟨t, ht, haction, -, htarget, hkey⟩ := h
  unfold Naivolt.findReplay
  rw [Option.isSome_map, List.find?_isSome]
  exact ⟨t, List.mem_reverse.mpr ht, by simp [haction, htarget, hkey]⟩

/-- **Replays.**  A request that finds the refund and its audit row whenever it looks answers
with the order and posts nothing. -/
lemma refundAtDesk_replays {rec : OperatorRefund} {operator : Uuid} {reason : Option String}
    {ms : List (Moment DeskOracle Desk)} {a : DeskResult}
    (halong : (deskMachine cfg).Along tid (refundAtDesk cfg operator rec.key rec.order reason) ms
      (.ret a))
    (hms : ∀ m ∈ ms, m.before.Refunded rec ∧ m.before.Audited rec) :
    (∃ o, a = .ok (.detail rec.order o) ∧ o.refundedJournalId = rec.journal) ∧
      ∀ m ∈ ms, m.after.world.ledger = m.before.world.ledger := by
  obtain ⟨m, rest, r, rfl, hexec, halong⟩ := halong.call_ret
  have hreplay := findReplay_of_audited (hms m List.mem_cons_self).2
  obtain ⟨rfl, hafter⟩ := Prod.mk.inj (Option.some.inj hexec)
  obtain ⟨replayed, hreplayed⟩ := Option.isSome_iff_exists.mp hreplay
  rw [hreplayed] at halong
  obtain ⟨m', rest, r', rfl, hexec', halong⟩ := halong.call_ret
  obtain ⟨⟨o, ho, -, hjournal⟩, -⟩ := hms m' (List.mem_cons_of_mem _ List.mem_cons_self)
  obtain ⟨⟨r'', w'⟩, hread, hres⟩ := Option.map_eq_some_iff.mp hexec'
  obtain ⟨-, db, es, hnumbers, rfl⟩ := exec_numbers hread
  have ho' : m'.before.world.numbers.orders.get? rec.order = some o := ho
  simp only [execNumbers, ho', Option.map_some] at hnumbers
  cases hnumbers
  obtain ⟨hr', hafter'⟩ := Prod.mk.inj hres
  subst hr'
  obtain ⟨rfl, rfl⟩ := halong.ret_nil
  refine ⟨⟨o, rfl, hjournal⟩, fun m'' hm => ?_⟩
  rcases List.mem_cons.mp hm with rfl | hm
  · rw [← hafter]
  · cases List.mem_singleton.mp hm
    exact hafter' ▸ rfl

/-- **Operator refunds are audited and replayable.**  In every run in which no handler is
stopped between the commit of its refund and that of its audit row, and every state of it in
which none stands there: each order refunded by an operator has its audit row, and whatever
happens afterwards, a retry with the key answers with the order as it was refunded and posts
nothing. -/
theorem refund_replayable (cfg : DeskConfig) (now : Time) (wallets : List Wallet)
    {s : DeskState} (h : (deskMachine cfg).Reachable AuditedFirst (deskInitial now wallets) s)
    (hnone : NoneInWindow s) {rec : OperatorRefund} (hrec : rec ∈ s.world.refunds) :
    s.world.Audited rec ∧
      ∀ as s' tid operator reason b a, s.task tid = none →
        (deskMachine cfg).run (fun _ _ => true) s as = some s' →
        s'.task tid = some ⟨.refundOrder operator rec.key rec.order reason, b, .ret a⟩ →
        (∃ o, a = .ok (.detail rec.order o) ∧ o.refundedJournalId = rec.journal) ∧
          ∀ m ∈ (deskMachine cfg).moments tid s [] as,
            m.after.world.ledger = m.before.world.ledger := by
  have haudits := refundsAudited h
  have hrefunded := haudits.refunded rec hrec
  have haudited : s.world.Audited rec :=
    (haudits.answered rec hrec).resolve_right fun ⟨tid, t, ht, hwindow⟩ =>
      hnone rec hrec tid t ht hwindow
  refine ⟨haudited, fun as s' tid operator reason b a hfree hrun ht => ?_⟩
  obtain ⟨halong, hms⟩ := along_of_run Desk.Keeps.refl Desk.Keeps.trans
    (fun _ _ => keeps_of_worldStep) hfree hrun ht
  exact refundAtDesk_replays halong fun m hm =>
    ⟨(hms m hm rec).1 hrefunded, (hms m hm rec).2 haudited⟩

/-! ## Runs -/

/-- A move of the backend, at the desk. -/
def atDesk : Move → Act DeskOracle EnvMove DeskRequest
  | .env e => .env e
  | .spawn tid req =>
      if h : req.byOperator = false then .spawn tid (.backend ⟨req, h⟩) else .drop tid
  | .resume tid ω => .resume tid { backend := ω }
  | .drop tid => .drop tid

/-- An order that is reserved when its buyer is lost. -/
def reservedAtDesk : List (Act DeskOracle EnvMove DeskRequest) :=
  (topUp 0 7 100 101 102 5000 ++
    serve 2 (.createOrder 7 50 stubOrder)
      [{ fresh := [200, 201, 2 <<< 100], catalogue := stubCatalogue 1500 }] ++
    [(.drop 2 : Move)]).map atDesk

/-- The operator in `9` refunds the order up to the commit of the refund. -/
def refundsAtDesk (tid : ℕ) : List (Act DeskOracle EnvMove DeskRequest) :=
  [.spawn tid (.refundOrder 9 77 200 (some "duplicate")), deskStep tid 0, deskStep tid 0,
    deskStep tid 0, .resume tid { backend := { fresh := [300] } },
    .resume tid { backend := { fresh := [301] } }]

/-- What is recorded then. -/
def deskRefund : OperatorRefund := ⟨200, 9, 77, some 301⟩

/-- The handler writes its audit row and answers. -/
def refundedAtDesk : List (Act DeskOracle EnvMove DeskRequest) :=
  reservedAtDesk ++ refundsAtDesk 3 ++
    [deskStep 3 0, deskStep 3 0, deskStep 3 1, deskStep 3 0, deskStep 3 0]

def retryAtDesk (tid : ℕ) : List (Act DeskOracle EnvMove DeskRequest) :=
  [.spawn tid (.refundOrder 9 77 200 (some "duplicate")), deskStep tid 0, deskStep tid 0]

/-- The answer to the retry in a slot. -/
def retryAnswer (s : DeskState) (tid : ℕ) : Option DeskResult :=
  match s.task tid with
  | some ⟨.refundOrder operator key id reason, _, .ret a⟩ =>
      if operator = 9 ∧ key = 77 ∧ id = 200 ∧ reason = some "duplicate" then some a else none
  | _ => none

lemma task_of_retryAnswer {s : DeskState} {tid : ℕ} {a : DeskResult}
    (h : retryAnswer s tid = some a) :
    ∃ b, s.task tid = some ⟨.refundOrder 9 77 200 (some "duplicate"), b, .ret a⟩ := by
  unfold retryAnswer at h
  split at h
  · rename_i ht
    split at h
    · rename_i hretry
      obtain ⟨rfl, rfl, rfl, rfl⟩ := hretry
      cases h
      exact ⟨_, ht⟩
    · cases h
  · cases h

/-- The task in the slot has answered, or there is none. -/
def idleSlot (s : DeskState) (tid : ℕ) : Bool :=
  match s.task tid with
  | none | some ⟨_, _, .ret _⟩ => true
  | _ => false

lemma noneInWindow_of_idle {s : DeskState} (h : ∀ tid, idleSlot s tid = true) :
    NoneInWindow s := by
  intro rec hrec tid t ht hwindow
  have hidle := h tid
  obtain ⟨req, b, p⟩ := t
  simp only [idleSlot, ht] at hidle
  cases hwindow <;> cases hidle

/-- No drop while a refund stands, unless of a task that has answered. -/
def dropsIdle (s : DeskState) : Act DeskOracle EnvMove DeskRequest → Bool
  | .drop tid => idleSlot s tid || decide (s.world.refunds = [])
  | _ => true

lemma auditedFirst_of_dropsIdle {s : DeskState} {a : Act DeskOracle EnvMove DeskRequest}
    (h : dropsIdle s a = true) : AuditedFirst s a := by
  cases a with
  | drop tid =>
      intro rec hrec t ht hwindow
      rcases Bool.or_eq_true_iff.mp h with hidle | hempty
      · obtain ⟨req, b, p⟩ := t
        simp only [idleSlot, ht] at hidle
        cases hwindow <;> cases hidle
      · rw [of_decide_eq_true hempty] at hrec
        cases hrec
  | _ => trivial

/-- A refund that is audited, and a retry of it. -/
theorem refund_replayable_retried : ∃ s : DeskState,
    (deskMachine auditedConfig).Reachable AuditedFirst (deskInitial 0 []) s ∧
      s.world.Audited deskRefund ∧ ∃ s' b o,
        (deskMachine auditedConfig).run (fun _ _ => true) s (retryAtDesk 4) = some s' ∧
          s'.task 4 = some ⟨.refundOrder 9 77 200 (some "duplicate"), b,
            .ret (.ok (.detail 200 o))⟩ ∧ o.refundedJournalId = some 301 := by
  obtain ⟨s, hs, hstate⟩ := (Option.any_eq_true _ _).mp
    (show ((deskMachine auditedConfig).run dropsIdle (deskInitial 0 []) refundedAtDesk).any
      (fun s => decide (s.world.refunds = [deskRefund]) && (List.range 4).all (idleSlot s) &&
        ((deskMachine auditedConfig).run (fun _ _ => true) s (retryAtDesk 4)).any fun s' =>
          (retryAnswer s' 4).isSome) = true by decide +kernel)
  simp only [Bool.and_eq_true, decide_eq_true_eq] at hstate
  obtain ⟨⟨hrefunds, hslots⟩, hretry⟩ := hstate
  have hlater : ∀ tid, 4 ≤ tid → s.task tid = none := fun tid htid =>
    task_of_run (s := deskInitial 0 []) (fun a ha hslot => by
      have hbound : ∀ i ∈ refundedAtDesk.filterMap slotOf, i < 4 := by decide +kernel
      exact absurd (hbound tid (List.mem_filterMap.mpr ⟨a, ha, hslot⟩)) (not_lt.mpr htid)) hs
  have hnone : NoneInWindow s := noneInWindow_of_idle fun tid => by
    by_cases htid : tid < 4
    · exact List.all_eq_true.mp hslots tid (List.mem_range.mpr htid)
    · simp [idleSlot, hlater tid (not_lt.mp htid)]
  have hreach := reachable_of_run (fun _ _ => auditedFirst_of_dropsIdle) .init hs
  have hrec : deskRefund ∈ s.world.refunds := hrefunds ▸ List.mem_singleton.mpr rfl
  obtain ⟨haudited, hreplay⟩ := refund_replayable auditedConfig 0 [] hreach hnone hrec
  obtain ⟨s', hs', hanswer⟩ := (Option.any_eq_true _ _).mp hretry
  obtain ⟨a, ha⟩ := Option.isSome_iff_exists.mp hanswer
  obtain ⟨b, ht⟩ := task_of_retryAnswer ha
  obtain ⟨⟨o, rfl, hjournal⟩, -⟩ := hreplay _ s' 4 9 _ b a (hlater 4 le_rfl) hs' ht
  exact ⟨s, hreach, haudited, s', b, o, hs', ht, hjournal⟩

/-- **Neither audited nor replayable.**  The handler is lost after its refund: no audit row says
so, and its retry is told that there is nothing to refund. -/
theorem refund_unaudited : ∃ s : DeskState,
    (deskMachine auditedConfig).Reachable unguarded (deskInitial 0 []) s ∧
      deskRefund ∈ s.world.refunds ∧ ¬ s.world.Audited deskRefund ∧
      ∃ b, s.task 4 = some ⟨.refundOrder 9 77 200 (some "duplicate"), b, .ret (.error (.api
        (.conflict "This order is not holding a reservation that can be refunded.")))⟩ := by
  let refused : DeskResult → Bool := fun a =>
    match a with
    | .error (.api e) =>
        e = .conflict "This order is not holding a reservation that can be refunded."
    | _ => false
  obtain ⟨s, hs, hrec, haudit, hanswer⟩ := exists_reachable_of_run (deskMachine auditedConfig)
    unguarded (deskInitial 0 [])
    (reservedAtDesk ++ refundsAtDesk 3 ++ (.drop 3 :: retryAtDesk 4))
    (fun s => deskRefund ∈ s.world.refunds ∧ s.world.audit = [] ∧
      (retryAnswer s 4).any refused = true) (by decide +kernel)
  obtain ⟨a, ha, hrefused⟩ := (Option.any_eq_true _ _).mp hanswer
  obtain ⟨b, ht⟩ := task_of_retryAnswer ha
  refine ⟨s, hs, hrec, fun ⟨t, ht, _⟩ => ?_, b, ?_⟩
  · rw [haudit] at ht
    cases ht
  · rw [ht]
    rcases a with ⟨e⟩ | r
    · cases e with
      | api e => rw [of_decide_eq_true hrefused]
      | lastProvider => cases hrefused
    · cases hrefused

end Naivolt
