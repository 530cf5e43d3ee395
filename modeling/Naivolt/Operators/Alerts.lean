import Naivolt.Foundation.Actors
import Naivolt.Numbers.Order

/-!
# Alerting the operators

Whatever wants an operator's attention inserts a row into `operator_alerts` with its own
transaction, once for each dedupe key, and `alert_loop` mails the rows: a pass claims one that is
due for sixty seconds, sends the mail, and marks the row or schedules another attempt, later the
more attempts have failed.  Several processes run the loop, and any of them may die anywhere.

`alert_attempts_spaced` is what keeps the mailbox usable: an alert is attempted again no sooner than
fifteen seconds after it was last attempted, no sooner than its backoff after an attempt that
failed, no sooner than a minute after one that succeeded — the mark may come late, or never — and
never after it was marked.  `alerts_kept` is what makes it an outbox: no alert is lost or doubled, a
marked one was mailed, and one that is not marked is attempted again within a quarter of an hour.
A mail counts as sent when the call of the mail service answers `Ok`: a call that runs into its
timeout after the service has taken the mail is an attempt that failed.
-/

namespace Naivolt

open Foundation Foundation.Machine

/-! ## Rows and history -/

inductive AlertState where
  | pending | delivered
  deriving DecidableEq

/-- A row of `operator_alerts`. -/
structure OperatorAlert where
  numberOrderId : Uuid
  dedupeKey : String
  state : AlertState
  attemptCount : ℕ
  nextAttemptAt : Time
  lastErrorCategory : Option String
  claim : Option Claim
  deliveredAt : Option Time
  createdAt : Time
  deriving DecidableEq

/-- A row as it is inserted. -/
def OperatorAlert.new (order : Uuid) (dedupeKey : String) (now : Time) : OperatorAlert :=
  ⟨order, dedupeKey, .pending, 0, now, none, none, none, now⟩

/-- What the claim selects. -/
def OperatorAlert.isDue (now : Time) (a : OperatorAlert) : Bool :=
  a.state = .pending && a.nextAttemptAt ≤ now && a.claim.all fun c => c.claimedUntil < now

/-- How long a claim is good for. -/
def alertLease : Time := seconds 60

/-- The delay after a failed attempt, by how many have failed before. -/
def alertDelay (attempts : ℕ) : Time := seconds (min 900 (15 * 2 ^ min attempts 6))

/-- The columns of the order that a mail names. -/
structure AlertedOrder where
  reference : String
  reviewReason : Option String
  reviewRequiredAt : Option Time

/-- What a mail says. -/
structure AlertText where
  reference : String
  reason : String
  time : Time

def OperatorAlert.text (a : OperatorAlert) (o : AlertedOrder) : AlertText :=
  ⟨o.reference, o.reviewReason.getD a.dedupeKey, o.reviewRequiredAt.getD a.createdAt⟩

inductive AlertEvent where
  | claimed (tid : ℕ) (alert token : Uuid) (time : Time)
  | sent (alert token : Uuid) (ok : Bool)
  /-- Another attempt was scheduled, so many having failed before. -/
  | failed (alert token : Uuid) (time : Time) (attempts : ℕ)
  | marked (alert token : Uuid)
  deriving DecidableEq

/-- The clock of the database, the table, and the history, newest first. -/
structure AlertWorld where
  now : Time
  alerts : Table Uuid OperatorAlert
  log : List AlertEvent

def AlertWorld.fresh (now : Time) : AlertWorld := ⟨now, .empty, []⟩

/-! ## Operations -/

/-- What the program does not decide. -/
structure AlertOracle where
  /-- A random identifier. -/
  fresh : Uuid := 0
  /-- The rows other claims have locked just now. -/
  locked : List Uuid := []
  order : AlertedOrder := ⟨"", none, none⟩
  /-- Whether `send_operator_alert` answers `Ok`. -/
  sent : Bool := true

inductive AlertOp where
  /-- `UPDATE … FROM due`, with a new token. -/
  | claimDue
  | send (alert token : Uuid) (destination : String) (text : AlertText)
  | markDelivered (alert token : Uuid)
  | scheduleRetry (alert token : Uuid) (category : String)
  /-- `INSERT … ON CONFLICT (dedupe_key) DO NOTHING`. -/
  | insertAlert (order : Uuid) (dedupeKey : String)

abbrev AlertOp.Res : AlertOp → Type
  | .claimDue => Option (Uuid × Uuid × AlertText)
  | .send .. => Bool
  | .markDelivered .. | .scheduleRetry .. | .insertAlert .. => Unit

/-- The row that a claim takes: the one that has been due longest, of those nobody has locked. -/
def AlertWorld.due (w : AlertWorld) (locked : List Uuid) : Option (Uuid × OperatorAlert) :=
  (w.alerts.rows.filter fun r => r.2.isDue w.now && !locked.contains r.1).argmin
    fun r => r.2.nextAttemptAt

/-- The row is held under the token. -/
def OperatorAlert.heldBy (a : OperatorAlert) (token : Uuid) : Bool :=
  a.claim.any fun c => c.token = token

def OperatorAlert.retried (a : OperatorAlert) (now : Time) (category : String) : OperatorAlert :=
  { a with attemptCount := a.attemptCount + 1, lastErrorCategory := some category,
           nextAttemptAt := now + alertDelay a.attemptCount, claim := none }

def OperatorAlert.done (a : OperatorAlert) (now : Time) : OperatorAlert :=
  { a with state := .delivered, deliveredAt := some now, claim := none }

def execAlert (tid : ℕ) :
    (op : AlertOp) → AlertOracle → AlertWorld → Option (op.Res × AlertWorld)
  | .claimDue, ω, w =>
      match w.due ω.locked with
      | none => some (none, w)
      | some (id, a) =>
        -- `Uuid::new_v4` does not repeat
        if w.log.any fun e => match e with
          | .claimed _ _ token _ => token = ω.fresh
          | _ => false then none
        else some (some (id, ω.fresh, a.text ω.order), { w with
          alerts := w.alerts.modify id fun a =>
            { a with claim := some ⟨ω.fresh, w.now + alertLease⟩ }
          log := .claimed tid id ω.fresh w.now :: w.log })
  | .send id token _ _, ω, w => some (ω.sent, { w with log := .sent id token ω.sent :: w.log })
  | .markDelivered id token, _, w =>
      match w.alerts.get? id with
      | none => some ((), w)
      | some a =>
        if a.heldBy token then some ((), { w with
          alerts := w.alerts.modify id fun a => a.done w.now
          log := .marked id token :: w.log })
        else some ((), w)
  | .scheduleRetry id token category, _, w =>
      match w.alerts.get? id with
      | none => some ((), w)
      | some a =>
        if a.heldBy token then some ((), { w with
          alerts := w.alerts.modify id fun a => a.retried w.now category
          log := .failed id token w.now a.attemptCount :: w.log })
        else some ((), w)
  | .insertAlert order dedupeKey, ω, w =>
      if w.alerts.rows.any fun r => r.2.dedupeKey = dedupeKey then some ((), w)
      else (w.alerts.insert ω.fresh (.new order dedupeKey w.now)).map fun t =>
        ((), { w with alerts := t })

/-! ## The passes of the loop -/

/-- `deliver_alert`. -/
def deliverAlert (operationsAlertEmail : Option String) : Prog AlertOp AlertOp.Res Unit :=
  .call .claimDue fun row =>
    match row with
    | none => .ret ()
    | some (id, token, text) =>
      match operationsAlertEmail with
      | none => .call (.scheduleRetry id token "not_configured") .ret
      | some destination => .call (.send id token destination text) fun sent =>
          if sent then .call (.markDelivered id token) .ret
          else .call (.scheduleRetry id token "delivery_failed") .ret

inductive AlertRequest where
  /-- One round of `alert_loop`, in any process. -/
  | pass
  /-- An alert is raised: `number-review`, `number-recheck-exhausted` or `number-refund`. -/
  | alert (order : Uuid) (dedupeKey : String)

def AlertRequest.program (operationsAlertEmail : Option String) :
    AlertRequest → Prog AlertOp AlertOp.Res Unit
  | .pass => deliverAlert operationsAlertEmail
  | .alert order dedupeKey => .call (.insertAlert order dedupeKey) .ret

/-- The alerts and everything that raises or mails them; time passes in between. -/
def alerting (operationsAlertEmail : Option String) :
    Machine AlertOp AlertOp.Res AlertOracle Time AlertWorld AlertRequest Unit Unit where
  exec := execAlert
  env d w := some { w with now := w.now + d }
  program := AlertRequest.program operationsAlertEmail
  stamp _ := ()

/-! ## What a row says of its history -/

/-- The alert an entry of the history is about. -/
def AlertEvent.alert : AlertEvent → Uuid
  | claimed _ id _ _ | sent id _ _ | failed id _ _ _ | marked id _ => id

/-- A failed attempt at the alert. -/
def AlertEvent.isFailureOf (id : Uuid) : AlertEvent → Bool
  | failed id' _ _ _ => id' = id
  | _ => false

/-- A claim at time `t`, after such a past. -/
structure SpacedAttempt (id : Uuid) (t : Time) (past : List AlertEvent) : Prop where
  claimed : ∀ tid token t', .claimed tid id token t' ∈ past → t' + seconds 15 ≤ t
  failed : ∀ token t' n, .failed id token t' n ∈ past → t' + alertDelay n ≤ t
  sent : ∀ token, .sent id token true ∈ past →
    ∃ tid t', .claimed tid id token t' ∈ past ∧ t' + alertLease < t
  marked : ∀ token, .marked id token ∉ past

/-- Another claim of the alert has to wait until after `t + alertLease`, if there is to be one: the
row is marked, or scheduled later, or held under this token or one that was granted later. -/
def OperatorAlert.Waits (a : OperatorAlert) (token : Uuid) (t : Time) : Prop :=
  a.state = .delivered ∨ t + alertLease < a.nextAttemptAt ∨
    ∃ c, a.claim = some c ∧ (c.token = token ∨ t + alertLease + alertLease < c.claimedUntil)

structure AlertRowOk (now : Time) (log : List AlertEvent) (id : Uuid) (a : OperatorAlert) :
    Prop where
  claimed : ∀ tid token t, .claimed tid id token t ∈ log → t ≤ now ∧
    (a.state = .delivered ∨ t + seconds 15 ≤ a.nextAttemptAt ∨
      ∃ c, a.claim = some c ∧ t + alertLease ≤ c.claimedUntil)
  waits : ∀ tid token t, .claimed tid id token t ∈ log →
    (∃ t' n, .failed id token t' n ∈ log) ∨ a.Waits token t
  failed : ∀ token t n, .failed id token t n ∈ log →
    n < a.attemptCount ∧ t + alertDelay n ≤ a.nextAttemptAt
  tried : ∀ token t n, .failed id token t n ∈ log → ∃ tid t', .claimed tid id token t' ∈ log
  sent : ∀ token ok, .sent id token ok ∈ log → ∃ tid t, .claimed tid id token t ∈ log
  succeeded : ∀ token, .sent id token true ∈ log → ∀ t n, .failed id token t n ∉ log
  marked : ∀ token, .marked id token ∈ log → a.state = .delivered
  held : ∀ c, a.claim = some c → a.state = .pending ∧ ∃ tid t,
    .claimed tid id c.token t ∈ log ∧ a.nextAttemptAt ≤ t ∧ c.claimedUntil = t + alertLease
  soon : a.nextAttemptAt ≤ now + seconds 900
  delivered : a.state = .delivered →
    ∃ token, .sent id token true ∈ log ∧ .marked id token ∈ log
  attempts : a.attemptCount = log.countP (AlertEvent.isFailureOf id)

/-- The invariant of the alerts. -/
structure AlertsOk (w : AlertWorld) : Prop where
  rows : ∀ id a, w.alerts.get? id = some a → AlertRowOk w.now w.log id a
  known : ∀ e ∈ w.log, w.alerts.get? e.alert ≠ none
  tokens : ∀ tid tid' id id' token t t', .claimed tid id token t ∈ w.log →
    .claimed tid' id' token t' ∈ w.log → tid = tid' ∧ id = id' ∧ t = t'
  keys : ∀ id id' a a', w.alerts.get? id = some a → w.alerts.get? id' = some a' →
    a.dedupeKey = a'.dedupeKey → id = id'
  spaced : ∀ tid id token t past, (.claimed tid id token t :: past) <:+ w.log →
    SpacedAttempt id t past

lemma alertDelay_bounds (n : ℕ) : seconds 15 ≤ alertDelay n ∧ alertDelay n ≤ seconds 900 := by
  have hpow : 1 ≤ 2 ^ min n 6 := Nat.one_le_two_pow
  have hlow : 15 ≤ min 900 (15 * 2 ^ min n 6) := le_min (by decide) (by lia)
  exact ⟨Nat.mul_le_mul_right _ hlow, Nat.mul_le_mul_right _ (min_le_left _ _)⟩

lemma alertDelay_mono {m n : ℕ} (h : m ≤ n) : alertDelay m ≤ alertDelay n := by
  have hpow : 2 ^ min m 6 ≤ 2 ^ min n 6 :=
    Nat.pow_le_pow_right (by decide) (min_le_min_right 6 h)
  exact Nat.mul_le_mul_right _ (min_le_min_left 900 (Nat.mul_le_mul_left 15 hpow))

section Rows

variable {now : Time} {log : List AlertEvent} {id token : Uuid} {a : OperatorAlert} {tid : ℕ}
  {t : Time} {e : AlertEvent}

/-- What is said of another alert, and a failed mail, change nothing. -/
lemma AlertRowOk.frame (h : AlertRowOk now log id a)
    (he : e.alert ≠ id ∨ ∃ token, e = .sent id token false ∧ ∃ tid t,
      .claimed tid id token t ∈ log) : AlertRowOk now (e :: log) id a := by
  have hold : ∀ e', e' ∈ e :: log → e'.alert = id →
      e' ∈ log ∨ ∃ token, e' = .sent id token false ∧ ∃ tid t, .claimed tid id token t ∈ log := by
    intro e' he' halert
    rcases List.mem_cons.mp he' with rfl | hmem
    · exact .inr (he.resolve_left (fun hne => hne halert))
    · exact .inl hmem
  have hsame : ∀ e', e' ∈ e :: log → e'.alert = id → (∀ token, e' ≠ .sent id token false) →
      e' ∈ log := fun e' he' halert hne => (hold e' he' halert).resolve_right
    fun ⟨token, heq, _⟩ => hne token heq
  have hin : ∀ e', e' ∈ log → e' ∈ e :: log := fun _ => List.mem_cons_of_mem _
  have hcount : (e :: log).countP (AlertEvent.isFailureOf id) =
      log.countP (AlertEvent.isFailureOf id) := by
    refine List.countP_cons_of_neg ?_
    rcases he with hne | ⟨token, rfl, -⟩
    · cases e with
      | failed id' token t n => simpa [AlertEvent.isFailureOf, AlertEvent.alert] using hne
      | claimed _ _ _ _ | sent _ _ _ | marked _ _ => simp [AlertEvent.isFailureOf]
    · simp [AlertEvent.isFailureOf]
  refine ⟨fun tid token t hc => ?_, fun tid token t hc => ?_, fun token t n hf => ?_,
    fun token t n hf => ?_, fun token ok hs => ?_, fun token hs t n hf => ?_, fun token hm => ?_,
    fun c hc => ?_, h.soon, fun hd => ?_, h.attempts.trans hcount.symm⟩
  · exact h.claimed tid token t (hsame _ hc rfl (by simp))
  · exact (h.waits tid token t (hsame _ hc rfl (by simp))).imp_left
      fun ⟨t', n, hf⟩ => ⟨t', n, hin _ hf⟩
  · exact h.failed token t n (hsame _ hf rfl (by simp))
  · obtain ⟨tid, t', hc⟩ := h.tried token t n (hsame _ hf rfl (by simp))
    exact ⟨tid, t', hin _ hc⟩
  · rcases hold _ hs rfl with hs | ⟨token', heq, tid, t, hc⟩
    · obtain ⟨tid, t, hc⟩ := h.sent token ok hs
      exact ⟨tid, t, hin _ hc⟩
    · cases heq
      exact ⟨tid, t, hin _ hc⟩
  · exact h.succeeded token (hsame _ hs rfl (by simp)) t n (hsame _ hf rfl (by simp))
  · exact h.marked token (hsame _ hm rfl (by simp))
  · obtain ⟨hp, tid, t, hmem, hle⟩ := h.held c hc
    exact ⟨hp, tid, t, hin _ hmem, hle⟩
  · obtain ⟨token, hs, hm⟩ := h.delivered hd
    exact ⟨token, hin _ hs, hin _ hm⟩

lemma AlertRowOk.later (h : AlertRowOk now log id a) {d : Time} :
    AlertRowOk (now + d) log id a :=
  { h with
    claimed := fun tid token t hc => by
      obtain ⟨hle, hrest⟩ := h.claimed tid token t hc
      exact ⟨by lia, hrest⟩
    soon := by have := h.soon; lia }

/-- A mail that was sent, under a token that has not failed. -/
lemma AlertRowOk.mailed (h : AlertRowOk now log id a) (hc : .claimed tid id token t ∈ log)
    (hfailed : ∀ t' n, .failed id token t' n ∉ log) :
    AlertRowOk now (.sent id token true :: log) id a where
  claimed tid token t hc := h.claimed tid token t (by simpa using hc)
  waits tid token t hc := (h.waits tid token t (by simpa using hc)).imp_left
    fun ⟨t', n, hf⟩ => ⟨t', n, by simpa using hf⟩
  failed token t n hf := h.failed token t n (by simpa using hf)
  tried token t n hf := by
    obtain ⟨tid', t', hc'⟩ := h.tried token t n (by simpa using hf)
    exact ⟨tid', t', List.mem_cons_of_mem _ hc'⟩
  sent token' ok hs := by
    rcases List.mem_cons.mp hs with heq | hs
    · cases heq
      exact ⟨tid, t, by simpa using hc⟩
    · obtain ⟨tid', t', hc'⟩ := h.sent token' ok hs
      exact ⟨tid', t', by simpa using hc'⟩
  succeeded token' hs t n hf := by
    rcases List.mem_cons.mp hs with heq | hs
    · cases heq
      exact hfailed t n (by simpa using hf)
    · exact h.succeeded token' hs t n (by simpa using hf)
  marked token hm := h.marked token (by simpa using hm)
  held c hc := by
    obtain ⟨hp, tid, t, hmem, hle⟩ := h.held c hc
    exact ⟨hp, tid, t, by simpa using hmem, hle⟩
  soon := h.soon
  delivered hd := by
    obtain ⟨token', hs, hm⟩ := h.delivered hd
    exact ⟨token', List.mem_cons_of_mem _ hs, by simpa using hm⟩
  attempts := by simpa [AlertEvent.isFailureOf] using h.attempts

/-- A claim that waits is late enough for one that is due. -/
lemma OperatorAlert.Waits.lt (h : a.Waits token t) (hok : AlertRowOk now log id a)
    (htoken : ∀ tid' t', .claimed tid' id token t' ∈ log → t' = t) (hdue : a.isDue now = true) :
    t + alertLease < now := by
  simp only [isDue, Bool.and_eq_true, decide_eq_true_eq] at hdue
  obtain ⟨⟨hpending, hnext⟩, hclaim⟩ := hdue
  rcases h with hd | hlt | ⟨c, hc, hrest⟩
  · rw [hpending] at hd
    cases hd
  · lia
  · obtain ⟨-, tid', t', hmem, -, huntil⟩ := hok.held c hc
    simp only [hc, Option.all_some, decide_eq_true_eq] at hclaim
    rcases hrest with rfl | hlt
    · have := htoken tid' t' hmem
      lia
    · lia

/-- The claim of a row that is due. -/
lemma AlertRowOk.claim (tid : ℕ) (token : Uuid) (h : AlertRowOk now log id a)
    (hdue : a.isDue now = true)
    (htoken : ∀ tid token t tid' t', .claimed tid id token t ∈ log →
      .claimed tid' id token t' ∈ log → t' = t) :
    AlertRowOk now (.claimed tid id token now :: log) id
      { a with claim := some ⟨token, now + alertLease⟩ } ∧ SpacedAttempt id now log := by
  have hlt : ∀ tid token t, .claimed tid id token t ∈ log → a.Waits token t →
      t + alertLease < now := fun tid token t hc hw =>
    hw.lt h (fun tid' t' hc' => htoken tid token t tid' t' hc hc') hdue
  have hdue' := hdue
  simp only [OperatorAlert.isDue, Bool.and_eq_true, decide_eq_true_eq] at hdue'
  obtain ⟨⟨hpending, hnext⟩, hclaim⟩ := hdue'
  refine ⟨?_, ?_⟩
  · refine ⟨fun tid' token' t' hc => ?_, fun tid' token' t' hc => ?_, fun token' t' n hf => ?_,
      fun token' t' n hf => ?_, fun token' ok hs => ?_, fun token' hs t' n hf => ?_,
      fun token' hm => ?_, fun c hc => ?_, h.soon, fun hd => ?_, ?_⟩
    · have hle : t' ≤ now := by
        rcases List.mem_cons.mp hc with heq | hc
        · cases heq
          exact le_rfl
        · exact (h.claimed tid' token' t' hc).1
      exact ⟨hle, .inr (.inr ⟨_, rfl, Nat.add_le_add_right hle _⟩)⟩
    · rcases List.mem_cons.mp hc with heq | hc
      · cases heq
        exact .inr (.inr (.inr ⟨_, rfl, .inl rfl⟩))
      · rcases h.waits tid' token' t' hc with ⟨t'', n, hf⟩ | hw
        · exact .inl ⟨t'', n, List.mem_cons_of_mem _ hf⟩
        · exact .inr (.inr (.inr ⟨_, rfl,
            .inr (Nat.add_lt_add_right (hlt tid' token' t' hc hw) _)⟩))
    · exact h.failed token' t' n (by simpa using hf)
    · obtain ⟨tid₁, t₁, hc⟩ := h.tried token' t' n (by simpa using hf)
      exact ⟨tid₁, t₁, List.mem_cons_of_mem _ hc⟩
    · obtain ⟨tid₁, t₁, hc⟩ := h.sent token' ok (by simpa using hs)
      exact ⟨tid₁, t₁, List.mem_cons_of_mem _ hc⟩
    · exact h.succeeded token' (by simpa using hs) t' n (by simpa using hf)
    · exact h.marked token' (by simpa using hm)
    · cases hc
      exact ⟨hpending, tid, now, List.mem_cons_self, hnext, rfl⟩
    · obtain ⟨token', hs, hm⟩ := h.delivered hd
      exact ⟨token', List.mem_cons_of_mem _ hs, List.mem_cons_of_mem _ hm⟩
    · simpa [AlertEvent.isFailureOf] using h.attempts
  · refine ⟨fun tid' token' t' hc => ?_, fun token' t' n hf => ?_, fun token' hs => ?_,
      fun token' hm => ?_⟩
    · obtain ⟨-, hd | hle | ⟨c, hc', hle⟩⟩ := h.claimed tid' token' t' hc
      · rw [hpending] at hd
        cases hd
      · exact hle.trans hnext
      · simp only [hc', Option.all_some, decide_eq_true_eq] at hclaim
        have hshort : seconds 15 ≤ alertLease := by decide
        lia
    · exact (h.failed token' t' n hf).2.trans hnext
    · obtain ⟨tid₁, t₁, hc⟩ := h.sent token' true hs
      refine ⟨tid₁, t₁, hc, hlt tid₁ token' t₁ hc ?_⟩
      exact (h.waits tid₁ token' t₁ hc).resolve_left
        fun ⟨t', n, hf⟩ => h.succeeded token' hs t' n hf
    · have hd := h.marked token' hm
      rw [hpending] at hd
      cases hd

/-- The holder of a row has no other attempt behind it that could still be waiting. -/
lemma AlertRowOk.lt_of_held (h : AlertRowOk now log id a) {c : Claim} (hc : a.claim = some c)
    {token' : Uuid} {t' : Time} (hne : token' ≠ c.token) (hw : a.Waits token' t') :
    t' + alertLease < now := by
  obtain ⟨hpending, tid₁, t₁, hmem, hnext, huntil⟩ := h.held c hc
  have hnow := (h.claimed tid₁ c.token t₁ hmem).1
  rcases hw with hd | hlt | ⟨c', hc', hrest⟩
  · rw [hpending] at hd
    cases hd
  · lia
  · rw [hc, Option.some.injEq] at hc'
    subst hc'
    rcases hrest with heq | hlt
    · exact absurd heq.symm hne
    · lia

/-- Another attempt is scheduled by the holder, whose mail was not sent. -/
lemma AlertRowOk.retry (h : AlertRowOk now log id a) {c : Claim} (hc : a.claim = some c)
    (hsent : .sent id c.token true ∉ log) (category : String) :
    AlertRowOk now (.failed id c.token now a.attemptCount :: log) id (a.retried now category) := by
  obtain ⟨hpending, tid₁, t₁, hmem, hnext, huntil⟩ := h.held c hc
  have hnow := (h.claimed tid₁ c.token t₁ hmem).1
  obtain ⟨hlong, hshort⟩ := alertDelay_bounds a.attemptCount
  have hlater : now + seconds 15 ≤ (a.retried now category).nextAttemptAt :=
    Nat.add_le_add_left hlong _
  refine ⟨fun tid' token' t' hc' => ?_, fun tid' token' t' hc' => ?_, fun token' t' n hf => ?_,
    fun token' t' n hf => ?_, fun token' ok hs => ?_, fun token' hs t' n hf => ?_,
    fun token' hm => ?_, fun c' hc' => ?_, Nat.add_le_add_left hshort _, fun hd => ?_, ?_⟩
  · have hle := (h.claimed tid' token' t' (by simpa using hc')).1
    exact ⟨hle, .inr (.inl (by lia))⟩
  · by_cases heq : token' = c.token
    · exact .inl ⟨now, a.attemptCount, by simp [heq]⟩
    · rcases h.waits tid' token' t' (by simpa using hc') with ⟨t'', n, hf⟩ | hw
      · exact .inl ⟨t'', n, List.mem_cons_of_mem _ hf⟩
      · have hlt := h.lt_of_held hc heq hw
        exact .inr (.inr (.inl (by lia)))
  · rcases List.mem_cons.mp hf with heq | hf
    · cases heq
      exact ⟨Nat.lt_succ_self _, le_rfl⟩
    · obtain ⟨hlt, hle⟩ := h.failed token' t' n hf
      have hmono := alertDelay_mono hlt.le
      refine ⟨hlt.trans (Nat.lt_succ_self _), ?_⟩
      show t' + alertDelay n ≤ now + alertDelay a.attemptCount
      lia
  · rcases List.mem_cons.mp hf with heq | hf
    · cases heq
      exact ⟨tid₁, t₁, List.mem_cons_of_mem _ hmem⟩
    · obtain ⟨tid₂, t₂, hc₂⟩ := h.tried token' t' n hf
      exact ⟨tid₂, t₂, List.mem_cons_of_mem _ hc₂⟩
  · obtain ⟨tid₂, t₂, hc₂⟩ := h.sent token' ok (by simpa using hs)
    exact ⟨tid₂, t₂, List.mem_cons_of_mem _ hc₂⟩
  · have hs' : .sent id token' true ∈ log := by simpa using hs
    rcases List.mem_cons.mp hf with heq | hf
    · cases heq
      exact hsent hs'
    · exact h.succeeded token' hs' t' n hf
  · exact h.marked token' (by simpa using hm)
  · cases hc'
  · rw [show (a.retried now category).state = a.state from rfl, hpending] at hd
    cases hd
  · rw [List.countP_cons_of_pos (by simp [AlertEvent.isFailureOf]), ← h.attempts]
    rfl

/-- The holder, whose mail was sent, marks the row. -/
lemma AlertRowOk.mark (h : AlertRowOk now log id a) (hsent : .sent id token true ∈ log) :
    AlertRowOk now (.marked id token :: log) id (a.done now) where
  claimed tid' token' t' hc' := ⟨(h.claimed tid' token' t' (by simpa using hc')).1, .inl rfl⟩
  waits tid' token' t' hc' := .inr (.inl rfl)
  failed token' t' n hf := h.failed token' t' n (by simpa using hf)
  tried token' t' n hf := by
    obtain ⟨tid₂, t₂, hc₂⟩ := h.tried token' t' n (by simpa using hf)
    exact ⟨tid₂, t₂, List.mem_cons_of_mem _ hc₂⟩
  sent token' ok hs := by
    obtain ⟨tid₂, t₂, hc₂⟩ := h.sent token' ok (by simpa using hs)
    exact ⟨tid₂, t₂, List.mem_cons_of_mem _ hc₂⟩
  succeeded token' hs t' n hf := h.succeeded token' (by simpa using hs) t' n (by simpa using hf)
  marked _ _ := rfl
  held c' hc' := by cases hc'
  soon := h.soon
  delivered _ := ⟨token, List.mem_cons_of_mem _ hsent, List.mem_cons_self⟩
  attempts := by simpa [AlertEvent.isFailureOf, OperatorAlert.done] using h.attempts

end Rows

/-! ## What the operations keep -/

/-- A mail or a failure under the token. -/
def AlertEvent.settles (token : Uuid) : AlertEvent → Prop
  | sent _ token' _ | failed _ token' _ _ => token' = token
  | _ => False

/-- What a pass may do with a claim: it mails once, marks what was sent, and schedules again what
was not. -/
def AlertContract (tid : ℕ) (_ : AlertRequest) (_ : Unit) (op : AlertOp) (w : AlertWorld) : Prop :=
  match op with
  | .send id token _ _ =>
      (∃ t, .claimed tid id token t ∈ w.log) ∧ ∀ e ∈ w.log, ¬ e.settles token
  | .markDelivered id token => .sent id token true ∈ w.log
  | .scheduleRetry id token _ =>
      (∃ t, .claimed tid id token t ∈ w.log) ∧ .sent id token true ∉ w.log
  | _ => True

/-- What a pass relies on: history stays, and its tokens are its own. -/
structure AlertsLater (tid : ℕ) (w w' : AlertWorld) : Prop where
  log : w.log <:+ w'.log
  own : ∀ id token t, .claimed tid id token t ∈ w.log → ∀ e ∈ w'.log, e.settles token → e ∈ w.log

namespace AlertsLater

variable {tid : ℕ} {w w' w'' : AlertWorld}

lemma refl (tid : ℕ) (w : AlertWorld) : AlertsLater tid w w :=
  ⟨List.suffix_rfl, fun _ _ _ _ _ he _ => he⟩

lemma trans (h : AlertsLater tid w w') (h' : AlertsLater tid w' w'') : AlertsLater tid w w'' where
  log := h.log.trans h'.log
  own id token t hc e he hs :=
    h.own id token t hc e (h'.own id token t (h.log.subset hc) e he hs) hs

lemma of_log (h : w'.log = w.log) : AlertsLater tid w w' :=
  ⟨h ▸ List.suffix_rfl, fun _ _ _ _ _ he _ => h ▸ he⟩

/-- One entry more, under nobody else's token. -/
lemma of_cons {e : AlertEvent} (h : w'.log = e :: w.log)
    (hown : ∀ id token t, .claimed tid id token t ∈ w.log → ¬ e.settles token) :
    AlertsLater tid w w' := by
  refine ⟨h ▸ List.suffix_cons _ _, fun id token t hc e' he' hs => ?_⟩
  rcases List.mem_cons.mp (h ▸ he') with rfl | hmem
  · exact absurd hs (hown id token t hc)
  · exact hmem

end AlertsLater

section Operations

variable {w w' : AlertWorld} {id token : Uuid} {a a' : OperatorAlert} {e : AlertEvent}

/-- One row rewritten, and recorded. -/
lemma AlertsOk.write (h : AlertsOk w) {t : Table Uuid OperatorAlert}
    (ha : w.alerts.get? id = some a) (hrow : AlertRowOk w.now (e :: w.log) id a')
    (hkey : a'.dedupeKey = a.dedupeKey) (he : e.alert = id)
    (ht : ∀ i, t.get? i = if i = id then some a' else w.alerts.get? i)
    (hclaim : ∀ tid i token u, e = .claimed tid i token u →
      SpacedAttempt i u w.log ∧ ∀ tid' i' u', .claimed tid' i' token u' ∉ w.log) :
    AlertsOk ⟨w.now, t, e :: w.log⟩ := by
  have hget : ∀ i b, t.get? i = some b →
      (i = id ∧ b = a') ∨ (i ≠ id ∧ w.alerts.get? i = some b) := by
    intro i b hb
    rw [ht] at hb
    split at hb
    · exact .inl ⟨‹_›, (Option.some.inj hb).symm⟩
    · exact .inr ⟨‹_›, hb⟩
  refine ⟨fun i b hb => ?_, fun e' he' => ?_, fun tid tid' i i' token u u' hc hc' => ?_,
    fun i i' b b' hb hb' hkeys => ?_, fun tid i token u past hsuffix => ?_⟩
  · rcases hget i b hb with ⟨rfl, rfl⟩ | ⟨hne, hb⟩
    · exact hrow
    · exact (h.rows i b hb).frame (.inl fun heq => hne (heq.symm.trans he))
  · have hthere : w.alerts.get? e'.alert ≠ none := by
      rcases List.mem_cons.mp he' with rfl | hmem
      · rw [he, ha]
        exact Option.some_ne_none _
      · exact h.known e' hmem
    rw [show (⟨w.now, t, e :: w.log⟩ : AlertWorld).alerts = t from rfl, ht]
    split
    · exact Option.some_ne_none _
    · exact hthere
  · rcases List.mem_cons.mp hc with heq | hc <;> rcases List.mem_cons.mp hc' with heq' | hc'
    · rw [← heq'] at heq
      cases heq
      exact ⟨rfl, rfl, rfl⟩
    · exact absurd hc' ((hclaim _ _ _ _ heq.symm).2 _ _ _)
    · exact absurd hc ((hclaim _ _ _ _ heq'.symm).2 _ _ _)
    · exact h.tokens tid tid' i i' token u u' hc hc'
  · have hold : ∀ j c, t.get? j = some c → ∃ c₀, w.alerts.get? j = some c₀ ∧
        c₀.dedupeKey = c.dedupeKey := by
      intro j c hc
      rcases hget j c hc with ⟨rfl, rfl⟩ | ⟨-, hc⟩
      · exact ⟨a, ha, hkey.symm⟩
      · exact ⟨c, hc, rfl⟩
    obtain ⟨b₀, hb₀, hk⟩ := hold i b hb
    obtain ⟨b₀', hb₀', hk'⟩ := hold i' b' hb'
    exact h.keys i i' b₀ b₀' hb₀ hb₀' (hk.trans (hkeys.trans hk'.symm))
  · rcases List.suffix_cons_iff.mp hsuffix with heq | hsuffix
    · cases heq
      exact (hclaim _ _ _ _ rfl).1
    · exact h.spaced tid i token u past hsuffix

lemma get?_modify_of_some {t : Table Uuid OperatorAlert} {f : OperatorAlert → OperatorAlert}
    (ha : t.get? id = some a) (i : Uuid) :
    (t.modify id f).get? i = if i = id then some (f a) else t.get? i := by
  rw [Table.get?_modify]
  by_cases hi : i = id
  · simp [hi, ha]
  · simp [hi]

lemma exec_claimDue {tid : ℕ} {ω : AlertOracle} {r : Option (Uuid × Uuid × AlertText)}
    (h : AlertsOk w) (hexec : execAlert tid .claimDue ω w = some (r, w')) :
    (r = none ∧ w' = w) ∨ ∃ id token text, r = some (id, token, text) ∧ AlertsOk w' ∧
      w'.log = .claimed tid id token w.now :: w.log ∧ (∀ e ∈ w.log, ¬ e.settles token) ∧
      ∀ tid' i u, .claimed tid' i token u ∉ w.log := by
  simp only [execAlert] at hexec
  split at hexec
  · cases hexec
    exact .inl ⟨rfl, rfl⟩
  · rename_i id a hdue
    split at hexec
    · cases hexec
    · rename_i hfresh
      cases hexec
      have hmem := List.argmin_mem (Option.mem_def.mpr hdue)
      rw [List.mem_filter, Bool.and_eq_true] at hmem
      have ha := Table.get?_eq_some_iff.mpr hmem.1
      have hnew : ∀ tid' i u, .claimed tid' i ω.fresh u ∉ w.log := fun tid' i u hc =>
        hfresh (List.any_eq_true.mpr ⟨_, hc, by simp⟩)
      have hok := h.rows id a ha
      obtain ⟨hrow, hspaced⟩ := hok.claim tid ω.fresh hmem.2.1
        fun tid₁ token t₁ tid₂ t₂ hc hc' => (h.tokens _ _ _ _ _ _ _ hc' hc).2.2
      refine .inr ⟨id, ω.fresh, _, rfl, ?_, rfl, fun e he hs => ?_, hnew⟩
      · refine h.write ha hrow rfl rfl (get?_modify_of_some ha) fun tid' i token u heq => ?_
        cases heq
        exact ⟨hspaced, hnew⟩
      · cases e with
        | sent i token' ok =>
            obtain ⟨b, hb⟩ := Option.ne_none_iff_exists'.mp (h.known _ he)
            obtain ⟨tid', u, hc⟩ := (h.rows i b hb).sent token' ok he
            exact hnew tid' i u (hs ▸ hc)
        | failed i token' t n =>
            obtain ⟨b, hb⟩ := Option.ne_none_iff_exists'.mp (h.known _ he)
            obtain ⟨tid', u, hc⟩ := (h.rows i b hb).tried token' t n he
            exact hnew tid' i u (hs ▸ hc)
        | claimed _ _ _ _ | marked _ _ => exact hs

/-- An entry about a row that stays as it is. -/
lemma AlertsOk.say (h : AlertsOk w) (ha : w.alerts.get? id = some a)
    (hrow : AlertRowOk w.now (e :: w.log) id a) (he : e.alert = id)
    (hclaim : ∀ tid i token u, e ≠ .claimed tid i token u) :
    AlertsOk { w with log := e :: w.log } := by
  refine h.write ha hrow rfl he (fun i => ?_) fun tid i token u heq =>
    absurd heq (hclaim tid i token u)
  split
  · rename_i hi
    exact hi ▸ ha
  · rfl

/-- The mail of a claim that has not been settled. -/
lemma AlertsOk.send {tid : ℕ} {t : Time} (h : AlertsOk w) (hc : .claimed tid id token t ∈ w.log)
    (hfree : ∀ e ∈ w.log, ¬ e.settles token) (ok : Bool) :
    AlertsOk { w with log := .sent id token ok :: w.log } := by
  obtain ⟨a, ha⟩ := Option.ne_none_iff_exists'.mp (h.known _ hc)
  refine h.say ha ?_ rfl fun _ _ _ _ heq => AlertEvent.noConfusion heq
  have hrow := h.rows id a ha
  cases ok with
  | true => exact hrow.mailed hc fun t' n hf => hfree _ hf rfl
  | false => exact hrow.frame (.inr ⟨token, rfl, tid, t, hc⟩)

lemma claim_of_heldBy (h : a.heldBy token = true) : ∃ c, a.claim = some c ∧ c.token = token := by
  simpa [OperatorAlert.heldBy, Option.any_eq_true] using h

/-- The update that a claim's holder makes is refused to everybody else. -/
lemma AlertsOk.markDelivered {tid : ℕ} {ω : AlertOracle} {r : Unit} (h : AlertsOk w)
    (hsent : .sent id token true ∈ w.log)
    (hexec : execAlert tid (.markDelivered id token) ω w = some (r, w')) :
    AlertsOk w' ∧ (w'.log = w.log ∨ w'.log = .marked id token :: w.log) := by
  simp only [execAlert] at hexec
  split at hexec
  · cases hexec
    exact ⟨h, .inl rfl⟩
  · rename_i a ha
    split at hexec
    · cases hexec
      exact ⟨h.write ha ((h.rows id a ha).mark hsent) rfl rfl (get?_modify_of_some ha)
        fun _ _ _ _ heq => AlertEvent.noConfusion heq, .inr rfl⟩
    · cases hexec
      exact ⟨h, .inl rfl⟩

lemma AlertsOk.scheduleRetry {tid : ℕ} {ω : AlertOracle} {r : Unit} {category : String}
    (h : AlertsOk w) (hsent : .sent id token true ∉ w.log)
    (hexec : execAlert tid (.scheduleRetry id token category) ω w = some (r, w')) :
    AlertsOk w' ∧ (w'.log = w.log ∨ ∃ t n, w'.log = .failed id token t n :: w.log) := by
  simp only [execAlert] at hexec
  split at hexec
  · cases hexec
    exact ⟨h, .inl rfl⟩
  · rename_i a ha
    split at hexec
    · rename_i hheld
      cases hexec
      obtain ⟨c, hc, rfl⟩ := claim_of_heldBy hheld
      exact ⟨h.write ha ((h.rows id a ha).retry hc hsent category) rfl rfl
        (get?_modify_of_some ha) fun _ _ _ _ heq => AlertEvent.noConfusion heq, .inr ⟨_, _, rfl⟩⟩
    · cases hexec
      exact ⟨h, .inl rfl⟩

/-- Nothing has been said of a row that is not there. -/
lemma AlertRowOk.new (h : AlertsOk w) (hnone : w.alerts.get? id = none) (order : Uuid)
    (dedupeKey : String) : AlertRowOk w.now w.log id (.new order dedupeKey w.now) := by
  have hsilent : ∀ e ∈ w.log, e.alert ≠ id := fun e he heq => h.known e he (heq ▸ hnone)
  refine ⟨fun _ _ _ hc => absurd rfl (hsilent _ hc), fun _ _ _ hc => absurd rfl (hsilent _ hc),
    fun _ _ _ hf => absurd rfl (hsilent _ hf), fun _ _ _ hf => absurd rfl (hsilent _ hf),
    fun _ _ hs => absurd rfl (hsilent _ hs), fun _ hs => absurd rfl (hsilent _ hs),
    fun _ hm => absurd rfl (hsilent _ hm), fun c hc => ?_, Nat.le_add_right _ _, fun hd => ?_, ?_⟩
  · cases hc
  · cases hd
  · refine (List.countP_eq_zero.mpr fun e he => ?_).symm
    have hne := hsilent e he
    cases e with
    | failed i _ _ _ => simpa [AlertEvent.isFailureOf, AlertEvent.alert] using hne
    | claimed _ _ _ _ | sent _ _ _ | marked _ _ => exact Bool.false_ne_true

/-- A key that is there already is not inserted again. -/
lemma AlertsOk.insertAlert {tid : ℕ} {ω : AlertOracle} {r : Unit} {order : Uuid}
    {dedupeKey : String} (h : AlertsOk w)
    (hexec : execAlert tid (.insertAlert order dedupeKey) ω w = some (r, w')) :
    AlertsOk w' ∧ w'.log = w.log := by
  simp only [execAlert] at hexec
  split at hexec
  · cases hexec
    exact ⟨h, rfl⟩
  · rename_i hkey
    obtain ⟨t, ht, hres⟩ := Option.map_eq_some_iff.mp hexec
    cases hres
    have hnone := (Table.insert_eq_some ht).1
    have hget := Table.get?_insert ht
    have hnew : ∀ i b, w.alerts.get? i = some b → b.dedupeKey ≠ dedupeKey := fun i b hb heq =>
      hkey (List.any_eq_true.mpr ⟨(i, b), Table.get?_eq_some_iff.mp hb, decide_eq_true heq⟩)
    refine ⟨⟨fun i b hb => ?_, fun e he => ?_, h.tokens, fun i i' b b' hb hb' heq => ?_,
      h.spaced⟩, rfl⟩
    · rw [hget] at hb
      split at hb
      · rename_i hi
        cases hb
        exact hi ▸ .new h hnone order dedupeKey
      · exact h.rows i b hb
    · show t.get? e.alert ≠ none
      rw [hget]
      split
      · exact Option.some_ne_none _
      · exact h.known e he
    · rw [hget] at hb hb'
      split at hb <;> split at hb'
      · rename_i hi hi'
        exact hi.trans hi'.symm
      · cases hb
        exact absurd heq.symm (hnew i' b' hb')
      · cases hb'
        exact absurd heq (hnew i b hb)
      · exact h.keys i i' b b' hb hb' heq

end Operations

/-! ## The passes keep their contracts -/

lemma AlertsOk.fresh (now : Time) : AlertsOk (.fresh now) where
  rows id a ha := by cases ha
  known e he := absurd he List.not_mem_nil
  tokens _ _ _ _ _ _ _ hc := absurd hc List.not_mem_nil
  keys id id' a a' ha := by cases ha
  spaced tid id token t past h := by
    have := List.eq_nil_of_suffix_nil h
    cases this

/-- **What an operation does** when its contract is kept. -/
lemma AlertsOk.exec {tid : ℕ} {req : AlertRequest} {op : AlertOp} {ω : AlertOracle} {r : op.Res}
    {w w' : AlertWorld} (h : AlertsOk w) (hC : AlertContract tid req () op w)
    (hexec : execAlert tid op ω w = some (r, w')) :
    AlertsOk w' ∧ ∀ tid', tid' ≠ tid → AlertsLater tid' w w' := by
  -- Nobody else has claimed under the token of a claim.
  have others : ∀ {id token t}, .claimed tid id token t ∈ w.log → ∀ tid', tid' ≠ tid →
      ∀ id' token' t', .claimed tid' id' token' t' ∈ w.log → token ≠ token' := by
    rintro id token t hc tid' hne id' token' t' hc' rfl
    exact hne (h.tokens _ _ _ _ _ _ _ hc' hc).1
  cases op with
  | claimDue =>
      rcases exec_claimDue h hexec with ⟨-, rfl⟩ | ⟨id, token, text, -, hok, hlog, -, -⟩
      · exact ⟨h, fun tid' _ => .refl tid' _⟩
      · exact ⟨hok, fun _ _ => .of_cons hlog fun _ _ _ _ hs => hs⟩
  | send id token destination text =>
      obtain ⟨⟨t, hc⟩, hfree⟩ := hC
      cases hexec
      exact ⟨h.send hc hfree ω.sent, fun tid' hne => .of_cons rfl (others hc tid' hne)⟩
  | markDelivered id token =>
      obtain ⟨hok, hlog | hlog⟩ := h.markDelivered hC hexec
      · exact ⟨hok, fun _ _ => .of_log hlog⟩
      · exact ⟨hok, fun _ _ => .of_cons hlog fun _ _ _ _ hs => hs⟩
  | scheduleRetry id token category =>
      obtain ⟨⟨t, hc⟩, hsent⟩ := hC
      obtain ⟨hok, hlog | ⟨u, n, hlog⟩⟩ := h.scheduleRetry hsent hexec
      · exact ⟨hok, fun _ _ => .of_log hlog⟩
      · exact ⟨hok, fun tid' hne => .of_cons hlog (others hc tid' hne)⟩
  | insertAlert order dedupeKey =>
      obtain ⟨hok, hlog⟩ := h.insertAlert hexec
      exact ⟨hok, fun _ _ => .of_log hlog⟩

/-- The claim is this task's, and nothing has been mailed or scheduled under it. -/
def Unsettled (tid : ℕ) (id token : Uuid) (w : AlertWorld) : Prop :=
  (∃ t, .claimed tid id token t ∈ w.log) ∧ ∀ e ∈ w.log, ¬ e.settles token

lemma Unsettled.later {tid : ℕ} {id token : Uuid} {w w' : AlertWorld}
    (h : Unsettled tid id token w) (hR : AlertsLater tid w w') : Unsettled tid id token w' := by
  obtain ⟨⟨t, hc⟩, hfree⟩ := h
  exact ⟨⟨t, hR.log.subset hc⟩, fun e he hs => hfree e (hR.own id token t hc e he hs) hs⟩

lemma safe_deliverAlert (operationsAlertEmail : Option String) (tid : ℕ) (w : AlertWorld) :
    Safe (alerting operationsAlertEmail) AlertsOk AlertsLater anyOp AlertContract tid .pass ()
      (fun _ _ => True) (deliverAlert operationsAlertEmail) w := by
  intro w₁ hI _ ω _
  refine ⟨trivial, fun row w₂ hexec => ?_⟩
  rcases exec_claimDue hI hexec with ⟨rfl, -⟩ | ⟨id, token, text, rfl, -, hlog, hfree, -⟩
  · trivial
  have hmine : Unsettled tid id token w₂ := by
    refine ⟨⟨w₁.now, hlog ▸ List.mem_cons_self⟩, fun e he => ?_⟩
    rcases List.mem_cons.mp (hlog ▸ he) with rfl | hmem
    · exact not_false
    · exact hfree e hmem
  rcases operationsAlertEmail with _ | destination
  · intro w₃ _ hR ω' _
    have hstill := hmine.later hR
    exact ⟨⟨hstill.1, fun hs => hstill.2 _ hs rfl⟩, fun _ _ _ => trivial⟩
  · intro w₃ _ hR ω' _
    have hstill := hmine.later hR
    refine ⟨hstill, fun sent w₄ hsend => ?_⟩
    cases hsend
    obtain ⟨⟨t, hc⟩, hfree'⟩ := hstill
    cases ω'.sent with
    | true =>
        intro w₅ _ hR' ω'' _
        exact ⟨hR'.log.subset List.mem_cons_self, fun _ _ _ => trivial⟩
    | false =>
        have hc₄ : .claimed tid id token t ∈ AlertEvent.sent id token false :: w₃.log :=
          List.mem_cons_of_mem _ hc
        intro w₅ _ hR' ω'' _
        refine ⟨⟨⟨t, hR'.log.subset hc₄⟩, fun hs => ?_⟩, fun _ _ _ => trivial⟩
        rcases List.mem_cons.mp (hR'.own id token t hc₄ _ hs rfl) with heq | hold
        · cases heq
        · exact hfree' _ hold rfl

lemma keeps_alerting (operationsAlertEmail : Option String) :
    Keeps (alerting operationsAlertEmail) AlertsOk AlertsLater anyOp AlertContract where
  refl tid w := .refl tid w
  trans h h' := h.trans h'
  env {d w w'} hI h := by
    cases h
    exact ⟨⟨fun id a ha => (hI.rows id a ha).later, hI.known, hI.tokens, hI.keys, hI.spaced⟩,
      fun _ => .of_log rfl⟩
  op hI _ hC h := hI.exec hC h
  spawn tid req w _ := by
    cases req with
    | pass => exact safe_deliverAlert operationsAlertEmail tid w
    | alert order dedupeKey => exact fun _ _ _ _ _ => ⟨trivial, fun _ _ _ => trivial⟩

/-- The invariant holds of every run. -/
lemma alertsOk_of_reachable {operationsAlertEmail : Option String} {now : Time}
    {s : Sys AlertOp AlertOp.Res AlertWorld AlertRequest Unit Unit}
    (h : (alerting operationsAlertEmail).Reachable unguarded (Sys.idle (.fresh now)) s) :
    AlertsOk s.world :=
  ((keeps_alerting operationsAlertEmail).holds (.fresh now) (fun _ => rfl)
    (h.mono fun s a _ => onOps_anyOp s a)).1

/-! ## What is kept -/

/-- No row is taken away, and none is unmarked. -/
structure AlertsGrow (w w' : AlertWorld) : Prop where
  now : w.now ≤ w'.now
  rows : ∀ id a, w.alerts.get? id = some a → ∃ a', w'.alerts.get? id = some a' ∧
    a'.numberOrderId = a.numberOrderId ∧ a'.dedupeKey = a.dedupeKey ∧
    (a.state = .delivered → a'.state = .delivered)

lemma AlertsGrow.refl (w : AlertWorld) : AlertsGrow w w :=
  ⟨le_rfl, fun _ a ha => ⟨a, ha, rfl, rfl, fun hd => hd⟩⟩

lemma AlertsGrow.trans {w w' w'' : AlertWorld} (h : AlertsGrow w w') (h' : AlertsGrow w' w'') :
    AlertsGrow w w'' := by
  refine ⟨h.now.trans h'.now, fun id a ha => ?_⟩
  obtain ⟨a', ha', horder', hkey', hdone'⟩ := h.rows id a ha
  obtain ⟨a'', ha'', horder'', hkey'', hdone''⟩ := h'.rows id a' ha'
  exact ⟨a'', ha'', horder''.trans horder', hkey''.trans hkey', fun hd => hdone'' (hdone' hd)⟩

/-- A rewrite of one row that neither unmarks it nor makes another alert of it. -/
lemma AlertsGrow.modify {w : AlertWorld} {id : Uuid} {f : OperatorAlert → OperatorAlert}
    (hf : ∀ a, (f a).numberOrderId = a.numberOrderId ∧ (f a).dedupeKey = a.dedupeKey ∧
      (a.state = .delivered → (f a).state = .delivered)) (log : List AlertEvent) :
    AlertsGrow w ⟨w.now, w.alerts.modify id f, log⟩ := by
  refine ⟨le_rfl, fun i a ha => ?_⟩
  simp only [Table.get?_modify]
  split
  · exact ⟨f a, by simp [ha], hf a⟩
  · exact ⟨a, ha, rfl, rfl, fun hd => hd⟩

lemma alertsGrow_of_step {operationsAlertEmail : Option String} {w w' : AlertWorld}
    (h : (alerting operationsAlertEmail).WorldStep w w') : AlertsGrow w w' := by
  cases h with
  | env h =>
      cases h
      exact ⟨Nat.le_add_right _ _, (AlertsGrow.refl w).rows⟩
  | @exec tid op ω r _ _ h =>
      replace h : execAlert tid op ω w = some (r, w') := h
      cases op with
      | claimDue =>
          simp only [execAlert] at h
          split at h
          · cases h
            exact .refl w
          · split at h
            · cases h
            · cases h
              refine .modify (fun a => ?_) _
              exact ⟨rfl, rfl, fun hd => hd⟩
      | send =>
          cases h
          exact ⟨le_rfl, (AlertsGrow.refl w).rows⟩
      | markDelivered =>
          simp only [execAlert] at h
          split at h
          · cases h
            exact .refl w
          · split at h <;> cases h
            · refine .modify (fun a => ?_) _
              exact ⟨rfl, rfl, fun _ => rfl⟩
            · exact .refl w
      | scheduleRetry =>
          simp only [execAlert] at h
          split at h
          · cases h
            exact .refl w
          · split at h <;> cases h
            · refine .modify (fun a => ?_) _
              exact ⟨rfl, rfl, fun hd => hd⟩
            · exact .refl w
      | insertAlert =>
          simp only [execAlert] at h
          split at h
          · cases h
            exact .refl w
          · obtain ⟨t, ht, hres⟩ := Option.map_eq_some_iff.mp h
            cases hres
            refine ⟨le_rfl, fun i a ha => ⟨a, ?_, rfl, rfl, fun hd => hd⟩⟩
            show t.get? i = some a
            rw [Table.get?_insert ht, if_neg, ha]
            rintro rfl
            rw [(Table.insert_eq_some ht).1] at ha
            cases ha

/-- What became of an alert. -/
structure AlertKept (w : AlertWorld) (id : Uuid) (before after : OperatorAlert) : Prop where
  order : after.numberOrderId = before.numberOrderId
  dedupeKey : after.dedupeKey = before.dedupeKey
  /-- It is still the only one of its key. -/
  once : ∀ id' a', w.alerts.get? id' = some a' → a'.dedupeKey = before.dedupeKey → id' = id
  done : before.state = .delivered → after.state = .delivered
  /-- A marked alert was mailed, by a call that answered `Ok`. -/
  mailed : after.state = .delivered → ∃ token, .sent id token true ∈ w.log
  /-- One that is not marked is due again within a quarter of an hour, whoever holds it. -/
  due : after.state = .pending → ∀ t, w.now + seconds 900 < t → after.isDue t = true
  /-- And its backoff is that of the attempts that failed. -/
  attempts : after.attemptCount = w.log.countP (AlertEvent.isFailureOf id)

/-- A row that is not marked comes due. -/
lemma AlertRowOk.due {now t : Time} {log : List AlertEvent} {id : Uuid} {a : OperatorAlert}
    (h : AlertRowOk now log id a) (hpending : a.state = .pending) (ht : now + seconds 900 < t) :
    a.isDue t = true := by
  have hnext := h.soon
  simp only [OperatorAlert.isDue, hpending, Bool.and_eq_true, decide_eq_true_eq, true_and]
  refine ⟨by lia, ?_⟩
  rcases hc : a.claim with _ | c
  · rfl
  · obtain ⟨-, tid, u, hmem, -, huntil⟩ := h.held c hc
    have hnow := (h.claimed tid c.token u hmem).1
    have hlease : alertLease ≤ seconds 900 := by decide
    simp only [Option.all_some, decide_eq_true_eq]
    lia

/-- An alert is raised, the first attempt is mailed, and its process dies. -/
def alertMailed : List (Act AlertOracle Time AlertRequest) :=
  [.spawn 0 (.alert 5 "number-review:5"), .resume 0 { fresh := 1 },
    .spawn 1 .pass, .resume 1 { fresh := 10 }, .resume 1 {}, .drop 1]

/-- A little over a minute later another attempt fails. -/
def alertRetried : List (Act AlertOracle Time AlertRequest) :=
  [.env (seconds 61), .spawn 2 .pass, .resume 2 { fresh := 11 }, .resume 2 { sent := false },
    .resume 2 {}]

/-- **No alert is lost.**  In every interleaving of the passes of any number of processes with
whatever raises alerts, any of them stopping anywhere: an alert that was ever raised is still
there, once; it is marked only if a call that mails it has answered `Ok`, and stays marked; and
until then there is always a time, at most a quarter of an hour away, from which the next
pass may attempt it. -/
theorem alerts_kept (operationsAlertEmail : Option String) (now : Time)
    {s s' : Sys AlertOp AlertOp.Res AlertWorld AlertRequest Unit Unit}
    (h : (alerting operationsAlertEmail).Reachable unguarded (Sys.idle (.fresh now)) s)
    (h' : (alerting operationsAlertEmail).Reachable unguarded s s') {id : Uuid}
    {a : OperatorAlert} (ha : s.world.alerts.get? id = some a) :
    ∃ a', s'.world.alerts.get? id = some a' ∧ AlertKept s'.world id a a' := by
  have hok := alertsOk_of_reachable (h.trans h')
  have hgrow := h'.world_rel AlertsGrow.refl AlertsGrow.trans fun _ _ => alertsGrow_of_step
  obtain ⟨a', ha', horder, hkey, hdone⟩ := hgrow.rows id a ha
  have hrow := hok.rows id a' ha'
  refine ⟨a', ha', horder, hkey, fun id' b hb heq => ?_, hdone, fun hd => ?_, fun hp t ht => ?_,
    hrow.attempts⟩
  · exact hok.keys id' id b a' hb ha' (heq.trans hkey.symm)
  · obtain ⟨token, hsent, -⟩ := hrow.delivered hd
    exact ⟨token, hsent⟩
  · exact hrow.due hp ht

/-- An alert outlives the process that was to mark it. -/
theorem alerts_kept_crash : ∃ (s' : Sys AlertOp AlertOp.Res AlertWorld AlertRequest Unit Unit)
    (a a' : OperatorAlert), a'.attemptCount = 1 ∧ s'.world.alerts.get? 1 = some a' ∧
      AlertKept s'.world 1 a a' := by
  obtain ⟨s, s', hs, hs', ha, ha'⟩ := exists_later_of_run (alerting (some "ops@example.test"))
    unguarded (Sys.idle (.fresh 0)) alertMailed alertRetried
    (fun s s' => s.world.alerts.get? 1 =
        some { OperatorAlert.new 5 "number-review:5" 0 with claim := some ⟨10, seconds 60⟩ } ∧
      s'.world.alerts.get? 1 =
        some ((OperatorAlert.new 5 "number-review:5" 0).retried (seconds 61) "delivery_failed"))
    (by decide +kernel)
  obtain ⟨a', hget, hkept⟩ := alerts_kept (some "ops@example.test") 0 hs hs' ha
  rw [ha', Option.some.injEq] at hget
  exact ⟨s', _, _, rfl, ha', hget ▸ hkept⟩

/-- **Attempts are spaced.**  In every such run, an alert is claimed no sooner than fifteen seconds
after it was last claimed, no sooner than its backoff after any attempt that failed, no sooner than
a minute after the claim of an attempt whose mail was sent, with `Ok` for an answer — so that a mark
that never comes doubles such a mail at most once a minute — and never after it was marked. -/
theorem alert_attempts_spaced (operationsAlertEmail : Option String) (now : Time)
    {s : Sys AlertOp AlertOp.Res AlertWorld AlertRequest Unit Unit}
    (h : (alerting operationsAlertEmail).Reachable unguarded (Sys.idle (.fresh now)) s)
    {tid : ℕ} {id token : Uuid} {t : Time} {past : List AlertEvent}
    (hclaim : (.claimed tid id token t :: past) <:+ s.world.log) : SpacedAttempt id t past :=
  (alertsOk_of_reachable h).spaced tid id token t past hclaim

/-- The second attempt comes a minute after the first. -/
theorem alert_attempts_spaced_twice :
    SpacedAttempt 1 (seconds 61) [.sent 1 10 true, .claimed 1 1 10 0] := by
  obtain ⟨s, hs, hlog⟩ := exists_reachable_of_run (alerting (some "ops@example.test")) unguarded
    (Sys.idle (.fresh 0)) (alertMailed ++ alertRetried)
    (fun s => s.world.log = [.failed 1 11 (seconds 61) 0, .sent 1 11 false,
      .claimed 2 1 11 (seconds 61), .sent 1 10 true, .claimed 1 1 10 0]) (by decide +kernel)
  have hclaim : [.claimed 2 1 11 (seconds 61), .sent 1 10 true, .claimed 1 1 10 0] <:+
      s.world.log := hlog ▸ ⟨[.failed 1 11 (seconds 61) 0, .sent 1 11 false], rfl⟩
  exact alert_attempts_spaced (some "ops@example.test") 0 hs hclaim

end Naivolt
