import Naivolt.Foundation.Moments
import Naivolt.Numbers.Decision

/-!
# Backing off

When a supplier cannot be asked about an order, the reconciler reads how often that has happened
and releases the order with a delay that doubles from time to time (`releaseUnavailable`).  The
statement that releases it takes the earlier of the end of the delay and the order's expiry, so
that an order is looked at again when it expires.  An order that has expired is then due at once:
`backoff_kept_iff` says that the delay is kept exactly when the order expires no sooner than its
end, if it expires at all.
-/

namespace Naivolt

open Foundation Foundation.Machine

/-! ## The delay -/

example : (List.range 6).map backoff =
    [seconds 15, seconds 30, seconds 60, seconds 120, seconds 120, seconds 120] := by decide

/-- No delay is longer than two minutes. -/
lemma backoff_le (attempts : ℕ) : backoff attempts ≤ minutes 2 :=
  Nat.mul_le_mul_right 1000000 (min_le_right _ _)

/-! ## The next check -/

/-- The order is next looked at when the delay is over, or later. -/
def BacksOff (id : Uuid) (attempts : ℕ) (release : Moment Oracle World) : Prop :=
  ∃ o' next, release.after.orders.get? id = some o' ∧ o'.reconcileNextAt = some next ∧
    release.before.now + backoff attempts ≤ next

/-- Until then no sweep takes it. -/
lemma not_due_of_next {o : Order} {next now : Time} (h : o.reconcileNextAt = some next)
    (hnow : now < next) : dueForSweep now o = false := by
  have hlate : ¬ next ≤ now := not_le.mpr hnow
  simp [dueForSweep, h, hlate]

/-- The order expires no sooner than the delay is over. -/
def ExpiresAfter (o : Order) (time : Time) : Prop :=
  ∀ expiry, o.expiresAt = some expiry → time ≤ expiry

lemma le_release_next_iff {o : Order} {now : Time} {attempts : ℕ} :
    now + backoff attempts ≤ min (o.expiresAt.getD (now + minutes 15)) (now + backoff attempts) ↔
      ExpiresAfter o (now + backoff attempts) := by
  have hshort : backoff attempts ≤ minutes 15 := (backoff_le attempts).trans (by decide)
  unfold ExpiresAfter
  cases o.expiresAt with
  | none => simp [hshort]
  | some expiry => simp

/-- **The delay is kept where the order does not expire before it is over.**  After a check has
failed, the reconciler reads the order and releases it; the order it still holds is next looked
at no sooner than the computed delay if and only if it does not expire sooner. -/
theorem backoff_kept_iff {cfg : Config} {tid : ℕ} {id token : Uuid}
    {ms : List (Moment Oracle World)}
    (h : (backend cfg).Along tid (releaseUnavailable id token) ms (.ret (.ok .done))) :
    ∃ read release o, ms = [read, release] ∧ read.before.orders.get? id = some o ∧
      ∀ row, release.before.orders.get? id = some row → row.claimedBy token = true →
        (BacksOff id o.reconcileAttemptCount release ↔
          ExpiresAfter row (release.before.now + backoff o.reconcileAttemptCount)) := by
  unfold releaseUnavailable at h
  simp only [Prog.perform_bind] at h
  obtain ⟨read, rest, r, rfl, hread, h⟩ := h.call_ret
  obtain ⟨-, db, es, hexec, -⟩ := exec_numbers hread
  cases hexec
  rcases ho : read.before.numbers.orders.get? id with _ | o
  · rw [ho] at h
    cases h.ret_nil.1
  rw [ho] at h
  obtain ⟨release, rest, r, rfl, hrelease, h⟩ := h.call_ret
  obtain ⟨-, rfl⟩ := h.ret_nil
  refine ⟨read, release, o, rfl, ho, fun row hrow hheld => ?_⟩
  obtain ⟨-, db, es, hexec, hafter⟩ := exec_numbers hrelease
  obtain ⟨rfl, hmoved⟩ := updateWhere_of_guard hexec hrow hheld
  have hkept : release.after.orders.get? id = db.orders.get? id := by
    rw [hafter]
    rfl
  rw [← le_release_next_iff]
  constructor
  · rintro ⟨o', next, ho', hnext, hle⟩
    cases hmoved.symm.trans (hkept.symm.trans ho')
    cases hnext
    exact hle
  · intro hle
    exact ⟨_, _, hkept.trans hmoved, rfl, hle⟩

/-! ## An unreachable supplier -/

/-- An order waits for its code, and after a while a sweep takes it and cannot reach the supplier.
The release is still to come. -/
def checkFails (after : Time) : List Move :=
  codeAwaited ++ wait after ::
    serve 3 (.reconcile 200) [{ fresh := [400] }, {}, { slot := some 1 }, {}, {}]

/-- What the release does to the order, from the world a run has come to. -/
def releasesTo (P : World → Order → World → Bool) (w : World) : Bool :=
  match exec stubConfig 3 (.numbers (.readOrder 200)) {} w with
  | some (some (o, _), w₁) =>
    (exec stubConfig 3 (.numbers (.releaseOrder 200 400 (backoff o.reconcileAttemptCount)
      (some "provider_unavailable"))) {} w₁).any fun r => (w₁.orders.get? 200).any fun row =>
        row.claimedBy 400 && P w₁ row r.2
  | _ => false

lemma exists_release {P : World → Order → World → Bool} {w : World} (h : releasesTo P w = true) :
    ∃ (o row : Order) (w₁ w₂ : World), (backend stubConfig).Along 3 (releaseUnavailable 200 400)
        [⟨w, {}, w₁⟩, ⟨w₁, {}, w₂⟩] (.ret (.ok .done)) ∧ w.orders.get? 200 = some o ∧
      w₁.orders.get? 200 = some row ∧ row.claimedBy 400 = true ∧ P w₁ row w₂ = true := by
  unfold releasesTo at h
  split at h
  · rename_i o inbox w₁ hread
    obtain ⟨⟨released, w₂⟩, hrelease, h⟩ := (Option.any_eq_true _ _).mp h
    obtain ⟨row, hrow, h⟩ := (Option.any_eq_true _ _).mp h
    obtain ⟨hheld, hP⟩ := (Bool.and_eq_true _ _).mp h
    have hfound : w.orders.get? 200 = some o := by
      obtain ⟨-, db, es, hexec, -⟩ := exec_numbers hread
      obtain ⟨hfound, -⟩ := Prod.mk.inj (Option.some.inj hexec)
      obtain ⟨o', ho', heq⟩ := Option.map_eq_some_iff.mp hfound
      exact ho'.trans (congrArg some (Prod.mk.inj heq).1)
    refine ⟨o, row, w₁, w₂, ?_, hfound, hrow, hheld, hP⟩
    unfold releaseUnavailable
    simp only [Prog.perform_bind]
    exact .cons hread (.cons hrelease .nil)
  · cases h

/-- **An order that has expired is due at once.** -/
theorem polled_at_once : ¬ ∀ (tid : ℕ) (id token : Uuid) (read release : Moment Oracle World)
    (o row : Order), (backend stubConfig).Along tid (releaseUnavailable id token) [read, release]
        (.ret (.ok .done)) → read.before.orders.get? id = some o →
      release.before.orders.get? id = some row → row.claimedBy token = true →
        BacksOff id o.reconcileAttemptCount release := by
  intro h
  obtain ⟨s, -, hs⟩ := exists_reachable_of_run (backend stubConfig) unguarded (initial 0 [])
    (checkFails (minutes 16)) (fun s => releasesTo (fun w _ w' =>
      (w'.orders.get? 200).any fun o' => o'.reconcileNextAt.any fun next => next ≤ w.now)
        s.world = true) (by decide +kernel)
  obtain ⟨o, row, w₁, w₂, halong, ho, hrow, hheld, hdue⟩ := exists_release hs
  obtain ⟨o', next, ho', hnext, hlate⟩ := h 3 200 400 _ _ o row halong ho hrow hheld
  obtain ⟨o'', ho'', hsoon⟩ := (Option.any_eq_true _ _).mp hdue
  obtain ⟨next', hnext', hsoon⟩ := (Option.any_eq_true _ _).mp hsoon
  cases ho'.symm.trans ho''
  cases hnext.symm.trans hnext'
  have hle : next ≤ w₁.now := of_decide_eq_true hsoon
  have hpos : 0 < backoff o.reconcileAttemptCount := by
    unfold backoff seconds
    positivity
  have hlate : w₁.now + backoff o.reconcileAttemptCount ≤ next := hlate
  exact absurd (hlate.trans hle) (Nat.not_le.mpr (Nat.lt_add_of_pos_right hpos))

/-- An order with minutes to go rests for the delay. -/
theorem backoff_kept_unexpired : ∃ (ms : List (Moment Oracle World)) (o : Order)
    (read release : Moment Oracle World), ms = [read, release] ∧
      read.before.orders.get? 200 = some o ∧ BacksOff 200 o.reconcileAttemptCount release := by
  obtain ⟨s, -, hs⟩ := exists_reachable_of_run (backend stubConfig) unguarded (initial 0 [])
    (checkFails (seconds 11)) (fun s => releasesTo (fun w row _ =>
      row.expiresAt.all fun expiry => w.now + minutes 2 ≤ expiry) s.world = true)
    (by decide +kernel)
  obtain ⟨o, row, w₁, w₂, halong, -, hrow, hheld, hfar⟩ := exists_release hs
  obtain ⟨read, release, o₀, hms, ho₀, hiff⟩ := backoff_kept_iff halong
  refine ⟨_, o₀, read, release, hms, ho₀, ?_⟩
  obtain ⟨-, hrest⟩ := List.cons.inj hms
  obtain ⟨rfl, -⟩ := List.cons.inj hrest
  refine (hiff row hrow hheld).mpr fun expiry hexpiry => ?_
  have hle := of_decide_eq_true ((Option.all_eq_true _ _).mp hfar expiry hexpiry)
  exact (Nat.add_le_add_left (backoff_le _) _).trans hle

end Naivolt
