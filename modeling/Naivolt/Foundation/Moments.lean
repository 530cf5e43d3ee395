import Naivolt.Foundation.Actors

/-!
# The moments of a task

What a task answers depends on the worlds it happens to find.  `Machine.moments` collects, from a
schedule, the operations of one task: the world each was performed in, the answer the schedule
gave it, the world it left.  `Machine.Along` is the program run on such a list, with whatever
happens in between left open.

`along_of_run` connects the two: a task started during a schedule has run along its moments, and
each of them comes later than the state the schedule began in.  A statement about every request
served during a run is then a statement about its program and a list of moments.
-/

namespace Foundation

/-- One operation of a task. -/
structure Moment (Ω W : Type) where
  before : W
  answer : Ω
  after : W

namespace Machine

variable {Op : Type} {Res : Op → Type} {Ω E W Req B α : Type}
variable (M : Machine Op Res Ω E W Req B α)

/-- The operations of `p` performed in these moments leave `q` to be done. -/
inductive Along (tid : ℕ) : Prog Op Res α → List (Moment Ω W) → Prog Op Res α → Prop where
  | nil {p : Prog Op Res α} : Along tid p [] p
  | cons {op : Op} {k : Res op → Prog Op Res α} {ω : Ω} {r : Res op} {w w' : W}
      {ms : List (Moment Ω W)} {q : Prog Op Res α} (hexec : M.exec tid op ω w = some (r, w'))
      (hrest : Along tid (k r) ms q) : Along tid (.call op k) (⟨w, ω, w'⟩ :: ms) q

/-- The moments of the task in slot `tid` after one more move of the schedule. -/
def nextMoments (tid : ℕ) (w w' : W) (ms : List (Moment Ω W)) :
    Act Ω E Req → List (Moment Ω W)
  | .spawn i _ => if i = tid then [] else ms
  | .resume i ω => if i = tid then ms ++ [⟨w, ω, w'⟩] else ms
  | .env _ | .drop _ => ms

/-- The moments of the task in slot `tid` at the end of a schedule, given those at its start. -/
def moments (tid : ℕ) :
    Sys Op Res W Req B α → List (Moment Ω W) → List (Act Ω E Req) → List (Moment Ω W)
  | _, ms, [] => ms
  | s, ms, a :: as =>
      match M.step s a with
      | none => ms
      | some s' => moments tid s' (nextMoments tid s.world s'.world ms a) as

variable {M} {tid : ℕ}

lemma Along.snoc {p : Prog Op Res α} {ms : List (Moment Ω W)} {op : Op}
    {k : Res op → Prog Op Res α} {ω : Ω} {r : Res op} {w w' : W}
    (h : M.Along tid p ms (.call op k)) (hexec : M.exec tid op ω w = some (r, w')) :
    M.Along tid p (ms ++ [⟨w, ω, w'⟩]) (k r) := by
  generalize hq : Prog.call op k = q at h
  induction h with
  | nil => exact hq ▸ .cons hexec .nil
  | cons hfirst _ ih => exact .cons hfirst (ih hq)

lemma Along.ret_nil {a b : α} {ms : List (Moment Ω W)} (h : M.Along tid (.ret a) ms (.ret b)) :
    b = a ∧ ms = [] := by
  cases h
  exact ⟨rfl, rfl⟩

/-- The first operation of a task that has finished. -/
lemma Along.call_ret {op : Op} {k : Res op → Prog Op Res α} {ms : List (Moment Ω W)} {a : α}
    (h : M.Along tid (.call op k) ms (.ret a)) :
    ∃ m rest r, ms = m :: rest ∧ M.exec tid op m.answer m.before = some (r, m.after) ∧
      M.Along tid (k r) rest (.ret a) := by
  cases h with
  | cons hexec hrest => exact ⟨_, _, _, rfl, hexec, hrest⟩

/-- **A task runs along its moments.**  A task started while a schedule was run from `s` has
performed the operations of its program in the moments the schedule gave it, all of them later
than `s`. -/
theorem along_of_run {R : W → W → Prop} (hrefl : ∀ w, R w w)
    (htrans : ∀ {a b c}, R a b → R b c → R a c)
    (hstep : ∀ w w', M.WorldStep w w' → R w w') {s s' : Sys Op Res W Req B α}
    {as : List (Act Ω E Req)} (hidle : s.task tid = none)
    (hrun : M.run (fun _ _ => true) s as = some s') {req : Req} {b : B} {p : Prog Op Res α}
    (ht : s'.task tid = some ⟨req, b, p⟩) :
    M.Along tid (M.program req) (M.moments tid s [] as) p ∧
      ∀ m ∈ M.moments tid s [] as, R s.world m.before := by
  -- The invariant: the task, if there is one, has run along the moments so far.
  let OnTime (s₀ s : Sys Op Res W Req B α) (ms : List (Moment Ω W)) : Prop :=
    R s₀.world s.world ∧ (∀ m ∈ ms, R s₀.world m.before) ∧
      ∀ req b p, s.task tid = some ⟨req, b, p⟩ → M.Along tid (M.program req) ms p
  have main : ∀ as s ms s₀, OnTime s₀ s ms → M.run (fun _ _ => true) s as = some s' →
      OnTime s₀ s' (M.moments tid s ms as) := by
    intro as
    induction as with
    | nil =>
        intro s ms s₀ h hrun
        cases hrun
        exact h
    | cons a as ih =>
        intro s ms s₀ h hrun
        simp only [run, if_true, Option.bind_eq_some_iff] at hrun
        obtain ⟨s₁, hs, hrun⟩ := hrun
        simp only [moments, hs]
        refine ih _ _ _ ?_ hrun
        obtain ⟨hR, hms, halong⟩ := h
        have hR' : R s₀.world s₁.world := by
          rcases step_world hs with heq | hw
          · exact heq ▸ hR
          · exact htrans hR (hstep _ _ hw)
        rcases step_cases hs with ⟨e, rfl, -, htask⟩ | ⟨i, req', rfl, rfl⟩ |
          ⟨i, ω, req', b', op, k, r, rfl, hi, hexec, htask⟩ | ⟨i, rfl, rfl⟩
        · exact ⟨hR', hms, fun req b p ht => halong req b p (htask ▸ ht)⟩
        · simp only [nextMoments]
          split
          · rename_i hi
            refine ⟨hR', fun m hm => absurd hm List.not_mem_nil, fun req b p ht => ?_⟩
            simp only [Sys.setTask_task, hi, if_true] at ht
            cases ht
            exact .nil
          · rename_i hi
            refine ⟨hR', hms, fun req b p ht => halong req b p ?_⟩
            simpa only [Sys.setTask_task, if_neg (Ne.symm hi)] using ht
        · simp only [nextMoments]
          split
          · rename_i heq
            refine ⟨hR', fun m hm => ?_, fun req b p ht => ?_⟩
            · rcases List.mem_append.mp hm with hm | hm
              · exact hms m hm
              · exact List.mem_singleton.mp hm ▸ hR
            · rw [htask, Sys.setTask_task, if_pos heq.symm] at ht
              cases ht
              exact (halong _ _ _ (heq ▸ hi)).snoc (heq ▸ hexec)
          · rename_i hne
            refine ⟨hR', hms, fun req b p ht => halong req b p ?_⟩
            simpa only [htask, Sys.setTask_task, if_neg (Ne.symm hne)] using ht
        · refine ⟨hR', hms, fun req b p ht => halong req b p ?_⟩
          simp only [Sys.setTask_task] at ht
          split at ht
          · cases ht
          · exact ht
  have h := main as s [] s ⟨hrefl _, fun _ hm => absurd hm List.not_mem_nil,
    fun _ _ _ ht => (by simp [hidle] at ht)⟩ hrun
  exact ⟨h.2.2 req b p ht, h.2.1⟩

end Machine

end Foundation
