import Mathlib

/-!
# Concurrent programs over a shared world

Request handlers and background workers of a service are sequential programs whose every
interaction with the outside — a committed transaction, a call to another service — is one
atomic operation on a shared world, and which may be interleaved or lost between any two of
them.  `Prog` is such a program as a tree of operations, `Machine` fixes what an operation
does to the world, and `Machine.Reachable` is the set of states that some interleaving of
spawned programs, environment moves and lost tasks can produce.

Nondeterminism enters in one place: an operation consults an oracle value `Ω` chosen by the
schedule (the answer of a remote service, a fresh random identifier).  Steps are therefore
executable functions of the schedule, and a concrete interleaving is checked by running it
(`Machine.run`).

## Reasoning rules

* `Reachable.world_inv`: an invariant of the world that every operation keeps holds in every
  reachable state, whatever the programs are.
* `Keeps.holds`: the rely–guarantee rule, for invariants that depend on what each program
  already knows when it performs an operation.  Every operation has a contract, every task
  relies on a preorder that the operations of the others respect, and `Safe` says of a
  remaining program that it will keep its contracts under that interference.
  `Keeps.answers` adds what the programs return.
* `Keeps.contracted`: contracts once established may be assumed of every operation, so that
  later invariants are proved by `Reachable.guarded_inv` alone.
* `Reachable.and_inv`: an invariant once proved may be assumed at every operation.
* `Reachable.answers`: what a program returns in every interleaving, finished tasks have
  answered.
* `Reachable.world_rel`: a relation between the worlds before and after every operation,
  closed under composition, relates any two worlds of one run.

Guards `G` restrict which steps a run may take, so that a result can be stated for the runs
all of whose steps meet a condition.
-/

namespace Foundation

/-! ## Programs -/

/-- A sequential program: it returns, or performs an operation and continues with its
result. -/
inductive Prog (Op : Type) (Res : Op → Type) (α : Type) : Type where
  | ret (a : α)
  | call (op : Op) (k : Res op → Prog Op Res α)

namespace Prog

variable {Op : Type} {Res : Op → Type} {α β : Type}

/-- Sequential composition. -/
def bind : Prog Op Res α → (α → Prog Op Res β) → Prog Op Res β
  | ret a, f => f a
  | call op k, f => call op (fun r => (k r).bind f)

instance : Monad (Prog Op Res) where
  pure := ret
  bind := bind

/-- The program that performs one operation and returns its result. -/
def perform (op : Op) : Prog Op Res (Res op) := call op ret

@[simp] lemma pure_eq (a : α) : (pure a : Prog Op Res α) = ret a := rfl

@[simp] lemma ret_bind (a : α) (f : α → Prog Op Res β) : (ret a >>= f) = f a := rfl

@[simp] lemma call_bind (op : Op) (k : Res op → Prog Op Res α) (f : α → Prog Op Res β) :
    (call op k >>= f) = call op (fun r => k r >>= f) := rfl

@[simp] lemma perform_bind (op : Op) (f : Res op → Prog Op Res β) :
    (perform op >>= f) = call op f := rfl

/-- Every operation the program may still perform satisfies `P`. -/
def Every (P : Op → Prop) : Prog Op Res α → Prop
  | ret _ => True
  | call op k => P op ∧ ∀ r, (k r).Every P

@[simp] lemma every_ret (P : Op → Prop) (a : α) : (ret a : Prog Op Res α).Every P := trivial

@[simp] lemma every_call (P : Op → Prop) (op : Op) (k : Res op → Prog Op Res α) :
    (call op k).Every P ↔ P op ∧ ∀ r, (k r).Every P := Iff.rfl

lemma Every.bind {P : Op → Prop} {p : Prog Op Res α} {f : α → Prog Op Res β}
    (hp : p.Every P) (hf : ∀ a, (f a).Every P) : (p >>= f).Every P := by
  induction p with
  | ret a => exact hf a
  | call op k ih => exact ⟨hp.1, fun r => ih r (hp.2 r)⟩

lemma Every.mono {P Q : Op → Prop} (hPQ : ∀ op, P op → Q op) {p : Prog Op Res α}
    (hp : p.Every P) : p.Every Q := by
  induction p with
  | ret a => trivial
  | call op k ih => exact ⟨hPQ op hp.1, fun r => ih r (hp.2 r)⟩

end Prog

/-! ## Machines -/

/-- What the operations do, which programs may be spawned, and how the environment moves on
its own.  `exec` is told which task performs the operation; `stamp` is what a task remembers
of the world it was spawned in. -/
structure Machine (Op : Type) (Res : Op → Type) (Ω E W Req B α : Type) where
  exec : ℕ → (op : Op) → Ω → W → Option (Res op × W)
  env : E → W → Option W
  program : Req → Prog Op Res α
  stamp : W → B

/-- A running program, with the request it serves. -/
structure Task (Op : Type) (Res : Op → Type) (Req B α : Type) where
  req : Req
  born : B
  prog : Prog Op Res α

/-- The shared world and the tasks in progress. -/
structure Sys (Op : Type) (Res : Op → Type) (W Req B α : Type) where
  world : W
  task : ℕ → Option (Task Op Res Req B α)

/-- One move of the schedule. -/
inductive Act (Ω E Req : Type) where
  | env (e : E)
  | spawn (tid : ℕ) (req : Req)
  | resume (tid : ℕ) (ω : Ω)
  /-- The task is lost: a crash, a dropped connection, a timeout, an error it returns. -/
  | drop (tid : ℕ)

namespace Sys

variable {Op : Type} {Res : Op → Type} {W Req B α : Type}

/-- The state with nothing running. -/
def idle (w : W) : Sys Op Res W Req B α := ⟨w, fun _ => none⟩

/-- Replace the task in one slot. -/
def setTask (s : Sys Op Res W Req B α) (tid : ℕ) (t : Option (Task Op Res Req B α)) :
    Sys Op Res W Req B α :=
  { s with task := fun i => if i = tid then t else s.task i }

@[simp] lemma setTask_world (s : Sys Op Res W Req B α) (tid : ℕ)
    (t : Option (Task Op Res Req B α)) : (s.setTask tid t).world = s.world := rfl

@[simp] lemma setTask_task (s : Sys Op Res W Req B α) (tid : ℕ)
    (t : Option (Task Op Res Req B α)) (i : ℕ) :
    (s.setTask tid t).task i = if i = tid then t else s.task i := rfl

end Sys

namespace Machine

variable {Op : Type} {Res : Op → Type} {Ω E W Req B α : Type}
variable (M : Machine Op Res Ω E W Req B α)

/-- The state after one move, if the move is possible. -/
def step (s : Sys Op Res W Req B α) : Act Ω E Req → Option (Sys Op Res W Req B α)
  | .env e => (M.env e s.world).map fun w => { s with world := w }
  | .spawn tid req =>
      match s.task tid with
      | some _ => none
      | none => some (s.setTask tid (some ⟨req, M.stamp s.world, M.program req⟩))
  | .resume tid ω =>
      match s.task tid with
      | some ⟨req, b, .call op k⟩ =>
          (M.exec tid op ω s.world).map fun rw =>
            { (s.setTask tid (some ⟨req, b, k rw.1⟩)) with world := rw.2 }
      | _ => none
  | .drop tid => some (s.setTask tid none)

/-- States reachable from `s₀` by moves that all meet the guard `G`. -/
inductive Reachable (G : Sys Op Res W Req B α → Act Ω E Req → Prop)
    (s₀ : Sys Op Res W Req B α) : Sys Op Res W Req B α → Prop where
  | init : Reachable G s₀ s₀
  | step {s s' : Sys Op Res W Req B α} {a : Act Ω E Req} :
      Reachable G s₀ s → G s a → M.step s a = some s' → Reachable G s₀ s'

/-- The guard that forbids nothing. -/
def unguarded (_ : Sys Op Res W Req B α) (_ : Act Ω E Req) : Prop := True

instance (s : Sys Op Res W Req B α) (a : Act Ω E Req) : Decidable (unguarded s a) :=
  .isTrue trivial

/-- Run a schedule, stopping at the first move that is impossible or refused by `g`. -/
def run (g : Sys Op Res W Req B α → Act Ω E Req → Bool) :
    Sys Op Res W Req B α → List (Act Ω E Req) → Option (Sys Op Res W Req B α)
  | s, [] => some s
  | s, a :: as => if g s a then (M.step s a).bind (run g · as) else none

variable {M} {G : Sys Op Res W Req B α → Act Ω E Req → Prop} {s₀ : Sys Op Res W Req B α}

/-! ### What one move can do -/

/-- A move either leaves the world alone, is an environment move, or performs the next
operation of one task. -/
lemma step_cases {s s' : Sys Op Res W Req B α} {a : Act Ω E Req} (h : M.step s a = some s') :
    (∃ e, a = .env e ∧ M.env e s.world = some s'.world ∧ s'.task = s.task) ∨
    (∃ tid req, a = .spawn tid req ∧
      s' = s.setTask tid (some ⟨req, M.stamp s.world, M.program req⟩)) ∨
    (∃ tid ω req b op k r, a = .resume tid ω ∧ s.task tid = some ⟨req, b, .call op k⟩ ∧
      M.exec tid op ω s.world = some (r, s'.world) ∧
      s'.task = (s.setTask tid (some ⟨req, b, k r⟩)).task) ∨
    (∃ tid, a = .drop tid ∧ s' = s.setTask tid none) := by
  cases a with
  | env e =>
      simp only [step, Option.map_eq_some_iff] at h
      obtain ⟨w, hw, rfl⟩ := h
      exact .inl ⟨e, rfl, hw, rfl⟩
  | spawn tid req =>
      simp only [step] at h
      split at h
      · cases h
      · exact .inr (.inl ⟨tid, req, rfl, by simpa using h.symm⟩)
  | resume tid ω =>
      simp only [step] at h
      split at h
      · rename_i req b op k ht
        simp only [Option.map_eq_some_iff] at h
        obtain ⟨⟨r, w⟩, hw, rfl⟩ := h
        exact .inr (.inr (.inl ⟨tid, ω, req, b, op, k, r, rfl, ht, hw, rfl⟩))
      · cases h
  | drop tid =>
      exact .inr (.inr (.inr ⟨tid, rfl, by simpa [step] using h.symm⟩))

/-- How the world may change in one move. -/
inductive WorldStep (M : Machine Op Res Ω E W Req B α) : W → W → Prop where
  | env {e : E} {w w' : W} : M.env e w = some w' → WorldStep M w w'
  | exec {tid : ℕ} {op : Op} {ω : Ω} {r : Res op} {w w' : W} :
      M.exec tid op ω w = some (r, w') → WorldStep M w w'

lemma step_world {s s' : Sys Op Res W Req B α} {a : Act Ω E Req} (h : M.step s a = some s') :
    s'.world = s.world ∨ M.WorldStep s.world s'.world := by
  rcases step_cases h with ⟨e, -, hw, -⟩ | ⟨tid, req, -, rfl⟩ |
    ⟨tid, ω, req, b, op, k, r, -, -, hw, -⟩ | ⟨tid, -, rfl⟩
  · exact .inr (.env hw)
  · exact .inl rfl
  · exact .inr (.exec hw)
  · exact .inl rfl

/-! ### Runs -/

/-- A schedule that runs to the end reaches its final state. -/
lemma reachable_of_run {g : Sys Op Res W Req B α → Act Ω E Req → Bool}
    (hg : ∀ s a, g s a = true → G s a) {s s' : Sys Op Res W Req B α} :
    ∀ {as : List (Act Ω E Req)}, M.Reachable G s₀ s → M.run g s as = some s' →
      M.Reachable G s₀ s' := by
  intro as
  induction as generalizing s with
  | nil =>
      intro hs h
      simp only [run, Option.some.injEq] at h
      exact h ▸ hs
  | cons a as ih =>
      intro hs h
      simp only [run] at h
      split at h
      · rename_i hga
        simp only [Option.bind_eq_some_iff] at h
        obtain ⟨s₁, h₁, h₂⟩ := h
        exact ih (hs.step (hg s a hga) h₁) h₂
      · cases h

/-- The slot a move is about. -/
def slotOf : Act Ω E Req → Option ℕ
  | .env _ => none
  | .spawn tid _ | .resume tid _ | .drop tid => some tid

/-- A schedule leaves the slots alone that it does not name. -/
lemma task_of_run {g : Sys Op Res W Req B α → Act Ω E Req → Bool} {tid : ℕ}
    {s s' : Sys Op Res W Req B α} {as : List (Act Ω E Req)}
    (hslot : ∀ a ∈ as, slotOf a ≠ some tid) (h : M.run g s as = some s') :
    s'.task tid = s.task tid := by
  induction as generalizing s with
  | nil =>
      cases h
      rfl
  | cons a as ih =>
      simp only [run] at h
      split at h
      · obtain ⟨s₁, hs, h⟩ := Option.bind_eq_some_iff.mp h
        have hne : ∀ i, slotOf a = some i → tid ≠ i := fun i hi heq =>
          hslot a List.mem_cons_self (heq ▸ hi)
        rw [ih (fun b hb => hslot b (List.mem_cons_of_mem _ hb)) h]
        rcases step_cases hs with ⟨e, -, -, htask⟩ | ⟨i, req, rfl, rfl⟩ |
          ⟨i, ω, req, b, op, k, r, rfl, -, -, htask⟩ | ⟨i, rfl, rfl⟩
        · rw [htask]
        · rw [Sys.setTask_task, if_neg (hne i rfl)]
        · rw [htask, Sys.setTask_task, if_neg (hne i rfl)]
        · rw [Sys.setTask_task, if_neg (hne i rfl)]
      · cases h

/-- A schedule whose final state passes a test shows that such a state is reached. -/
lemma exists_reachable_of_run (M : Machine Op Res Ω E W Req B α)
    (G : Sys Op Res W Req B α → Act Ω E Req → Prop) [∀ s a, Decidable (G s a)]
    (s₀ : Sys Op Res W Req B α) (as : List (Act Ω E Req)) (P : Sys Op Res W Req B α → Prop)
    [DecidablePred P]
    (h : (M.run (fun s a => decide (G s a)) s₀ as).any (fun s => decide (P s)) = true) :
    ∃ s, M.Reachable G s₀ s ∧ P s := by
  rcases hs : M.run (fun s a => decide (G s a)) s₀ as with _ | s
  · simp [hs] at h
  · exact ⟨s, reachable_of_run (fun _ _ => of_decide_eq_true) .init hs, by simpa [hs] using h⟩

/-- A schedule in two parts shows a state and a later one that pass a test together. -/
lemma exists_later_of_run (M : Machine Op Res Ω E W Req B α)
    (G : Sys Op Res W Req B α → Act Ω E Req → Prop) [∀ s a, Decidable (G s a)]
    (s₀ : Sys Op Res W Req B α) (as bs : List (Act Ω E Req))
    (P : Sys Op Res W Req B α → Sys Op Res W Req B α → Prop) [∀ s s', Decidable (P s s')]
    (h : ((M.run (fun s a => decide (G s a)) s₀ as).any fun s =>
      (M.run (fun s a => decide (G s a)) s bs).any fun s' => decide (P s s')) = true) :
    ∃ s s', M.Reachable G s₀ s ∧ M.Reachable G s s' ∧ P s s' := by
  obtain ⟨s, hs, h⟩ := (Option.any_eq_true _ _).mp h
  obtain ⟨s', hs', h⟩ := (Option.any_eq_true _ _).mp h
  exact ⟨s, s', reachable_of_run (fun _ _ => of_decide_eq_true) .init hs,
    reachable_of_run (fun _ _ => of_decide_eq_true) .init hs', of_decide_eq_true h⟩

lemma Reachable.mono {G' : Sys Op Res W Req B α → Act Ω E Req → Prop}
    (hG : ∀ s a, G s a → G' s a) {s : Sys Op Res W Req B α} (h : M.Reachable G s₀ s) :
    M.Reachable G' s₀ s := by
  induction h with
  | init => exact .init
  | step _ hg hs ih => exact ih.step (hG _ _ hg) hs

/-- What is reached from a state that is reached is reached. -/
lemma Reachable.trans {s s' : Sys Op Res W Req B α} (h : M.Reachable G s₀ s)
    (h' : M.Reachable G s s') : M.Reachable G s₀ s' := by
  induction h' with
  | init => exact h
  | step _ hg hs ih => exact ih.step hg hs

/-- An invariant of the world kept by every operation and every environment move holds in
every reachable state. -/
theorem Reachable.world_inv {I : W → Prop} (h₀ : I s₀.world)
    (hstep : ∀ w w', M.WorldStep w w' → I w → I w')
    {s : Sys Op Res W Req B α} (h : M.Reachable G s₀ s) : I s.world := by
  induction h with
  | init => exact h₀
  | step _ _ hs ih =>
      rcases step_world hs with heq | hw
      · exact heq ▸ ih
      · exact hstep _ _ hw ih

/-- The same for an invariant that holds as long as a hypothesis on the world does, when the
hypothesis can only be lost as the run goes on. -/
theorem Reachable.world_inv_of {H I : W → Prop} (h₀ : H s₀.world → I s₀.world)
    (hback : ∀ w w', M.WorldStep w w' → H w' → H w)
    (hstep : ∀ w w', M.WorldStep w w' → H w' → I w → I w')
    {s : Sys Op Res W Req B α} (h : M.Reachable G s₀ s) (hH : H s.world) : I s.world := by
  induction h with
  | init => exact h₀ hH
  | step _ _ hs ih =>
      rcases step_world hs with heq | hw
      · rw [heq] at hH ⊢
        exact ih hH
      · exact hstep _ _ hw hH (ih (hback _ _ hw hH))

/-- A preorder that every change of the world respects relates the worlds of any two states
of one run, the second reached from the first. -/
theorem Reachable.world_rel {R : W → W → Prop} (hrefl : ∀ w, R w w)
    (htrans : ∀ {a b c}, R a b → R b c → R a c)
    (hstep : ∀ w w', M.WorldStep w w' → R w w')
    {s : Sys Op Res W Req B α} (h : M.Reachable G s₀ s) : R s₀.world s.world := by
  induction h with
  | init => exact hrefl _
  | step _ _ hs ih =>
      rcases step_world hs with heq | hw
      · exact heq ▸ ih
      · exact htrans ih (hstep _ _ hw)

/-! ### Guarded operations -/

section Guards

variable {P P' : ℕ → Req → B → Op → Ω → W → Prop}

/-- The operation a move performs meets `P`; other moves are free. -/
def onOps (P : ℕ → Req → B → Op → Ω → W → Prop) (s : Sys Op Res W Req B α) :
    Act Ω E Req → Prop
  | .resume tid ω =>
      match s.task tid with
      | some ⟨req, b, .call op _⟩ => P tid req b op ω s.world
      | _ => True
  | _ => True

instance [∀ tid req b op ω w, Decidable (P tid req b op ω w)] (s : Sys Op Res W Req B α)
    (a : Act Ω E Req) : Decidable (onOps P s a) := by
  unfold onOps
  split
  · split <;> infer_instance
  · infer_instance

/-- Every operation is allowed. -/
def anyOp (_ : ℕ) (_ : Req) (_ : B) (_ : Op) (_ : Ω) (_ : W) : Prop := True

lemma onOps_resume {s : Sys Op Res W Req B α} {tid : ℕ} {req : Req} {b : B} {op : Op}
    {k : Res op → Prog Op Res α} {ω : Ω} (ht : s.task tid = some ⟨req, b, .call op k⟩) :
    onOps P s (.resume tid ω : Act Ω E Req) ↔ P tid req b op ω s.world := by
  simp only [onOps, ht]

lemma onOps_anyOp (s : Sys Op Res W Req B α) (a : Act Ω E Req) : onOps anyOp s a := by
  cases a with
  | resume tid ω =>
      rcases ht : s.task tid with _ | ⟨req, b, _ | ⟨op, k⟩⟩
      · simp [onOps, ht]
      · simp [onOps, ht]
      · exact (onOps_resume ht).mpr trivial
  | _ => trivial

lemma onOps_mono (hP : ∀ tid req b op ω w, P tid req b op ω w → P' tid req b op ω w)
    {s : Sys Op Res W Req B α} {a : Act Ω E Req} (h : onOps P s a) : onOps P' s a := by
  cases a with
  | resume tid ω =>
      rcases ht : s.task tid with _ | ⟨req, b, _ | ⟨op, k⟩⟩
      · simp [onOps, ht]
      · simp [onOps, ht]
      · exact (onOps_resume ht).mpr (hP _ _ _ _ _ _ ((onOps_resume ht).mp h))
  | _ => trivial

/-- An invariant kept by every operation that meets the guard holds in every state the
guarded runs reach. -/
theorem Reachable.guarded_inv {I : W → Prop} (h₀ : I s₀.world)
    (henv : ∀ e w w', M.env e w = some w' → I w → I w')
    (hop : ∀ tid req b op ω r w w', P tid req b op ω w → M.exec tid op ω w = some (r, w') →
      I w → I w')
    {s : Sys Op Res W Req B α} (h : M.Reachable (onOps P) s₀ s) : I s.world := by
  induction h with
  | init => exact h₀
  | step _ hg hs ih =>
      rcases step_cases hs with ⟨e, -, hw, -⟩ | ⟨tid, req, -, rfl⟩ |
        ⟨tid, ω, req, b, op, k, r, rfl, ht, hw, -⟩ | ⟨tid, -, rfl⟩
      · exact henv _ _ _ hw ih
      · exact ih
      · exact hop _ _ _ _ _ _ _ _ ((onOps_resume ht).mp hg) hw ih
      · exact ih

/-- What holds in every state of the guarded runs may be assumed at every operation. -/
lemma Reachable.and_inv {I : W → Prop}
    (hI : ∀ {s : Sys Op Res W Req B α}, M.Reachable (onOps P) s₀ s → I s.world)
    {s : Sys Op Res W Req B α} (h : M.Reachable (onOps P) s₀ s) :
    M.Reachable (onOps fun tid req b op ω w => P tid req b op ω w ∧ I w) s₀ s := by
  induction h with
  | init => exact .init
  | @step s s' a hr hg hs ih =>
      refine ih.step ?_ hs
      cases a with
      | resume tid ω =>
          rcases ht : s.task tid with _ | ⟨req, b, _ | ⟨op, k⟩⟩
          · simp [onOps, ht]
          · simp [onOps, ht]
          · exact (onOps_resume ht).mpr ⟨(onOps_resume ht).mp hg, hI hr⟩
      | _ => trivial

end Guards

/-! ### Rely and guarantee -/

section RelyGuarantee

variable (M) (I : W → Prop) (R : ℕ → W → W → Prop) (P : ℕ → Req → B → Op → Ω → W → Prop)
  (C : ℕ → Req → B → Op → W → Prop)

/-- The remaining program `p` of task `tid` keeps its contract: whatever the other tasks do in
between (`R tid`, in worlds satisfying `I`), each operation it comes to perform satisfies `C`
at that moment, and if it returns, its result satisfies `Q`. -/
def Safe (tid : ℕ) (req : Req) (b : B) {β : Type} (Q : β → W → Prop) : Prog Op Res β → W → Prop
  | .ret a, w => Q a w
  | .call op k, w => ∀ w', I w' → R tid w w' → ∀ ω, P tid req b op ω w' →
      C tid req b op w' ∧
        ∀ r w'', M.exec tid op ω w' = some (r, w'') → Safe tid req b Q (k r) w''

/-- The obligations of a rely–guarantee argument: what each task relies on is a preorder, the
environment and every operation that keeps its contract respect the invariant and what the
other tasks rely on, and every program spawned keeps its contract. -/
structure Keeps : Prop where
  refl : ∀ tid w, R tid w w
  trans : ∀ {tid w₁ w₂ w₃}, R tid w₁ w₂ → R tid w₂ w₃ → R tid w₁ w₃
  env : ∀ {e w w'}, I w → M.env e w = some w' → I w' ∧ ∀ tid, R tid w w'
  op : ∀ {tid req b op ω r w w'}, I w → P tid req b op ω w → C tid req b op w →
    M.exec tid op ω w = some (r, w') → I w' ∧ ∀ tid', tid' ≠ tid → R tid' w w'
  spawn : ∀ tid req w, I w →
    Safe M I R P C tid req (M.stamp w) (fun _ _ => True) (M.program req) w

variable {M I R P C}

/-- Interference the task already allows for does not invalidate its safety. -/
lemma Keeps.stable (hK : Keeps M I R P C) {tid : ℕ} {req : Req} {b : B} {β : Type}
    {Q : β → W → Prop} {p : Prog Op Res β} {w w' : W} (hQ : ∀ a, R tid w w' → Q a w → Q a w')
    (h : Safe M I R P C tid req b Q p w) (hR : R tid w w') : Safe M I R P C tid req b Q p w' := by
  cases p with
  | ret a => exact hQ a hR h
  | call op k => exact fun w₂ hI h₂ => h w₂ hI (hK.trans hR h₂)

/-- The rule of one operation: an assertion the task's interference respects holds when the
operation comes to be performed. -/
lemma Safe.step {tid : ℕ} {req : Req} {b : B} {β : Type} {op : Op} {k : Res op → Prog Op Res β}
    {Q : β → W → Prop} {w : W} {A : W → Prop} (hA : A w)
    (hstable : ∀ {w w'}, R tid w w' → A w → A w')
    (hcall : ∀ w' ω, I w' → A w' → P tid req b op ω w' → C tid req b op w' ∧
      ∀ r w'', M.exec tid op ω w' = some (r, w'') → Safe M I R P C tid req b Q (k r) w'') :
    Safe M I R P C tid req b Q (.call op k) w :=
  fun w' hI hR ω hP => hcall w' ω hI (hstable hR hA) hP

/-- The rule of sequential composition. -/
lemma Safe.bind {tid : ℕ} {req : Req} {b : B} {β γ : Type} {p : Prog Op Res β}
    {f : β → Prog Op Res γ} {Q : β → W → Prop} {Q' : γ → W → Prop} {w : W}
    (hp : Safe M I R P C tid req b Q p w)
    (hf : ∀ a w, Q a w → Safe M I R P C tid req b Q' (f a) w) :
    Safe M I R P C tid req b Q' (p >>= f) w := by
  induction p generalizing w with
  | ret a => exact hf a w hp
  | call op k ih =>
      intro w' hI hR ω hP
      obtain ⟨hC, hk⟩ := hp w' hI hR ω hP
      exact ⟨hC, fun r w'' he => ih r (hk r w'' he)⟩

lemma Safe.mono {tid : ℕ} {req : Req} {b : B} {β : Type} {p : Prog Op Res β}
    {Q Q' : β → W → Prop} {w : W} (hp : Safe M I R P C tid req b Q p w)
    (hQ : ∀ a w, Q a w → Q' a w) : Safe M I R P C tid req b Q' p w := by
  induction p generalizing w with
  | ret a => exact hQ a w hp
  | call op k ih =>
      intro w' hI hR ω hP
      obtain ⟨hC, hk⟩ := hp w' hI hR ω hP
      exact ⟨hC, fun r w'' he => ih r (hk r w'' he)⟩

variable (M I R C) in
/-- An assertion that neither the interference nor the task's own operations invalidate. -/
structure Lasting (tid : ℕ) (req : Req) (b : B) (A : W → Prop) : Prop where
  rely : ∀ {w w'}, R tid w w' → A w → A w'
  exec : ∀ {op ω r w w'}, I w → C tid req b op w → M.exec tid op ω w = some (r, w') → A w → A w'

/-- The rule of a program that owes nothing beyond a lasting assertion. -/
lemma Safe.of_lasting {tid : ℕ} {req : Req} {b : B} {β : Type} {p : Prog Op Res β}
    {A : W → Prop} (hA : Lasting M I R C tid req b A)
    (hp : p.Every (fun op => ∀ w, I w → A w → C tid req b op w)) {w : W} (hw : A w) :
    Safe M I R P C tid req b (fun _ => A) p w := by
  induction p generalizing w with
  | ret a => exact hw
  | call op k ih =>
      intro w' hI hR ω _
      have hw' := hA.rely hR hw
      have hC := hp.1 w' hI hw'
      exact ⟨hC, fun r w'' he => ih r (hp.2 r) (hA.exec hI hC he hw')⟩

/-- **The rely–guarantee rule for answers.**  When what a task relies on keeps an answer right,
and every program spawned keeps its contract and returns right answers, every task of a run does:
one that has finished has answered right. -/
theorem Keeps.answers {Q : Req → B → α → W → Prop} (hK : Keeps M I R P C)
    (hkeep : ∀ {tid req b a w w'}, R tid w w' → Q req b a w → Q req b a w')
    (hspawn : ∀ tid req w, I w →
      Safe M I R P C tid req (M.stamp w) (Q req (M.stamp w)) (M.program req) w)
    (h₀ : I s₀.world) (hidle : ∀ tid, s₀.task tid = none) {s : Sys Op Res W Req B α}
    (h : M.Reachable (onOps P) s₀ s) :
    I s.world ∧ ∀ tid req b p, s.task tid = some ⟨req, b, p⟩ →
      Safe M I R P C tid req b (Q req b) p s.world := by
  induction h with
  | init => exact ⟨h₀, fun tid req b p ht => by simp [hidle tid] at ht⟩
  | step _ hg hs ih =>
      obtain ⟨hI, hT⟩ := ih
      rcases step_cases hs with ⟨e, rfl, hw, htask⟩ | ⟨tid, req, rfl, rfl⟩ |
        ⟨tid, ω, req, b, op, k, r, rfl, ht, hw, htask⟩ | ⟨tid, rfl, rfl⟩
      · obtain ⟨hI', hR⟩ := hK.env hI hw
        refine ⟨hI', fun tid req b p hp => ?_⟩
        rw [htask] at hp
        exact hK.stable (fun _ => hkeep) (hT tid req b p hp) (hR tid)
      · refine ⟨hI, fun tid' req' b' p' hp => ?_⟩
        simp only [Sys.setTask_task] at hp
        split at hp
        · rename_i heq
          subst heq
          cases hp
          exact hspawn _ _ _ hI
        · exact hT tid' req' b' p' hp
      · have hP := (onOps_resume ht).mp hg
        obtain ⟨hC, hk⟩ := hT tid req b _ ht _ hI (hK.refl _ _) ω hP
        obtain ⟨hI', hR⟩ := hK.op hI hP hC hw
        refine ⟨hI', fun tid' req' b' p' hp => ?_⟩
        rw [htask, Sys.setTask_task] at hp
        split at hp
        · rename_i heq
          subst heq
          cases hp
          exact hk r _ hw
        · rename_i hne
          exact hK.stable (fun _ => hkeep) (hT tid' req' b' p' hp) (hR tid' hne)
      · refine ⟨hI, fun tid' req' b' p' hp => ?_⟩
        simp only [Sys.setTask_task] at hp
        split at hp
        · cases hp
        · exact hT tid' req' b' p' hp

/-- **The rely–guarantee rule.**  In every reachable state the invariant holds and every task
in progress keeps its contract. -/
theorem Keeps.holds (hK : Keeps M I R P C) (h₀ : I s₀.world) (hidle : ∀ tid, s₀.task tid = none)
    {s : Sys Op Res W Req B α} (h : M.Reachable (onOps P) s₀ s) :
    I s.world ∧ ∀ tid req b p, s.task tid = some ⟨req, b, p⟩ →
      Safe M I R P C tid req b (fun _ _ => True) p s.world :=
  hK.answers (Q := fun _ _ _ _ => True) (fun _ h => h) hK.spawn h₀ hidle h

/-- **Contracts as guards.**  Once the contracts are established, every run may be taken to
perform only operations that keep them, from any state it has reached. -/
theorem Keeps.contracted_later {P' : ℕ → Req → B → Op → Ω → W → Prop} (hK : Keeps M I R P C)
    (h₀ : I s₀.world) (hidle : ∀ tid, s₀.task tid = none)
    (hP : ∀ tid req b op ω w, P' tid req b op ω w → P tid req b op ω w)
    {s s' : Sys Op Res W Req B α} (h : M.Reachable (onOps P') s₀ s)
    (h' : M.Reachable (onOps P') s s') :
    M.Reachable (onOps fun tid req b op ω w => P' tid req b op ω w ∧ I w ∧ C tid req b op w)
      s s' := by
  induction h' with
  | init => exact .init
  | @step s₁ s₂ a hr hg hs ih =>
      refine ih.step ?_ hs
      obtain ⟨hI, hT⟩ := hK.holds h₀ hidle ((h.trans hr).mono fun _ _ => onOps_mono hP)
      cases a with
      | resume tid ω =>
          rcases ht : s₁.task tid with _ | ⟨req, b, _ | ⟨op, k⟩⟩
          · simp [onOps, ht]
          · simp [onOps, ht]
          · have hP' := (onOps_resume ht).mp hg
            exact (onOps_resume ht).mpr ⟨hP', hI,
              (hT tid req b _ ht s₁.world hI (hK.refl _ _) ω (hP _ _ _ _ _ _ hP')).1⟩
      | _ => trivial

/-- The same from the start. -/
theorem Keeps.contracted {P' : ℕ → Req → B → Op → Ω → W → Prop} (hK : Keeps M I R P C)
    (h₀ : I s₀.world) (hidle : ∀ tid, s₀.task tid = none)
    (hP : ∀ tid req b op ω w, P' tid req b op ω w → P tid req b op ω w)
    {s : Sys Op Res W Req B α} (h : M.Reachable (onOps P') s₀ s) :
    M.Reachable (onOps fun tid req b op ω w => P' tid req b op ω w ∧ I w ∧ C tid req b op w)
      s₀ s :=
  hK.contracted_later h₀ hidle hP .init h

end RelyGuarantee

/-! ### Answers -/

section Answers

variable (M) (R : W → W → Prop)

/-- Whatever happens to the world around it that respects `R`, the program returns only what
satisfies `Q` of the world it returns in. -/
def Returns {β : Type} (Q : β → W → Prop) : Prog Op Res β → W → Prop
  | .ret a, w => Q a w
  | .call op k, w => ∀ w', R w w' → ∀ tid ω r w'', M.exec tid op ω w' = some (r, w'') →
      Returns Q (k r) w''

variable {M R}

/-- What holds of every answer is returned by every program. -/
lemma Returns.of_forall {β : Type} {Q : β → W → Prop} (hQ : ∀ a w, Q a w) (p : Prog Op Res β)
    (w : W) : Returns M R Q p w := by
  induction p generalizing w with
  | ret a => exact hQ a w
  | call op k ih => exact fun _ _ _ _ r w'' _ => ih r w''

/-- An assertion kept by `R` and by every operation may be assumed of the rest of the program,
whatever its first part does. -/
lemma Returns.bind {β γ : Type} {p : Prog Op Res β} {f : β → Prog Op Res γ}
    {Q : γ → W → Prop} {A : W → Prop} {w : W} (hR : ∀ {w w'}, R w w' → A w → A w')
    (hop : ∀ {tid op ω r w w'}, M.exec tid op ω w = some (r, w') → A w → A w') (hw : A w)
    (hf : ∀ a w, A w → Returns M R Q (f a) w) : Returns M R Q (p >>= f) w := by
  induction p generalizing w with
  | ret a => exact hf a w hw
  | call op k ih => exact fun w' h tid ω r w'' he => ih r (hop he (hR h hw))

lemma Returns.mono {β : Type} {Q Q' : β → W → Prop} {p : Prog Op Res β} {w : W}
    (hp : Returns M R Q p w) (hQ : ∀ a w, Q a w → Q' a w) : Returns M R Q' p w := by
  induction p generalizing w with
  | ret a => exact hQ a w hp
  | call op k ih => exact fun w' h tid ω r w'' he => ih r (hp w' h tid ω r w'' he)

/-- **Answers.**  When every change of the world respects a preorder that keeps the answers
right, and every program spawned returns right answers, every finished task of every run has
answered right. -/
theorem Reachable.answers {Q : Req → α → W → Prop} (hrefl : ∀ w, R w w)
    (htrans : ∀ {a b c}, R a b → R b c → R a c)
    (hstep : ∀ w w', M.WorldStep w w' → R w w')
    (hkeep : ∀ {req a w w'}, R w w' → Q req a w → Q req a w')
    (hspawn : ∀ req w, Returns M R (Q req) (M.program req) w)
    (hidle : ∀ tid, s₀.task tid = none) {s : Sys Op Res W Req B α} (h : M.Reachable G s₀ s) :
    ∀ tid req b p, s.task tid = some ⟨req, b, p⟩ → Returns M R (Q req) p s.world := by
  have stable : ∀ {req w w'} {p : Prog Op Res α}, R w w' → Returns M R (Q req) p w →
      Returns M R (Q req) p w' := by
    intro req w w' p hR hp
    cases p with
    | ret a => exact hkeep hR hp
    | call op k => exact fun w'' h => hp w'' (htrans hR h)
  induction h with
  | init => exact fun tid req b p ht => by simp [hidle tid] at ht
  | step _ _ hs ih =>
      rcases step_cases hs with ⟨e, rfl, hw, htask⟩ | ⟨tid, req, rfl, rfl⟩ |
        ⟨tid, ω, req, b, op, k, r, rfl, ht, hw, htask⟩ | ⟨tid, rfl, rfl⟩ <;>
        intro tid' req' b' p' hp
      · rw [htask] at hp
        exact stable (hstep _ _ (.env hw)) (ih tid' req' b' p' hp)
      · simp only [Sys.setTask_task] at hp
        split at hp
        · cases hp
          exact hspawn req _
        · exact ih tid' req' b' p' hp
      · rw [htask, Sys.setTask_task] at hp
        split at hp
        · cases hp
          exact ih tid req b _ ht _ (hrefl _) tid ω r _ hw
        · exact stable (hstep _ _ (.exec hw)) (ih tid' req' b' p' hp)
      · simp only [Sys.setTask_task] at hp
        split at hp
        · cases hp
        · exact ih tid' req' b' p' hp

end Answers

end Machine

end Foundation
