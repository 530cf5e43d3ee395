import Naivolt.Foundation.Actors

/-!
# Supervised loops

A background worker is a loop that is kept running: a start that builds the state of the loop,
a pass that goes round once and hands the state on, and a supervisor that starts the worker
again whenever it dies, be it from an error it gives up on or because the process is gone.
`Worker` is such a loop written with `Prog`, `Service` says what its operations and the rest of
the world do, and `Service.Reachable` is the set of states that some interleaving of the loop
with its environment, its crashes and its restarts can produce.  A crash may come between any
two operations.

## Reasoning rules

* `Reachable.world_inv`: what every operation and every move of the environment keeps.
* `Sound.holds`: the crash rule.  `Keeps V P I R Q p w` says that the program `p`, run from `w`
  under interference `R`, keeps `I` at every operation — so a crash may come at any time — and
  leaves `Q` if it returns; a worker is sound when its start establishes the invariant `L` of the
  loop and its pass restores it.
* `Keeps.completes`: a program that runs to its result among moves of the environment
  (`Completes`) has achieved what it keeps to, for statements about what one pass achieves.
-/

namespace Foundation

/-! ## Programs inside a larger set of operations -/

namespace Prog

variable {Op Op' : Type} {Res : Op → Type} {Res' : Op' → Type} {α β : Type}

/-- The same program among the operations of a larger system. -/
def lift (f : Op → Op') (g : ∀ op, Res' (f op) → Res op) : Prog Op Res α → Prog Op' Res' α
  | ret a => ret a
  | call op k => call (f op) fun r => (k (g op r)).lift f g

variable (f : Op → Op') (g : ∀ op, Res' (f op) → Res op)

@[simp] lemma lift_ret (a : α) : (ret a : Prog Op Res α).lift f g = ret a := rfl

@[simp] lemma lift_call (op : Op) (k : Res op → Prog Op Res α) :
    (call op k).lift f g = call (f op) fun r => (k (g op r)).lift f g := rfl

@[simp] lemma lift_perform (op : Op) :
    (perform op : Prog Op Res (Res op)).lift f g = call (f op) fun r => ret (g op r) := rfl

@[simp] lemma lift_bind (p : Prog Op Res α) (q : α → Prog Op Res β) :
    (p >>= q).lift f g = p.lift f g >>= fun a => (q a).lift f g := by
  induction p with
  | ret a => rfl
  | call op k ih =>
      simp only [call_bind, lift_call]
      exact congrArg (call (f op)) (funext fun r => ih _)

/-- A lifted program performs what the program performs. -/
lemma Every.lift {P : Op → Prop} {p : Prog Op Res α} (hp : p.Every P) :
    (p.lift f g).Every fun op' => ∃ op, op' = f op ∧ P op := by
  induction p with
  | ret a => trivial
  | call op k ih => exact ⟨⟨op, rfl, hp.1⟩, fun r => ih _ (hp.2 _)⟩

/-- Any program performs its operations. -/
lemma every_true (p : Prog Op Res α) : p.Every fun _ => True := by
  induction p with
  | ret a => trivial
  | call op k ih => exact ⟨trivial, ih⟩

end Prog

/-! ## Workers and services -/

/-- A loop under a supervisor: how it starts, and one pass from the state of the loop.  `none`
is an error the worker gives up on. -/
structure Worker (Op : Type) (Res : Op → Type) (S : Type) where
  start : Prog Op Res (Option S)
  pass : S → Prog Op Res (Option S)

/-- A worker, what its operations do to the world, and how the world moves without it. -/
structure Service (Op : Type) (Res : Op → Type) (Ω E W S : Type) where
  exec : (op : Op) → Ω → W → Option (Res op × W)
  env : E → W → Option W
  worker : Worker Op Res S

/-- The world, and what is left of the program the worker is in, if it is up. -/
structure Site (Op : Type) (Res : Op → Type) (W S : Type) where
  world : W
  running : Option (Prog Op Res (Option S))

/-- One move of the schedule. -/
inductive SiteMove (Ω E : Type) where
  | env (e : E)
  | boot
  | perform (ω : Ω)
  /-- The loop goes round, or the worker gives up. -/
  | turn
  | crash

namespace Service

variable {Op : Type} {Res : Op → Type} {Ω E W S : Type} (V : Service Op Res Ω E W S)

/-- The state after one move, if the move is possible. -/
def step (s : Site Op Res W S) : SiteMove Ω E → Option (Site Op Res W S)
  | .env e => (V.env e s.world).map fun w => { s with world := w }
  | .boot =>
      match s.running with
      | none => some { s with running := some V.worker.start }
      | some _ => none
  | .perform ω =>
      match s.running with
      | some (.call op k) => (V.exec op ω s.world).map fun rw => ⟨rw.2, some (k rw.1)⟩
      | _ => none
  | .turn =>
      match s.running with
      | some (.ret (some a)) => some { s with running := some (V.worker.pass a) }
      | some (.ret none) => some { s with running := none }
      | _ => none
  | .crash => some { s with running := none }

/-- States reachable from `s₀` by moves that all meet the guard `G`. -/
inductive Reachable (G : Site Op Res W S → SiteMove Ω E → Prop) (s₀ : Site Op Res W S) :
    Site Op Res W S → Prop where
  | init : Reachable G s₀ s₀
  | step {s s' : Site Op Res W S} {m : SiteMove Ω E} :
      Reachable G s₀ s → G s m → V.step s m = some s' → Reachable G s₀ s'

/-- Run a schedule, stopping at the first move that is impossible or refused by `g`. -/
def run (g : Site Op Res W S → SiteMove Ω E → Bool) :
    Site Op Res W S → List (SiteMove Ω E) → Option (Site Op Res W S)
  | s, [] => some s
  | s, m :: ms => if g s m then (V.step s m).bind (run g · ms) else none

/-- The guard that asks `P` of every operation and `Q` of every move of the environment. -/
def guarded (P : Op → Ω → W → Prop) (Q : E → W → Prop) (s : Site Op Res W S) :
    SiteMove Ω E → Prop
  | .env e => Q e s.world
  | .perform ω =>
      match s.running with
      | some (.call op _) => P op ω s.world
      | _ => True
  | _ => True

instance (P : Op → Ω → W → Prop) (Q : E → W → Prop) [∀ op ω w, Decidable (P op ω w)]
    [∀ e w, Decidable (Q e w)] (s : Site Op Res W S) (m : SiteMove Ω E) :
    Decidable (guarded P Q s m) := by
  unfold guarded
  split
  · infer_instance
  · split <;> infer_instance
  · infer_instance

/-- No condition on the operations. -/
def anyOp (_ : Op) (_ : Ω) (_ : W) : Prop := True

/-- No condition on the environment. -/
def anyEnv (_ : E) (_ : W) : Prop := True

instance (op : Op) (ω : Ω) (w : W) : Decidable (anyOp op ω w) := .isTrue trivial

instance (e : E) (w : W) : Decidable (anyEnv e w) := .isTrue trivial

variable {V} {G : Site Op Res W S → SiteMove Ω E → Prop} {s₀ : Site Op Res W S}

/-! ### Runs -/

/-- A schedule that runs to the end reaches its final state. -/
lemma reachable_of_run {g : Site Op Res W S → SiteMove Ω E → Bool}
    (hg : ∀ s m, g s m = true → G s m) {s s' : Site Op Res W S} :
    ∀ {ms : List (SiteMove Ω E)}, V.Reachable G s₀ s → V.run g s ms = some s' →
      V.Reachable G s₀ s' := by
  intro ms
  induction ms generalizing s with
  | nil =>
      intro hs h
      simp only [run, Option.some.injEq] at h
      exact h ▸ hs
  | cons m ms ih =>
      intro hs h
      simp only [run] at h
      split at h
      · rename_i hgm
        obtain ⟨s₁, h₁, h₂⟩ := Option.bind_eq_some_iff.mp h
        exact ih (hs.step (hg s m hgm) h₁) h₂
      · cases h

/-- A schedule whose final state passes a test shows that such a state is reached. -/
lemma exists_reachable_of_run (V : Service Op Res Ω E W S)
    (G : Site Op Res W S → SiteMove Ω E → Prop) [∀ s m, Decidable (G s m)]
    (s₀ : Site Op Res W S) (ms : List (SiteMove Ω E)) (P : Site Op Res W S → Prop)
    [DecidablePred P]
    (h : (V.run (fun s m => decide (G s m)) s₀ ms).any (fun s => decide (P s)) = true) :
    ∃ s, V.Reachable G s₀ s ∧ P s := by
  rcases hs : V.run (fun s m => decide (G s m)) s₀ ms with _ | s
  · simp [hs] at h
  · exact ⟨s, reachable_of_run (fun _ _ => of_decide_eq_true) .init hs, by simpa [hs] using h⟩

lemma Reachable.mono {G' : Site Op Res W S → SiteMove Ω E → Prop} (hG : ∀ s m, G s m → G' s m)
    {s : Site Op Res W S} (h : V.Reachable G s₀ s) : V.Reachable G' s₀ s := by
  induction h with
  | init => exact .init
  | step _ hg hs ih => exact ih.step (hG _ _ hg) hs

/-- **What one move can do.** -/
lemma step_cases {s s' : Site Op Res W S} {m : SiteMove Ω E} (h : V.step s m = some s') :
    (∃ e, m = .env e ∧ V.env e s.world = some s'.world ∧ s'.running = s.running) ∨
    (∃ op k ω r, m = .perform ω ∧ s.running = some (.call op k) ∧
      V.exec op ω s.world = some (r, s'.world) ∧ s'.running = some (k r)) ∨
    (s'.world = s.world ∧ s'.running = none) ∨
    (s'.world = s.world ∧ s'.running = some V.worker.start) ∨
    ∃ a, s'.world = s.world ∧ s.running = some (.ret (some a)) ∧
      s'.running = some (V.worker.pass a) := by
  cases m with
  | env e =>
      obtain ⟨w, hw, rfl⟩ := Option.map_eq_some_iff.mp h
      exact .inl ⟨e, rfl, hw, rfl⟩
  | boot =>
      simp only [step] at h
      split at h
      · cases h
        exact .inr (.inr (.inr (.inl ⟨rfl, rfl⟩)))
      · cases h
  | perform ω =>
      simp only [step] at h
      split at h
      · rename_i op k hrun
        obtain ⟨⟨r, w⟩, hw, rfl⟩ := Option.map_eq_some_iff.mp h
        exact .inr (.inl ⟨op, k, ω, r, rfl, hrun, hw, rfl⟩)
      · cases h
  | turn =>
      simp only [step] at h
      split at h
      · rename_i a hrun
        cases h
        exact .inr (.inr (.inr (.inr ⟨a, rfl, hrun, rfl⟩)))
      · cases h
        exact .inr (.inr (.inl ⟨rfl, rfl⟩))
      · cases h
  | crash =>
      cases h
      exact .inr (.inr (.inl ⟨rfl, rfl⟩))

section Guards

variable {P : Op → Ω → W → Prop} {Q : E → W → Prop}

lemma guarded_perform {s : Site Op Res W S} {op : Op} {k : Res op → Prog Op Res (Option S)}
    {ω : Ω} (hrun : s.running = some (.call op k)) :
    guarded P Q s (.perform ω : SiteMove Ω E) ↔ P op ω s.world := by
  simp only [guarded, hrun]

/-- A relation that every operation and every move of the environment respects relates the
worlds of any two states of one run. -/
theorem Reachable.world_rel {R : W → W → Prop} (hrefl : ∀ w, R w w)
    (htrans : ∀ {a b c}, R a b → R b c → R a c)
    (henv : ∀ e w w', Q e w → V.env e w = some w' → R w w')
    (hop : ∀ op ω r w w', P op ω w → V.exec op ω w = some (r, w') → R w w')
    {s : Site Op Res W S} (h : V.Reachable (guarded P Q) s₀ s) : R s₀.world s.world := by
  induction h with
  | init => exact hrefl _
  | step _ hg hs ih =>
      rcases step_cases hs with ⟨e, rfl, hw, -⟩ | ⟨op, k, ω, r, rfl, hrun, hw, -⟩ |
        ⟨heq, -⟩ | ⟨heq, -⟩ | ⟨a, heq, -, -⟩
      · exact htrans ih (henv _ _ _ hg hw)
      · exact htrans ih (hop _ _ _ _ _ ((guarded_perform hrun).mp hg) hw)
      · exact heq ▸ ih
      · exact heq ▸ ih
      · exact heq ▸ ih

/-- An invariant of the world kept by every operation that meets the guard, and by the
environment, holds in every reachable state. -/
theorem Reachable.world_inv {I : W → Prop} (h₀ : I s₀.world)
    (henv : ∀ e w w', Q e w → V.env e w = some w' → I w → I w')
    (hop : ∀ op ω r w w', P op ω w → V.exec op ω w = some (r, w') → I w → I w')
    {s : Site Op Res W S} (h : V.Reachable (guarded P Q) s₀ s) : I s.world :=
  Reachable.world_rel (R := fun w w' => I w → I w') (fun _ hw => hw)
    (fun h₁ h₂ hw => h₂ (h₁ hw)) henv hop h h₀

end Guards

/-! ### The crash rule -/

section Crash

variable (V) (P : Op → Ω → W → Prop) (I : W → Prop) (R : W → W → Prop)

/-- The program keeps the invariant at every operation, whatever happens to the world in
between (`R`, in worlds satisfying `I`), and its result satisfies `Q`. -/
def Keeps {β : Type} (Q : β → W → Prop) : Prog Op Res β → W → Prop
  | .ret a, w => Q a w
  | .call op k, w => ∀ w', R w w' → I w' → ∀ ω r w'', P op ω w' →
      V.exec op ω w' = some (r, w'') → I w'' ∧ Keeps Q (k r) w''

variable {V P I R}

lemma Keeps.mono {β : Type} {p : Prog Op Res β} {Q Q' : β → W → Prop} {w : W}
    (hp : Keeps V P I R Q p w) (hQ : ∀ a w, Q a w → Q' a w) : Keeps V P I R Q' p w := by
  induction p generalizing w with
  | ret a => exact hQ a w hp
  | call op k ih =>
      intro w' hR hI ω r w'' hP he
      obtain ⟨hI', hk⟩ := hp w' hR hI ω r w'' hP he
      exact ⟨hI', ih r hk⟩

/-- The rule of sequential composition. -/
lemma Keeps.bind {β γ : Type} {p : Prog Op Res β} {f : β → Prog Op Res γ} {Q : β → W → Prop}
    {Q' : γ → W → Prop} {w : W} (hp : Keeps V P I R Q p w)
    (hf : ∀ a w, Q a w → Keeps V P I R Q' (f a) w) : Keeps V P I R Q' (p >>= f) w := by
  induction p generalizing w with
  | ret a => exact hf a w hp
  | call op k ih =>
      intro w' hR hI ω r w'' hP he
      obtain ⟨hI', hk⟩ := hp w' hR hI ω r w'' hP he
      exact ⟨hI', ih r hk⟩

/-- The rule of conjunction. -/
lemma Keeps.and {β : Type} {p : Prog Op Res β} {Q Q' : β → W → Prop} {w : W}
    (hp : Keeps V P I R Q p w) (hp' : Keeps V P I R Q' p w) :
    Keeps V P I R (fun a w => Q a w ∧ Q' a w) p w := by
  induction p generalizing w with
  | ret a => exact ⟨hp, hp'⟩
  | call op k ih =>
      intro w' hR hI ω r w'' hP he
      obtain ⟨hI', hk⟩ := hp w' hR hI ω r w'' hP he
      exact ⟨hI', ih r hk (hp' w' hR hI ω r w'' hP he).2⟩

/-- The rule of one operation: an assertion the interference respects holds when the operation
comes to be performed. -/
lemma Keeps.step {β : Type} {op : Op} {k : Res op → Prog Op Res β} {Q : β → W → Prop} {w : W}
    {A : W → Prop} (hA : A w) (hstable : ∀ ⦃w w'⦄, R w w' → A w → A w')
    (hcall : ∀ w ω r w', I w → A w → P op ω w → V.exec op ω w = some (r, w') →
      I w' ∧ Keeps V P I R Q (k r) w') :
    Keeps V P I R Q (.call op k) w :=
  fun w' hR hI ω r w'' hP he => hcall w' ω r w'' hI (hstable hR hA) hP he

/-- The rule of a program each of whose operations keeps the invariant and an assertion. -/
lemma Keeps.of_every {β : Type} {p : Prog Op Res β} {A : W → Prop}
    (hstable : ∀ ⦃w w'⦄, R w w' → A w → A w')
    (hp : p.Every fun op => ∀ ω r w w', I w → A w → P op ω w →
      V.exec op ω w = some (r, w') → I w' ∧ A w') {w : W} (hw : A w) :
    Keeps V P I R (fun _ => A) p w := by
  induction p generalizing w with
  | ret a => exact hw
  | call op k ih =>
      intro w' hR hI ω r w'' hP he
      obtain ⟨hI', hA'⟩ := hp.1 ω r w' w'' hI (hstable hR hw) hP he
      exact ⟨hI', ih r (hp.2 r) hA'⟩

variable (V P I R) in
/-- The obligations of a supervised loop with invariant `L`. -/
structure Sound (Q : E → W → Prop) (L : S → W → Prop) : Prop where
  refl : ∀ w, R w w
  trans : ∀ {w₁ w₂ w₃}, R w₁ w₂ → R w₂ w₃ → R w₁ w₃
  env : ∀ {e w w'}, I w → Q e w → V.env e w = some w' → I w' ∧ R w w'
  start : ∀ w, I w → Keeps V P I R (fun o w => ∀ a ∈ o, L a w) V.worker.start w
  pass : ∀ a w, I w → L a w → Keeps V P I R (fun o w => ∀ a ∈ o, L a w) (V.worker.pass a) w
  stable : ∀ {a w w'}, R w w' → I w' → L a w → L a w'

/-- **The crash rule.**  In every reachable state the invariant holds, and what is left of the
worker's program keeps it. -/
theorem Sound.holds {Q : E → W → Prop} {L : S → W → Prop} (hV : Sound V P I R Q L)
    (h₀ : I s₀.world) (hdown : s₀.running = none) {s : Site Op Res W S}
    (h : V.Reachable (guarded P Q) s₀ s) :
    I s.world ∧ ∀ p ∈ s.running, ∃ w, R w s.world ∧
      Keeps V P I R (fun o w => ∀ a ∈ o, L a w) p w := by
  induction h with
  | init => exact ⟨h₀, fun p hp => by simp [hdown] at hp⟩
  | @step s s' m _ hg hs ih =>
      obtain ⟨hI, hrest⟩ := ih
      rcases step_cases hs with ⟨e, rfl, hw, hrun'⟩ | ⟨op, k, ω, r, rfl, hrun, hw, hrun'⟩ |
        ⟨heq, hrun'⟩ | ⟨heq, hrun'⟩ | ⟨a, heq, hrun, hrun'⟩
      · obtain ⟨hI', hR⟩ := hV.env hI hg hw
        refine ⟨hI', fun p hp => ?_⟩
        obtain ⟨w, hRw, hk⟩ := hrest p (hrun' ▸ hp)
        exact ⟨w, hV.trans hRw hR, hk⟩
      · obtain ⟨w, hRw, hk⟩ := hrest _ hrun
        obtain ⟨hI', hk'⟩ := hk _ hRw hI ω r _ ((guarded_perform hrun).mp hg) hw
        refine ⟨hI', fun p hp => ⟨_, hV.refl _, ?_⟩⟩
        cases hrun'.symm.trans hp
        exact hk'
      · exact ⟨heq ▸ hI, fun p hp => by simp [hrun'] at hp⟩
      · refine ⟨heq ▸ hI, fun p hp => ⟨_, hV.refl _, ?_⟩⟩
        cases hrun'.symm.trans hp
        exact hV.start _ (heq ▸ hI)
      · obtain ⟨w, hRw, hk⟩ := hrest _ hrun
        refine ⟨heq ▸ hI, fun p hp => ⟨_, hV.refl _, ?_⟩⟩
        cases hrun'.symm.trans hp
        rw [heq]
        exact hV.pass _ _ hI (hV.stable hRw hI (hk a rfl))

end Crash

/-! ### From start to result -/

variable (V) in
/-- The program runs from its first operation to its result, its operations meeting `P` and the
moves of the environment in between meeting `Q`. -/
inductive Completes {β : Type} (P : Op → Ω → W → Prop) (Q : E → W → Prop) :
    Prog Op Res β → W → β → W → Prop where
  | ret {a : β} {w : W} : Completes P Q (.ret a) w a w
  | call {op : Op} {k : Res op → Prog Op Res β} {ω : Ω} {r : Res op} {a : β} {w w' w'' : W} :
      P op ω w → V.exec op ω w = some (r, w') → Completes P Q (k r) w' a w'' →
      Completes P Q (.call op k) w a w''
  | env {p : Prog Op Res β} {e : E} {a : β} {w w' w'' : W} :
      Q e w → V.env e w = some w' → Completes P Q p w' a w'' → Completes P Q p w a w''

/-- **The rule of a completed program.**  A program that keeps its invariant under an interference
that covers what the environment does has achieved its postcondition when it has its result. -/
theorem Keeps.completes {P : Op → Ω → W → Prop} {Q : E → W → Prop} {I : W → Prop}
    {R : W → W → Prop} {β : Type} {Post : β → W → Prop} (hrefl : ∀ w, R w w)
    (htrans : ∀ {w₁ w₂ w₃}, R w₁ w₂ → R w₂ w₃ → R w₁ w₃)
    (henv : ∀ {e w w'}, I w → Q e w → V.env e w = some w' → I w' ∧ R w w')
    (hstable : ∀ {a w w'}, R w w' → Post a w → Post a w') {p : Prog Op Res β} {a : β}
    {w₀ w w' : W} (hp : Keeps V P I R Post p w₀) (hR : R w₀ w) (hI : I w)
    (h : V.Completes P Q p w a w') : Post a w' := by
  induction h generalizing w₀ with
  | ret => exact hstable hR hp
  | call hP he _ ih =>
      obtain ⟨hI', hk⟩ := hp _ hR hI _ _ _ hP he
      exact ih hk (hrefl _) hI'
  | env hQ he _ ih =>
      obtain ⟨hI', hR'⟩ := henv hI hQ he
      exact ih hp (htrans hR hR') hI'

variable (V) in
/-- Run a program undisturbed to its result, one answer of the schedule for each operation. -/
def complete {β : Type} (g : Op → Ω → W → Bool) :
    Prog Op Res β → List Ω → W → Option (β × W)
  | .ret a, [], w => some (a, w)
  | .call op k, ω :: ωs, w =>
      if g op ω w then (V.exec op ω w).bind fun rw => complete g (k rw.1) ωs rw.2 else none
  | _, _, _ => none

lemma completes_of_complete {β : Type} {P : Op → Ω → W → Prop} {Q : E → W → Prop}
    {g : Op → Ω → W → Bool} (hg : ∀ op ω w, g op ω w = true → P op ω w) {p : Prog Op Res β}
    {ωs : List Ω} {a : β} {w w' : W} (h : V.complete g p ωs w = some (a, w')) :
    V.Completes P Q p w a w' := by
  induction p generalizing w ωs with
  | ret b =>
      cases ωs with
      | nil =>
          cases h
          exact .ret
      | cons ω ωs => cases h
  | call op k ih =>
      cases ωs with
      | nil => cases h
      | cons ω ωs =>
          simp only [complete] at h
          split at h
          · rename_i hgo
            obtain ⟨⟨r, w₁⟩, he, hk⟩ := Option.bind_eq_some_iff.mp h
            exact .call (hg op ω w hgo) he (ih r hk)
          · cases h

end Service

end Foundation
