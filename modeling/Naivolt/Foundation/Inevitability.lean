import Naivolt.Foundation.Supervised

/-!
# What a loop comes to

A supervised loop retries until something works, or gives up.  `Inevitable` says that it comes to
a goal whatever passes it goes through: none of them gives up, and only finitely many pass before
one that reaches the goal.  A pass that leaves the state of the loop as it was is not counted, as
a loop may wait for as long as it has nothing to do.

`Inevitable.of_measure` proves it by a measure, and `not_inevitable` refutes it by states from
which some pass gives up or leads to another of them.
-/

namespace Foundation.Service

variable {Op : Type} {Res : Op → Type} {Ω E W S : Type} {V : Service Op Res Ω E W S}
variable {P : Op → Ω → W → Prop} {Q : E → W → Prop} {Goal : S → S → Prop}

/-- Every way the loop can go comes to a pass from one state to another that meets the goal. -/
inductive Inevitable (V : Service Op Res Ω E W S) (P : Op → Ω → W → Prop) (Q : E → W → Prop)
    (Goal : S → S → Prop) : S → W → Prop where
  | of_passes {s : S} {w : W}
      (noneGivesUp : ∀ w', ¬ V.Completes P Q (V.worker.pass s) w none w')
      (others : ∀ s' w', V.Completes P Q (V.worker.pass s) w (some s') w' → s' ≠ s →
        ¬ Goal s s' → Inevitable V P Q Goal s' w') :
      Inevitable V P Q Goal s w

/-- **By a measure.**  No pass gives up, and one that changes the state and misses the goal keeps
the invariant and lowers the measure. -/
theorem Inevitable.of_measure {I : S → Prop} (m : S → ℕ)
    (hup : ∀ s w w', I s → ¬ V.Completes P Q (V.worker.pass s) w none w')
    (hdown : ∀ s w s' w', I s → V.Completes P Q (V.worker.pass s) w (some s') w' → s' ≠ s →
      ¬ Goal s s' → I s' ∧ m s' < m s) {s : S} (hs : I s) (w : W) :
    Inevitable V P Q Goal s w := by
  obtain ⟨n, hn⟩ : ∃ n, m s < n := ⟨m s + 1, Nat.lt_succ_self _⟩
  induction n generalizing s w with
  | zero => exact absurd hn (Nat.not_lt_zero _)
  | succ n ih =>
      refine .of_passes (fun w' => hup s w w' hs) fun s' w' hpass hne hgoal => ?_
      obtain ⟨hs', hlt⟩ := hdown s w s' w' hs hpass hne hgoal
      exact ih hs' w' (by omega)

/-- **By a way to give up.** -/
theorem not_inevitable {J : S → W → Prop}
    (hpass : ∀ s w, J s w → (∃ w', V.Completes P Q (V.worker.pass s) w none w') ∨
      ∃ s' w', V.Completes P Q (V.worker.pass s) w (some s') w' ∧ s' ≠ s ∧ ¬ Goal s s' ∧ J s' w')
    {s : S} {w : W} (h : J s w) : ¬ Inevitable V P Q Goal s w := by
  intro hinevitable
  induction hinevitable with
  | of_passes noneGivesUp _ ih =>
      rcases hpass _ _ h with ⟨w', hnone⟩ | ⟨s', w', hsome, hne, hgoal, hJ⟩
      · exact noneGivesUp w' hnone
      · exact ih s' w' hsome hne hgoal hJ

end Foundation.Service
