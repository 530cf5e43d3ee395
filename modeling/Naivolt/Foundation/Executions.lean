import Naivolt.Foundation.Actors

/-!
# What a program performs

`Executes` runs a program undisturbed from one world to another and keeps the operations it
performed, so that a statement can speak of what was done and not only of what came of it.
`Rounds` runs a program once for each input of a list, each round from where the last one ended.
-/

namespace Foundation.Prog

variable {Op : Type} {Res : Op → Type} {Ω W α ι : Type}
variable {exec : (op : Op) → Ω → W → Option (Res op × W)}

/-- The program runs from `w` to a result in `w'`, performing the operations in order. -/
inductive Executes (exec : (op : Op) → Ω → W → Option (Res op × W)) :
    Prog Op Res α → W → List Op → α → W → Prop where
  | ret (a : α) (w : W) : Executes exec (.ret a) w [] a w
  | call {op : Op} {k : Res op → Prog Op Res α} {ω : Ω} {r : Res op} {ops : List Op} {a : α}
      {w w' w'' : W} : exec op ω w = some (r, w') → Executes exec (k r) w' ops a w'' →
      Executes exec (.call op k) w (op :: ops) a w''

/-- One round after another, the inputs in the order of the rounds. -/
inductive Rounds (exec : (op : Op) → Ω → W → Option (Res op × W)) (p : ι → Prog Op Res α)
    (w : W) : List ι → W → Prop where
  | nil : Rounds exec p w [] w
  | concat {is : List ι} {i : ι} {ops : List Op} {a : α} {w' w'' : W} :
      Rounds exec p w is w' → Executes exec (p i) w' ops a w'' →
      Rounds exec p w (is ++ [i]) w''

lemma executes_ret {a b : α} {w w' : W} {ops : List Op}
    (h : Executes exec (.ret a) w ops b w') : ops = [] ∧ b = a ∧ w' = w := by
  cases h
  exact ⟨rfl, rfl, rfl⟩

lemma executes_call {op : Op} {k : Res op → Prog Op Res α} {w w' : W} {ops : List Op} {a : α}
    (h : Executes exec (.call op k) w ops a w') :
    ∃ ω r w₁ rest, exec op ω w = some (r, w₁) ∧ Executes exec (k r) w₁ rest a w' ∧
      ops = op :: rest := by
  cases h with
  | call he hk => exact ⟨_, _, _, _, he, hk, rfl⟩

end Foundation.Prog
