import Mathlib
import Naivolt.Foundation.Actors

/-!
# What requests can cost

A meter is a number read off the world, which goes up by at most one with each operation of some
kind and never otherwise.  If the program of every request performs no more than so many operations
of the kind, whatever it is answered (`Prog.AtMost`), then a run cannot drive the meter higher than
the requests of its schedule allow (`Machine.meter_le`).  The tasks in progress carry what they may
still spend: that budget and the meter together never exceed what has been sent.
-/

namespace Foundation

/-- Whatever its operations are answered, the program performs at most `n` of the kind `K`. -/
def Prog.AtMost {Op : Type} {Res : Op → Type} {α : Type} (K : Op → Prop) [DecidablePred K] :
    Prog Op Res α → ℕ → Prop
  | .ret _, _ => True
  | .call op k, n => (K op → 0 < n) ∧ ∀ r, (k r).AtMost K (if K op then n - 1 else n)

namespace Prog

variable {Op : Type} {Res : Op → Type} {α β : Type} {K : Op → Prop} [DecidablePred K]

lemma AtMost.mono {p : Prog Op Res α} {m n : ℕ} (hp : p.AtMost K m) (hmn : m ≤ n) :
    p.AtMost K n := by
  induction p generalizing m n with
  | ret a => trivial
  | call op k ih =>
      refine ⟨fun hK => (hp.1 hK).trans_le hmn, fun r => ih r (hp.2 r) ?_⟩
      split <;> omega

/-- A program without operations of the kind performs none. -/
lemma Every.atMost {p : Prog Op Res α} (hp : p.Every fun op => ¬K op) (n : ℕ) :
    p.AtMost K n := by
  induction p with
  | ret a => trivial
  | call op k ih =>
      refine ⟨fun hK => absurd hK hp.1, fun r => ?_⟩
      rw [if_neg hp.1]
      exact ih r (hp.2 r)

end Prog

namespace Machine

variable {Op : Type} {Res : Op → Type} {Ω E W Req B α : Type}
variable {M : Machine Op Res Ω E W Req B α} {K : Op → Prop} [DecidablePred K] {meter : W → ℕ}
  {cost : Req → ℕ}

/-- What a move allows to be spent. -/
def spent (cost : Req → ℕ) : Act Ω E Req → ℕ
  | .spawn _ req => cost req
  | _ => 0

variable (M K meter cost) in
/-- The operations of the kind move the meter, one at most each, and a request performs no more
of them than it costs. -/
structure Metered : Prop where
  env : ∀ {e w w'}, M.env e w = some w' → meter w' ≤ meter w
  exec : ∀ {tid op ω r w w'}, M.exec tid op ω w = some (r, w') →
    meter w' ≤ meter w + if K op then 1 else 0
  program : ∀ req, (M.program req).AtMost K (cost req)

variable (K) in
/-- Every task in progress has a budget that covers what is left of it. -/
structure Budgeted (s : Sys Op Res W Req B α) (tids : Finset ℕ) (budget : ℕ → ℕ) : Prop where
  known : ∀ tid t, s.task tid = some t → tid ∈ tids
  covers : ∀ tid t, s.task tid = some t → t.prog.AtMost K (budget tid)

/-- A task whose budget becomes `n`. -/
lemma sum_update_insert (tids : Finset ℕ) (budget : ℕ → ℕ) (tid n : ℕ) :
    ∑ i ∈ insert tid tids, Function.update budget tid n i ≤ n + ∑ i ∈ tids, budget i := by
  have hsplit : insert tid tids = insert tid (tids.erase tid) := by
    ext i
    by_cases hi : i = tid <;> simp [hi]
  rw [hsplit, Finset.sum_insert (Finset.notMem_erase tid tids), Function.update_self]
  refine Nat.add_le_add_left ?_ n
  calc ∑ i ∈ tids.erase tid, Function.update budget tid n i
      = ∑ i ∈ tids.erase tid, budget i :=
        Finset.sum_congr rfl fun i hi =>
          Function.update_of_ne (Finset.ne_of_mem_erase hi) n budget
    _ ≤ ∑ i ∈ tids, budget i := Finset.sum_le_sum_of_subset (Finset.erase_subset tid tids)

/-- One unit of a budget is spent. -/
lemma sum_update_pred {tids : Finset ℕ} {budget : ℕ → ℕ} {tid : ℕ} (hmem : tid ∈ tids)
    (hpos : 0 < budget tid) :
    ∑ i ∈ tids, Function.update budget tid (budget tid - 1) i + 1 = ∑ i ∈ tids, budget i := by
  rw [Finset.sum_update_of_mem hmem, ← Finset.erase_eq, ← Finset.add_sum_erase tids budget hmem]
  omega

/-- **One move**: what it allows covers what the meter and the budgets go up by. -/
lemma Metered.step (hM : Metered M K meter cost) {s s' : Sys Op Res W Req B α}
    {a : Act Ω E Req} {tids : Finset ℕ} {budget : ℕ → ℕ} (hB : Budgeted K s tids budget)
    (hs : M.step s a = some s') : ∃ tids' budget', Budgeted K s' tids' budget' ∧
      meter s'.world + ∑ i ∈ tids', budget' i ≤
        meter s.world + ∑ i ∈ tids, budget i + spent cost a := by
  rcases step_cases hs with ⟨e, rfl, hw, htask⟩ | ⟨tid, req, rfl, rfl⟩ |
    ⟨tid, ω, req, b, op, k, r, rfl, ht, hw, htask⟩ | ⟨tid, rfl, rfl⟩
  · have hmeter := hM.env hw
    refine ⟨tids, budget, ⟨fun tid t ht => hB.known tid t (htask ▸ ht),
      fun tid t ht => hB.covers tid t (htask ▸ ht)⟩, ?_⟩
    simp only [spent]
    omega
  · refine ⟨insert tid tids, Function.update budget tid (cost req), ⟨fun i t ht => ?_,
      fun i t ht => ?_⟩, ?_⟩
    · simp only [Sys.setTask_task] at ht
      split at ht
      · rename_i hi
        exact hi ▸ Finset.mem_insert_self tid tids
      · exact Finset.mem_insert_of_mem (hB.known i t ht)
    · simp only [Sys.setTask_task] at ht
      split at ht
      · rename_i hi
        cases ht
        rw [hi, Function.update_self]
        exact hM.program req
      · rename_i hi
        rw [Function.update_of_ne hi]
        exact hB.covers i t ht
    · have hsum := sum_update_insert tids budget tid (cost req)
      simp only [Sys.setTask_world, spent]
      omega
  · have hmeter := hM.exec hw
    have hcovers := hB.covers tid _ ht
    have hknown := hB.known tid _ ht
    -- The task that goes on keeps what its operation has left it.
    have hrest : ∀ n, (∀ r, (k r).AtMost K n) →
        Budgeted K s' tids (Function.update budget tid n) := by
      intro n hn
      refine ⟨fun i t ht' => ?_, fun i t ht' => ?_⟩
      · rw [htask, Sys.setTask_task] at ht'
        split at ht'
        · rename_i hi
          exact hi ▸ hknown
        · exact hB.known i t ht'
      · rw [htask, Sys.setTask_task] at ht'
        split at ht'
        · rename_i hi
          cases ht'
          rw [hi, Function.update_self]
          exact hn r
        · rename_i hi
          rw [Function.update_of_ne hi]
          exact hB.covers i t ht'
    by_cases hK : K op
    · have hpos := hcovers.1 hK
      have hleft := hcovers.2
      simp only [if_pos hK] at hleft hmeter
      refine ⟨tids, _, hrest _ hleft, ?_⟩
      have hsum := sum_update_pred hknown hpos
      simp only [spent]
      omega
    · have hleft := hcovers.2
      simp only [if_neg hK] at hleft hmeter
      refine ⟨tids, _, hrest _ hleft, ?_⟩
      rw [Function.update_eq_self]
      simp only [spent]
      omega
  · refine ⟨tids, budget, ⟨fun i t ht => ?_, fun i t ht => ?_⟩, ?_⟩
    · simp only [Sys.setTask_task] at ht
      split at ht
      · cases ht
      · exact hB.known i t ht
    · simp only [Sys.setTask_task] at ht
      split at ht
      · cases ht
      · exact hB.covers i t ht
    · simp only [Sys.setTask_world, spent]
      omega

lemma Metered.run_le (hM : Metered M K meter cost)
    {g : Sys Op Res W Req B α → Act Ω E Req → Bool} {as : List (Act Ω E Req)}
    {s s' : Sys Op Res W Req B α} {tids : Finset ℕ} {budget : ℕ → ℕ}
    (hB : Budgeted K s tids budget) (hrun : M.run g s as = some s') :
    meter s'.world ≤ meter s.world + ∑ i ∈ tids, budget i + (as.map (spent cost)).sum := by
  induction as generalizing s tids budget with
  | nil =>
      cases hrun
      omega
  | cons a as ih =>
      simp only [run] at hrun
      split at hrun
      · obtain ⟨s₁, h₁, h₂⟩ := Option.bind_eq_some_iff.mp hrun
        obtain ⟨tids', budget', hB', hle⟩ := hM.step hB h₁
        have hrest := ih hB' h₂
        simp only [List.map_cons, List.sum_cons]
        omega
      · cases hrun

/-- **No run drives the meter higher than its requests allow.** -/
theorem Metered.meter_le (hM : Metered M K meter cost)
    {g : Sys Op Res W Req B α → Act Ω E Req → Bool} {as : List (Act Ω E Req)} {w : W}
    {s : Sys Op Res W Req B α} (hrun : M.run g (Sys.idle w) as = some s) :
    meter s.world ≤ meter w + (as.map (spent cost)).sum := by
  have hB : Budgeted K (Sys.idle w : Sys Op Res W Req B α) ∅ fun _ => 0 :=
    ⟨fun tid t ht => (by cases ht), fun tid t ht => (by cases ht)⟩
  have hle := hM.run_le hB hrun
  rwa [Finset.sum_empty, Nat.add_zero] at hle

end Machine

end Foundation
