import Mathlib

/-!
# Attempts, again and again

A loop makes a bounded number of attempts at something, with a pause between two of them.  An
attempt ends the loop, or fails in a way that may be tried again (`Attempt`).  `retry` is the loop
as it is written in a language with `break`: it remembers the last failure, and pauses unless
there is no attempt left.

`retry_eq` says how every such loop goes: some attempt decides it, all before it failed, and it
pauses once for each of these.
-/

namespace Foundation

/-- What an attempt comes to. -/
inductive Attempt (ε ρ : Type) where
  | done (result : ρ)
  | again (failure : ε)

/-- What a loop of attempts came to, the attempts it took, and its pauses. -/
structure Retried (ρ : Type) where
  result : ρ
  attempts : ℕ
  pauses : List ℕ
  deriving DecidableEq

variable {ε ρ : Type} (giveUp : Option ε → ρ) (pause : ε → ℕ → ℕ) (attempt : ℕ → Attempt ε ρ)

/-- The loop, with so many attempts left, from the `n`-th on, after a last failure. -/
def retryFrom : ℕ → ℕ → Option ε → Retried ρ
  | 0, n, last => ⟨giveUp last, n, []⟩
  | left + 1, n, _ =>
    match attempt n with
    | .done result => ⟨result, n + 1, []⟩
    | .again failure =>
      let rest := retryFrom left (n + 1) (some failure)
      if left = 0 then rest else { rest with pauses := pause failure n :: rest.pauses }

/-- The loop of so many attempts. -/
def retry (attempts : ℕ) : Retried ρ := retryFrom giveUp pause attempt attempts 0 none

/-- The `k`-th attempt decides the loop of `attempts` from the `n`-th on. -/
structure DecidedBy (attempts n k : ℕ) (r : Retried ρ) : Prop where
  lt : k < attempts
  attempts_eq : r.attempts = n + k + 1
  failed : ∀ j < k, ∃ failure, attempt (n + j) = .again failure ∧
    r.pauses[j]? = some (pause failure (n + j))
  pauses_length : r.pauses.length = k
  decided : attempt (n + k) = .done r.result ∨
    (k + 1 = attempts ∧ ∃ failure, attempt (n + k) = .again failure ∧
      r.result = giveUp (some failure))

variable {giveUp pause attempt}

lemma retryFrom_eq (left n : ℕ) (last : Option ε) :
    ∃ k, DecidedBy giveUp pause attempt (left + 1) n k
      (retryFrom giveUp pause attempt (left + 1) n last) := by
  induction left generalizing n last with
  | zero =>
      refine ⟨0, ?_⟩
      rcases h : attempt n with result | failure
      · have hrun : retryFrom giveUp pause attempt 1 n last = ⟨result, n + 1, []⟩ := by
          simp only [retryFrom, h]
        rw [hrun]
        exact ⟨Nat.one_pos, rfl, fun j hj => absurd hj (Nat.not_lt_zero j), rfl, .inl h⟩
      · have hrun : retryFrom giveUp pause attempt 1 n last =
            ⟨giveUp (some failure), n + 1, []⟩ := by
          simp only [retryFrom, h, if_true]
        rw [hrun]
        exact ⟨Nat.one_pos, rfl, fun j hj => absurd hj (Nat.not_lt_zero j), rfl,
          .inr ⟨rfl, failure, h, rfl⟩⟩
  | succ left ih =>
      rcases h : attempt n with result | failure
      · refine ⟨0, ?_⟩
        have hrun : retryFrom giveUp pause attempt (left + 1 + 1) n last =
            ⟨result, n + 1, []⟩ := by
          simp only [retryFrom, h]
        rw [hrun]
        exact ⟨Nat.succ_pos _, rfl, fun j hj => absurd hj (Nat.not_lt_zero j), rfl, .inl h⟩
      · obtain ⟨k, hk⟩ := ih (n + 1) (some failure)
        refine ⟨k + 1, ?_⟩
        -- The rest of the loop, after a pause.
        have hrun : retryFrom giveUp pause attempt (left + 1 + 1) n last =
            { retryFrom giveUp pause attempt (left + 1) (n + 1) (some failure) with
              pauses := pause failure n ::
                (retryFrom giveUp pause attempt (left + 1) (n + 1) (some failure)).pauses } := by
          rw [retryFrom, h]
          exact if_neg (Nat.succ_ne_zero left)
        rw [hrun]
        have hshift : ∀ j, n + 1 + j = n + (j + 1) := fun j => by omega
        refine ⟨Nat.succ_lt_succ hk.lt, ?_, fun j hj => ?_, ?_, ?_⟩
        · exact hk.attempts_eq.trans (by omega)
        · rcases j with _ | j
          · exact ⟨failure, h, rfl⟩
          · obtain ⟨e, he, hpause⟩ := hk.failed j (Nat.lt_of_succ_lt_succ hj)
            rw [hshift] at he hpause
            exact ⟨e, he, hpause⟩
        · exact congrArg Nat.succ hk.pauses_length
        · rw [← hshift]
          rcases hk.decided with hdone | ⟨hlast, e, he, hresult⟩
          · exact .inl hdone
          · exact .inr ⟨congrArg Nat.succ hlast, e, he, hresult⟩

/-- **How a loop of attempts goes.** -/
lemma retry_eq {attempts : ℕ} (hpos : 0 < attempts) :
    ∃ k, DecidedBy giveUp pause attempt attempts 0 k
      (retry giveUp pause attempt attempts) := by
  obtain ⟨left, rfl⟩ := Nat.exists_eq_succ_of_ne_zero hpos.ne'
  exact retryFrom_eq left 0 none

/-- Pauses that are bounded sum up to no more than their number allows. -/
lemma sum_pauses_le {attempts k bound : ℕ} {r : Retried ρ}
    (h : DecidedBy giveUp pause attempt attempts 0 k r) (hbound : ∀ e n, pause e n ≤ bound) :
    r.pauses.sum ≤ k * bound := by
  have hle : ∀ p ∈ r.pauses, p ≤ bound := by
    intro p hp
    obtain ⟨j, hj, rfl⟩ := List.mem_iff_getElem.mp hp
    obtain ⟨e, -, hpause⟩ := h.failed j (h.pauses_length ▸ hj)
    rw [List.getElem?_eq_getElem hj] at hpause
    rw [Option.some.inj hpause]
    exact hbound e _
  have hsum := List.sum_le_card_nsmul r.pauses bound hle
  rwa [h.pauses_length, smul_eq_mul] at hsum

end Foundation
