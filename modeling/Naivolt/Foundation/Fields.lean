import Mathlib

/-!
# Texts that compare as what they say

Numbers written with a fixed number of digits compare as the numbers do (`field_lt`), and texts
that begin with fields of one length compare as the pairs do of what the fields say and what
follows (`append_lt`).  A number split into a quotient and a remainder may therefore be written as
two fields, and so on down (`split_lt`): the larger unit first is what makes a written time sort.
-/

namespace Foundation

namespace Fields

/-! ## Lists -/

variable {α : Type} [LinearOrder α]

/-- A list that is smaller before its end stays smaller, whatever follows. -/
lemma append_lt_left {a a' : List α} (b b' : List α) (hlen : a.length = a'.length) (h : a < a') :
    a ++ b < a' ++ b' := by
  induction a generalizing a' with
  | nil =>
      rw [List.eq_nil_of_length_eq_zero hlen.symm] at h
      exact absurd h (lt_irrefl _)
  | cons x a ih =>
      rcases a' with _ | ⟨x', a'⟩
      · cases hlen
      · rw [List.cons_append, List.cons_append, List.cons_lt_cons_iff]
        rcases List.cons_lt_cons_iff.mp h with hlt | ⟨rfl, hlt⟩
        · exact .inl hlt
        · exact .inr ⟨rfl, ih (Nat.succ.inj hlen) hlt⟩

lemma append_lt_right (a : List α) {b b' : List α} (h : b < b') : a ++ b < a ++ b' := by
  induction a with
  | nil => exact h
  | cons x a ih => exact List.cons_lt_cons_iff.mpr (.inr ⟨rfl, ih⟩)

/-- **A field and what follows it** compare as a pair. -/
lemma append_lt {a a' b b' : List α} (hlen : a.length = a'.length)
    (h : a < a' ∨ a = a' ∧ b < b') : a ++ b < a' ++ b' := by
  rcases h with h | ⟨rfl, h⟩
  · exact append_lt_left b b' hlen h
  · exact append_lt_right a h

/-! ## Digits -/

/-- The last `width` digits of a number: `{:0width}` of one that has no more. -/
def field : ℕ → ℕ → List Char
  | 0, _ => []
  | width + 1, n => Nat.digitChar (n / 10 ^ width % 10) :: field width (n % 10 ^ width)

@[simp] lemma length_field (width n : ℕ) : (field width n).length = width := by
  induction width generalizing n with
  | zero => rfl
  | succ width ih => rw [field, List.length_cons, ih]

/-- A field in two: the digits in front, and those behind. -/
lemma field_add (a b n : ℕ) :
    field (a + b) n = field a (n / 10 ^ b) ++ field b (n % 10 ^ b) := by
  induction a generalizing n with
  | zero =>
      rw [field, List.nil_append, Nat.zero_add]
      rcases b with _ | b
      · rfl
      · rw [field, field, Nat.mod_mod_of_dvd _ (pow_dvd_pow 10 (Nat.le_succ b)), pow_succ,
          Nat.mod_mul_right_div_self, Nat.mod_mod]
  | succ a ih =>
      have hpow : 10 ^ (a + b) = 10 ^ b * 10 ^ a := by
        rw [pow_add, mul_comm]
      rw [Nat.succ_add, field, field, ih, List.cons_append, hpow, Nat.div_div_eq_div_mul,
        Nat.mod_mul_right_div_self, Nat.mod_mul_right_mod]

lemma digitChar_lt {m n : ℕ} (h : m < n) (hn : n < 10) : Nat.digitChar m < Nat.digitChar n := by
  interval_cases n <;> interval_cases m <;> decide

/-- No digit comes before a mark that no digit comes before. -/
lemma lt_digitChar {c : Char} (hc : c < '0') {n : ℕ} (hn : n < 10) : c < Nat.digitChar n := by
  refine lt_of_lt_of_le hc ?_
  interval_cases n <;> decide

/-- **Numbers of so many digits compare as they are written.** -/
lemma field_lt {width m n : ℕ} (h : m < n) (hn : n < 10 ^ width) :
    field width m < field width n := by
  induction width generalizing m n with
  | zero =>
      rw [pow_zero] at hn
      omega
  | succ width ih =>
      have hpos : 0 < 10 ^ width := by positivity
      have htop : n / 10 ^ width < 10 := by
        rw [Nat.div_lt_iff_lt_mul hpos]
        rw [pow_succ] at hn
        omega
      have hle : m / 10 ^ width ≤ n / 10 ^ width := Nat.div_le_div_right h.le
      rw [field, field, List.cons_lt_cons_iff, Nat.mod_eq_of_lt htop,
        Nat.mod_eq_of_lt (hle.trans_lt htop)]
      rcases lt_or_eq_of_le hle with hlt | heq
      · exact .inl (digitChar_lt hlt htop)
      · have hm := Nat.div_add_mod m (10 ^ width)
        have hn' := Nat.div_add_mod n (10 ^ width)
        rw [heq] at hm
        exact .inr ⟨by rw [heq], ih (by omega) (Nat.mod_lt _ hpos)⟩

/-- **A number in two fields**: how many times a unit, and the rest. -/
lemma split_lt {width unit m n : ℕ} {rest : ℕ → List Char}
    (hrest : ∀ a b, a < b → b < unit → rest a < rest b) (hunit : 0 < unit)
    (h : m < n) (hn : n < 10 ^ width * unit) :
    field width (m / unit) ++ rest (m % unit) < field width (n / unit) ++ rest (n % unit) := by
  refine append_lt (by rw [length_field, length_field]) ?_
  rcases lt_or_eq_of_le (Nat.div_le_div_right (c := unit) h.le) with hlt | heq
  · refine .inl (field_lt hlt ?_)
    rwa [Nat.div_lt_iff_lt_mul hunit]
  · have hm := Nat.div_add_mod m unit
    have hn' := Nat.div_add_mod n unit
    rw [heq] at hm
    exact .inr ⟨by rw [heq], hrest _ _ (by omega) (Nat.mod_lt _ hunit)⟩

end Fields

end Foundation
