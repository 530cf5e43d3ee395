import Mathlib

/-!
# Rounding to whole units

`roundAway` is the rounding of SQL's exact decimals: to the nearest whole unit, a tie to the one
farther from zero.  `beyond` is what it takes away, defined from the fraction alone; the two add
up to what was rounded (`roundAway_add_beyond`).  `roundEven` sends a tie to the even neighbour,
as decimals in programs are rounded.
-/

namespace Foundation

/-- The nearest integer; of two nearest the one farther from zero. -/
def roundAway (x : ℚ) : ℤ := if 0 ≤ x then ⌊x + 1 / 2⌋ else -⌊-x + 1 / 2⌋

/-- How far a number lies above the nearest integer, if not negative: half a unit above is half a
unit below the next. -/
def excess (x : ℚ) : ℚ := if Int.fract x < 1 / 2 then Int.fract x else Int.fract x - 1

/-- How far a number lies beyond the nearest integer, seen from zero if that is positive. -/
def beyond (x : ℚ) : ℚ := if 0 ≤ x then excess x else -excess (-x)

lemma floor_add_half (x : ℚ) : (⌊x + 1 / 2⌋ : ℚ) + excess x = x := by
  have hx := Int.floor_add_fract x
  unfold excess
  split
  · rename_i hlt
    have hfloor : ⌊x + 1 / 2⌋ = ⌊x⌋ := by
      refine Int.floor_eq_iff.mpr ⟨?_, ?_⟩ <;> linarith [Int.fract_nonneg x]
    rw [hfloor, hx]
  · rename_i hge
    have hfloor : ⌊x + 1 / 2⌋ = ⌊x⌋ + 1 := by
      refine Int.floor_eq_iff.mpr ⟨?_, ?_⟩ <;> push_cast <;> linarith [Int.fract_lt_one x]
    rw [hfloor]
    push_cast
    linarith

/-- **Rounding takes `beyond` away.** -/
lemma roundAway_add_beyond (x : ℚ) : (roundAway x : ℚ) + beyond x = x := by
  unfold roundAway beyond
  split
  · exact floor_add_half x
  · push_cast
    linarith [floor_add_half (-x)]

lemma abs_roundAway (x : ℚ) : |roundAway x| = ⌊|x| + 1 / 2⌋ := by
  unfold roundAway
  split
  · rename_i hx
    rw [abs_of_nonneg hx, abs_of_nonneg (Int.floor_nonneg.mpr (by linarith))]
  · rename_i hx
    have hneg : x < 0 := not_le.mp hx
    rw [abs_of_neg hneg, abs_neg, abs_of_nonneg (Int.floor_nonneg.mpr (by linarith))]

/-- Less than half a unit is rounded to nothing. -/
lemma roundAway_eq_zero_iff {x : ℚ} : roundAway x = 0 ↔ |x| < 1 / 2 := by
  rw [← abs_eq_zero, abs_roundAway, Int.floor_eq_zero_iff, Set.mem_Ico]
  constructor
  · rintro ⟨-, h⟩
    linarith
  · exact fun h => ⟨by linarith [abs_nonneg x], by linarith⟩

lemma abs_roundAway_lt_iff {x : ℚ} {n : ℤ} : |roundAway x| < n ↔ |x| + 1 / 2 < n := by
  rw [abs_roundAway, Int.floor_lt]

@[simp] lemma excess_intCast (n : ℤ) : excess (n : ℚ) = 0 := by
  simp [excess]

@[simp] lemma roundAway_intCast (n : ℤ) : roundAway (n : ℚ) = n := by
  have h := roundAway_add_beyond (n : ℚ)
  have hbeyond : beyond (n : ℚ) = 0 := by
    unfold beyond
    split
    · exact excess_intCast n
    · rw [← Int.cast_neg, excess_intCast, neg_zero]
  exact_mod_cast (by linarith : (roundAway (n : ℚ) : ℚ) = n)

/-! ## Ties to the even neighbour -/

/-- The nearest integer; of two nearest the even one. -/
def roundEven (x : ℚ) : ℤ :=
  if Int.fract x < 1 / 2 then ⌊x⌋
  else if 1 / 2 < Int.fract x then ⌊x⌋ + 1
  else if Even ⌊x⌋ then ⌊x⌋ else ⌊x⌋ + 1

@[simp] lemma roundEven_intCast (n : ℤ) : roundEven (n : ℚ) = n := by
  simp [roundEven]

/-! ## Whole numbers -/

/-- A whole number loses nothing. -/
@[simp] lemma beyond_intCast (n : ℤ) : beyond (n : ℚ) = 0 := by
  unfold beyond
  split
  · exact excess_intCast n
  · rw [← Int.cast_neg, excess_intCast, neg_zero]

end Foundation
