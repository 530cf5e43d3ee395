import Mathlib

/-!
# Decimals of bounded precision

A decimal format carries the numbers whose coefficient and whose digits behind the point stay
within its bounds.  An operation on such numbers gives the exact result where the format carries
it; elsewhere it may round, or give nothing.  What the additions of a running sum round away is
`lostFrom`: sum and loss together make up the exact total (`runningFrom_add_lostFrom`).
-/

namespace Foundation

/-- The bounds of a format: on the coefficient, and on the digits behind the point. -/
structure DecimalFormat where
  limit : ℕ
  places : ℕ

namespace DecimalFormat

variable (f : DecimalFormat)

/-- A number of the format. -/
def Carries (x : ℚ) : Prop :=
  ∃ (coefficient : ℤ) (scale : ℕ), |coefficient| < f.limit ∧ scale ≤ f.places ∧
    x = coefficient / 10 ^ scale

/-- The operation gives the exact result for numbers of the format, if that is one as well. -/
def ExactFor (exact : ℚ → ℚ → ℚ) (op : ℚ → ℚ → Option ℚ) : Prop :=
  ∀ x y, f.Carries x → f.Carries y → f.Carries (exact x y) → op x y = some (exact x y)

/-- All numbers to add up, and what they come to on the way, are of the format. -/
def CarriesSums (xs : List ℚ) : Prop :=
  (∀ x ∈ xs, f.Carries x) ∧ ∀ k, f.Carries (xs.take k).sum

variable {f}

lemma carries_intCast {n : ℤ} (h : |n| < f.limit) : f.Carries n :=
  ⟨n, 0, h, Nat.zero_le _, by simp⟩

/-- A number of the format is below its limit. -/
lemma Carries.abs_lt {x : ℚ} (h : f.Carries x) : |x| < f.limit := by
  obtain ⟨coefficient, scale, hlimit, -, rfl⟩ := h
  have hone : (1 : ℚ) ≤ 10 ^ scale := one_le_pow₀ (by norm_num)
  rw [abs_div, abs_of_pos (by positivity : (0 : ℚ) < 10 ^ scale)]
  refine (div_le_self (abs_nonneg _) hone).trans_lt ?_
  exact_mod_cast hlimit

/-- A whole number of units is carried if the units are and it is not too large. -/
lemma carries_of_units {x : ℚ} {n : ℤ} {k : ℕ} (hx : x * 10 ^ k = n) (hn : |n| < f.limit)
    (hk : k ≤ f.places) : f.Carries x :=
  ⟨n, k, hn, hk, by rw [← hx, mul_div_cancel_right₀ _ (by positivity)]⟩

end DecimalFormat

/-! ## Running sums -/

section Sums

variable (add : ℚ → ℚ → Option ℚ)

/-- What the additions come to, one after the other. -/
def runningFrom (sum : ℚ) (xs : List ℚ) : Option ℚ := xs.foldlM add sum

/-- What they round away. -/
def lostFrom : ℚ → List ℚ → Option ℚ
  | _, [] => some 0
  | sum, x :: xs => do
    let next ← add sum x
    let lost ← lostFrom next xs
    pure (sum + x - next + lost)

variable {add}

@[simp] lemma runningFrom_nil (sum : ℚ) : runningFrom add sum [] = some sum := rfl

lemma runningFrom_cons (sum x : ℚ) (xs : List ℚ) :
    runningFrom add sum (x :: xs) = (add sum x).bind fun next => runningFrom add next xs := rfl

/-- **The running sum and what is lost make up the total.** -/
lemma lostFrom_eq (sum : ℚ) (xs : List ℚ) :
    lostFrom add sum xs = (runningFrom add sum xs).map fun total => sum + xs.sum - total := by
  induction xs generalizing sum with
  | nil => simp [lostFrom]
  | cons x xs ih =>
      rw [runningFrom_cons, lostFrom]
      cases add sum x with
      | none => rfl
      | some next =>
          simp only [Option.bind_eq_bind, Option.bind_some, ih, List.sum_cons]
          cases runningFrom add next xs with
          | none => rfl
          | some total =>
              simp only [Option.map_some, Option.bind_some, Option.pure_def, Option.some.injEq]
              ring

/-- **Additions that stay within the format lose nothing.** -/
lemma runningFrom_eq_sum {f : DecimalFormat} (hadd : f.ExactFor (· + ·) add) {xs : List ℚ}
    (h : f.CarriesSums xs) : runningFrom add 0 xs = some xs.sum := by
  suffices hstep : ∀ (done rest : List ℚ), xs = done ++ rest →
      runningFrom add done.sum rest = some xs.sum from hstep [] xs rfl
  intro done rest
  induction rest generalizing done with
  | nil => rintro rfl; simp
  | cons x rest ih =>
      intro hxs
      have hx : x ∈ xs := hxs ▸ List.mem_append_right _ List.mem_cons_self
      have hdone : f.Carries done.sum := by
        have htake := h.2 done.length
        rwa [hxs, List.take_left] at htake
      have hxs' : xs = (done ++ [x]) ++ rest := by rw [hxs, List.append_assoc]; rfl
      have hnext : f.Carries (done.sum + x) := by
        have htake := h.2 (done ++ [x]).length
        rwa [hxs', List.take_left, List.sum_append, List.sum_singleton] at htake
      have hrest := ih (done ++ [x]) hxs'
      rw [List.sum_append, List.sum_singleton] at hrest
      rw [runningFrom_cons, hadd _ _ hdone (h.1 x hx) hnext, Option.bind_some, hrest]

/-- Whole units that come to less than the limit, whatever their signs. -/
lemma DecimalFormat.carriesSums_of_units {f : DecimalFormat} {xs : List ℚ} {k : ℕ}
    (hk : k ≤ f.places) (hunits : ∀ x ∈ xs, ∃ n : ℤ, x * 10 ^ k = n)
    (hsize : (xs.map fun x : ℚ => |x * 10 ^ k|).sum < (f.limit : ℚ)) : f.CarriesSums xs := by
  have hpart : ∀ ys : List ℚ, ys.Sublist xs → f.Carries ys.sum := by
    intro ys hys
    have hwhole : ∃ n : ℤ, ys.sum * 10 ^ k = n := by
      have hall : ∀ x ∈ ys, ∃ n : ℤ, x * 10 ^ k = n := fun x hx => hunits x (hys.subset hx)
      clear hys hsize
      induction ys with
      | nil => exact ⟨0, by simp⟩
      | cons y ys ih =>
          obtain ⟨n, hn⟩ := hall y List.mem_cons_self
          obtain ⟨m, hm⟩ := ih fun x hx => hall x (List.mem_cons_of_mem _ hx)
          exact ⟨n + m, by rw [List.sum_cons, add_mul, hn, hm, Int.cast_add]⟩
    obtain ⟨n, hn⟩ := hwhole
    have habs : |ys.sum * 10 ^ k| ≤ (xs.map fun x => |x * 10 ^ k|).sum := by
      have hle : |ys.sum * 10 ^ k| ≤ (ys.map fun x => |x * 10 ^ k|).sum := by
        clear hys hn
        induction ys with
        | nil => simp
        | cons y ys ih =>
            rw [List.sum_cons, List.map_cons, List.sum_cons, add_mul]
            exact (abs_add_le _ _).trans (by gcongr)
      refine hle.trans (List.Sublist.sum_le_sum (hys.map _) fun x hx => ?_)
      obtain ⟨y, -, rfl⟩ := List.mem_map.mp hx
      exact abs_nonneg _
    refine DecimalFormat.carries_of_units hn ?_ hk
    have hlt := habs.trans_lt hsize
    rw [hn] at hlt
    exact_mod_cast hlt
  refine ⟨fun x hx => ?_, fun n => hpart _ (List.take_sublist n xs)⟩
  simpa using hpart [x] (List.singleton_sublist.mpr hx)

end Sums

end Foundation
