import Mathlib.Algebra.Ring.Nat
import Mathlib.Data.Nat.Basic
import Mathlib.Algebra.BigOperators.Group.List.Basic

/-!
# Slicing text by bytes

Texts in UTF-8 are sliced at byte offsets, and slicing inside a character is an error.
`takeBytes` and `dropBytes` are the two slices at an offset, with `none` for the error; they
succeed exactly where a character ends (`takeBytes_eq_some_iff`, `dropBytes_eq_some_iff`).
`byteSize` is the length in bytes.  Where every character takes one byte they are `List.take` and
`List.drop` (`takeBytes_ascii`, `dropBytes_ascii`).
-/

namespace Foundation

/-- The bytes a text takes. -/
def byteSize (s : List Char) : ℕ := (s.map Char.utf8Size).sum

/-- The first `n` bytes, if a character ends there. -/
def takeBytes : ℕ → List Char → Option (List Char)
  | 0, _ => some []
  | _ + 1, [] => none
  | n + 1, c :: s =>
      if c.utf8Size ≤ n + 1 then (takeBytes (n + 1 - c.utf8Size) s).map (c :: ·) else none

/-- What follows the first `n` bytes, if a character ends there. -/
def dropBytes : ℕ → List Char → Option (List Char)
  | 0, s => some s
  | _ + 1, [] => none
  | n + 1, c :: s => if c.utf8Size ≤ n + 1 then dropBytes (n + 1 - c.utf8Size) s else none

@[simp] lemma byteSize_nil : byteSize [] = 0 := rfl

@[simp] lemma byteSize_cons (c : Char) (s : List Char) :
    byteSize (c :: s) = c.utf8Size + byteSize s := by
  simp [byteSize]

@[simp] lemma byteSize_append (s t : List Char) : byteSize (s ++ t) = byteSize s + byteSize t := by
  simp [byteSize]

lemma length_le_byteSize (s : List Char) : s.length ≤ byteSize s := by
  induction s with
  | nil => exact Nat.le_refl 0
  | cons c s ih =>
      have hc := c.utf8Size_pos
      rw [List.length_cons, byteSize_cons]
      omega

lemma eq_nil_of_byteSize {s : List Char} (h : byteSize s = 0) : s = [] := by
  have hlen := length_le_byteSize s
  exact List.length_eq_zero_iff.mp (by omega)

/-- A slice is taken where a character ends. -/
lemma takeBytes_eq_some_iff {n : ℕ} {s p : List Char} :
    takeBytes n s = some p ↔ ∃ rest, s = p ++ rest ∧ byteSize p = n := by
  induction s generalizing n p with
  | nil =>
      cases n with
      | zero =>
          constructor
          · intro h
            cases h
            exact ⟨[], rfl, rfl⟩
          · rintro ⟨rest, hs, -⟩
            obtain ⟨rfl, -⟩ := List.append_eq_nil_iff.mp hs.symm
            rfl
      | succ n =>
          constructor
          · intro h
            cases h
          · rintro ⟨rest, hs, hsize⟩
            obtain ⟨rfl, -⟩ := List.append_eq_nil_iff.mp hs.symm
            cases hsize
  | cons c s ih =>
      have hc := c.utf8Size_pos
      cases n with
      | zero =>
          constructor
          · intro h
            cases h
            exact ⟨c :: s, rfl, rfl⟩
          · rintro ⟨rest, -, hsize⟩
            rw [eq_nil_of_byteSize hsize]
            rfl
      | succ n =>
          simp only [takeBytes, Option.ite_none_right_eq_some, Option.map_eq_some_iff]
          constructor
          · rintro ⟨hfits, q, hq, rfl⟩
            obtain ⟨rest, rfl, hsize⟩ := ih.mp hq
            refine ⟨rest, rfl, ?_⟩
            rw [byteSize_cons]
            omega
          · rintro ⟨rest, hs, hsize⟩
            cases p with
            | nil => cases hsize
            | cons d q =>
                obtain ⟨rfl, rfl⟩ := List.cons.inj hs
                rw [byteSize_cons] at hsize
                exact ⟨by omega, q, ih.mpr ⟨rest, rfl, by omega⟩, rfl⟩

/-- The rest of a text from where a character ends. -/
lemma dropBytes_eq_some_iff {n : ℕ} {s q : List Char} :
    dropBytes n s = some q ↔ ∃ p, s = p ++ q ∧ byteSize p = n := by
  induction s generalizing n q with
  | nil =>
      cases n with
      | zero =>
          constructor
          · intro h
            cases h
            exact ⟨[], rfl, rfl⟩
          · rintro ⟨p, hs, -⟩
            obtain ⟨-, rfl⟩ := List.append_eq_nil_iff.mp hs.symm
            rfl
      | succ n =>
          constructor
          · intro h
            cases h
          · rintro ⟨p, hs, hsize⟩
            obtain ⟨rfl, -⟩ := List.append_eq_nil_iff.mp hs.symm
            cases hsize
  | cons c s ih =>
      have hc := c.utf8Size_pos
      cases n with
      | zero =>
          constructor
          · intro h
            cases h
            exact ⟨[], rfl, rfl⟩
          · rintro ⟨p, hs, hsize⟩
            rw [eq_nil_of_byteSize hsize, List.nil_append] at hs
            exact congrArg some hs
      | succ n =>
          simp only [dropBytes, Option.ite_none_right_eq_some]
          constructor
          · rintro ⟨hfits, hq⟩
            obtain ⟨p, rfl, hsize⟩ := ih.mp hq
            refine ⟨c :: p, rfl, ?_⟩
            rw [byteSize_cons]
            omega
          · rintro ⟨p, hs, hsize⟩
            cases p with
            | nil => cases hsize
            | cons d p =>
                obtain ⟨rfl, rfl⟩ := List.cons.inj hs
                rw [byteSize_cons] at hsize
                exact ⟨by omega, ih.mpr ⟨p, rfl, by omega⟩⟩

/-! ## One byte a character -/

/-- Every character takes one byte. -/
def IsAscii (s : List Char) : Prop := ∀ c ∈ s, c.utf8Size = 1

lemma IsAscii.byteSize {s : List Char} (h : IsAscii s) : byteSize s = s.length := by
  induction s with
  | nil => rfl
  | cons c s ih =>
      have hs := ih fun d hd => h d (List.mem_cons_of_mem _ hd)
      rw [byteSize_cons, h c List.mem_cons_self, hs, List.length_cons, add_comm]

lemma takeBytes_ascii {s : List Char} (h : IsAscii s) {n : ℕ} (hn : n ≤ s.length) :
    takeBytes n s = some (s.take n) := by
  have htake : IsAscii (s.take n) := fun c hc => h c (List.mem_of_mem_take hc)
  refine takeBytes_eq_some_iff.mpr ⟨s.drop n, (List.take_append_drop n s).symm, ?_⟩
  rw [htake.byteSize, List.length_take, Nat.min_eq_left hn]

lemma dropBytes_ascii {s : List Char} (h : IsAscii s) {n : ℕ} (hn : n ≤ s.length) :
    dropBytes n s = some (s.drop n) := by
  have htake : IsAscii (s.take n) := fun c hc => h c (List.mem_of_mem_take hc)
  refine dropBytes_eq_some_iff.mpr ⟨s.take n, (List.take_append_drop n s).symm, ?_⟩
  rw [htake.byteSize, List.length_take, Nat.min_eq_left hn]

end Foundation
