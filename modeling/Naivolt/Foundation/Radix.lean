import Mathlib.Data.Nat.Digits.Lemmas
import Mathlib.Data.List.Basic
import Mathlib.Tactic.Ring

/-!
# The same number in another base

A string of digits, the most significant first, is a number with so many zeros before it.
`convert a b` writes that number in another base and leaves the zeros before it, one digit for one
digit.  This is how an encoding such as Base58 turns bytes into text without losing those that are
zero.

`convert_convert` says that nothing is lost on the way, and `head_digits` how a number within bounds
begins and how long it is.  With an `Alphabet`, digits are texts: `Alphabet.decode_eq_some_iff`.
-/

namespace Foundation

namespace Radix

/-- The number of zeros a string of digits begins with. -/
def zeros : List ℕ → ℕ
  | 0 :: ds => zeros ds + 1
  | _ => 0

/-- The number a string of digits stands for. -/
def value (b : ℕ) (ds : List ℕ) : ℕ := Nat.ofDigits b ds.reverse

/-- The digits of a number, none for zero. -/
def digits (b n : ℕ) : List ℕ := (b.digits n).reverse

/-- The same number in another base, with as many zeros before it. -/
def convert (a b : ℕ) (ds : List ℕ) : List ℕ :=
  List.replicate (zeros ds) 0 ++ digits b (value a ds)

variable {a b : ℕ} {ds : List ℕ}

/-! ## Zeros -/

@[simp] lemma zeros_nil : zeros [] = 0 := rfl

@[simp] lemma zeros_zero_cons (ds : List ℕ) : zeros (0 :: ds) = zeros ds + 1 := rfl

lemma zeros_cons_of_ne {d : ℕ} (hd : d ≠ 0) (ds : List ℕ) : zeros (d :: ds) = 0 := by
  cases d with
  | zero => exact absurd rfl hd
  | succ d => rfl

lemma zeros_replicate_append (k : ℕ) (hds : zeros ds = 0) :
    zeros (List.replicate k 0 ++ ds) = k := by
  induction k with
  | zero => exact hds
  | succ k ih => rw [List.replicate_succ, List.cons_append, zeros_zero_cons, ih]

@[simp] lemma value_nil : value b [] = 0 := rfl

@[simp] lemma value_zero_cons (ds : List ℕ) : value b (0 :: ds) = value b ds := by
  rw [value, List.reverse_cons, Nat.ofDigits_append_zero, value]

@[simp] lemma value_replicate_append (k : ℕ) (ds : List ℕ) :
    value b (List.replicate k 0 ++ ds) = value b ds := by
  induction k with
  | zero => rfl
  | succ k ih => rw [List.replicate_succ, List.cons_append, value_zero_cons, ih]

lemma value_cons (d : ℕ) (ds : List ℕ) : value b (d :: ds) = d * b ^ ds.length + value b ds := by
  rw [value, List.reverse_cons, Nat.ofDigits_append, Nat.ofDigits_singleton, List.length_reverse,
    value]
  ring

/-! ## Numbers -/

@[simp] lemma value_digits (n : ℕ) : value b (digits b n) = n := by
  rw [value, digits, List.reverse_reverse, Nat.ofDigits_digits]

/-- A number begins with a digit that is not zero. -/
lemma zeros_digits (n : ℕ) : zeros (digits b n) = 0 := by
  rcases h : digits b n with _ | ⟨d, ds⟩
  · rfl
  · have hreverse : b.digits n = ds.reverse ++ [d] := by
      have hdigits := congrArg List.reverse h
      rwa [digits, List.reverse_reverse, List.reverse_cons] at hdigits
    have hn : n ≠ 0 := by
      rintro rfl
      simp at hreverse
    have hlast := Nat.getLast_digit_ne_zero b hn
    refine zeros_cons_of_ne ?_ ds
    simpa [hreverse] using hlast

lemma value_lt (hb : 1 < b) (h : ∀ d ∈ ds, d < b) : value b ds < b ^ ds.length := by
  rw [value, ← List.length_reverse]
  exact Nat.ofDigits_lt_base_pow_length hb fun d hd => h d (List.mem_reverse.mp hd)

lemma lt_of_mem_digits (hb : 1 < b) {n d : ℕ} (hd : d ∈ digits b n) : d < b :=
  Nat.digits_lt_base hb (List.mem_reverse.mp hd)

/-- A string of digits is its zeros and its number. -/
lemma replicate_append_digits (hb : 1 < b) (h : ∀ d ∈ ds, d < b) :
    List.replicate (zeros ds) 0 ++ digits b (value b ds) = ds := by
  induction ds with
  | nil => simp [digits]
  | cons d ds ih =>
      by_cases hd : d = 0
      · subst hd
        rw [zeros_zero_cons, value_zero_cons, List.replicate_succ, List.cons_append,
          ih fun e he => h e (List.mem_cons_of_mem _ he)]
      · rw [zeros_cons_of_ne hd, List.replicate_zero, List.nil_append, value, digits,
          Nat.digits_ofDigits b hb]
        · rw [List.reverse_reverse]
        · exact fun e he => h e (List.mem_reverse.mp he)
        · intro hne
          simpa using hd

/-! ## Converting -/

@[simp] lemma zeros_convert : zeros (convert a b ds) = zeros ds :=
  zeros_replicate_append _ (zeros_digits _)

@[simp] lemma value_convert : value b (convert a b ds) = value a ds := by
  rw [convert, value_replicate_append, value_digits]

lemma lt_of_mem_convert (hb : 1 < b) {d : ℕ} (hd : d ∈ convert a b ds) : d < b := by
  rcases List.mem_append.mp hd with hzero | hdigit
  · rw [List.eq_of_mem_replicate hzero]
    omega
  · exact lt_of_mem_digits hb hdigit

/-- **Nothing is lost in another base.** -/
theorem convert_convert (ha : 1 < a) (h : ∀ d ∈ ds, d < a) :
    convert b a (convert a b ds) = ds := by
  rw [convert, zeros_convert, value_convert, replicate_append_digits ha h]

/-! ## How a text begins -/

/-- A number between two of its base's powers has that many digits and one. -/
lemma length_digits (hb : 1 < b) {n k : ℕ} (hlow : b ^ k ≤ n) (hhigh : n < b ^ (k + 1)) :
    (digits b n).length = k + 1 := by
  rw [digits, List.length_reverse]
  have hne : n ≠ 0 := (Nat.lt_of_lt_of_le (Nat.pow_pos (by omega)) hlow).ne'
  rw [Nat.length_digits b n hb hne, Nat.log_eq_of_pow_le_of_lt_pow hlow hhigh]

/-- **The first digit of a number**, when the number is between two multiples of a power. -/
lemma head_digits (hb : 1 < b) {n k d : ℕ} (hd : 0 < d) (hlow : d * b ^ k ≤ n)
    (hhigh : n < (d + 1) * b ^ k) (hdigit : d < b) :
    ∃ rest, digits b n = d :: rest ∧ rest.length = k := by
  have hpow : b ^ k ≤ n := (Nat.le_mul_of_pos_left _ hd).trans hlow
  have hbound : n < b ^ (k + 1) := by
    refine hhigh.trans_le ?_
    rw [pow_succ, mul_comm]
    exact Nat.mul_le_mul_left _ hdigit
  have hlength := length_digits hb hpow hbound
  rcases h : digits b n with _ | ⟨e, rest⟩
  · rw [h] at hlength
    cases hlength
  · rw [h, List.length_cons] at hlength
    have hrest : rest.length = k := Nat.succ_injective hlength
    have hvalue : e * b ^ k + value b rest = n := by
      rw [← hrest, ← value_cons, ← h, value_digits]
    have hsmall : value b rest < b ^ k := by
      rw [← hrest]
      exact value_lt hb fun x hx => lt_of_mem_digits hb (h ▸ List.mem_cons_of_mem _ hx)
    -- The multiples of the power on either side of the number decide its first digit.
    have hle : e < d + 1 := by
      by_contra hnot
      have := Nat.mul_le_mul_right (b ^ k) (not_lt.mp hnot)
      omega
    have hge : d < e + 1 := by
      by_contra hnot
      have := Nat.mul_le_mul_right (b ^ k) (not_lt.mp hnot)
      rw [Nat.add_one_mul] at this
      omega
    obtain rfl : e = d := by omega
    exact ⟨rest, rfl, hrest⟩

/-- The same of what a string of digits begins with, whatever comes after its first digit. -/
lemma head_convert (ha : 1 < a) (hb : 1 < b) {e d k : ℕ} (he : e ≠ 0) (h : ∀ x ∈ ds, x < a)
    (hd : 0 < d) (hdigit : d < b) (hlow : d * b ^ k ≤ e * a ^ ds.length)
    (hhigh : (e + 1) * a ^ ds.length ≤ (d + 1) * b ^ k) :
    ∃ rest, convert a b (e :: ds) = d :: rest ∧ rest.length = k := by
  have hsmall := value_lt ha h
  rw [convert, zeros_cons_of_ne he, List.replicate_zero, List.nil_append, value_cons]
  refine head_digits hb hd (hlow.trans (Nat.le_add_right _ _)) ?_ hdigit
  refine lt_of_lt_of_le ?_ hhigh
  rw [Nat.add_one_mul]
  exact Nat.add_lt_add_left hsmall _

/-! ## Letters -/

/-- A letter for each digit. -/
structure Alphabet (b : ℕ) where
  letters : List Char
  length : letters.length = b
  nodup : letters.Nodup

namespace Alphabet

variable (A : Alphabet b)

def letter (d : ℕ) : Char := A.letters.getD d '0'

def digit (c : Char) : Option ℕ := A.letters.idxOf? c

/-- The text of a string of digits. -/
def write (ds : List ℕ) : List Char := ds.map A.letter

/-- The digits a text is made of, none if there is a character that is no letter. -/
def read (s : List Char) : Option (List ℕ) := s.mapM A.digit

lemma letter_eq_getElem {d : ℕ} (hd : d < A.letters.length) : A.letter d = A.letters[d] := by
  simp [letter, List.getD, hd]

lemma digit_eq_some_iff {c : Char} {d : ℕ} : A.digit c = some d ↔ d < b ∧ A.letter d = c := by
  unfold digit
  rw [List.idxOf?_eq_some_iff]
  constructor
  · rintro ⟨hd, hc, -⟩
    exact ⟨A.length ▸ hd, by rw [A.letter_eq_getElem hd, hc]⟩
  · rintro ⟨hd, rfl⟩
    rw [← A.length] at hd
    refine ⟨hd, (A.letter_eq_getElem hd).symm, fun j hj heq => ?_⟩
    rw [A.letter_eq_getElem hd, A.nodup.getElem_inj_iff] at heq
    omega

/-- **A text is read as the digits it was written from**, and as no others. -/
lemma read_eq_some_iff {s : List Char} {ds : List ℕ} :
    A.read s = some ds ↔ (∀ d ∈ ds, d < b) ∧ A.write ds = s := by
  induction s generalizing ds with
  | nil =>
      cases ds with
      | nil => simp [read, write]
      | cons d ds => simp [read, write]
  | cons c s ih =>
      have hread : A.read (c :: s) =
          (A.digit c).bind fun d => (A.read s).bind fun ds => some (d :: ds) := by
        simp [read, List.mapM_cons]
      rw [hread, Option.bind_eq_some_iff]
      constructor
      · rintro ⟨d, hd, htail⟩
        obtain ⟨ds', hds', heq⟩ := Option.bind_eq_some_iff.mp htail
        cases heq
        obtain ⟨hlt, hletter⟩ := A.digit_eq_some_iff.mp hd
        obtain ⟨hall, hwrite⟩ := ih.mp hds'
        exact ⟨List.forall_mem_cons.mpr ⟨hlt, hall⟩, by rw [write, List.map_cons, hletter, ← hwrite,
          write]⟩
      · rintro ⟨hall, hwrite⟩
        cases ds with
        | nil => simp [write] at hwrite
        | cons d ds =>
            rw [write, List.map_cons] at hwrite
            obtain ⟨hletter, htail⟩ := List.cons.inj hwrite
            obtain ⟨hlt, hall⟩ := List.forall_mem_cons.mp hall
            exact ⟨d, A.digit_eq_some_iff.mpr ⟨hlt, hletter⟩,
              by rw [ih.mpr ⟨hall, htail⟩, Option.bind_some]⟩

/-- Digits of another base as a text. -/
def encode (a : ℕ) (ds : List ℕ) : List Char := A.write (convert a b ds)

def decode (a : ℕ) (s : List Char) : Option (List ℕ) := (A.read s).map (convert b a)

/-- **Every text of letters is that of one string of digits, and reads back as it.** -/
theorem decode_eq_some_iff (ha : 1 < a) (hb : 1 < b) {s : List Char} {ds : List ℕ} :
    A.decode a s = some ds ↔ (∀ d ∈ ds, d < a) ∧ A.encode a ds = s := by
  unfold decode encode
  rw [Option.map_eq_some_iff]
  constructor
  · rintro ⟨ds', hread, rfl⟩
    obtain ⟨hall, hwrite⟩ := A.read_eq_some_iff.mp hread
    exact ⟨fun d hd => lt_of_mem_convert ha hd, by rw [convert_convert hb hall, hwrite]⟩
  · rintro ⟨hall, hwrite⟩
    have hread := A.read_eq_some_iff.mpr ⟨fun d hd => lt_of_mem_convert hb hd, hwrite⟩
    exact ⟨convert a b ds, hread, convert_convert ha hall⟩

end Alphabet

end Radix

end Foundation
