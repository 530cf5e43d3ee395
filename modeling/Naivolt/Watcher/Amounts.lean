import Mathlib.Data.Rat.Cast.Order
import Mathlib.Algebra.Order.Ring.Rat
import Mathlib.Algebra.Order.Field.Basic
import Mathlib.Tactic.Linarith
import Mathlib.Tactic.NormNum
import Mathlib.Tactic.Positivity
import Naivolt.Foundation.Utf8

/-!
# Amounts on the wire

A node reports a transferred amount as text: `parse_amount` reads the first word of a log's data,
in hexadecimal, and `scale_amount` a decimal string of TronGrid.  Both parse a `u128`, cast it to
an `i128`, make a decimal of it and set the decimal's scale.  The three types have different
ranges: a `Decimal` holds integers below `2 ^ 96`, and the cast of a `u128` from `2 ^ 127` on is
negative.

`DecimalApi` is what the code uses of `rust_decimal`, with the documented behaviour of each
function in `DecimalApi.Documented`.  `Exact` is what decoding must come to, `WithinRange` which
integers it does come to that for, and `amounts_exact_iff` says so for both decoders.
-/

namespace Naivolt

open Foundation

/-! ## Reading integers -/

/-- `char::to_digit`. -/
def toDigit (radix : ℕ) (c : Char) : Option ℕ :=
  let value :=
    if '0' ≤ c ∧ c ≤ '9' then some (c.toNat - 48)
    else if 'a' ≤ c ∧ c ≤ 'z' then some (c.toNat - 87)
    else if 'A' ≤ c ∧ c ≤ 'Z' then some (c.toNat - 55)
    else none
  value.filter (· < radix)

/-- The number a text of digits spells, after one plus sign at most. -/
def spelledNat (radix : ℕ) (s : List Char) : Option ℕ :=
  let digits := if s.head? = some '+' then s.tail else s
  if digits = [] then none
  else (digits.mapM (toDigit radix)).map (·.foldl (fun n d => n * radix + d) 0)

/-- `u128::from_str_radix`. -/
def fromStrRadix (radix : ℕ) (s : List Char) : Option ℕ :=
  (spelledNat radix s).filter (· < 2 ^ 128)

/-- `as i128`. -/
def asI128 (n : ℕ) : ℤ := if n < 2 ^ 127 then n else n - 2 ^ 128

/-! ## Decimals -/

/-- The functions of `rust_decimal` that decoding uses. -/
structure DecimalApi where
  Decimal : Type
  mantissa : Decimal → ℤ
  scale : Decimal → ℕ
  /-- `Decimal::from_i128_with_scale`, with `none` for a panic. -/
  fromI128WithScale : ℤ → ℕ → Option Decimal
  /-- `Decimal::set_scale`, with `none` for an error. -/
  setScale : Decimal → ℕ → Option Decimal

namespace DecimalApi

variable (api : DecimalApi)

/-- The number a decimal stands for. -/
def value (d : api.Decimal) : ℚ := api.mantissa d / 10 ^ api.scale d

/-- The documented behaviour: mantissas of 96 bits, scales of 28 at most, and a new scale leaves
the mantissa as it is. -/
structure Documented : Prop where
  from_fits : ∀ num scale, |num| < 2 ^ 96 → scale ≤ 28 →
    ∃ d, api.fromI128WithScale num scale = some d ∧ api.mantissa d = num ∧ api.scale d = scale
  from_panics : ∀ num scale, 2 ^ 96 ≤ |num| → api.fromI128WithScale num scale = none
  set_fits : ∀ d scale, scale ≤ 28 →
    ∃ d', api.setScale d scale = some d' ∧ api.mantissa d' = api.mantissa d ∧ api.scale d' = scale
  set_fails : ∀ d scale, 28 < scale → api.setScale d scale = none

end DecimalApi

/-- What a decoder comes to: it panics, it refuses with `None`, or it has an amount. -/
inductive Decoded (α : Type) where
  | panicked
  | refused
  | amount (a : α)
  deriving DecidableEq

/-! ## The decoders -/

/-- `Decimal::from_i128_with_scale(raw as i128, 0)` and `set_scale(decimals).ok()?`. -/
def withScale (api : DecimalApi) (raw decimals : ℕ) : Decoded api.Decimal :=
  match api.fromI128WithScale (asI128 raw) 0 with
  | none => .panicked
  | some value =>
    match api.setScale value decimals with
    | none => .refused
    | some value => .amount value

/-- `trim_start_matches("0x")`. -/
def trimHexMark : List Char → List Char
  | '0' :: 'x' :: rest => trimHexMark rest
  | s => s

/-- `parse_amount`. -/
def parseAmount (api : DecimalApi) (data : String) (decimals : ℕ) : Decoded api.Decimal :=
  let clean := trimHexMark data.toList
  if clean = [] then .refused
  else
    match takeBytes (min (byteSize clean) 64) clean with
    | none => .panicked
    | some word =>
      match fromStrRadix 16 word with
      | none => .refused
      | some raw => withScale api raw decimals

/-- `scale_amount`. -/
def scaleAmount (api : DecimalApi) (raw : String) (decimals : ℕ) : Decoded api.Decimal :=
  match fromStrRadix 10 raw.toList with
  | none => .refused
  | some base => withScale api base decimals

/-! ## Exactness -/

/-- The first word of the data: 32 bytes, two hexadecimal digits each. -/
def firstWord (data : String) : List Char := (trimHexMark data.toList).take 64

/-- Refused, or the integer of the text over the power of ten, exactly. -/
def Exact (api : DecimalApi) (spelled : Option ℕ) (decimals : ℕ) : Decoded api.Decimal → Prop
  | .panicked => False
  | .refused => True
  | .amount d => 0 ≤ api.value d ∧ ∃ n, spelled = some n ∧ api.value d = n / 10 ^ decimals

/-- The integer fits into a decimal, or is refused on the way there: by the type it is parsed at,
or by the scale where the cast has left a mantissa that fits. -/
def WithinRange (decimals n : ℕ) : Prop :=
  n < 2 ^ 96 ∨ 2 ^ 128 ≤ n ∨ (28 < decimals ∧ 2 ^ 128 - 2 ^ 96 < n)

/-- A character ends at the 64th byte, if there are more. -/
def WordEnds (data : String) : Prop :=
  byteSize (trimHexMark data.toList) ≤ 64 ∨
    ∃ word rest, trimHexMark data.toList = word ++ rest ∧ byteSize word = 64

lemma abs_asI128_lt_iff {n : ℕ} (hn : n < 2 ^ 128) :
    |asI128 n| < 2 ^ 96 ↔ n < 2 ^ 96 ∨ 2 ^ 128 - 2 ^ 96 < n := by
  unfold asI128
  split
  · rw [abs_of_nonneg (Int.natCast_nonneg n)]
    omega
  · rw [abs_of_neg (by omega)]
    omega

lemma asI128_nonneg_iff {n : ℕ} (hn : n < 2 ^ 128) : 0 ≤ asI128 n ↔ n < 2 ^ 127 := by
  unfold asI128
  split <;> omega

section Scaling

variable {api : DecimalApi}

lemma withScale_exact_iff (hapi : api.Documented) {n decimals : ℕ} (hn : n < 2 ^ 128) :
    Exact api (some n) decimals (withScale api n decimals) ↔ WithinRange decimals n := by
  have hfits := abs_asI128_lt_iff hn
  unfold withScale WithinRange
  by_cases hlt : |asI128 n| < 2 ^ 96
  · obtain ⟨d, hd, hmantissa, -⟩ := hapi.from_fits _ 0 hlt (Nat.zero_le _)
    rw [hd]
    by_cases hscale : decimals ≤ 28
    · obtain ⟨d', hd', hmantissa', hscale'⟩ := hapi.set_fits d decimals hscale
      have hvalue : api.value d' = asI128 n / 10 ^ decimals := by
        rw [DecimalApi.value, hmantissa', hmantissa, hscale']
      simp only [hd', Exact, hvalue, Option.some.injEq]
      have hpow : (0 : ℚ) < 10 ^ decimals := by positivity
      constructor
      · rintro ⟨hpos, -⟩
        have hnonneg : (0 : ℚ) ≤ asI128 n := by
          by_contra hneg
          exact absurd hpos (not_le.mpr (div_neg_of_neg_of_pos (not_le.mp hneg) hpow))
        have hsmall := (asI128_nonneg_iff hn).mp (by exact_mod_cast hnonneg)
        left
        rcases hfits.mp hlt with h | h <;> omega
      · intro hrange
        have hsmall : n < 2 ^ 96 := by omega
        have hcast : asI128 n = n := by
          unfold asI128
          rw [if_pos (by omega)]
        rw [hcast]
        exact ⟨by positivity, n, rfl, by rw [Int.cast_natCast]⟩
    · have hnone := hapi.set_fails d decimals (by omega)
      simp only [hnone, Exact, true_iff]
      rcases hfits.mp hlt with h | h
      · exact .inl h
      · exact .inr (.inr ⟨by omega, h⟩)
  · rw [hapi.from_panics _ 0 (not_lt.mp hlt)]
    simp only [Exact, false_iff]
    rw [hfits] at hlt
    omega

/-- What a parsed integer comes to. -/
lemma parsed_exact_iff (hapi : api.Documented) (radix decimals : ℕ) (s : List Char) :
    (match fromStrRadix radix s with
      | none => True
      | some raw => Exact api (spelledNat radix s) decimals (withScale api raw decimals)) ↔
      ∀ n, spelledNat radix s = some n → WithinRange decimals n := by
  unfold fromStrRadix
  rcases spelledNat radix s with _ | n
  · simp
  · by_cases hn : n < 2 ^ 128
    · rw [Option.filter_some, if_pos (by simpa using hn)]
      simp only [Option.some.injEq, forall_eq']
      exact withScale_exact_iff hapi hn
    · rw [Option.filter_some, if_neg (by simpa using hn)]
      simp only [Option.some.injEq, forall_eq', true_iff]
      exact .inr (.inl (not_lt.mp hn))

end Scaling

/-! ## Words -/

lemma toDigit_ascii {radix d : ℕ} {c : Char} (h : toDigit radix c = some d) : c.utf8Size = 1 := by
  have hrange : c.toNat ≤ 127 := by
    unfold toDigit at h
    by_contra hbig
    have hle : ∀ a : Char, c ≤ a → c.toNat ≤ a.toNat := fun a ha => ha
    have h₁ : ¬ ('0' ≤ c ∧ c ≤ '9') := fun hc => hbig ((hle _ hc.2).trans (by decide))
    have h₂ : ¬ ('a' ≤ c ∧ c ≤ 'z') := fun hc => hbig ((hle _ hc.2).trans (by decide))
    have h₃ : ¬ ('A' ≤ c ∧ c ≤ 'Z') := fun hc => hbig ((hle _ hc.2).trans (by decide))
    rw [if_neg h₁, if_neg h₂, if_neg h₃] at h
    cases h
  exact Char.utf8Size_eq_one_iff.mpr (UInt32.le_iff_toNat_le.mpr hrange)

/-- Digits are ASCII. -/
lemma isAscii_of_spelled {radix n : ℕ} {s : List Char} (h : spelledNat radix s = some n) :
    IsAscii s := by
  have hdigits : ∀ {l : List Char} {ds : List ℕ}, l.mapM (toDigit radix) = some ds → IsAscii l := by
    intro l
    induction l with
    | nil => exact fun _ c hc => nomatch hc
    | cons c l ih =>
        intro ds hds
        rw [List.mapM_cons] at hds
        obtain ⟨d, hd, hrest⟩ := Option.bind_eq_some_iff.mp hds
        obtain ⟨ds', hds', -⟩ := Option.bind_eq_some_iff.mp hrest
        intro a ha
        rcases List.mem_cons.mp ha with rfl | ha
        · exact toDigit_ascii hd
        · exact ih hds' a ha
  unfold spelledNat at h
  dsimp only at h
  by_cases hsign : s.head? = some '+'
  · rw [if_pos hsign] at h
    split at h
    · cases h
    · obtain ⟨ds, hds, -⟩ := Option.map_eq_some_iff.mp h
      cases s with
      | nil => cases hsign
      | cons c s =>
          have hc : c = '+' := Option.some.inj hsign
          intro a ha
          rcases List.mem_cons.mp ha with rfl | ha
          · rw [hc]
            rfl
          · exact hdigits hds a ha
  · rw [if_neg hsign] at h
    split at h
    · cases h
    · obtain ⟨ds, hds, -⟩ := Option.map_eq_some_iff.mp h
      exact hdigits hds

/-- The slice is the first word, whenever digits are read from it. -/
lemma firstWord_of_slice {data : String} {word : List Char} {n : ℕ}
    (hword : takeBytes (min (byteSize (trimHexMark data.toList)) 64) (trimHexMark data.toList) =
      some word) (h : spelledNat 16 word = some n) : word = firstWord data := by
  obtain ⟨rest, hsplit, hsize⟩ := takeBytes_eq_some_iff.mp hword
  rw [(isAscii_of_spelled h).byteSize] at hsize
  have htotal : byteSize (trimHexMark data.toList) = word.length + byteSize rest := by
    rw [hsplit, byteSize_append, (isAscii_of_spelled h).byteSize]
  unfold firstWord
  by_cases hlong : byteSize (trimHexMark data.toList) ≤ 64
  · have hrest : rest = [] := eq_nil_of_byteSize (by omega)
    rw [hsplit, hrest, List.append_nil, List.take_of_length_le (by omega)]
  · rw [hsplit, List.take_left' (by omega)]

lemma slice_of_firstWord {data : String} {n : ℕ} (h : spelledNat 16 (firstWord data) = some n) :
    takeBytes (min (byteSize (trimHexMark data.toList)) 64) (trimHexMark data.toList) =
      some (firstWord data) := by
  have hascii := isAscii_of_spelled h
  have hlen : (firstWord data).length = min 64 (trimHexMark data.toList).length :=
    List.length_take
  have hsplit : firstWord data ++ (trimHexMark data.toList).drop 64 = trimHexMark data.toList :=
    List.take_append_drop 64 _
  refine takeBytes_eq_some_iff.mpr ⟨_, hsplit.symm, ?_⟩
  have htotal : byteSize (trimHexMark data.toList) =
      (firstWord data).length + byteSize ((trimHexMark data.toList).drop 64) := by
    rw [← hascii.byteSize, ← byteSize_append, hsplit]
  rw [hascii.byteSize]
  by_cases hlong : (trimHexMark data.toList).length ≤ 64
  · rw [List.drop_of_length_le hlong, byteSize_nil] at htotal
    omega
  · omega

/-- The slice spells what the first word spells. -/
lemma spelled_slice {data : String} {word : List Char}
    (hword : takeBytes (min (byteSize (trimHexMark data.toList)) 64) (trimHexMark data.toList) =
      some word) : spelledNat 16 word = spelledNat 16 (firstWord data) := by
  cases h : spelledNat 16 word with
  | some n => rw [← h, firstWord_of_slice hword h]
  | none =>
      cases h' : spelledNat 16 (firstWord data) with
      | none => rfl
      | some n =>
          have hsame := hword.symm.trans (slice_of_firstWord h')
          rw [Option.some.inj hsame, h'] at h
          cases h

lemma exists_slice_iff {data : String} :
    (∃ word, takeBytes (min (byteSize (trimHexMark data.toList)) 64) (trimHexMark data.toList) =
      some word) ↔ WordEnds data := by
  unfold WordEnds
  by_cases hlong : byteSize (trimHexMark data.toList) ≤ 64
  · rw [Nat.min_eq_left hlong]
    exact iff_of_true ⟨_, takeBytes_eq_some_iff.mpr ⟨[], (List.append_nil _).symm, rfl⟩⟩
      (.inl hlong)
  · rw [Nat.min_eq_right (by omega)]
    simp only [takeBytes_eq_some_iff, hlong, false_or]

/-! ## The law -/

/-- **Amounts are exact within range.**  Reading a log's first word, or a TRON amount, comes to a
refusal or to the exact amount if and only if the text can be cut after the word and the integer
in it, if there is one, fits into a decimal or is refused on the way there. -/
theorem amounts_exact_iff {api : DecimalApi} (hapi : api.Documented) (data raw : String)
    (decimals : ℕ) :
    (Exact api (spelledNat 16 (firstWord data)) decimals (parseAmount api data decimals) ↔
      WordEnds data ∧
        ∀ n, spelledNat 16 (firstWord data) = some n → WithinRange decimals n) ∧
    (Exact api (spelledNat 10 raw.toList) decimals (scaleAmount api raw decimals) ↔
      ∀ n, spelledNat 10 raw.toList = some n → WithinRange decimals n) := by
  constructor
  · unfold parseAmount
    dsimp only
    by_cases hempty : trimHexMark data.toList = []
    · have hword : firstWord data = [] := by rw [firstWord, hempty, List.take_nil]
      rw [if_pos hempty, hword]
      refine iff_of_true trivial ⟨.inl ?_, fun n hn => nomatch hn⟩
      rw [hempty, byteSize_nil]
      omega
    · rw [if_neg hempty, ← exists_slice_iff]
      cases hslice : takeBytes (min (byteSize (trimHexMark data.toList)) 64)
          (trimHexMark data.toList) with
      | none => simp [Exact]
      | some word =>
          have hread := parsed_exact_iff hapi 16 decimals word
          rw [spelled_slice hslice] at hread
          have hends : ∃ w, some word = some w := ⟨word, rfl⟩
          rw [and_iff_right hends, ← hread]
          dsimp only
          cases fromStrRadix 16 word <;> rfl
  · have hread := parsed_exact_iff hapi 10 decimals raw.toList
    unfold scaleAmount
    rw [← hread]
    cases fromStrRadix 10 raw.toList <;> rfl

/-! ## Witnesses -/

/-- A decimal as it is stored: a mantissa and a scale. -/
def plainDecimals : DecimalApi where
  Decimal := ℤ × ℕ
  mantissa := Prod.fst
  scale := Prod.snd
  fromI128WithScale num scale := if |num| < 2 ^ 96 ∧ scale ≤ 28 then some (num, scale) else none
  setScale d scale := if scale ≤ 28 then some (d.1, scale) else none

instance : DecidableEq plainDecimals.Decimal := inferInstanceAs (DecidableEq (ℤ × ℕ))

lemma plainDecimals_documented : plainDecimals.Documented where
  from_fits num scale hnum hscale := ⟨(num, scale), if_pos ⟨hnum, hscale⟩, rfl, rfl⟩
  from_panics num scale hnum := if_neg fun h => absurd h.1 (not_lt.mpr hnum)
  set_fits d scale hscale := ⟨(d.1, scale), if_pos hscale, rfl, rfl⟩
  set_fails d scale hscale := if_neg (by omega)

/-- A word of 128 one bits. -/
def maximalWord : String :=
  "0x00000000000000000000000000000000ffffffffffffffffffffffffffffffff"

/-- **A hostile token transfers a negative amount.** -/
theorem amount_negative : ¬ ∀ (api : DecimalApi), api.Documented → ∀ (data : String)
    (decimals : ℕ), decimals ≤ 36 →
      Exact api (spelledNat 16 (firstWord data)) decimals (parseAmount api data decimals) := by
  intro h
  have hexact := h plainDecimals plainDecimals_documented maximalWord 6 (by omega)
  have hdecoded : parseAmount plainDecimals maximalWord 6 = .amount (-1, 6) := by decide +kernel
  rw [hdecoded] at hexact
  have hvalue : plainDecimals.value (-1, 6) = -1 / 10 ^ 6 := by
    simp [DecimalApi.value, plainDecimals]
  have hpos : (0 : ℚ) ≤ -1 / 10 ^ 6 := hvalue ▸ hexact.1
  norm_num at hpos

/-- 100 USDT, of six decimals. -/
theorem amounts_exact_hundred :
    Exact plainDecimals (spelledNat 10 "100000000".toList) 6
      (scaleAmount plainDecimals "100000000" 6) := by
  refine (amounts_exact_iff plainDecimals_documented "" "100000000" 6).2.mpr fun n hn => .inl ?_
  have hspelled : spelledNat 10 "100000000".toList = some 100000000 := by decide +kernel
  rw [hspelled] at hn
  cases hn
  norm_num

end Naivolt
