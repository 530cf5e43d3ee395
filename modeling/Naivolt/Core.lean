import Mathlib

/-!
# Identifiers, clocks, text and assets

The vocabulary every crate shares: UUIDs with the two textual forms the backend writes
(`Uuid.hyphenated` is `Display`, `Uuid.simple` the 32-digit form), timestamps in
microseconds as Postgres stores them, the text predicates of the Rust standard library the
handlers branch on, and the assets, chains and networks of the `core` and `watcher` crates.

Textual forms matter because ledger keys are built from them: `hyphenated_injective` is what
lets a key stand for the identifiers it was formatted from.
-/

namespace Naivolt

/-! ## UUIDs -/

/-- A 128-bit identifier. -/
abbrev Uuid := BitVec 128

instance : LawfulBEq Uuid := inferInstance

/-- One lower-case hexadecimal digit. -/
def hexDigit (n : ℕ) : Char := if n < 10 then Char.ofNat (48 + n) else Char.ofNat (87 + n)

/-- The `k` low hexadecimal digits of `n`, most significant first. -/
def hexDigits : ℕ → ℕ → List Char
  | 0, _ => []
  | k + 1, n => hexDigits k (n / 16) ++ [hexDigit (n % 16)]

lemma hexDigit_injective : ∀ a < 16, ∀ b < 16, hexDigit a = hexDigit b → a = b := by decide

@[simp] lemma length_hexDigits (k n : ℕ) : (hexDigits k n).length = k := by
  induction k generalizing n with
  | zero => rfl
  | succ k ih => simp [hexDigits, ih]

lemma hexDigits_injective {k n m : ℕ} (hn : n < 16 ^ k) (hm : m < 16 ^ k)
    (h : hexDigits k n = hexDigits k m) : n = m := by
  induction k generalizing n m with
  | zero => omega
  | succ k ih =>
      simp only [hexDigits] at h
      obtain ⟨hhigh, hlow⟩ := List.append_inj' h rfl
      have hdiv : n / 16 = m / 16 := by
        refine ih ?_ ?_ hhigh
        · exact Nat.div_lt_of_lt_mul (by rw [pow_succ] at hn; omega)
        · exact Nat.div_lt_of_lt_mul (by rw [pow_succ] at hm; omega)
      have hmod : n % 16 = m % 16 :=
        hexDigit_injective _ (Nat.mod_lt _ (by decide)) _ (Nat.mod_lt _ (by decide))
          (by simpa using hlow)
      omega

lemma mem_hexDigits {k n : ℕ} {c : Char} (h : c ∈ hexDigits k n) :
    ∃ d < 16, c = hexDigit d := by
  induction k generalizing n with
  | zero => simp [hexDigits] at h
  | succ k ih =>
      simp only [hexDigits, List.mem_append, List.mem_singleton] at h
      rcases h with h | h
      · exact ih h
      · exact ⟨_, Nat.mod_lt _ (by decide), h⟩

namespace Uuid

/-- The 32 hexadecimal digits. -/
def digits (u : Uuid) : List Char := hexDigits 32 u.toNat

/-- `Uuid::simple`: the digits without separators. -/
def simple (u : Uuid) : String := String.ofList u.digits

/-- `Uuid`'s `Display`: 8-4-4-4-12 digits. -/
def hyphenated (u : Uuid) : String :=
  String.ofList (u.digits.take 8 ++ '-' :: ((u.digits.drop 8).take 4 ++ '-' ::
    ((u.digits.drop 12).take 4 ++ '-' :: ((u.digits.drop 16).take 4 ++ '-' ::
      u.digits.drop 20))))

@[simp] lemma length_digits (u : Uuid) : u.digits.length = 32 := length_hexDigits 32 _

lemma digits_injective {u v : Uuid} (h : u.digits = v.digits) : u = v := by
  refine BitVec.eq_of_toNat_eq (hexDigits_injective (k := 32) ?_ ?_ h)
  · exact lt_of_lt_of_eq u.isLt (by norm_num)
  · exact lt_of_lt_of_eq v.isLt (by norm_num)

/-- Two identifiers with the same printed form are the same identifier. -/
lemma hyphenated_injective : Function.Injective hyphenated := by
  intro u v h
  have hl := String.ofList_injective h
  refine digits_injective ?_
  obtain ⟨h₁, hl⟩ := List.append_inj hl (by simp)
  obtain ⟨h₂, hl⟩ := List.append_inj (List.cons.inj hl).2 (by simp)
  obtain ⟨h₃, hl⟩ := List.append_inj (List.cons.inj hl).2 (by simp)
  obtain ⟨h₄, hl⟩ := List.append_inj (List.cons.inj hl).2 (by simp)
  have h₅ := (List.cons.inj hl).2
  -- The five groups are consecutive slices of the digits.
  have split : ∀ w : Uuid, w.digits = w.digits.take 8 ++ ((w.digits.drop 8).take 4 ++
      ((w.digits.drop 12).take 4 ++ ((w.digits.drop 16).take 4 ++ w.digits.drop 20))) := by
    intro w
    have drop_split : ∀ n m (l : List Char), l.drop n = (l.drop n).take m ++ l.drop (n + m) := by
      intro n m l
      rw [← List.drop_drop, List.take_append_drop]
    rw [← drop_split 16 4, ← drop_split 12 4, ← drop_split 8 4, List.take_append_drop]
  rw [split u, split v, h₁, h₂, h₃, h₄, h₅]

end Uuid

/-! ## Time -/

/-- A timestamp, in microseconds.  One clock is read by the API processes and by Postgres. -/
abbrev Time := ℕ

def seconds (n : ℕ) : Time := n * 1000000
def minutes (n : ℕ) : Time := seconds (n * 60)
def hours (n : ℕ) : Time := minutes (n * 60)

/-! ## Text -/

/-- Unicode `White_Space`, as `char::is_whitespace`. -/
def isWhitespace (c : Char) : Bool :=
  let n := c.toNat
  (9 ≤ n && n ≤ 13) || n = 32 || n = 0x85 || n = 0xA0 || n = 0x1680 ||
    (0x2000 ≤ n && n ≤ 0x200A) || n = 0x2028 || n = 0x2029 || n = 0x202F || n = 0x205F ||
    n = 0x3000

/-- `str::trim(..).is_empty()`. -/
def isBlank (s : String) : Bool := s.toList.all isWhitespace

/-- `str::trim`. -/
def trimText (s : String) : String :=
  String.ofList ((s.toList.dropWhile isWhitespace).reverse.dropWhile isWhitespace).reverse

/-- A text of PostgreSQL has any characters but U+0000. -/
def storableText (s : String) : Bool := !s.toList.contains (Char.ofNat 0)

/-- `length(btrim(..)) > 0` in SQL, where `btrim` strips spaces only. -/
def hasNonSpace (s : String) : Bool := s.toList.any (· ≠ ' ')

/-- `str::to_ascii_lowercase`, character by character. -/
def lowerAscii (s : String) : List Char := s.toList.map Char.toLower

/-- `str::eq_ignore_ascii_case`. -/
def eqIgnoreAsciiCase (s t : String) : Bool := lowerAscii s = lowerAscii t

/-- `str::contains`. -/
def containsText (s pattern : String) : Bool := decide (pattern.toList <:+: s.toList)

/-! ## Tiers, assets, chains and networks -/

/-- `KycTier`. -/
inductive KycTier where
  | tier0 | tier1 | tier2 | tier3
  deriving DecidableEq, Repr

/-- `Asset`: what a balance is denominated in. -/
inductive Asset where
  | ngn | btc | eth | bnb | matic | trx | sol | usdt | usdc
  deriving DecidableEq, Repr

/-- `Chain`: a family of networks that share one deposit address. -/
inductive Chain where
  | bitcoin | evm | tron | solana
  deriving DecidableEq, Repr

/-- `Network`: where a transfer lands. -/
inductive Network where
  | tron | ethereum | bsc | polygon | base | bitcoin | solana
  deriving DecidableEq, Repr

namespace Network

/-- The chain family whose wallet row holds this network's address. -/
def chain : Network → Chain
  | tron => .tron
  | ethereum | bsc | polygon | base => .evm
  | bitcoin => .bitcoin
  | solana => .solana

/-- Confirmations before crediting. -/
def minConfirmations : Network → ℤ
  | bitcoin => 2
  | ethereum => 12
  | bsc | polygon | tron => 20
  | base => 10
  | solana => 1

/-- How far back the watcher re-scans on startup and checks for reorganisations. -/
def rescanDepth (n : Network) : ℤ := n.minConfirmations * 3

def asStr : Network → String
  | tron => "tron"
  | ethereum => "ethereum"
  | bsc => "bsc"
  | polygon => "polygon"
  | base => "base"
  | bitcoin => "bitcoin"
  | solana => "solana"

lemma asStr_injective : Function.Injective asStr := by
  intro a b h
  cases a <;> cases b <;> first | rfl | exact absurd h (by decide)

/-- No network name contains the separator of a ledger key. -/
lemma colon_notMem_asStr (n : Network) : ':' ∉ n.asStr.toList := by
  cases n <;> decide

end Network

end Naivolt
