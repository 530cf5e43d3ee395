import Naivolt.Core
import Naivolt.Foundation.Texts

/-!
# Sign-in identifiers

The `identifier` module of the auth crate: whether the one sign-in field holds a phone number or
an email, and the form in which either is stored and compared.  Two spellings of one address must
normalise to the same text, or one human is stored as two users; `normalizeEmail_idem` says that
what is stored is its own normal form.
-/

namespace Naivolt

open Foundation

/-- `Provider`: how a user proves who they are. -/
inductive Provider where
  | phone | email | google
  deriving DecidableEq, Repr

/-- `Channel`: how a code reaches its user. -/
inductive Channel where
  | sms | email
  deriving DecidableEq, Repr

/-- A validated sign-in identifier. -/
inductive Identifier where
  | phone (value : String)
  | email (value : String)
  deriving DecidableEq

namespace Identifier

/-- The subject stored on the identity row. -/
def subject : Identifier → String
  | .phone v | .email v => v

def channel : Identifier → Channel
  | .phone _ => .sms
  | .email _ => .email

end Identifier

/-- `str::split_whitespace().count()`. -/
def countWords (s : List Char) : ℕ := ((s.splitOnP isWhitespace).filter (· ≠ [])).length

/-- `str::split_once('@')`. -/
def splitOnceAt (s : List Char) : Option (List Char × List Char) :=
  if '@' ∈ s then some (s.takeWhile (· ≠ '@'), (s.dropWhile (· ≠ '@')).tail) else none

/-- What `normalize_email` asks of the trimmed, lower-cased text. -/
def validEmail (value : List Char) : Bool :=
  match splitOnceAt value with
  | none => false
  | some (localPart, domain) =>
      !localPart.isEmpty && !domain.isEmpty && !domain.contains '@' && domain.contains '.' &&
        countWords value = 1 && !(domain.splitOn '.').any (·.isEmpty)

/-- `normalize_email`. -/
def normalizeEmail (input : String) : Option String :=
  let value := lowerAscii (trimText input)
  if validEmail value then some (String.ofList value) else none

/-- `normalize_ng_phone`. -/
def normalizeNgPhone (input : String) : Option String :=
  let digits := input.toList.filter Char.isDigit
  let national :=
    if digits.length = 11 && digits.head? = some '0' then some (digits.drop 1)
    else if digits.length = 13 && digits.take 3 = ['2', '3', '4'] then some (digits.drop 3)
    else if digits.length = 10 then some digits
    else none
  national.bind fun d =>
    if d.head? = some '7' || d.head? = some '8' || d.head? = some '9' then
      some (String.ofList ("+234".toList ++ d))
    else none

/-- `IdentifierError`. -/
inductive IdentifierError where
  | empty | invalidEmail | invalidPhone
  deriving DecidableEq

/-- `parse_identifier`. -/
def parseIdentifier (input : String) : Except IdentifierError Identifier :=
  let trimmed := trimText input
  if trimmed.toList.isEmpty then .error .empty
  else if trimmed.toList.contains '@' then
    match normalizeEmail trimmed with
    | some v => .ok (.email v)
    | none => .error .invalidEmail
  else
    match normalizeNgPhone trimmed with
    | some v => .ok (.phone v)
    | none => .error .invalidPhone

example : parseIdentifier "  Ada@Example.COM " = .ok (.email "ada@example.com") := by decide
example : parseIdentifier "0801-234-5678" = .ok (.phone "+2348012345678") := by decide
example : parseIdentifier "ada@ex..com" = .error .invalidEmail := by decide

/-! ## Normal forms -/

lemma toNat_toLower (c : Char) :
    c.toLower.toNat = if 65 ≤ c.toNat ∧ c.toNat ≤ 90 then c.toNat + 32 else c.toNat := by
  unfold Char.toLower
  by_cases h : 65 ≤ c.toNat ∧ c.toNat ≤ 90
  · have h' : c.val ≥ 'A'.val ∧ c.val ≤ 'Z'.val := by
      simpa [UInt32.le_iff_toNat_le, Char.toNat_val] using h
    rw [dif_pos h', if_pos h]
    change (c.val + 32).toNat = c.val.toNat + 32
    have hle : c.val.toNat ≤ 90 := h.2
    rw [UInt32.toNat_add]
    exact Nat.mod_eq_of_lt (by change c.val.toNat + 32 < _; omega)
  · have h' : ¬ (c.val ≥ 'A'.val ∧ c.val ≤ 'Z'.val) := by
      simpa [UInt32.le_iff_toNat_le, Char.toNat_val] using h
    rw [dif_neg h', if_neg h]

lemma isWhitespace_toLower (c : Char) : isWhitespace c.toLower = isWhitespace c := by
  simp only [isWhitespace, toNat_toLower]
  split
  · rename_i h
    apply Bool.eq_iff_iff.mpr
    simp only [Bool.or_eq_true, Bool.and_eq_true, decide_eq_true_eq]
    omega
  · rfl

lemma toLower_toLower (c : Char) : c.toLower.toLower = c.toLower := by
  apply Char.ext
  apply UInt32.toNat_inj.mp
  change c.toLower.toLower.toNat = c.toLower.toNat
  simp only [toNat_toLower]
  split_ifs <;> omega

lemma toList_trimText (s : String) :
    (trimText s).toList = Texts.trim isWhitespace s.toList := by
  simp [trimText, Texts.trim, List.rdropWhile]

/-- Trimming and lower-casing what has been trimmed and lower-cased changes nothing. -/
lemma lowerAscii_trimText_idem (s : String) :
    lowerAscii (trimText (String.ofList (lowerAscii (trimText s)))) =
      lowerAscii (trimText s) := by
  have hws : isWhitespace ∘ Char.toLower = isWhitespace := funext isWhitespace_toLower
  have hlower : Char.toLower ∘ Char.toLower = Char.toLower := funext toLower_toLower
  have hmap : ∀ l : List Char,
      Texts.trim isWhitespace (l.map Char.toLower) =
        (Texts.trim isWhitespace l).map Char.toLower := by
    intro l
    simp only [Texts.trim, List.rdropWhile, List.dropWhile_map, ← List.map_reverse, hws]
  simp only [lowerAscii, toList_trimText, String.toList_ofList, hmap, List.map_map, hlower,
    Texts.trim_trim]

/-- **What is stored is its own normal form.** -/
lemma normalizeEmail_idem {s v : String} (h : normalizeEmail s = some v) :
    normalizeEmail v = some v := by
  simp only [normalizeEmail, Option.ite_none_right_eq_some, Option.some.injEq] at h ⊢
  obtain ⟨hvalid, rfl⟩ := h
  rw [lowerAscii_trimText_idem]
  exact ⟨hvalid, rfl⟩

end Naivolt
