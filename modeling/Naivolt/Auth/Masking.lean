import Naivolt.Auth.Spelling
import Naivolt.Foundation.Utf8

/-!
# Masked identifiers

`masked` is what the sign-in screen shows of the address a code was sent to.  It slices the text
by bytes, and a slice inside a character is a panic, `none` here.  The stored form of a phone is
ASCII, so that its slices always succeed.  The local part of an email may hold any characters:
the slice after its second byte fails exactly when no character ends there (`Aligned`).
-/

namespace Naivolt

open Foundation

/-! ## The mask -/

namespace Identifier

/-- The branch of `masked` for a phone: `+2348012345678` becomes `+234 801 ••• 5678`. -/
def maskedPhone (p : List Char) : Option (List Char) :=
  if byteSize p = 14 then do
    let country ← takeBytes 4 p
    let first ← (dropBytes 4 p).bind (takeBytes 3)
    let last ← dropBytes 10 p
    some (country ++ " ".toList ++ first ++ " ••• ".toList ++ last)
  else some p

/-- The branch of `masked` for an email. -/
def maskedEmail (e : List Char) : Option (List Char) :=
  match splitOnceAt e with
  | some (localPart, domain) =>
      if 2 < byteSize localPart then do
        let shown ← takeBytes 2 localPart
        some (shown ++ List.replicate (byteSize localPart - 2) '•' ++ '@' :: domain)
      else some e
  | none => some e

/-- `Identifier::masked`. -/
def masked : Identifier → Option (List Char)
  | .phone p => maskedPhone p.toList
  | .email e => maskedEmail e.toList

end Identifier

example : (Identifier.phone "+2348012345678").masked = some "+234 801 ••• 5678".toList := by decide
example : (Identifier.email "ada@example.com").masked = some "ad•@example.com".toList := by decide

/-! ## What a mask must do -/

/-- The mask of a phone is its country code, its first three digits and its last four. -/
def MasksPhone (p : String) : Prop :=
  ∃ n : NationalNumber, p = n.e164 ∧ (Identifier.phone p).masked =
    some ("+234 ".toList ++ n.digits.take 3 ++ " ••• ".toList ++ n.digits.drop 6)

/-- There is a mask of the email, and of a local part of more than two characters it holds at
most the first two. -/
def MasksEmail (e : String) : Prop :=
  ∃ localPart domain text, e.toList = localPart ++ '@' :: domain ∧ '@' ∉ localPart ∧
    (Identifier.email e).masked = some text ∧
    (2 < localPart.length → ∃ shown dots,
      text = shown ++ List.replicate dots '•' ++ '@' :: domain ∧ shown <+: localPart.take 2)

def Identifier.Masks : Identifier → Prop
  | .phone p => MasksPhone p
  | .email e => MasksEmail e

/-! ## Where it does -/

/-- The text is short, begins with a character of two bytes, or with two of one byte each. -/
def AlignedPrefix : List Char → Prop
  | [] => True
  | [c] => c.utf8Size ≤ 2
  | c :: d :: _ => c.utf8Size = 2 ∨ (c.utf8Size = 1 ∧ d.utf8Size = 1)

/-- No character of the local part lies across the end of its second byte. -/
def Identifier.Aligned : Identifier → Prop
  | .phone _ => True
  | .email e => ∀ localPart domain, splitOnceAt e.toList = some (localPart, domain) →
      AlignedPrefix localPart

lemma exists_takeBytes_two_iff {s : List Char} (hs : 2 < byteSize s) :
    (∃ p, takeBytes 2 s = some p) ↔ AlignedPrefix s := by
  have htake : ∀ (c : Char) (rest : List Char), takeBytes 2 (c :: rest) =
      if c.utf8Size ≤ 2 then (takeBytes (2 - c.utf8Size) rest).map (c :: ·) else none :=
    fun c rest => rfl
  match s with
  | [] => simp at hs
  | [c] =>
      have hlong : ¬ c.utf8Size ≤ 2 := by simpa using hs
      rw [htake, if_neg hlong]
      simp [AlignedPrefix, hlong]
  | c :: d :: rest =>
      have hc := c.utf8Size_pos
      have hd := d.utf8Size_pos
      rw [htake]
      unfold AlignedPrefix
      by_cases htwo : c.utf8Size = 2
      · simp [htwo, takeBytes]
      · by_cases hone : c.utf8Size = 1
        · by_cases hsecond : d.utf8Size = 1
          · simp [hone, hsecond, takeBytes]
          · have hlong : ¬ d.utf8Size ≤ 1 := by omega
            simp [hone, hsecond, takeBytes, hlong]
        · have hlong : ¬ c.utf8Size ≤ 2 := by omega
          simp [hlong, htwo, hone]

/-- A text of two bytes cannot be out of line. -/
lemma alignedPrefix_of_short {s : List Char} (hs : ¬ 2 < byteSize s) : AlignedPrefix s := by
  match s with
  | [] => trivial
  | [c] => simpa [AlignedPrefix] using hs
  | c :: d :: rest =>
      have hc := c.utf8Size_pos
      have hd := d.utf8Size_pos
      rw [byteSize_cons, byteSize_cons] at hs
      exact .inr ⟨by omega, by omega⟩

/-- Two bytes are at most two characters. -/
lemma prefix_of_takeBytes_two {s p : List Char} (h : takeBytes 2 s = some p) :
    p <+: s.take 2 := by
  obtain ⟨rest, hs, hsize⟩ := takeBytes_eq_some_iff.mp h
  have hlen := length_le_byteSize p
  exact List.prefix_take_iff.mpr ⟨⟨rest, hs.symm⟩, by omega⟩

/-! ## Phones -/

namespace NationalNumber

variable (n : NationalNumber)

lemma isAscii_e164 : IsAscii ("+234".toList ++ n.digits) := by
  have hcode : "+234".toList.all (fun c => c.utf8Size = 1) = true := by decide
  intro c hc
  rcases List.mem_append.mp hc with hc | hc
  · exact of_decide_eq_true (List.all_eq_true.mp hcode c hc)
  · have hdigit : 48 ≤ c.toNat ∧ c.toNat ≤ 57 := by
      simpa [Char.isDigit, UInt32.le_iff_toNat_le, ← Char.toNat_val] using n.areDigits c hc
    refine Char.utf8Size_eq_one_iff.mpr (UInt32.le_iff_toNat_le.mpr ?_)
    change c.toNat ≤ 127
    omega

/-- The mask of a stored phone. -/
lemma masks_e164 : MasksPhone n.e164 := by
  have hascii := n.isAscii_e164
  have hlen : ("+234".toList ++ n.digits).length = 14 := by
    rw [List.length_append, n.length]
    rfl
  have htake : ("+234".toList ++ n.digits).take 4 = "+234".toList := rfl
  have hdrop : ("+234".toList ++ n.digits).drop 4 = n.digits := rfl
  have hlast : ("+234".toList ++ n.digits).drop 10 = n.digits.drop 6 := rfl
  have hrest : IsAscii n.digits := fun c hc => hascii c (List.mem_append_right _ hc)
  have hthree : takeBytes 3 n.digits = some (n.digits.take 3) :=
    takeBytes_ascii hrest (by rw [n.length]; omega)
  refine ⟨n, rfl, ?_⟩
  change Identifier.maskedPhone n.e164.toList = _
  rw [e164, String.toList_ofList, Identifier.maskedPhone, if_pos (by rw [hascii.byteSize, hlen]),
    takeBytes_ascii hascii (by rw [hlen]; omega), dropBytes_ascii hascii (by rw [hlen]; omega),
    dropBytes_ascii hascii (by rw [hlen]; omega), htake, hdrop, hlast]
  simp only [Option.bind_some, Option.bind_eq_bind, hthree]
  rfl

end NationalNumber

/-! ## Emails -/

lemma masksEmail_iff {e : String} {localPart domain : List Char}
    (he : splitOnceAt e.toList = some (localPart, domain)) :
    MasksEmail e ↔ AlignedPrefix localPart := by
  have hmasked : (Identifier.email e).masked =
      if 2 < byteSize localPart then (takeBytes 2 localPart).map fun shown =>
        shown ++ List.replicate (byteSize localPart - 2) '•' ++ '@' :: domain
      else some e.toList := by
    change Identifier.maskedEmail e.toList = _
    simp only [Identifier.maskedEmail, he]
    split
    · cases takeBytes 2 localPart <;> rfl
    · rfl
  obtain ⟨htext, hlocal⟩ := splitOnceAt_eq_some_iff.mp he
  by_cases hlong : 2 < byteSize localPart
  · rw [if_pos hlong] at hmasked
    rw [← exists_takeBytes_two_iff hlong]
    constructor
    · rintro ⟨-, -, text, -, -, hsome, -⟩
      rw [hmasked, Option.map_eq_some_iff] at hsome
      obtain ⟨shown, hshown, -⟩ := hsome
      exact ⟨shown, hshown⟩
    · rintro ⟨shown, hshown⟩
      refine ⟨localPart, domain, _, htext, hlocal, ?_, fun _ =>
        ⟨shown, byteSize localPart - 2, rfl, prefix_of_takeBytes_two hshown⟩⟩
      rw [hmasked, hshown, Option.map_some]
  · rw [if_neg hlong] at hmasked
    refine iff_of_true ?_ (alignedPrefix_of_short hlong)
    refine ⟨localPart, domain, e.toList, htext, hlocal, hmasked, fun hchars => ?_⟩
    have hlen := length_le_byteSize localPart
    omega

/-- **Masking is total where the local part is in line.**  What the parser has accepted is masked
as it should be if and only if no character of an email's local part lies across the end of its
second byte. -/
theorem masks_iff_aligned {s : String} {i : Identifier} (h : parseIdentifier s = .ok i) :
    i.Masks ↔ i.Aligned := by
  cases i with
  | phone p =>
      obtain ⟨-, n, -, rfl⟩ := parseIdentifier_phone_iff.mp h
      exact iff_of_true n.masks_e164 trivial
  | email e =>
      have hshape := (parseIdentifier_email_iff.mp (parseIdentifier_subject h)).1
      have hat : '@' ∈ e.toList :=
        (mem_trimText_iff (by decide)).mp (at_mem_of_wellFormed hshape)
      obtain ⟨localPart, domain, hsplit⟩ :
          ∃ localPart domain, splitOnceAt e.toList = some (localPart, domain) :=
        ⟨_, _, if_pos hat⟩
      change MasksEmail e ↔ _
      rw [masksEmail_iff hsplit]
      constructor
      · intro halign l d hld
        rw [hsplit] at hld
        cases hld
        exact halign
      · exact fun halign => halign _ _ hsplit

/-- An address whose second character is not ASCII. -/
def accented : String := "aé@x.com"

/-- **The mask of an accepted address panics.** -/
theorem masked_panics : ¬ ∀ s i, parseIdentifier s = .ok i → i.Masks := by
  intro h
  obtain ⟨-, -, text, -, -, hsome, -⟩ := h accented (.email accented) (by decide)
  have hnone : (Identifier.email accented).masked = none := by decide
  rw [hnone] at hsome
  cases hsome

/-- Two characters of two bytes, and the mask shows the first. -/
theorem masks_iff_aligned_accented : (Identifier.email "éüa@x.com").Masks := by
  have h : parseIdentifier " éüa@x.com" = .ok (.email "éüa@x.com") := by decide
  refine (masks_iff_aligned h).mpr fun localPart domain hsplit => ?_
  have hlocal : splitOnceAt "éüa@x.com".toList = some ("éüa".toList, "x.com".toList) := by decide
  rw [hlocal] at hsplit
  cases hsplit
  exact .inl (by decide)

end Naivolt
