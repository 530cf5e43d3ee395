import Naivolt.Auth.Identifier
import Naivolt.Foundation.Delimited

/-!
# Spellings of one identifier

An account is found by the normal form of its identifier, so two spellings of one phone or of one
email must have one normal form, and two subscribers or two addresses must not.

`NationalNumber` is a subscriber number: ten digits, of which the first is that of a mobile.  A
text `Spells` a number when its digits are the number alone, behind a trunk zero or behind the
country code; `normalizeNgPhone_iff` says that these are the texts with a normal form, which is
the number's `e164`.  `WellFormedEmail` is the shape of an address, and
`parseIdentifier_email_iff` says that the parser accepts the texts that have it when trimmed.
-/

namespace Naivolt

open Foundation

/-! ## Trimming -/

/-- A text without white space is trimmed. -/
lemma trimText_of_noSpace {s : String} (h : ∀ c ∈ s.toList, isWhitespace c = false) :
    trimText s = s := by
  apply String.toList_inj.mp
  rw [toList_trimText, Texts.trim_eq_self h]

lemma dropWhile_trimText (s : String) :
    (trimText s).toList.dropWhile isWhitespace = (trimText s).toList := by
  rw [toList_trimText]
  exact Texts.dropWhile_trim isWhitespace s.toList

lemma rdropWhile_trimText (s : String) :
    (trimText s).toList.rdropWhile isWhitespace = (trimText s).toList := by
  rw [toList_trimText]
  exact Texts.rdropWhile_trim isWhitespace s.toList

@[simp] lemma trimText_trimText (s : String) : trimText (trimText s) = trimText s := by
  apply String.toList_inj.mp
  rw [toList_trimText, toList_trimText, Texts.trim_trim]

lemma mem_trimText_iff {c : Char} (hc : isWhitespace c = false) {s : String} :
    c ∈ (trimText s).toList ↔ c ∈ s.toList := by
  rw [toList_trimText]
  exact Texts.mem_trim_iff hc

/-! ## Phones -/

/-- The digits of a text. -/
def digitsOf (s : String) : List Char := s.toList.filter Char.isDigit

/-- A Nigerian subscriber number, without trunk zero or country code. -/
structure NationalNumber where
  digits : List Char
  areDigits : ∀ c ∈ digits, c.isDigit = true
  length : digits.length = 10
  mobile : digits.head? = some '7' ∨ digits.head? = some '8' ∨ digits.head? = some '9'

namespace NationalNumber

@[ext] lemma ext {n n' : NationalNumber} (h : n.digits = n'.digits) : n = n' := by
  cases n
  cases n'
  cases h
  rfl

/-- The number in E.164. -/
def e164 (n : NationalNumber) : String := String.ofList ("+234".toList ++ n.digits)

lemma e164_injective : Function.Injective e164 := fun _ _ h =>
  ext (List.append_cancel_left (String.ofList_injective h))

lemma first (n : NationalNumber) : n.digits.head? ≠ some '0' ∧ n.digits.head? ≠ some '2' := by
  rcases n.mobile with h | h | h <;> rw [h] <;> decide

end NationalNumber

/-- The spellings of a number: whatever stands between them, the digits are those of the number,
of the number behind a trunk zero, or of the number behind the country code. -/
def Spells (s : String) (n : NationalNumber) : Prop :=
  digitsOf s = n.digits ∨ digitsOf s = '0' :: n.digits ∨
    digitsOf s = ['2', '3', '4'] ++ n.digits

/-- What is left of the digits when the trunk zero or the country code is taken away. -/
lemma spells_iff {s : String} {n : NationalNumber} :
    Spells s n ↔
      (if (digitsOf s).length = 11 && (digitsOf s).head? = some '0' then some ((digitsOf s).drop 1)
        else if (digitsOf s).length = 13 && (digitsOf s).take 3 = ['2', '3', '4'] then
          some ((digitsOf s).drop 3)
        else if (digitsOf s).length = 10 then some (digitsOf s)
        else none) = some n.digits := by
  have hlen := n.length
  simp only [Bool.and_eq_true, decide_eq_true_eq]
  constructor
  · rintro (h | h | h) <;> rw [h]
    · rw [if_neg (by omega), if_neg (by omega), if_pos hlen]
    · rw [if_pos ⟨by simp [hlen], rfl⟩]
      rfl
    · rw [if_neg (by simp [hlen]), if_pos ⟨by simp [hlen], rfl⟩]
      rfl
  · intro h
    split_ifs at h with h₁ h₂ h₃
    · right; left
      obtain ⟨-, hhead⟩ := h₁
      have hrest : (digitsOf s).drop 1 = n.digits := Option.some.inj h
      cases hs : digitsOf s with
      | nil => simp [hs] at hhead
      | cons c cs =>
          rw [hs] at hhead hrest
          have hc : c = '0' := by simpa using hhead
          rw [hc, ← hrest]
          rfl
    · right; right
      have hrest : (digitsOf s).drop 3 = n.digits := Option.some.inj h
      rw [← h₂.2, ← hrest, List.take_append_drop]
    · left
      exact Option.some.inj h

/-- **Which texts have a phone's normal form.** -/
lemma normalizeNgPhone_iff {s v : String} :
    normalizeNgPhone s = some v ↔ ∃ n, Spells s n ∧ v = n.e164 := by
  simp only [normalizeNgPhone, ← digitsOf.eq_def, Option.bind_eq_some_iff,
    Option.ite_none_right_eq_some, Option.some.injEq]
  constructor
  · rintro ⟨d, hd, hmobile, rfl⟩
    have hdigits : ∀ c ∈ digitsOf s, c.isDigit = true := fun c hc => (List.mem_filter.mp hc).2
    have hshape : (∀ c ∈ d, c.isDigit = true) ∧ d.length = 10 := by
      split_ifs at hd with h₁ h₂ h₃
      · cases hd
        simp only [Bool.and_eq_true, decide_eq_true_eq] at h₁
        exact ⟨fun c hc => hdigits c (List.mem_of_mem_drop hc), by simp [h₁.1]⟩
      · cases hd
        simp only [Bool.and_eq_true, decide_eq_true_eq] at h₂
        exact ⟨fun c hc => hdigits c (List.mem_of_mem_drop hc), by simp [h₂.1]⟩
      · cases hd
        exact ⟨hdigits, h₃⟩
    have hfirst : d.head? = some '7' ∨ d.head? = some '8' ∨ d.head? = some '9' := by
      simpa [or_assoc] using hmobile
    exact ⟨⟨d, hshape.1, hshape.2, hfirst⟩, spells_iff.mpr hd, rfl⟩
  · rintro ⟨n, hspells, rfl⟩
    refine ⟨n.digits, spells_iff.mp hspells, ?_, rfl⟩
    simpa [or_assoc] using n.mobile

lemma digitsOf_trimText (s : String) : digitsOf (trimText s) = digitsOf s := by
  unfold digitsOf
  rw [toList_trimText]
  refine Texts.filter_trim (fun c hc => ?_) s.toList
  have hdigit : 48 ≤ c.toNat ∧ c.toNat ≤ 57 := by
    simpa [Char.isDigit, UInt32.le_iff_toNat_le, ← Char.toNat_val] using hc
  simp only [isWhitespace, Bool.or_eq_false_iff, Bool.and_eq_false_iff, decide_eq_false_iff_not]
  omega

lemma spells_trimText {s : String} {n : NationalNumber} : Spells (trimText s) n ↔ Spells s n := by
  simp only [Spells, digitsOf_trimText]

namespace NationalNumber

variable (n : NationalNumber)

lemma spells_e164 : Spells n.e164 n := by
  right; right
  have hall : n.digits.filter Char.isDigit = n.digits := List.filter_eq_self.mpr n.areDigits
  rw [digitsOf, e164, String.toList_ofList, List.filter_append, hall]
  rfl

lemma at_notMem_e164 : '@' ∉ n.e164.toList := by
  rw [e164, String.toList_ofList, List.mem_append, not_or]
  refine ⟨by decide, fun h => ?_⟩
  have hdigit := n.areDigits _ h
  exact absurd hdigit (by decide)

end NationalNumber

/-! ## Emails -/

/-- The shape of an address: a local part, one `@`, and a domain of at least two labels. -/
structure EmailParts (t localPart : List Char) (labels : List (List Char)) : Prop where
  text : t = localPart ++ '@' :: ['.'].intercalate labels
  local_ne : localPart ≠ []
  local_at : '@' ∉ localPart
  two : 2 ≤ labels.length
  label : ∀ l ∈ labels, l ≠ [] ∧ '@' ∉ l ∧ '.' ∉ l
  noSpace : ∀ c ∈ t, isWhitespace c = false

/-- The texts that are addresses. -/
def WellFormedEmail (t : List Char) : Prop := ∃ localPart labels, EmailParts t localPart labels

/-- Trimmed text has one word when there is no white space in it. -/
lemma countWords_eq_one_iff {t : List Char} (hfirst : t.dropWhile isWhitespace = t)
    (hlast : t.rdropWhile isWhitespace = t) (hne : t ≠ []) :
    countWords t = 1 ↔ ∀ c ∈ t, isWhitespace c = false := by
  unfold countWords
  constructor
  · intro hone c hc
    by_contra hspace
    have hspace : isWhitespace c = true := by simpa using hspace
    obtain ⟨front, back, rfl⟩ := List.append_of_mem hc
    -- White space inside has a word on either side.
    obtain ⟨x, hx, hxs⟩ : ∃ x ∈ front, isWhitespace x = false := by
      cases front with
      | nil =>
          rw [List.nil_append, List.dropWhile_cons_of_pos hspace] at hfirst
          have hlen := (List.dropWhile_suffix (l := back) isWhitespace).length_le
          rw [hfirst, List.length_cons] at hlen
          omega
      | cons x front =>
          have h := List.dropWhile_eq_self_iff.mp hfirst (by simp)
          exact ⟨x, List.mem_cons_self, by simpa using h⟩
    obtain ⟨y, hy, hys⟩ : ∃ y ∈ back, isWhitespace y = false := by
      cases back with
      | nil =>
          have h := List.rdropWhile_eq_self_iff.mp hlast hne
          rw [List.getLast_append_singleton, hspace] at h
          exact absurd rfl h
      | cons y back =>
          have h := List.rdropWhile_eq_self_iff.mp hlast hne
          refine ⟨_, List.getLast_mem (List.cons_ne_nil y back), ?_⟩
          rw [List.getLast_append_of_ne_nil hne (List.cons_ne_nil c _),
            List.getLast_cons (List.cons_ne_nil y back)] at h
          simpa using h
    have h₁ := Delimited.exists_piece hx hxs
    have h₂ := Delimited.exists_piece hy hys
    rw [List.splitOnP_append_cons _ _ hspace, List.filter_append, List.length_append] at hone
    omega
  · intro hnone
    rw [List.splitOnP_eq_singleton hnone]
    simp [hne]

lemma splitOnceAt_eq_some_iff {t localPart domain : List Char} :
    splitOnceAt t = some (localPart, domain) ↔
      t = localPart ++ '@' :: domain ∧ '@' ∉ localPart :=
  Delimited.split_at_first_iff

/-- The domains `normalize_email` accepts are those of two or more labels. -/
lemma labels_iff {domain : List Char} (hat : '@' ∉ domain) :
    (domain.contains '.' = true ∧ (domain.splitOn '.').any (·.isEmpty) = false) ↔
    ∃ labels, domain = ['.'].intercalate labels ∧ 2 ≤ labels.length ∧
      ∀ l ∈ labels, l ≠ [] ∧ '@' ∉ l ∧ '.' ∉ l := by
  constructor
  · rintro ⟨hdot, hlabels⟩
    have hjoin : ['.'].intercalate (domain.splitOn '.') = domain := List.intercalate_splitOn '.'
    refine ⟨domain.splitOn '.', hjoin.symm, ?_, fun l hl => ⟨?_, ?_, ?_⟩⟩
    · obtain ⟨front, back, rfl⟩ := List.append_of_mem (List.contains_iff_mem.mp hdot)
      rw [List.splitOn_append_cons_self, List.length_append]
      have h₁ := List.length_pos_iff.mpr (List.splitOn_ne_nil '.' front)
      have h₂ := List.length_pos_iff.mpr (List.splitOn_ne_nil '.' back)
      omega
    · have h := List.any_eq_false.mp hlabels l hl
      simpa using h
    · exact fun h => hat (hjoin ▸ Delimited.subset_intercalate hl h)
    · exact Delimited.notMem_of_mem_splitOn hl
  · rintro ⟨labels, rfl, htwo, hlabel⟩
    have hne : labels ≠ [] := fun h => by simp [h] at htwo
    have hpieces := List.splitOn_intercalate '.' (fun l hl => (hlabel l hl).2.2) hne
    refine ⟨?_, ?_⟩
    · by_contra hdot
      have hdot : '.' ∉ ['.'].intercalate labels := by simpa using hdot
      rw [List.splitOn_eq_singleton hdot] at hpieces
      rw [← hpieces] at htwo
      simp at htwo
    · rw [hpieces, List.any_eq_false]
      exact fun l hl => by simpa using (hlabel l hl).1

/-- What `normalize_email` asks of trimmed text is the shape of an address. -/
lemma validEmail_iff {t : List Char} (hfirst : t.dropWhile isWhitespace = t)
    (hlast : t.rdropWhile isWhitespace = t) : validEmail t = true ↔ WellFormedEmail t := by
  unfold validEmail
  constructor
  · intro h
    rcases hsplit : splitOnceAt t with _ | ⟨localPart, domain⟩
    · rw [hsplit] at h
      cases h
    · rw [hsplit] at h
      simp only [Bool.and_eq_true, Bool.not_eq_true', decide_eq_true_eq] at h
      obtain ⟨⟨⟨⟨⟨hlocal, -⟩, hat⟩, hdot⟩, hwords⟩, hlabels⟩ := h
      obtain ⟨htext, hlocalAt⟩ := splitOnceAt_eq_some_iff.mp hsplit
      have hne : t ≠ [] := by simp [htext]
      have hnoAt : '@' ∉ domain := by simpa using hat
      obtain ⟨labels, hjoin, htwo, hlabel⟩ := (labels_iff hnoAt).mp ⟨hdot, hlabels⟩
      exact ⟨localPart, labels, hjoin ▸ htext, by simpa using hlocal, hlocalAt, htwo, hlabel,
        (countWords_eq_one_iff hfirst hlast hne).mp hwords⟩
  · rintro ⟨localPart, labels, h⟩
    have hne : t ≠ [] := by simp [h.text]
    have hnoAt : '@' ∉ ['.'].intercalate labels := fun hmem => by
      rcases Delimited.mem_of_mem_intercalate hmem with hdot | ⟨l, hl, hat⟩
      · exact absurd hdot (by decide)
      · exact (h.label l hl).2.1 hat
    obtain ⟨hdot, hlabels⟩ := (labels_iff hnoAt).mpr ⟨labels, rfl, h.two, h.label⟩
    have hdomain : ['.'].intercalate labels ≠ [] := fun hnil => by
      rw [hnil] at hdot
      cases hdot
    rw [splitOnceAt_eq_some_iff.mpr ⟨h.text, h.local_at⟩]
    simp only [Bool.and_eq_true, Bool.not_eq_true', decide_eq_true_eq]
    exact ⟨⟨⟨⟨⟨by simpa using h.local_ne, by simpa using hdomain⟩, by simpa using hnoAt⟩, hdot⟩,
      (countWords_eq_one_iff hfirst hlast hne).mpr h.noSpace⟩, hlabels⟩

/-- Lower-casing makes no character one that is not a letter. -/
lemma toLower_eq_iff {c d : Char} (hupper : ¬ (65 ≤ d.toNat ∧ d.toNat ≤ 90))
    (hlower : ¬ (97 ≤ d.toNat ∧ d.toNat ≤ 122)) : c.toLower = d ↔ c = d := by
  have hinj : ∀ a b : Char, a = b ↔ a.toNat = b.toNat := fun a b =>
    ⟨fun h => h ▸ rfl, fun h => Char.ext (UInt32.toNat_inj.mp h)⟩
  rw [hinj, hinj, toNat_toLower]
  split <;> omega

lemma splitOnceAt_map {f : Char → Char} (hf : ∀ c, f c = '@' ↔ c = '@') (t : List Char) :
    splitOnceAt (t.map f) = (splitOnceAt t).map fun p => (p.1.map f, p.2.map f) := by
  have hp : ((fun c => decide (c ≠ '@')) ∘ f) = fun c => decide (c ≠ '@') := by
    funext c
    simp [hf]
  have hmem : '@' ∈ t.map f ↔ '@' ∈ t := by simp [hf]
  unfold splitOnceAt
  rw [List.takeWhile_map, List.dropWhile_map, hp]
  by_cases h : '@' ∈ t
  · rw [if_pos h, if_pos (hmem.mpr h), Option.map_some, List.map_tail]
  · rw [if_neg h, if_neg (fun hm => h (hmem.mp hm))]
    rfl

/-- Case decides nothing. -/
lemma validEmail_lower (t : List Char) : validEmail (t.map Char.toLower) = validEmail t := by
  have hat : ∀ c : Char, c.toLower = '@' ↔ c = '@' := fun c =>
    toLower_eq_iff (by decide) (by decide)
  have hdot : ∀ c : Char, c.toLower = '.' ↔ c = '.' := fun c =>
    toLower_eq_iff (by decide) (by decide)
  have hspace : isWhitespace ∘ Char.toLower = isWhitespace := funext isWhitespace_toLower
  have hwords : countWords (t.map Char.toLower) = countWords t := by
    unfold countWords
    rw [Delimited.splitOnP_map, hspace, List.filter_map, List.length_map]
    congr 2
    funext l
    simp
  have hpieces : ∀ d : List Char, ((d.map Char.toLower).splitOn '.').any (·.isEmpty) =
      (d.splitOn '.').any (·.isEmpty) := fun d => by
    have heq : ((· == '.') ∘ Char.toLower) = (· == '.') := funext fun c => by
      rw [Function.comp_apply, Bool.eq_iff_iff, beq_iff_eq, beq_iff_eq, hdot]
    rw [List.splitOn_eq_splitOnP, List.splitOn_eq_splitOnP, Delimited.splitOnP_map, heq,
      List.any_map]
    congr 1
    funext l
    simp
  have hcontains : ∀ (a : Char) (d : List Char), (∀ c : Char, c.toLower = a ↔ c = a) →
      (d.map Char.toLower).contains a = d.contains a := fun a d ha => by
    rw [Bool.eq_iff_iff, List.contains_iff_mem, List.contains_iff_mem]
    simp [ha]
  unfold validEmail
  rw [splitOnceAt_map hat]
  rcases splitOnceAt t with _ | ⟨localPart, domain⟩
  · rfl
  · simp only [Option.map_some, hwords, hpieces, hcontains '@' domain hat,
      hcontains '.' domain hdot]
    simp

/-- **Which texts are accepted as emails**, and what is made of them. -/
lemma normalizeEmail_iff {s v : String} :
    normalizeEmail s = some v ↔
      WellFormedEmail (trimText s).toList ∧ v = String.ofList (lowerAscii (trimText s)) := by
  unfold normalizeEmail
  rw [Option.ite_none_right_eq_some, Option.some.injEq, lowerAscii, validEmail_lower,
    validEmail_iff (dropWhile_trimText s) (rdropWhile_trimText s), eq_comm (a := v)]

/-! ## The parser -/

lemma at_mem_of_wellFormed {t : List Char} (h : WellFormedEmail t) : '@' ∈ t := by
  obtain ⟨localPart, labels, h⟩ := h
  simp [h.text]

lemma wellFormed_ne_nil {t : List Char} (h : WellFormedEmail t) : t.isEmpty = false := by
  have hmem := at_mem_of_wellFormed h
  cases t with
  | nil => cases hmem
  | cons c t => rfl

/-- **Which texts the parser takes for emails.** -/
lemma parseIdentifier_email_iff {s v : String} :
    parseIdentifier s = .ok (.email v) ↔
      WellFormedEmail (trimText s).toList ∧ v = String.ofList (lowerAscii (trimText s)) := by
  have hiff := normalizeEmail_iff (s := trimText s) (v := v)
  rw [trimText_trimText] at hiff
  rw [← hiff]
  unfold parseIdentifier
  constructor
  · intro h
    dsimp only at h
    split_ifs at h with hempty hat
    · cases hv : normalizeEmail (trimText s) <;> rw [hv] at h <;> cases h
      rfl
    · cases hv : normalizeNgPhone (trimText s) <;> rw [hv] at h <;> cases h
  · intro h
    have hshape := (hiff.mp h).1
    have hat : (trimText s).toList.contains '@' = true :=
      List.contains_iff_mem.mpr (at_mem_of_wellFormed hshape)
    dsimp only
    rw [if_neg (by rw [wellFormed_ne_nil hshape]; exact Bool.false_ne_true), if_pos hat, h]

/-- **Which texts the parser takes for phones.** -/
lemma parseIdentifier_phone_iff {s v : String} :
    parseIdentifier s = .ok (.phone v) ↔
      '@' ∉ s.toList ∧ ∃ n : NationalNumber, Spells s n ∧ v = n.e164 := by
  have hiff := normalizeNgPhone_iff (s := trimText s) (v := v)
  simp only [spells_trimText] at hiff
  have hat := mem_trimText_iff (c := '@') (by decide) (s := s)
  rw [← hiff, ← hat]
  unfold parseIdentifier
  constructor
  · intro h
    dsimp only at h
    split_ifs at h with hempty hmem
    · cases hv : normalizeEmail (trimText s) <;> rw [hv] at h <;> cases h
    · cases hv : normalizeNgPhone (trimText s) <;> rw [hv] at h <;> cases h
      exact ⟨fun hc => hmem (List.contains_iff_mem.mpr hc), rfl⟩
  · rintro ⟨hno, h⟩
    have hempty : ¬ (trimText s).toList.isEmpty = true := fun hnil => by
      have hdigits : digitsOf (trimText s) = [] := by
        rw [digitsOf, List.isEmpty_iff.mp hnil]
        rfl
      obtain ⟨n, hspells, -⟩ := normalizeNgPhone_iff.mp h
      have hlen := n.length
      rcases hspells with hd | hd | hd <;> rw [hdigits] at hd
      · rw [← hd] at hlen
        cases hlen
      · cases hd
      · cases hd
    dsimp only
    rw [if_neg hempty, if_neg (fun hc => hno (List.contains_iff_mem.mp hc)), h]

/-- The stored form of an identifier is a spelling of it. -/
lemma parseIdentifier_subject {s : String} {i : Identifier} (h : parseIdentifier s = .ok i) :
    parseIdentifier i.subject = .ok i := by
  cases i with
  | phone v =>
      obtain ⟨-, n, -, rfl⟩ := parseIdentifier_phone_iff.mp h
      exact parseIdentifier_phone_iff.mpr ⟨n.at_notMem_e164, n, n.spells_e164, rfl⟩
  | email v =>
      obtain ⟨hshape, rfl⟩ := parseIdentifier_email_iff.mp h
      have hnormal := normalizeEmail_idem (normalizeEmail_iff.mpr ⟨hshape, rfl⟩)
      exact parseIdentifier_email_iff.mpr (normalizeEmail_iff.mp hnormal)

/-- **Identifiers are canonical.**  Normalising twice is normalising once; the texts taken for
phones are the spellings of subscriber numbers, each with the number's own E.164 form; a stored
identifier is parsed as itself; and the texts taken for emails are those that have the shape of an
address when trimmed. -/
theorem identifiers_canonical :
    (∀ s v, normalizeEmail s = some v → normalizeEmail v = some v) ∧
    (∀ s v, normalizeNgPhone s = some v → normalizeNgPhone v = some v) ∧
    (∀ s v, normalizeNgPhone s = some v ↔ ∃ n, Spells s n ∧ v = n.e164) ∧
    (∀ s v, parseIdentifier s = .ok (.phone v) ↔
      '@' ∉ s.toList ∧ ∃ n : NationalNumber, Spells s n ∧ v = n.e164) ∧
    (∀ n n' : NationalNumber, n.e164 = n'.e164 → n = n') ∧
    (∀ s i, parseIdentifier s = .ok i → parseIdentifier i.subject = .ok i) ∧
    (∀ s v, parseIdentifier s = .ok (.email v) ↔
      WellFormedEmail (trimText s).toList ∧ v = String.ofList (lowerAscii (trimText s))) := by
  refine ⟨fun s v h => normalizeEmail_idem h, fun s v h => ?_, fun s v => normalizeNgPhone_iff,
    fun s v => parseIdentifier_phone_iff, fun n n' h => NationalNumber.e164_injective h,
    fun s i h => parseIdentifier_subject h, fun s v => parseIdentifier_email_iff⟩
  obtain ⟨n, -, rfl⟩ := normalizeNgPhone_iff.mp h
  exact normalizeNgPhone_iff.mpr ⟨n, n.spells_e164, rfl⟩

end Naivolt
