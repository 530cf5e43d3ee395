import Naivolt.Auth.Spelling

/-!
# The sign-in field in the app

`authV2.ts` decides in the app what `parse_identifier` decides on the server: whether the sign-in
field holds a phone or an email, and its normal form.  The two are written to mirror each other.

They agree on phones.  For emails, `trim` and `\s` of JavaScript know other white space than
`trim` and `split_whitespace` of Rust: U+FEFF, and not U+0085.  `toLowerCase` lowers every letter
and `to_ascii_lowercase` those of ASCII only.  `parse_alike_iff` says that nothing else tells them
apart.

Texts are sequences of code points, as a lone surrogate has no spelling in a request.
-/

namespace Naivolt

open Foundation

/-! ## JavaScript's texts -/

/-- JavaScript's white space and line terminators: what `trim` takes away and `\s` matches. -/
def isJsSpace (c : Char) : Bool :=
  let n := c.toNat
  (9 ≤ n && n ≤ 13) || n = 32 || n = 0xA0 || n = 0x1680 || (0x2000 ≤ n && n ≤ 0x200A) ||
    n = 0x2028 || n = 0x2029 || n = 0x202F || n = 0x205F || n = 0x3000 || n = 0xFEFF

/-- `String.prototype.trim`. -/
def jsTrim (s : String) : String := String.ofList (Texts.trim isJsSpace s.toList)

/-- The characters an address is cut at, and white space of either kind. -/
def Structural (c : Char) : Prop :=
  c = '@' ∨ c = '.' ∨ isWhitespace c = true ∨ isJsSpace c = true

instance (c : Char) : Decidable (Structural c) := inferInstanceAs (Decidable (_ ∨ _))

/-- The tables `toLowerCase` goes by, and what is known of them. -/
structure UnicodeCase where
  /-- The lower case of a character outside of context. -/
  lower : Char → List Char
  cased : Char → Bool
  caseIgnorable : Char → Bool
  ascii : ∀ c, c.toNat < 128 → lower c = [c.toLower]
  sigma : lower 'Σ' = ['σ']
  caseless : ∀ c, Structural c → lower c = [c]
  letters : ∀ c, ¬ Structural c → lower c ≠ [] ∧ ∀ d ∈ lower c, ¬ Structural d

namespace UnicodeCase

/-- Whether a sigma ends a word.  What precedes it comes nearest first. -/
def finalSigma (u : UnicodeCase) (before after : List Char) : Bool :=
  (before.dropWhile u.caseIgnorable).head?.any u.cased &&
    !(after.dropWhile u.caseIgnorable).head?.any u.cased

/-- The lower case of a text that follows another. -/
def lowerFrom (u : UnicodeCase) (before : List Char) : List Char → List Char
  | [] => []
  | c :: after =>
    (if c = 'Σ' && u.finalSigma before after then ['ς'] else u.lower c) ++
      u.lowerFrom (c :: before) after

/-- `String.prototype.toLowerCase`. -/
def toLowerCase (u : UnicodeCase) (t : List Char) : List Char := u.lowerFrom [] t

end UnicodeCase

/-! ## The parser -/

namespace AuthV2

/-- `normalizePhone`. -/
def normalizePhone (input : String) : Option String :=
  let digits := input.toList.filter Char.isDigit
  let national :=
    if digits.length = 11 && digits.head? = some '0' then some (digits.drop 1)
    else if digits.length = 13 && digits.take 3 = ['2', '3', '4'] then some (digits.drop 3)
    else if digits.length = 10 then some digits
    else none
  national.bind fun d =>
    if d.head? = some '7' || d.head? = some '8' || d.head? = some '9' then
      some (String.ofList ("+234".toList ++ d))
    else none

/-- `normalizeEmail`, with the slices before and after `indexOf('@')`. -/
def normalizeEmail (u : UnicodeCase) (input : String) : Option String :=
  let value := u.toLowerCase (jsTrim input).toList
  match splitOnceAt value with
  | none => none
  | some (localPart, domain) =>
    if localPart.isEmpty || domain.isEmpty then none
    else if domain.contains '@' || !domain.contains '.' then none
    else if (domain.splitOn '.').any (·.isEmpty) then none
    else if value.any isJsSpace then none
    else some (String.ofList value)

/-- `parseIdentifier`. -/
def parseIdentifier (u : UnicodeCase) (input : String) : Option Identifier :=
  let trimmed := jsTrim input
  if trimmed.toList.isEmpty then none
  else if trimmed.toList.contains '@' then (normalizeEmail u trimmed).map .email
  else (normalizePhone trimmed).map .phone

end AuthV2

/-! ## The shape of an address -/

/-- A local part, one `@`, and a domain of two or more labels. -/
def AddressShape (t : List Char) : Prop :=
  ∃ localPart domain, t.splitOn '@' = [localPart, domain] ∧ localPart ≠ [] ∧ '.' ∈ domain ∧
    ∀ label ∈ domain.splitOn '.', label ≠ []

/-- A text is an address when it is trimmed of a kind of white space, and holds none inside. -/
def Addressed (space : Char → Bool) (t : List Char) : Prop :=
  AddressShape (Texts.trim space t) ∧ ∀ c ∈ Texts.trim space t, space c = false

lemma splitOn_at_iff {t localPart domain : List Char} :
    t.splitOn '@' = [localPart, domain] ↔
      t = localPart ++ '@' :: domain ∧ '@' ∉ localPart ∧ '@' ∉ domain := by
  constructor
  · intro h
    have hjoin : ['@'].intercalate (t.splitOn '@') = t := List.intercalate_splitOn '@'
    have hpiece : ∀ l ∈ t.splitOn '@', '@' ∉ l := fun l => Delimited.notMem_of_mem_splitOn
    rw [h] at hjoin hpiece
    refine ⟨?_, hpiece _ (by simp), hpiece _ (by simp)⟩
    rw [← hjoin]
    simp [List.intercalate]
  · rintro ⟨rfl, hlocal, hdomain⟩
    rw [List.splitOn_append_cons_self, List.splitOn_eq_singleton hlocal,
      List.splitOn_eq_singleton hdomain]
    rfl

/-- A well-formed email is an address without the server's white space. -/
lemma wellFormedEmail_iff {t : List Char} :
    WellFormedEmail t ↔ AddressShape t ∧ ∀ c ∈ t, isWhitespace c = false := by
  constructor
  · rintro ⟨localPart, labels, h⟩
    have hnoAt : '@' ∉ ['.'].intercalate labels := fun hmem => by
      rcases Delimited.mem_of_mem_intercalate hmem with hdot | ⟨l, hl, hat⟩
      · exact absurd hdot (by decide)
      · exact (h.label l hl).2.1 hat
    obtain ⟨hdot, hlabels⟩ := (labels_iff hnoAt).mpr ⟨labels, rfl, h.two, h.label⟩
    refine ⟨⟨localPart, _, splitOn_at_iff.mpr ⟨h.text, h.local_at, hnoAt⟩, h.local_ne,
      List.contains_iff_mem.mp hdot, fun label hl => ?_⟩, h.noSpace⟩
    have hne := List.any_eq_false.mp hlabels label hl
    simpa using hne
  · rintro ⟨⟨localPart, domain, hsplit, hlocal, hdot, hlabels⟩, hspace⟩
    obtain ⟨htext, hlocalAt, hdomainAt⟩ := splitOn_at_iff.mp hsplit
    obtain ⟨labels, rfl, htwo, hlabel⟩ := (labels_iff hdomainAt).mp
      ⟨List.contains_iff_mem.mpr hdot,
        List.any_eq_false.mpr fun l hl => by simpa using hlabels l hl⟩
    exact ⟨localPart, labels, htext, hlocal, hlocalAt, htwo, hlabel, hspace⟩

/-- Expanding what is not structural keeps the shape. -/
lemma addressShape_iff {t t' : List Char} (h : Texts.Expands Structural t t') :
    AddressShape t' ↔ AddressShape t := by
  have hat : Structural '@' := .inl rfl
  have hdot : Structural '.' := .inr (.inl rfl)
  have hpieces : ∀ {d d' : List Char}, Texts.Expands Structural d d' →
      ((∀ l ∈ d'.splitOn '.', l ≠ []) ↔ ∀ l ∈ d.splitOn '.', l ≠ []) := by
    intro d d' hd
    have hsplit := hd.splitOn hdot
    generalize d.splitOn '.' = ls at hsplit
    generalize d'.splitOn '.' = ls' at hsplit
    induction hsplit with
    | nil => simp
    | cons hl _ ih =>
        rw [List.forall_mem_cons, List.forall_mem_cons]
        exact and_congr (not_congr hl.eq_nil_iff) ih
  have hsplit := h.splitOn hat
  unfold AddressShape
  generalize t.splitOn '@' = ps at hsplit
  generalize t'.splitOn '@' = ps' at hsplit
  constructor
  · rintro ⟨l', d', rfl, hlocal, hmem, hlabels⟩
    cases hsplit with
    | cons hl htail =>
        cases htail with
        | cons hd htail =>
            cases htail
            exact ⟨_, _, rfl, fun hnil => hlocal (hl.eq_nil_iff.mpr hnil),
              (hd.mem_iff hdot).mp hmem, (hpieces hd).mp hlabels⟩
  · rintro ⟨l, d, rfl, hlocal, hmem, hlabels⟩
    cases hsplit with
    | cons hl htail =>
        cases htail with
        | cons hd htail =>
            cases htail
            exact ⟨_, _, rfl, fun hnil => hlocal (hl.eq_nil_iff.mp hnil),
              (hd.mem_iff hdot).mpr hmem, (hpieces hd).mpr hlabels⟩

/-! ## Lower case -/

namespace UnicodeCase

variable (u : UnicodeCase) {t : List Char}

lemma lowerFrom_cons (before : List Char) (c : Char) (after : List Char) :
    u.lowerFrom before (c :: after) =
      (if c = 'Σ' && u.finalSigma before after then ['ς'] else u.lower c) ++
        u.lowerFrom (c :: before) after := rfl

/-- Lower-casing expands the letters of a text. -/
lemma expands_lowerFrom (before t : List Char) :
    Texts.Expands Structural t (u.lowerFrom before t) := by
  induction t generalizing before with
  | nil => exact .nil
  | cons c t ih =>
      rw [lowerFrom_cons]
      by_cases hc : Structural c
      · have hsigma : c ≠ 'Σ' := by
          rintro rfl
          exact absurd hc (by decide)
        rw [if_neg (by simp [hsigma]), u.caseless c hc]
        exact .keep hc (ih _)
      · refine .turn hc ?_ ?_ (ih _)
        · split
          · exact List.cons_ne_nil _ _
          · exact (u.letters c hc).1
        · intro d hd
          split at hd
          · rw [List.mem_singleton.mp hd]
            decide
          · exact (u.letters c hc).2 d hd

lemma expands_toLowerCase (t : List Char) : Texts.Expands Structural t (u.toLowerCase t) :=
  u.expands_lowerFrom [] t

/-- A character outside ASCII has no lower case in ASCII. -/
lemma toLower_of_not_ascii {c : Char} (h : 128 ≤ c.toNat) : c.toLower = c := by
  apply Char.ext
  apply UInt32.toNat_inj.mp
  change c.toLower.toNat = c.toNat
  rw [toNat_toLower, if_neg (by omega)]

/-- **When both kinds of lower case are one**: every character outside ASCII is its own. -/
lemma lowerFrom_eq_iff {before t : List Char} :
    t.map Char.toLower = u.lowerFrom before t ↔ ∀ c ∈ t, 128 ≤ c.toNat → u.lower c = [c] := by
  induction t generalizing before with
  | nil => simp [lowerFrom]
  | cons c t ih =>
      have hih := @ih (c :: before)
      rw [List.forall_mem_cons, ← hih, List.map_cons, lowerFrom_cons]
      have hexpands := u.expands_lowerFrom (c :: before) t
      have hpiece : u.lower c ≠ [] := by
        by_cases hc : Structural c
        · rw [u.caseless c hc]
          exact List.cons_ne_nil _ _
        · exact (u.letters c hc).1
      have hsigma : u.lower 'Σ' ≠ ['Σ'] := by
        rw [u.sigma]
        decide
      constructor
      · intro h
        -- The expansion is as long as the text, so each letter has one lower case.
        have hlen := congrArg List.length h
        split at h <;> rename_i hfinal
        · exfalso
          have hc : c = 'Σ' := by
            simp only [Bool.and_eq_true, decide_eq_true_eq] at hfinal
            exact hfinal.1
          have hhead := (List.cons.inj h).1
          rw [hc] at hhead
          exact absurd hhead (by decide)
        · rw [if_neg hfinal] at hlen
          obtain ⟨d, p, hp⟩ := List.exists_cons_of_ne_nil hpiece
          rw [hp, List.cons_append] at h hlen
          obtain ⟨hd, hrest⟩ := List.cons.inj h
          have hshort : p = [] := by
            apply List.eq_nil_of_length_eq_zero
            have := hexpands.length_le
            simp only [List.length_cons, List.length_map, List.length_append] at hlen
            omega
          rw [hshort, List.nil_append] at hrest
          refine ⟨fun hc => ?_, hrest⟩
          rw [hp, hshort, ← hd, toLower_of_not_ascii hc]
      · rintro ⟨halike, hrest⟩
        have hlower : u.lower c = [c.toLower] := by
          by_cases hc : c.toNat < 128
          · exact u.ascii c hc
          · rw [halike (not_lt.mp hc), toLower_of_not_ascii (not_lt.mp hc)]
        have hother : c ≠ 'Σ' := by
          rintro rfl
          exact hsigma (halike (by decide))
        rw [if_neg (by simp [hother]), hlower, ← hrest]
        rfl

end UnicodeCase

/-! ## What the two parsers accept -/

section Parsers

variable {u : UnicodeCase}

lemma toList_jsTrim (s : String) : (jsTrim s).toList = Texts.trim isJsSpace s.toList :=
  String.toList_ofList

lemma jsTrim_jsTrim (s : String) : jsTrim (jsTrim s) = jsTrim s := by
  rw [jsTrim, toList_jsTrim, Texts.trim_trim]
  rfl

/-- Digits are white space of neither kind. -/
lemma not_structural_of_isDigit {c : Char} (h : c.isDigit = true) : ¬ Structural c := by
  have hdigit : 48 ≤ c.toNat ∧ c.toNat ≤ 57 := by
    simpa [Char.isDigit, UInt32.le_iff_toNat_le, ← Char.toNat_val] using h
  rintro (rfl | rfl | hspace | hspace)
  · exact absurd hdigit (by decide)
  · exact absurd hdigit (by decide)
  · simp only [isWhitespace, Bool.or_eq_true, Bool.and_eq_true, decide_eq_true_eq] at hspace
    omega
  · simp only [isJsSpace, Bool.or_eq_true, Bool.and_eq_true, decide_eq_true_eq] at hspace
    omega

/-- Phones are read off the digits, by the app as by the server. -/
lemma normalizePhone_eq {s s' : String} (h : digitsOf s = digitsOf s') :
    AuthV2.normalizePhone s = normalizeNgPhone s' := by
  unfold digitsOf at h
  simp only [AuthV2.normalizePhone, normalizeNgPhone, h]

lemma digitsOf_jsTrim (s : String) : digitsOf (jsTrim s) = digitsOf s := by
  unfold digitsOf
  rw [toList_jsTrim]
  refine Texts.filter_trim (fun c hc => ?_) s.toList
  have hnot := not_structural_of_isDigit hc
  simp only [Structural, not_or, Bool.not_eq_true] at hnot
  exact hnot.2.2.2

/-- Which texts the app takes for emails, and what it makes of them. -/
lemma normalizeEmail_app_iff {s v : String} :
    AuthV2.normalizeEmail u s = some v ↔
      Addressed isJsSpace s.toList ∧
        v = String.ofList (u.toLowerCase (Texts.trim isJsSpace s.toList)) := by
  have hexpands := u.expands_toLowerCase (Texts.trim isJsSpace s.toList)
  have hspaces : (u.toLowerCase (Texts.trim isJsSpace s.toList)).any isJsSpace = false ↔
      ∀ c ∈ Texts.trim isJsSpace s.toList, isJsSpace c = false := by
    rw [List.any_eq_false]
    constructor
    · intro h c hc
      by_contra hspace
      rw [Bool.not_eq_false] at hspace
      exact h c ((hexpands.mem_iff (.inr (.inr (.inr hspace)))).mpr hc) hspace
    · intro h c hc hspace
      have hmem := (hexpands.mem_iff (.inr (.inr (.inr hspace)))).mp hc
      rw [h c hmem] at hspace
      cases hspace
  unfold AuthV2.normalizeEmail Addressed
  rw [toList_jsTrim, ← addressShape_iff hexpands, ← hspaces]
  generalize u.toLowerCase (Texts.trim isJsSpace s.toList) = value
  dsimp only
  constructor
  · intro h
    split at h
    · cases h
    · rename_i localPart domain hsplit
      obtain ⟨htext, hlocalAt⟩ := splitOnceAt_eq_some_iff.mp hsplit
      split_ifs at h with hempty hdomain hlabels hspace
      simp only [Bool.or_eq_true, not_or, List.isEmpty_iff, Bool.not_eq_true'] at hempty hdomain
      simp only [Option.some.injEq] at h
      refine ⟨⟨⟨localPart, domain, splitOn_at_iff.mpr ⟨htext, hlocalAt, ?_⟩, hempty.1, ?_,
        fun label hl hnil => hlabels ?_⟩, ?_⟩, h.symm⟩
      · simpa using hdomain.1
      · simpa using hdomain.2
      · exact List.any_eq_true.mpr ⟨label, hl, by simp [hnil]⟩
      · simpa using hspace
  · rintro ⟨⟨⟨localPart, domain, hsplit, hlocal, hdot, hlabels⟩, hspace⟩, rfl⟩
    obtain ⟨htext, hlocalAt, hdomainAt⟩ := splitOn_at_iff.mp hsplit
    have hdomain : domain ≠ [] := List.ne_nil_of_mem hdot
    rw [splitOnceAt_eq_some_iff.mpr ⟨htext, hlocalAt⟩]
    have hfilled : [] ∉ domain.splitOn '.' := fun hmem => hlabels _ hmem rfl
    simp [hlocal, hdomain, hdomainAt, hdot, hspace, hfilled]

/-- Which texts the server takes for emails. -/
lemma normalizeEmail_server_iff {s v : String} :
    normalizeEmail s = some v ↔
      Addressed isWhitespace s.toList ∧
        v = String.ofList ((Texts.trim isWhitespace s.toList).map Char.toLower) := by
  rw [normalizeEmail_iff, wellFormedEmail_iff, toList_trimText, lowerAscii, toList_trimText]
  rfl

/-- Both look for an `@`, which neither trims away. -/
lemma parse_app (s : String) :
    AuthV2.parseIdentifier u s =
      if '@' ∈ s.toList then (AuthV2.normalizeEmail u s).map .email
      else (normalizeNgPhone s).map .phone := by
  have hat : '@' ∈ (jsTrim s).toList ↔ '@' ∈ s.toList := by
    rw [toList_jsTrim]
    exact Texts.mem_trim_iff (by decide)
  have hemail : AuthV2.normalizeEmail u (jsTrim s) = AuthV2.normalizeEmail u s := by
    rw [AuthV2.normalizeEmail, jsTrim_jsTrim]
    rfl
  have hphone : AuthV2.normalizePhone (jsTrim s) = normalizeNgPhone s :=
    normalizePhone_eq (digitsOf_jsTrim s)
  unfold AuthV2.parseIdentifier
  simp only [hemail, hphone, List.contains_iff_mem, hat]
  split_ifs with hempty hmem hmem
  · rw [List.isEmpty_iff] at hempty
    rw [← hat, hempty] at hmem
    cases hmem
  · have hnone : digitsOf s = [] := by
      rw [← digitsOf_jsTrim, digitsOf, List.isEmpty_iff.mp hempty]
      rfl
    have hrefused : normalizeNgPhone s = none := by
      rw [← normalizePhone_eq (s := "") (by rw [hnone]; rfl)]
      rfl
    rw [hrefused]
    rfl
  · rfl
  · rfl

/-- So does the server. -/
lemma parse_server (s : String) :
    (parseIdentifier s).toOption =
      if '@' ∈ s.toList then (normalizeEmail s).map .email
      else (normalizeNgPhone s).map .phone := by
  have hat : '@' ∈ (trimText s).toList ↔ '@' ∈ s.toList := mem_trimText_iff (by decide)
  have hemail : normalizeEmail (trimText s) = normalizeEmail s := by
    rw [normalizeEmail, trimText_trimText]
    rfl
  have hphone : normalizeNgPhone (trimText s) = normalizeNgPhone s := by
    rw [← normalizePhone_eq rfl, normalizePhone_eq (digitsOf_trimText s)]
  unfold parseIdentifier
  simp only [hemail, hphone, List.contains_iff_mem, hat]
  split_ifs with hempty hmem hmem
  · rw [List.isEmpty_iff] at hempty
    rw [← hat, hempty] at hmem
    cases hmem
  · have hnone : digitsOf s = [] := by
      rw [← digitsOf_trimText, digitsOf, List.isEmpty_iff.mp hempty]
      rfl
    have hrefused : normalizeNgPhone s = none := by
      rw [← normalizePhone_eq (s := "") (by rw [hnone]; rfl)]
      rfl
    rw [hrefused]
    rfl
  · cases normalizeEmail s <;> rfl
  · cases normalizeNgPhone s <;> rfl

/-! ## Where they agree -/

/-- A character both make the same of: white space of both kinds or of neither, and its own lower
case if it is not of ASCII. -/
def ReadAlike (u : UnicodeCase) (c : Char) : Prop :=
  c ≠ '\u0085' ∧ c ≠ '\uFEFF' ∧ (128 ≤ c.toNat → u.lower c = [c])

lemma isJsSpace_eq {c : Char} (hnel : c ≠ '\u0085') (hbom : c ≠ '\uFEFF') :
    isJsSpace c = isWhitespace c := by
  have hnat : ∀ d : Char, c ≠ d → c.toNat ≠ d.toNat := fun d hne heq =>
    hne (Char.ext (UInt32.toNat_inj.mp heq))
  have hn : c.toNat ≠ 0x85 := hnat '\u0085' hnel
  have hb : c.toNat ≠ 0xFEFF := hnat '\uFEFF' hbom
  rw [Bool.eq_iff_iff]
  simp only [isJsSpace, isWhitespace, Bool.or_eq_true, Bool.and_eq_true, decide_eq_true_eq]
  omega

/-- What both accept as one address is read alike. -/
lemma readAlike_of_same {t : List Char} (hserver : Addressed isWhitespace t)
    (happ : Addressed isJsSpace t)
    (hsame : (Texts.trim isWhitespace t).map Char.toLower =
      u.toLowerCase (Texts.trim isJsSpace t)) : ∀ c ∈ t, ReadAlike u c := by
  have hexpands := u.expands_toLowerCase (Texts.trim isJsSpace t)
  have hbom : '\uFEFF' ∉ t := by
    intro h
    have hkept : '\uFEFF' ∈ Texts.trim isWhitespace t := (Texts.mem_trim_iff (by decide)).mpr h
    have hlowered : '\uFEFF' ∈ (Texts.trim isWhitespace t).map Char.toLower :=
      List.mem_map.mpr ⟨_, hkept, by decide⟩
    rw [hsame] at hlowered
    have hmem := (hexpands.mem_iff (by decide)).mp hlowered
    exact absurd (happ.2 _ hmem) (by decide)
  have hnel : '\u0085' ∉ t := by
    intro h
    have hkept : '\u0085' ∈ Texts.trim isJsSpace t := (Texts.mem_trim_iff (by decide)).mpr h
    have hlowered := (hexpands.mem_iff (by decide)).mpr hkept
    rw [← hsame] at hlowered
    obtain ⟨c, hc, hlower⟩ := List.mem_map.mp hlowered
    rw [toLower_eq_iff (by decide) (by decide)] at hlower
    rw [hlower] at hc
    exact absurd (hserver.2 _ hc) (by decide)
  have hspace : ∀ c ∈ t, isJsSpace c = isWhitespace c := fun c hc =>
    isJsSpace_eq (ne_of_mem_of_not_mem hc hnel) (ne_of_mem_of_not_mem hc hbom)
  rw [Texts.trim_congr hspace] at hsame
  have hlower := u.lowerFrom_eq_iff.mp hsame
  intro c hc
  refine ⟨ne_of_mem_of_not_mem hc hnel, ne_of_mem_of_not_mem hc hbom, fun hwide => ?_⟩
  by_cases hwhite : isWhitespace c = true
  · exact u.caseless c (.inr (.inr (.inl hwhite)))
  · exact hlower c ((Texts.mem_trim_iff (by simpa using hwhite)).mpr hc) hwide

/-- **Where the app and the server parse alike.**  They do so exactly if the text holds no `@`, or
only characters read alike, or is no address when trimmed of either kind of white space. -/
theorem parse_alike_iff (u : UnicodeCase) (s : String) :
    AuthV2.parseIdentifier u s = (parseIdentifier s).toOption ↔
      '@' ∉ s.toList ∨ (∀ c ∈ s.toList, ReadAlike u c) ∨
        (¬ Addressed isWhitespace s.toList ∧ ¬ Addressed isJsSpace s.toList) := by
  rw [parse_app, parse_server]
  by_cases hat : '@' ∈ s.toList
  · have hinj : Function.Injective Identifier.email := fun _ _ h => Identifier.email.inj h
    rw [if_pos hat, if_pos hat, (Option.map_injective hinj).eq_iff]
    simp only [hat, not_true_eq_false, false_or]
    constructor
    · intro heq
      by_cases hserver : Addressed isWhitespace s.toList
      · left
        have hvalue := normalizeEmail_server_iff.mpr ⟨hserver, rfl⟩
        obtain ⟨happ, hsame⟩ := normalizeEmail_app_iff.mp (heq.trans hvalue)
        exact readAlike_of_same hserver happ (String.ofList_injective hsame)
      · right
        refine ⟨hserver, fun happ => hserver ?_⟩
        have hvalue := (normalizeEmail_app_iff (u := u)).mpr ⟨happ, rfl⟩
        exact (normalizeEmail_server_iff.mp (heq.symm.trans hvalue)).1
    · rintro (halike | ⟨hserver, happ⟩)
      · have hspace : ∀ c ∈ s.toList, isJsSpace c = isWhitespace c := fun c hc =>
          isJsSpace_eq (halike c hc).1 (halike c hc).2.1
        have htrim := Texts.trim_congr hspace
        have hlower : (Texts.trim isWhitespace s.toList).map Char.toLower =
            u.toLowerCase (Texts.trim isWhitespace s.toList) :=
          u.lowerFrom_eq_iff.mpr fun c hc => (halike c (Texts.mem_of_mem_trim hc)).2.2
        have haddressed : Addressed isJsSpace s.toList ↔ Addressed isWhitespace s.toList := by
          unfold Addressed
          rw [htrim]
          refine and_congr_right fun _ => forall₂_congr fun c hc => ?_
          rw [hspace c (Texts.mem_of_mem_trim hc)]
        ext v
        rw [normalizeEmail_app_iff, normalizeEmail_server_iff, haddressed, htrim, hlower]
      · have hrefused : normalizeEmail s = none :=
          Option.eq_none_iff_forall_ne_some.mpr fun v hv =>
            hserver (normalizeEmail_server_iff.mp hv).1
        rw [hrefused]
        exact Option.eq_none_iff_forall_ne_some.mpr fun v hv =>
          happ (normalizeEmail_app_iff.mp hv).1
  · simp only [hat, if_false, not_false_eq_true, true_or]

end Parsers

/-! ## Where they do not -/

lemma structural_toLower {c : Char} : Structural c.toLower ↔ Structural c := by
  have hspace : isJsSpace c.toLower = isJsSpace c := by
    simp only [isJsSpace, toNat_toLower]
    split
    · rename_i h
      apply Bool.eq_iff_iff.mpr
      simp only [Bool.or_eq_true, Bool.and_eq_true, decide_eq_true_eq]
      omega
    · rfl
  unfold Structural
  rw [toLower_eq_iff (by decide) (by decide), toLower_eq_iff (by decide) (by decide),
    isWhitespace_toLower, hspace]

/-- What is structural has no case. -/
lemma toLower_of_structural {c : Char} (h : Structural c) : c.toLower = c := by
  apply Char.ext
  apply UInt32.toNat_inj.mp
  change c.toLower.toNat = c.toNat
  rw [toNat_toLower, if_neg]
  intro hupper
  rcases h with rfl | rfl | hspace | hspace
  · exact absurd hupper (by decide)
  · exact absurd hupper (by decide)
  · simp only [isWhitespace, Bool.or_eq_true, Bool.and_eq_true, decide_eq_true_eq] at hspace
    omega
  · simp only [isJsSpace, Bool.or_eq_true, Bool.and_eq_true, decide_eq_true_eq] at hspace
    omega

/-- The tables for ASCII, a sigma and one accented letter. -/
def accentedCase : UnicodeCase where
  lower c := if c = 'É' then ['é'] else if c = 'Σ' then ['σ'] else [c.toLower]
  cased _ := false
  caseIgnorable _ := false
  ascii c hc := by
    have hE : c ≠ 'É' := by
      rintro rfl
      exact absurd hc (by decide)
    have hS : c ≠ 'Σ' := by
      rintro rfl
      exact absurd hc (by decide)
    rw [if_neg hE, if_neg hS]
  sigma := rfl
  caseless c hc := by
    have hE : c ≠ 'É' := by
      rintro rfl
      exact absurd hc (by decide)
    have hS : c ≠ 'Σ' := by
      rintro rfl
      exact absurd hc (by decide)
    rw [if_neg hE, if_neg hS, toLower_of_structural hc]
  letters c hc := by
    split_ifs with hE hS <;> refine ⟨List.cons_ne_nil _ _, fun d hd => ?_⟩ <;>
      rw [List.mem_singleton.mp hd]
    · decide
    · decide
    · rwa [structural_toLower]

/-- **An accented capital is lowered by the app and not by the server.** -/
theorem accent_told_apart : ¬ ∀ (u : UnicodeCase) (s : String),
    AuthV2.parseIdentifier u s = (parseIdentifier s).toOption := by
  intro h
  exact absurd (h accentedCase "Élise@example.com") (by decide +kernel)

end Naivolt
