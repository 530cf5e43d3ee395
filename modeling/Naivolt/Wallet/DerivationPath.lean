import Naivolt.Auth.Tables
import Naivolt.Foundation.Delimited
import Naivolt.Watcher.Amounts

/-!
# Derivation paths

A deposit address is derived along a path that names its chain and the user's index:
`derivation_path` writes it, and for Solana `parse_hardened_path` reads it back.  BIP-32 derives
along the paths of the other chains and is not modelled.

`derivation_paths` says that no two pairs of chain and index have one path, that Solana's parse to
the indices they were written from, and which texts parse at all.
-/

namespace Naivolt

open Foundation

/-! ## Writing -/

/-- `Chain::derivation_path`. -/
def Chain.derivationPath (chain : Chain) (index : ℕ) : String :=
  match chain with
  | .bitcoin => "m/84'/0'/0'/0/" ++ toString index
  | .evm => "m/44'/60'/0'/0/" ++ toString index
  | .tron => "m/44'/195'/0'/0/" ++ toString index
  | .solana => "m/44'/501'/" ++ toString index ++ "'/0'"

/-! ## Reading -/

/-- `DeriveError`. -/
inductive DeriveError where
  | indexTooLarge (index : ℕ)
  | badPath (message : String)
  | derivation (message : String)
  deriving DecidableEq, Repr

/-- The bit that marks a hardened index. -/
def hardenedBit : ℕ := 0x80000000

/-- An index with the hardened bit set. -/
def hardened (n : ℕ) : ℕ := n ||| hardenedBit

def apostrophe : Char := Char.ofNat 39

/-- What ends a hardened segment. -/
def isHardMark (c : Char) : Bool := c = apostrophe || c = 'h'

/-- `str::parse::<u32>`. -/
def parseU32 (s : List Char) : Option ℕ := (spelledNat 10 s).filter (· < 2 ^ 32)

/-- `trim_start_matches("m/")`. -/
def trimPathMark : List Char → List Char
  | 'm' :: '/' :: rest => trimPathMark rest
  | s => s

/-- The index a segment stands for. -/
def segmentIndex (path : String) (segment : List Char) : Except DeriveError ℕ :=
  if segment.getLast?.any isHardMark then
    match parseU32 (segment.rdropWhile isHardMark) with
    | none => .error (.badPath ("bad index '" ++ String.ofList segment ++ "'"))
    | some raw =>
      if hardenedBit ≤ raw then .error (.indexTooLarge raw) else .ok (hardened raw)
  else
    .error (.badPath ("ed25519 requires hardened derivation, got '" ++ String.ofList segment ++
      "' in '" ++ path ++ "'"))

/-- The segments in turn. -/
def parseSegments (path : String) : List (List Char) → Except DeriveError (List ℕ)
  | [] => .ok []
  | segment :: rest =>
    if segment = [] || segment = ['m'] then parseSegments path rest
    else do
      let index ← segmentIndex path segment
      let indices ← parseSegments path rest
      .ok (index :: indices)

/-- `parse_hardened_path`. -/
def parseHardenedPath (path : String) : Except DeriveError (List ℕ) :=
  parseSegments path ((trimPathMark path.toList).splitOn '/')

/-! ## Deriving -/

/-- The keys and addresses under a seed: along a BIP-32 path, and along hardened indices. -/
structure SeedKeys where
  secp256k1 : Chain → String → Except DeriveError String
  ed25519 : List ℕ → Except DeriveError String

/-- `derive_address`. -/
def deriveAddress (keys : SeedKeys) (chain : Chain) (index : ℕ) :
    Except DeriveError DerivedAddress :=
  if hardenedBit ≤ index then .error (.indexTooLarge index)
  else do
    let path := chain.derivationPath index
    let address ← match chain with
      | .solana => do keys.ed25519 (← parseHardenedPath path)
      | chain => keys.secp256k1 chain path
    .ok { chain := chain, address := address, derivationPath := path }

/-! ## Numbers as texts -/

lemma toDigit_ten {c : Char} (h : c.isDigit = true) : toDigit 10 c = some (c.toNat - 48) := by
  have hrange : '0' ≤ c ∧ c ≤ '9' := by
    simpa [Char.isDigit, Char.le_def] using h
  have hnat : 48 ≤ c.toNat ∧ c.toNat ≤ 57 := by
    simpa [Char.le_def, UInt32.le_iff_toNat_le] using hrange
  rw [toDigit, if_pos hrange, Option.filter_some, if_pos (by simp; omega)]

/-- Digits spell their number. -/
lemma spelledNat_digits {s : List Char} (hne : s ≠ []) (h : ∀ c ∈ s, c.isDigit = true) :
    spelledNat 10 s = some (Nat.ofDigitChars 10 s 0) := by
  have hsign : s.head? ≠ some '+' := by
    intro hplus
    exact absurd (h '+' (List.mem_of_head? hplus)) (by decide)
  have hdigits : ∀ l : List Char, (∀ c ∈ l, c.isDigit = true) →
      l.mapM (toDigit 10) = some (l.map fun c => c.toNat - 48) := by
    intro l hl
    induction l with
    | nil => rfl
    | cons c l ih =>
        have hc := toDigit_ten (hl c List.mem_cons_self)
        have htail := ih fun d hd => hl d (List.mem_cons_of_mem c hd)
        simp [List.mapM_cons, hc, htail]
  have hfold : ∀ (l : List Char) (n : ℕ),
      (l.map fun c => c.toNat - 48).foldl (fun n d => n * 10 + d) n =
        Nat.ofDigitChars 10 l n := by
    intro l
    induction l with
    | nil => intro n; simp
    | cons c l ih =>
        intro n
        rw [List.map_cons, List.foldl_cons, ih, Nat.ofDigitChars_cons, Nat.mul_comm]
        rfl
  simp [spelledNat, hsign, hne, hdigits s h, hfold]

lemma isDigit_of_mem_toString {n : ℕ} {c : Char} (h : c ∈ (toString n).toList) :
    c.isDigit = true := by
  have hmem : c ∈ Nat.toDigits 10 n := by simpa [Nat.repr] using h
  exact Nat.isDigit_of_mem_toDigits (by decide) (by decide) hmem

lemma spelledNat_toString (n : ℕ) : spelledNat 10 (toString n).toList = some n := by
  have hlist : (toString n).toList = Nat.toDigits 10 n := by simp [Nat.repr]
  have hne : (toString n).toList ≠ [] := by
    rw [hlist]
    exact Nat.toDigits_ne_nil
  rw [spelledNat_digits hne fun c hc => isDigit_of_mem_toString hc, hlist,
    Nat.ofDigitChars_ten_toDigits]

/-! ## Segments -/

/-- A hardened segment: a number below `2 ^ 31`, and one mark or more. -/
def HardenedSegment (segment : List Char) (n : ℕ) : Prop :=
  ∃ text marks, segment = text ++ marks ∧ marks ≠ [] ∧ (∀ c ∈ marks, isHardMark c = true) ∧
    spelledNat 10 text = some n ∧ n < 2 ^ 31

/-- A spelled number ends in a digit. -/
lemma getLast_of_spelled {s : List Char} {n : ℕ} (h : spelledNat 10 s = some n) :
    ∃ front c, s = front ++ [c] ∧ isHardMark c = false := by
  have hmarks : ∀ c, isHardMark c = true → toDigit 10 c = none := by
    intro c hc
    rcases (by simpa [isHardMark] using hc : c = apostrophe ∨ c = 'h') with rfl | rfl <;> decide
  have hlast : ∀ digits : List Char, digits ≠ [] → (digits.mapM (toDigit 10)).isSome = true →
      ∃ front c, digits = front ++ [c] ∧ isHardMark c = false := by
    intro digits hne hsome
    refine ⟨digits.dropLast, digits.getLast hne, (List.dropLast_append_getLast hne).symm, ?_⟩
    by_contra hmark
    have hnone := hmarks _ (by simpa using hmark)
    obtain ⟨values, hvalues⟩ := Option.isSome_iff_exists.mp hsome
    rw [← List.dropLast_append_getLast hne, List.mapM_append] at hvalues
    simp [hnone] at hvalues
  unfold spelledNat at h
  by_cases hplus : s.head? = some '+'
  · obtain ⟨tail, rfl⟩ : ∃ tail, s = '+' :: tail := by
      cases s with
      | nil => cases hplus
      | cons c tail => exact ⟨tail, by rw [Option.some.inj hplus]⟩
    rw [if_pos hplus, List.tail_cons] at h
    by_cases hnil : tail = []
    · rw [if_pos hnil] at h
      cases h
    · rw [if_neg hnil] at h
      obtain ⟨front, c, rfl, hc⟩ := hlast tail hnil (by
        obtain ⟨values, hvalues, -⟩ := Option.map_eq_some_iff.mp h
        simp [hvalues])
      exact ⟨'+' :: front, c, rfl, hc⟩
  · rw [if_neg hplus] at h
    by_cases hnil : s = []
    · rw [if_pos hnil] at h
      cases h
    · rw [if_neg hnil] at h
      exact hlast s hnil (by
        obtain ⟨values, hvalues, -⟩ := Option.map_eq_some_iff.mp h
        simp [hvalues])

/-- Trailing marks are taken away. -/
lemma rdropWhile_append_of_all {p : Char → Bool} {front : List Char} {c : Char} (hc : p c = false)
    {marks : List Char} (hmarks : ∀ d ∈ marks, p d = true) :
    (front ++ [c] ++ marks).rdropWhile p = front ++ [c] := by
  induction marks using List.reverseRecOn with
  | nil => rw [List.append_nil, List.rdropWhile_concat_neg _ _ _ (by simp [hc])]
  | append_singleton marks d ih =>
      have hd : p d = true := hmarks d (by simp)
      rw [← List.append_assoc, List.rdropWhile_concat_pos _ _ _ hd]
      exact ih fun e he => hmarks e (List.mem_append_left _ he)

/-- **One segment.** -/
lemma segmentIndex_eq_ok_iff {path : String} {segment : List Char} {index : ℕ} :
    segmentIndex path segment = .ok index ↔
      ∃ n, HardenedSegment segment n ∧ index = hardened n := by
  constructor
  · intro h
    unfold segmentIndex at h
    by_cases hmark : segment.getLast?.any isHardMark = true
    · rw [if_pos hmark] at h
      cases hraw : parseU32 (segment.rdropWhile isHardMark) with
      | none =>
          rw [hraw] at h
          cases h
      | some raw =>
          rw [hraw] at h
          by_cases hlarge : hardenedBit ≤ raw
          · simp only [if_pos hlarge] at h
            cases h
          · simp only [if_neg hlarge] at h
            cases h
            refine ⟨raw, ⟨segment.rdropWhile isHardMark, segment.rtakeWhile isHardMark,
              (List.rdropWhile_append_rtakeWhile).symm, ?_, ?_, ?_, not_le.mp hlarge⟩, rfl⟩
            · intro hnil
              obtain ⟨c, hlast, hc⟩ := (Option.any_eq_true _ _).mp hmark
              obtain ⟨front, hsegment⟩ := List.getLast?_eq_some_iff.mp hlast
              rw [hsegment, List.rtakeWhile_concat_pos _ _ _ hc] at hnil
              simp at hnil
            · exact fun c hc => List.mem_rtakeWhile_imp hc
            · exact (Option.filter_eq_some_iff.mp hraw).1
    · rw [if_neg hmark] at h
      cases h
  · rintro ⟨n, ⟨text, marks, rfl, hne, hmarks, hspelled, hlt⟩, rfl⟩
    obtain ⟨front, c, rfl, hc⟩ := getLast_of_spelled hspelled
    have hends : (front ++ [c] ++ marks).getLast?.any isHardMark = true := by
      rw [List.getLast?_append_of_ne_nil _ hne, List.getLast?_eq_some_getLast hne]
      exact hmarks _ (List.getLast_mem hne)
    have hraw : parseU32 (front ++ [c]) = some n :=
      Option.filter_eq_some_iff.mpr ⟨hspelled, decide_eq_true (by omega)⟩
    have hsmall : ¬ hardenedBit ≤ n := not_le.mpr hlt
    unfold segmentIndex
    rw [if_pos hends, rdropWhile_append_of_all hc hmarks, hraw]
    exact if_neg hsmall

/-! ## Paths -/

/-- The segments that are not empty and not `m`. -/
def keptSegments (s : List Char) : List (List Char) :=
  (s.splitOn '/').filter fun segment => segment ≠ [] ∧ segment ≠ ['m']

/-- The marks at the start of a path are segments that are passed over. -/
lemma keptSegments_trimPathMark (s : List Char) :
    keptSegments (trimPathMark s) = keptSegments s := by
  induction s using trimPathMark.induct with
  | case1 rest ih =>
      have hsplit : ('m' :: '/' :: rest).splitOn '/' = [['m']] ++ rest.splitOn '/' :=
        List.splitOn_append_cons_self ['m'] rest
      rw [trimPathMark, ih, keptSegments, keptSegments, hsplit, List.filter_append]
      rfl
  | case2 s hs => rw [trimPathMark.eq_2 s hs]

/-- **All segments.**  They parse when each does, to one index each, in their order. -/
lemma parseSegments_eq_ok_iff {path : String} {segments : List (List Char)} {indices : List ℕ} :
    parseSegments path segments = .ok indices ↔
      List.Forall₂ (fun segment index => ∃ n, HardenedSegment segment n ∧ index = hardened n)
        (segments.filter fun segment => segment ≠ [] ∧ segment ≠ ['m']) indices := by
  induction segments generalizing indices with
  | nil => simp [parseSegments, eq_comm]
  | cons segment rest ih =>
      by_cases hskip : segment = [] ∨ segment = ['m']
      · have hparse : parseSegments path (segment :: rest) = parseSegments path rest := by
          rw [parseSegments, if_pos (by simpa using hskip)]
        have hkept : ¬ (segment ≠ [] ∧ segment ≠ ['m']) := by
          rwa [← not_or, not_not]
        rw [hparse, ih, List.filter_cons_of_neg (by simpa using hkept)]
      · have hparse : parseSegments path (segment :: rest) =
            (segmentIndex path segment).bind fun index =>
              (parseSegments path rest).bind fun indices => .ok (index :: indices) := by
          rw [parseSegments, if_neg (by simpa using hskip)]
          rfl
        have hkept : segment ≠ [] ∧ segment ≠ ['m'] := not_or.mp hskip
        rw [hparse, List.filter_cons_of_pos (by simpa using hkept)]
        constructor
        · intro h
          cases hindex : segmentIndex path segment with
          | error e =>
              rw [hindex] at h
              cases h
          | ok index =>
              rw [hindex] at h
              cases hrest : parseSegments path rest with
              | error e =>
                  simp only [Except.bind, hrest] at h
                  cases h
              | ok tail =>
                  simp only [Except.bind, hrest] at h
                  cases h
                  exact .cons (segmentIndex_eq_ok_iff.mp hindex) (ih.mp hrest)
        · intro h
          cases h with
          | cons hsegment hrest =>
              rw [segmentIndex_eq_ok_iff.mpr hsegment]
              simp only [Except.bind, ih.mpr hrest]

section Related

variable {α β : Type} {R : α → β → Prop}

lemma exists_of_forall₂ {xs : List α} {ys : List β} (h : List.Forall₂ R xs ys) {x : α}
    (hx : x ∈ xs) : ∃ y, R x y := by
  induction h with
  | nil => cases hx
  | cons hxy _ ih =>
      rcases List.mem_cons.mp hx with rfl | hx
      · exact ⟨_, hxy⟩
      · exact ih hx

lemma exists_forall₂ {xs : List α} (h : ∀ x ∈ xs, ∃ y, R x y) : ∃ ys, List.Forall₂ R xs ys := by
  induction xs with
  | nil => exact ⟨[], .nil⟩
  | cons x xs ih =>
      obtain ⟨y, hy⟩ := h x List.mem_cons_self
      obtain ⟨ys, hys⟩ := ih fun x hx => h x (List.mem_cons_of_mem _ hx)
      exact ⟨y :: ys, .cons hy hys⟩

end Related

/-- **What parses**, of all texts. -/
lemma parseHardenedPath_eq_ok_iff {path : String} {indices : List ℕ} :
    parseHardenedPath path = .ok indices ↔
      List.Forall₂ (fun segment index => ∃ n, HardenedSegment segment n ∧ index = hardened n)
        (keptSegments path.toList) indices := by
  rw [parseHardenedPath, parseSegments_eq_ok_iff, ← keptSegments_trimPathMark]
  rfl

/-! ## Solana's path -/

/-- A hardened segment as `derivation_path` writes it. -/
def hardenedText (n : ℕ) : List Char := (toString n).toList ++ [apostrophe]

lemma hardenedSegment_hardenedText {n : ℕ} (h : n < 2 ^ 31) :
    HardenedSegment (hardenedText n) n :=
  ⟨(toString n).toList, [apostrophe], rfl, by simp, by simp [isHardMark],
    spelledNat_toString n, h⟩

lemma slash_notMem_hardenedText (n : ℕ) : '/' ∉ hardenedText n := by
  intro h
  rcases List.mem_append.mp h with h | h
  · exact absurd (isDigit_of_mem_toString h) (by decide)
  · exact absurd h (by decide)

/-- It is not passed over. -/
lemma hardenedText_kept (n : ℕ) : hardenedText n ≠ [] ∧ hardenedText n ≠ ['m'] := by
  refine ⟨by simp [hardenedText], fun h => ?_⟩
  have hlast := congrArg List.getLast? h
  rw [hardenedText, List.getLast?_concat] at hlast
  exact absurd hlast (by decide)

lemma toList_solana (i : ℕ) : (Chain.solana.derivationPath i).toList =
    ['m'] ++ '/' :: (hardenedText 44 ++ '/' :: (hardenedText 501 ++ '/' ::
      (hardenedText i ++ '/' :: hardenedText 0))) := by
  have h44 : (toString 44).toList = ['4', '4'] := by decide
  have h501 : (toString 501).toList = ['5', '0', '1'] := by decide
  have h0 : (toString 0).toList = ['0'] := by decide
  rw [hardenedText, hardenedText, hardenedText, hardenedText, h44, h501, h0]
  simp [Chain.derivationPath, apostrophe]

lemma keptSegments_solana (i : ℕ) : keptSegments (Chain.solana.derivationPath i).toList =
    [hardenedText 44, hardenedText 501, hardenedText i, hardenedText 0] := by
  have hpiece : ∀ n, (hardenedText n).splitOn '/' = [hardenedText n] := fun n =>
    List.splitOn_eq_singleton (slash_notMem_hardenedText n)
  have hroot : ['m'].splitOn '/' = [['m']] := List.splitOn_eq_singleton (by decide)
  rw [keptSegments, toList_solana, List.splitOn_append_cons_self, List.splitOn_append_cons_self,
    List.splitOn_append_cons_self, List.splitOn_append_cons_self, hroot, hpiece, hpiece, hpiece,
    hpiece]
  simp [hardenedText_kept]

/-- **Solana's path parses to its indices.** -/
lemma parse_solana {i : ℕ} (h : i < 2 ^ 31) :
    parseHardenedPath (Chain.solana.derivationPath i) =
      .ok [hardened 44, hardened 501, hardened i, hardened 0] := by
  rw [parseHardenedPath_eq_ok_iff, keptSegments_solana]
  have hsegment : ∀ n < 2 ^ 31, ∃ m, HardenedSegment (hardenedText n) m ∧ hardened n = hardened m :=
    fun n hn => ⟨n, hardenedSegment_hardenedText hn, rfl⟩
  exact .cons (hsegment 44 (by decide)) (.cons (hsegment 501 (by decide))
    (.cons (hsegment i h) (.cons (hsegment 0 (by decide)) .nil)))

/-- Setting the bit of an index below it adds it. -/
lemma hardened_eq {n : ℕ} (h : n < 2 ^ 31) : hardened n = 2 ^ 31 + n := by
  have hor := Nat.two_pow_add_eq_or_of_lt h 1
  rw [Nat.mul_one] at hor
  rw [hor, Nat.lor_comm]
  rfl

/-- Addresses on Solana are derived along these indices. -/
lemma deriveAddress_solana (keys : SeedKeys) {i : ℕ} (h : i < 2 ^ 31) :
    deriveAddress keys .solana i =
      (keys.ed25519 [hardened 44, hardened 501, hardened i, hardened 0]).map fun address =>
        ⟨.solana, address, Chain.solana.derivationPath i⟩ := by
  have hsmall : ¬ hardenedBit ≤ i := not_le.mpr h
  rw [deriveAddress, if_neg hsmall]
  simp only [bind, Except.bind, parse_solana h]
  cases keys.ed25519 _ <;> rfl

/-! ## Distinct paths -/

/-- A path is that of one chain and one index. -/
lemma derivationPath_injective {chain chain' : Chain} {index index' : ℕ}
    (h : chain.derivationPath index = chain'.derivationPath index') :
    chain = chain' ∧ index = index' := by
  have htext := congrArg String.toList h
  cases chain <;> cases chain' <;> simp [Chain.derivationPath] at htext
  all_goals
    have hindex := congrArg (fun digits => Nat.ofDigitChars 10 digits 0) htext
    simp only [Nat.ofDigitChars_ten_toDigits] at hindex
    exact ⟨rfl, hindex⟩

/-- **Derivation paths.**  No two pairs of chain and index have one path; Solana's parses to the
indices it was written from, and different ones differ; and a text is refused if a segment that is
not empty and not `m` is no hardened number below `2 ^ 31`, and else has one index for each. -/
theorem derivation_paths :
    (∀ (chain chain' : Chain) (index index' : ℕ),
      chain.derivationPath index = chain'.derivationPath index' →
        chain = chain' ∧ index = index') ∧
    (∀ i < 2 ^ 31, parseHardenedPath (Chain.solana.derivationPath i) =
      .ok [hardened 44, hardened 501, hardened i, hardened 0]) ∧
    (∀ i < 2 ^ 31, ∀ j < 2 ^ 31,
      parseHardenedPath (Chain.solana.derivationPath i) =
        parseHardenedPath (Chain.solana.derivationPath j) → i = j) ∧
    ∀ path : String,
      ((∃ segment ∈ keptSegments path.toList, ∀ n, ¬ HardenedSegment segment n) →
        ∃ e, parseHardenedPath path = .error e) ∧
      ((∀ segment ∈ keptSegments path.toList, ∃ n, HardenedSegment segment n) →
        ∃ indices, parseHardenedPath path = .ok indices ∧
          List.Forall₂ (fun segment index => ∃ n, HardenedSegment segment n ∧ index = hardened n)
            (keptSegments path.toList) indices) := by
  refine ⟨fun _ _ _ _ => derivationPath_injective, fun i => parse_solana, fun i hi j hj h => ?_,
    fun path => ⟨fun hbad => ?_, fun hgood => ?_⟩⟩
  · rw [parse_solana hi, parse_solana hj, Except.ok.injEq] at h
    have hindex : hardened i = hardened j := by simpa using h
    rw [hardened_eq hi, hardened_eq hj] at hindex
    omega
  · obtain ⟨segment, hmem, hbad⟩ := hbad
    cases hparse : parseHardenedPath path with
    | error e => exact ⟨e, rfl⟩
    | ok indices =>
        have hall := parseHardenedPath_eq_ok_iff.mp hparse
        obtain ⟨index, n, hsegment, -⟩ := exists_of_forall₂ hall hmem
        exact absurd hsegment (hbad n)
  · have hindex : ∀ segment ∈ keptSegments path.toList,
        ∃ index n, HardenedSegment segment n ∧ index = hardened n := fun segment hmem => by
      obtain ⟨n, hsegment⟩ := hgood segment hmem
      exact ⟨hardened n, n, hsegment, rfl⟩
    obtain ⟨indices, hall⟩ := exists_forall₂ hindex
    exact ⟨indices, parseHardenedPath_eq_ok_iff.mpr hall, hall⟩

end Naivolt
