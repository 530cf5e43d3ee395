import Naivolt.Core

/-!
# What an audit row says of before and after

The JSON objects of the audit log's `before` and `after`: the text `serde_json` writes of them,
which is what is hashed, and the form in which a `JSONB` column keeps them, which is what can be
read back.  Without its `preserve_order` feature `serde_json` writes keys in ascending order;
`JSONB` keeps the shorter keys first and writes spaces, so the text of the column itself is not
the text that was hashed.  Read back as a value it is: `readBack_jsonb`.

The fields of a hashed text have no separators between them.  An object's text needs none
(`jsonText_append_inj`): its closing brace can be found without looking further.
-/

namespace Naivolt

/-! ## Objects with ordered keys -/

section Keys

variable {V : Type}

/-- The keys ascend. -/
def Ascending (l : List (String × V)) : Prop := l.Pairwise fun a b => a.1 < b.1

instance (l : List (String × V)) : Decidable (Ascending l) := by
  unfold Ascending
  infer_instance

/-- The order of a `BTreeMap`. -/
def byKey (l : List (String × V)) : List (String × V) := l.insertionSort fun a b => a.1 ≤ b.1

/-- The order in which `JSONB` keeps keys: the shorter first, those of one length ascending. -/
def byLength (l : List (String × V)) : List (String × V) :=
  l.insertionSort fun a b => a.1.utf8ByteSize < b.1.utf8ByteSize ∨
    (a.1.utf8ByteSize = b.1.utf8ByteSize ∧ a.1 ≤ b.1)

/-- `BTreeMap::insert`. -/
def putKey (k : String) (v : V) : List (String × V) → List (String × V)
  | [] => [(k, v)]
  | (k', v') :: rest =>
      if k < k' then (k, v) :: (k', v') :: rest
      else if k = k' then (k, v) :: rest
      else (k', v') :: putKey k v rest

lemma Ascending.eq_of_key {l : List (String × V)} (h : Ascending l) {a b : String × V}
    (ha : a ∈ l) (hb : b ∈ l) (hk : a.1 = b.1) : a = b := by
  induction l with
  | nil => cases ha
  | cons c rest ih =>
      obtain ⟨hc, hrest⟩ := List.pairwise_cons.mp h
      rcases List.mem_cons.mp ha with hac | ha' <;> rcases List.mem_cons.mp hb with hbc | hb'
      · rw [hac, hbc]
      · exact absurd (hac ▸ hk) (ne_of_lt (hc b hb'))
      · exact absurd (hbc ▸ hk.symm) (ne_of_lt (hc a ha'))
      · exact ih hrest ha' hb'

lemma mem_putKey {k : String} {v : V} {l : List (String × V)} {a : String × V}
    (h : a ∈ putKey k v l) : a = (k, v) ∨ a ∈ l := by
  induction l with
  | nil => exact .inl (List.mem_singleton.mp h)
  | cons b rest ih =>
      simp only [putKey] at h
      split at h
      · exact (List.mem_cons.mp h)
      · split at h
        · exact (List.mem_cons.mp h).imp_right (List.mem_cons_of_mem _)
        · rcases List.mem_cons.mp h with rfl | h
          · exact .inr List.mem_cons_self
          · exact (ih h).imp_right (List.mem_cons_of_mem _)

lemma mem_putKey_self (k : String) (v : V) (l : List (String × V)) : (k, v) ∈ putKey k v l := by
  induction l with
  | nil => exact List.mem_singleton.mpr rfl
  | cons a rest ih =>
      simp only [putKey]
      split_ifs
      · exact List.mem_cons_self
      · exact List.mem_cons_self
      · exact List.mem_cons_of_mem _ ih

/-- Writing one key leaves the others. -/
lemma mem_putKey_of_ne {k : String} {v : V} {l : List (String × V)} {a : String × V}
    (ha : a ∈ l) (hne : a.1 ≠ k) : a ∈ putKey k v l := by
  induction l with
  | nil => cases ha
  | cons b rest ih =>
      simp only [putKey]
      split_ifs with hlt heq
      · exact List.mem_cons_of_mem _ ha
      · rcases List.mem_cons.mp ha with rfl | ha
        · exact absurd heq.symm hne
        · exact List.mem_cons_of_mem _ ha
      · rcases List.mem_cons.mp ha with rfl | ha
        · exact List.mem_cons_self
        · exact List.mem_cons_of_mem _ (ih ha)

lemma Ascending.putKey {l : List (String × V)} (h : Ascending l) (k : String) (v : V) :
    Ascending (putKey k v l) := by
  induction l with
  | nil => exact List.pairwise_singleton _ _
  | cons b rest ih =>
      obtain ⟨hb, hrest⟩ := List.pairwise_cons.mp h
      simp only [Naivolt.putKey]
      split
      · rename_i hlt
        refine List.pairwise_cons.mpr ⟨fun a ha => ?_, h⟩
        rcases List.mem_cons.mp ha with rfl | ha
        · exact hlt
        · exact hlt.trans (hb a ha)
      · rename_i hge
        split
        · rename_i heq
          exact List.pairwise_cons.mpr ⟨fun a ha => heq ▸ hb a ha, hrest⟩
        · rename_i hne
          refine List.pairwise_cons.mpr ⟨fun a ha => ?_, ih hrest⟩
          rcases mem_putKey ha with rfl | ha
          · exact lt_of_le_of_ne (not_lt.mp hge) (Ne.symm hne)
          · exact hb a ha

/-- Whatever order the keys were kept in, reading them into a `BTreeMap` restores theirs. -/
lemma byKey_perm {l l' : List (String × V)} (h : Ascending l) (hp : l'.Perm l) : byKey l' = l := by
  have hsorted : (byKey l').Pairwise fun a b => a.1 ≤ b.1 := by
    have : Std.Total fun a b : String × V => a.1 ≤ b.1 := ⟨fun a b => le_total a.1 b.1⟩
    have : IsTrans (String × V) fun a b => a.1 ≤ b.1 := ⟨fun _ _ _ => le_trans⟩
    exact List.pairwise_insertionSort _ _
  have hperm : (byKey l').Perm l := (List.perm_insertionSort _ _).trans hp
  refine List.Perm.eq_of_pairwise (fun a b ha hb hab hba => ?_) hsorted
    (h.imp fun h => le_of_lt h) hperm
  exact h.eq_of_key (hperm.subset ha) hb (le_antisymm hab hba)

end Keys

/-! ## Values -/

/-- The JSON values that the audit rows hold. -/
inductive AuditValue where
  | null
  | flag (b : Bool)
  | text (s : String)
  | flags (fields : List (String × Bool))
  deriving DecidableEq

namespace AuditValue

/-- Reorder the keys of an object. -/
def reorder (f : List (String × Bool) → List (String × Bool)) : AuditValue → AuditValue
  | .flags fields => .flags (f fields)
  | v => v

/-- Objects in the order of a `BTreeMap`. -/
def Canonical : AuditValue → Prop
  | .flags fields => Ascending fields
  | _ => True

instance (v : AuditValue) : Decidable v.Canonical := by
  cases v <;> unfold Canonical <;> infer_instance

end AuditValue

/-- `serde_json::Value`: an object, whose keys ascend. -/
structure Snapshot where
  fields : List (String × AuditValue)
  ascending : Ascending fields
  canonical : ∀ f ∈ fields, f.2.Canonical

/-- The object as a `JSONB` column keeps it. -/
abbrev Jsonb := List (String × AuditValue)

def Snapshot.jsonb (s : Snapshot) : Jsonb :=
  byLength (s.fields.map fun f => (f.1, f.2.reorder byLength))

/-- The fields of a `JSONB` column, read as a `serde_json::Value`. -/
def readBack (stored : Jsonb) : List (String × AuditValue) :=
  byKey (stored.map fun f => (f.1, f.2.reorder byKey))

/-- **What was stored is read back.** -/
lemma readBack_jsonb (s : Snapshot) : readBack s.jsonb = s.fields := by
  refine byKey_perm s.ascending ?_
  refine ((List.perm_insertionSort _ _).map _).trans ?_
  rw [List.map_map]
  refine (List.map_congr_left (g := id) fun f hf => ?_).trans (List.map_id _) ▸ .refl _
  obtain ⟨k, v⟩ := f
  have hv := s.canonical _ hf
  cases v with
  | flags fields =>
      have hread : byKey (byLength fields) = fields :=
        byKey_perm hv (List.perm_insertionSort _ _)
      simp [AuditValue.reorder, hread]
  | _ => rfl

/-- `Map::insert` of a text. -/
def Snapshot.insertText (s : Snapshot) (key value : String) : Snapshot where
  fields := putKey key (.text value) s.fields
  ascending := s.ascending.putKey _ _
  canonical f hf := by
    rcases mem_putKey hf with rfl | hf
    · trivial
    · exact s.canonical f hf

/-! ## Compact text -/

/-- The quotation mark. -/
def quoteMark : Char := Char.ofNat 34
def backslash : Char := Char.ofNat 92
def openBrace : Char := Char.ofNat 123
def closeBrace : Char := Char.ofNat 125

/-- How `serde_json` writes a character of a string. -/
def escapeChar (c : Char) : List Char :=
  if c = quoteMark ∨ c = backslash then [backslash, c]
  else if c.toNat = 8 then [backslash, 'b']
  else if c.toNat = 9 then [backslash, 't']
  else if c.toNat = 10 then [backslash, 'n']
  else if c.toNat = 12 then [backslash, 'f']
  else if c.toNat = 13 then [backslash, 'r']
  else if c.toNat < 32 then
    [backslash, 'u', '0', '0', hexDigit (c.toNat / 16), hexDigit (c.toNat % 16)]
  else [c]

/-- A string. -/
def quoted (s : String) : List Char :=
  quoteMark :: (s.toList.flatMap escapeChar ++ [quoteMark])

/-- The fields of an object. -/
def membersText {V : Type} (valueText : V → List Char) : List (String × V) → List Char
  | [] => []
  | (k, v) :: rest =>
      quoted k ++ ':' :: (valueText v ++
        (if rest.isEmpty then [] else ',' :: membersText valueText rest))

/-- An object. -/
def objectText {V : Type} (valueText : V → List Char) (fields : List (String × V)) : List Char :=
  openBrace :: (membersText valueText fields ++ [closeBrace])

def flagText (b : Bool) : List Char := (if b then "true" else "false").toList

def AuditValue.toText : AuditValue → List Char
  | .null => "null".toList
  | .flag b => flagText b
  | .text s => quoted s
  | .flags fields => objectText flagText fields

/-- `Value::to_string`. -/
def jsonText (fields : List (String × AuditValue)) : List Char :=
  objectText AuditValue.toText fields

/-! ## Where an object ends -/

/-- Within a string or not, or after a backslash in one. -/
inductive Lexing where
  | plain | inString | escaped

/-- What is left of a text after the object that is open to depth `depth`. -/
def skipObject : ℕ → Lexing → List Char → List Char
  | _, _, [] => []
  | depth, .escaped, _ :: cs => skipObject depth .inString cs
  | depth, .inString, c :: cs =>
      if c = backslash then skipObject depth .escaped cs
      else if c = quoteMark then skipObject depth .plain cs
      else skipObject depth .inString cs
  | depth, .plain, c :: cs =>
      if c = quoteMark then skipObject depth .inString cs
      else if c = openBrace then skipObject (depth + 1) .plain cs
      else if c = closeBrace then if depth ≤ 1 then cs else skipObject (depth - 1) .plain cs
      else skipObject depth .plain cs

section Skip

variable {depth : ℕ} {x : List Char}

lemma skip_inString {w : List Char} (hw : ∀ c ∈ w, c ≠ backslash ∧ c ≠ quoteMark) :
    skipObject depth .inString (w ++ x) = skipObject depth .inString x := by
  induction w with
  | nil => rfl
  | cons c w ih =>
      obtain ⟨hb, hq⟩ := hw c List.mem_cons_self
      simp only [List.cons_append, skipObject, hb, hq, if_false]
      exact ih fun c hc => hw c (List.mem_cons_of_mem _ hc)

/-- Outside a string this opens or closes nothing. -/
def ordinary (c : Char) : Bool := c ≠ quoteMark && c ≠ openBrace && c ≠ closeBrace

lemma skip_plain {w : List Char} (hw : w.all ordinary = true) :
    skipObject depth .plain (w ++ x) = skipObject depth .plain x := by
  induction w with
  | nil => rfl
  | cons c w ih =>
      simp only [List.all_cons, ordinary, Bool.and_eq_true, decide_eq_true_eq] at hw
      obtain ⟨⟨⟨hq, ho⟩, hc⟩, hw⟩ := hw
      simp only [List.cons_append, skipObject, hq, ho, hc, if_false]
      exact ih hw

lemma hexDigit_ordinary : ∀ n < 16, hexDigit n ≠ backslash ∧ hexDigit n ≠ quoteMark := by decide

lemma skip_escapeChar (c : Char) :
    skipObject depth .inString (escapeChar c ++ x) = skipObject depth .inString x := by
  have hbackslash : ∀ c' w, skipObject depth .inString (backslash :: c' :: w) =
      skipObject depth .inString w := fun c' w => by simp [skipObject]
  unfold escapeChar
  split_ifs with h
  all_goals try exact hbackslash _ _
  · rename_i hlt
    simp only [List.cons_append, hbackslash]
    refine skip_inString (w := ['0', '0', hexDigit (c.toNat / 16), hexDigit (c.toNat % 16)])
      fun a ha => ?_
    simp only [List.mem_cons, List.not_mem_nil, or_false] at ha
    rcases ha with rfl | rfl | rfl | rfl
    · decide
    · decide
    · exact hexDigit_ordinary _ (by omega)
    · exact hexDigit_ordinary _ (by omega)
  · refine skip_inString (w := [c]) fun a ha => ?_
    cases List.mem_singleton.mp ha
    exact ⟨fun hc => h (.inr hc), fun hc => h (.inl hc)⟩

lemma skip_quoted (s : String) :
    skipObject depth .plain (quoted s ++ x) = skipObject depth .plain x := by
  have hchars : ∀ w : List Char, skipObject depth .inString (w.flatMap escapeChar ++
      (quoteMark :: x)) = skipObject depth .plain x := by
    intro w
    induction w with
    | nil => simp [skipObject, show quoteMark ≠ backslash by decide]
    | cons c w ih => rw [List.flatMap_cons, List.append_assoc, skip_escapeChar, ih]
  simp only [quoted, List.cons_append, List.append_assoc, List.nil_append, skipObject, if_true]
  exact hchars _

lemma skip_members {V : Type} {valueText : V → List Char}
    (hv : ∀ v x, skipObject depth .plain (valueText v ++ x) = skipObject depth .plain x)
    (fields : List (String × V)) :
    skipObject depth .plain (membersText valueText fields ++ x) = skipObject depth .plain x := by
  have hmark : ∀ c w, c = ':' ∨ c = ',' →
      skipObject depth .plain (c :: w) = skipObject depth .plain w := by
    rintro c w (rfl | rfl)
    · exact skip_plain (w := [':']) (by decide)
    · exact skip_plain (w := [',']) (by decide)
  induction fields with
  | nil => rfl
  | cons f rest ih =>
      obtain ⟨k, v⟩ := f
      simp only [membersText, List.append_assoc, List.cons_append]
      rw [skip_quoted, hmark _ _ (.inl rfl), hv]
      split
      · rfl
      · rw [List.cons_append, hmark _ _ (.inr rfl), ih]

lemma skip_object {V : Type} {valueText : V → List Char}
    (hv : ∀ v x, skipObject (depth + 1) .plain (valueText v ++ x) =
      skipObject (depth + 1) .plain x) (fields : List (String × V)) :
    skipObject depth .plain (objectText valueText fields ++ x) =
      if depth = 0 then x else skipObject depth .plain x := by
  have hne : openBrace ≠ quoteMark ∧ closeBrace ≠ quoteMark ∧ closeBrace ≠ openBrace := by decide
  simp only [objectText, List.cons_append, List.append_assoc, List.nil_append, skipObject, hne.1,
    if_false, if_true]
  rw [skip_members hv]
  simp only [skipObject, hne.2.1, hne.2.2, if_false, if_true, Nat.add_sub_cancel]
  rcases depth with _ | depth
  · simp
  · simp

lemma skip_flagText (b : Bool) :
    skipObject depth .plain (flagText b ++ x) = skipObject depth .plain x := by
  cases b
  · exact skip_plain (w := "false".toList) (by decide)
  · exact skip_plain (w := "true".toList) (by decide)

lemma skip_value (v : AuditValue) (hd : depth ≠ 0) :
    skipObject depth .plain (v.toText ++ x) = skipObject depth .plain x := by
  cases v with
  | null => exact skip_plain (w := "null".toList) (by decide)
  | flag b => exact skip_flagText b
  | text s => exact skip_quoted s
  | flags fields =>
      exact (skip_object (fun b x => skip_flagText b) fields).trans (if_neg hd)

end Skip

/-- **An object's text shows where it ends.** -/
theorem jsonText_append_inj {f f' : List (String × AuditValue)} {x x' : List Char}
    (h : jsonText f ++ x = jsonText f' ++ x') : jsonText f = jsonText f' ∧ x = x' := by
  have hskip : ∀ (g : List (String × AuditValue)) y, skipObject 0 .plain (jsonText g ++ y) = y :=
    fun g y => (skip_object (fun v z => skip_value v (Nat.succ_ne_zero 0)) g).trans (if_pos rfl)
  have hx : x = x' := by rw [← hskip f x, h, hskip]
  subst hx
  exact ⟨List.append_cancel_right h, rfl⟩

end Naivolt
