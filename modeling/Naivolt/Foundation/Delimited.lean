import Mathlib

/-!
# Delimited text

A field separated from the rest of a text by a character it does not contain can be read
back.  `split_first` recovers a delimiter-free prefix, `split_last` a delimiter-free suffix;
`suffix_ne` tells texts apart by their ends.

A text is determined by its pieces, `List.splitOn` at the delimiter.  `splitOn_inj`,
`prefix_iff_pieces`, `suffix_iff_pieces` and `last_piece_iff` turn comparisons of texts into
comparisons of their pieces, and `splitOnP_map` splits the image of a text.
-/

namespace Foundation.Delimited

variable {α : Type*} {c : α}

/-- A prefix without the delimiter is determined by the whole text. -/
lemma split_first {a a' b b' : List α} (ha : c ∉ a) (ha' : c ∉ a')
    (h : a ++ c :: b = a' ++ c :: b') : a = a' ∧ b = b' := by
  induction a generalizing a' with
  | nil =>
      cases a' with
      | nil => simpa using h
      | cons x a' =>
          have hx : c = x := (List.cons.inj h).1
          exact absurd (hx ▸ List.mem_cons_self) ha'
  | cons x a ih =>
      cases a' with
      | nil =>
          have hx : x = c := (List.cons.inj h).1
          exact absurd (hx ▸ List.mem_cons_self) ha
      | cons y a' =>
          obtain ⟨rfl, htail⟩ := List.cons.inj h
          obtain ⟨rfl, hb⟩ := ih (fun hm => ha (List.mem_cons_of_mem _ hm))
            (fun hm => ha' (List.mem_cons_of_mem _ hm)) htail
          exact ⟨rfl, hb⟩

/-- A suffix without the delimiter is determined by the whole text. -/
lemma split_last {a a' b b' : List α} (hb : c ∉ b) (hb' : c ∉ b')
    (h : a ++ c :: b = a' ++ c :: b') : a = a' ∧ b = b' := by
  have hrev : b.reverse ++ c :: a.reverse = b'.reverse ++ c :: a'.reverse := by
    simpa using congrArg List.reverse h
  obtain ⟨h₁, h₂⟩ := split_first (by simpa using hb) (by simpa using hb') hrev
  exact ⟨List.reverse_injective h₂, List.reverse_injective h₁⟩

/-- Texts with different suffixes of one length differ. -/
lemma suffix_ne {q q' a b : List α} (hlen : q.length = q'.length) (hne : q ≠ q') :
    a ++ q ≠ b ++ q' :=
  fun h => hne (List.append_inj_right' h hlen)

variable [DecidableEq α]

/-- A text in two at the first delimiter. -/
lemma split_at_first_iff {t a b : List α} :
    (if c ∈ t then some (t.takeWhile (· ≠ c), (t.dropWhile (· ≠ c)).tail) else none) =
      some (a, b) ↔ t = a ++ c :: b ∧ c ∉ a := by
  constructor
  · intro h
    rw [Option.ite_none_right_eq_some, Option.some.injEq, Prod.mk.injEq] at h
    obtain ⟨hmem, rfl, rfl⟩ := h
    have hne : t.dropWhile (· ≠ c) ≠ [] := by
      rw [Ne, List.dropWhile_eq_nil_iff]
      exact fun hall => by simpa using hall _ hmem
    have hfirst : (t.dropWhile (· ≠ c)).head hne = c := by
      have h := List.head_dropWhile_not (· ≠ c) hne
      simpa using h
    refine ⟨?_, fun h => ?_⟩
    · conv_lhs => rw [← List.takeWhile_append_dropWhile (p := (· ≠ c)) (l := t)]
      rw [← List.cons_head_tail hne, hfirst]
      rfl
    · simpa using List.mem_takeWhile_imp h
  · rintro ⟨rfl, ha⟩
    have hall : ∀ x ∈ a, (decide (x ≠ c)) = true := fun x hx =>
      decide_eq_true (ne_of_mem_of_not_mem hx ha)
    rw [if_pos (by simp), List.takeWhile_append_of_pos hall, List.dropWhile_append_of_pos hall]
    simp

/-! ## Pieces -/

/-- No piece contains the delimiter. -/
lemma notMem_of_mem_splitOn {s l : List α} (h : l ∈ s.splitOn c) : c ∉ l := by
  induction s generalizing l with
  | nil =>
      rw [List.splitOn_nil, List.mem_singleton] at h
      exact h ▸ List.not_mem_nil
  | cons x s ih =>
      rw [List.splitOn_cons_eq_if_modifyHead] at h
      split at h
      · rcases List.mem_cons.mp h with rfl | h
        · exact List.not_mem_nil
        · exact ih h
      · rename_i hx
        rcases hs : s.splitOn c with _ | ⟨p, ps⟩
        · exact absurd hs (List.splitOn_ne_nil c s)
        · rw [hs, List.modifyHead_cons] at h
          rcases List.mem_cons.mp h with rfl | h
          · have hne : c ≠ x := fun heq => hx (by simp [heq])
            exact List.not_mem_cons_of_ne_of_not_mem hne (ih (hs ▸ List.mem_cons_self))
          · exact ih (hs ▸ List.mem_cons_of_mem _ h)

variable (c) in
lemma splitOn_inj {s t : List α} : s.splitOn c = t.splitOn c ↔ s = t := by
  refine ⟨fun h => ?_, congrArg _⟩
  have hs : [c].intercalate (s.splitOn c) = s := List.intercalate_splitOn c
  rw [← hs, h, List.intercalate_splitOn]

/-- Pieces put after those of `p` are the pieces of a text that continues `p`. -/
lemma exists_of_splitOn_eq {s p : List α} {rest : List (List α)} (hrest : rest ≠ [])
    (h : s.splitOn c = p.splitOn c ++ rest) : ∃ t, s = p ++ c :: t ∧ t.splitOn c = rest := by
  have hpieces : ([c].intercalate rest).splitOn c = rest :=
    List.splitOn_intercalate c (fun l hl =>
      notMem_of_mem_splitOn (h ▸ List.mem_append_right _ hl)) hrest
  refine ⟨[c].intercalate rest, (splitOn_inj c).mp ?_, hpieces⟩
  rw [h, List.splitOn_append_cons_self, hpieces]

/-- A text begins with `p` and a delimiter when its pieces begin with those of `p`, and go on. -/
lemma prefix_iff_pieces {s p : List α} :
    p ++ [c] <+: s ↔ ∃ rest, rest ≠ [] ∧ s.splitOn c = p.splitOn c ++ rest := by
  constructor
  · rintro ⟨t, rfl⟩
    refine ⟨t.splitOn c, List.splitOn_ne_nil c t, ?_⟩
    rw [List.append_assoc, List.singleton_append, List.splitOn_append_cons_self]
  · rintro ⟨rest, hrest, h⟩
    obtain ⟨t, rfl, -⟩ := exists_of_splitOn_eq hrest h
    exact ⟨t, by simp⟩

/-- A text ends with a delimiter and `p`, a single piece, when that is its last piece and not its
only one. -/
lemma suffix_iff_pieces {s p : List α} (hp : c ∉ p) :
    c :: p <:+ s ↔ ∃ front, front ≠ [] ∧ s.splitOn c = front ++ [p] := by
  constructor
  · rintro ⟨t, rfl⟩
    refine ⟨t.splitOn c, List.splitOn_ne_nil c t, ?_⟩
    rw [List.splitOn_append_cons_self, List.splitOn_eq_singleton hp]
  · rintro ⟨front, hfront, h⟩
    have hpieces : ([c].intercalate front).splitOn c = front :=
      List.splitOn_intercalate c (fun l hl =>
        notMem_of_mem_splitOn (h ▸ List.mem_append_left _ hl)) hfront
    obtain ⟨t, rfl, ht⟩ := exists_of_splitOn_eq (List.cons_ne_nil p []) (hpieces.symm ▸ h)
    have htp : t = p := (splitOn_inj c).mp (ht.trans (List.splitOn_eq_singleton hp).symm)
    exact ⟨[c].intercalate front, by rw [htp]⟩

/-- What follows `p` and a delimiter is a single piece. -/
lemma last_piece_iff {s p t : List α} :
    (s = p ++ c :: t ∧ c ∉ t) ↔ s.splitOn c = p.splitOn c ++ [t] := by
  constructor
  · rintro ⟨rfl, ht⟩
    rw [List.splitOn_append_cons_self, List.splitOn_eq_singleton ht]
  · intro h
    have ht : c ∉ t := notMem_of_mem_splitOn (s := s) (h ▸ by simp)
    obtain ⟨t', rfl, ht'⟩ := exists_of_splitOn_eq (List.cons_ne_nil t []) h
    have heq : t' = t := (splitOn_inj c).mp (ht'.trans (List.splitOn_eq_singleton ht).symm)
    exact ⟨by rw [heq], ht⟩

omit [DecidableEq α] in
/-- A joined text consists of its pieces and the delimiters. -/
lemma mem_of_mem_intercalate {x : α} {pieces : List (List α)}
    (h : x ∈ [c].intercalate pieces) : x = c ∨ ∃ l ∈ pieces, x ∈ l := by
  induction pieces with
  | nil => simp at h
  | cons l rest ih =>
      cases rest with
      | nil =>
          rw [List.intercalate_singleton] at h
          exact .inr ⟨l, List.mem_cons_self, h⟩
      | cons l' rest =>
          rw [List.intercalate_cons_cons, List.append_assoc] at h
          rcases List.mem_append.mp h with h | h
          · exact .inr ⟨l, List.mem_cons_self, h⟩
          · rcases List.mem_cons.mp h with rfl | h
            · exact .inl rfl
            · exact (ih h).imp_right fun ⟨p, hp, hx⟩ => ⟨p, List.mem_cons_of_mem _ hp, hx⟩

omit [DecidableEq α] in
lemma subset_intercalate {l : List α} {pieces : List (List α)} (h : l ∈ pieces) :
    l ⊆ [c].intercalate pieces := by
  induction pieces with
  | nil => cases h
  | cons l' rest ih =>
      rcases List.mem_cons.mp h with rfl | h
      · by_cases hne : rest = []
        · rw [hne, List.intercalate_singleton]
          exact List.Subset.refl _
        · rw [List.intercalate_cons_of_ne_nil hne, List.append_assoc]
          exact List.subset_append_left _ _
      · have hne : rest ≠ [] := List.ne_nil_of_mem h
        rw [List.intercalate_cons_of_ne_nil hne]
        exact fun x hx => List.mem_append_right _ (ih h hx)

/-! ## Pieces under a map -/

omit [DecidableEq α] in
/-- Splitting where the image is a delimiter. -/
lemma splitOnP_map {β : Type*} (f : α → β) (p : β → Bool) (l : List α) :
    (l.map f).splitOnP p = (l.splitOnP (p ∘ f)).map (List.map f) := by
  induction l with
  | nil => rfl
  | cons x l ih =>
      rw [List.map_cons, List.splitOnP_cons_eq_if_modifyHead, List.splitOnP_cons_eq_if_modifyHead,
        ih]
      by_cases hx : p (f x) = true
      · rw [if_pos hx, if_pos (by exact hx)]
        rfl
      · rw [if_neg hx, if_neg (by exact hx)]
        obtain ⟨a, as, hpieces⟩ := List.exists_cons_of_ne_nil (List.splitOnP_ne_nil (p ∘ f) l)
        rw [hpieces]
        rfl

omit [DecidableEq α] in
/-- A piece that is not empty is left of every text with something else than delimiters. -/
lemma exists_piece {p : α → Bool} {l : List α} {x : α} (hx : x ∈ l) (hp : p x = false) :
    0 < ((l.splitOnP p).filter (· ≠ [])).length := by
  induction l with
  | nil => cases hx
  | cons y l ih =>
      rw [List.splitOnP_cons_eq_if_modifyHead]
      by_cases hy : p y = true
      · have hne : x ≠ y := fun heq => by
          rw [heq, hy] at hp
          cases hp
        rw [if_pos hy]
        simpa using ih ((List.mem_cons.mp hx).resolve_left hne)
      · rw [if_neg hy]
        obtain ⟨a, as, hpieces⟩ := List.exists_cons_of_ne_nil (List.splitOnP_ne_nil p l)
        rw [hpieces]
        simp

end Foundation.Delimited
