import Naivolt.Foundation.Delimited

/-!
# Trimmed and expanded texts

`trim space` takes the characters of a class off both ends of a text.  What is not of the class
stays (`mem_trim_iff`, `filter_trim`), and classes that agree on a text trim it alike
(`trim_congr`).

`Expands fixed t u` says that `u` is `t` with some characters kept and every other one replaced
by one or more characters, none of which is of those that are kept.  Expanding keeps the pieces
of a text apart (`Expands.splitOn`).
-/

namespace Foundation.Texts

variable {α : Type*}

/-! ## Trimming -/

section Trim

variable {space space' : α → Bool} {t : List α} {c : α}

/-- The text without the characters of a class at either end. -/
def trim (space : α → Bool) (t : List α) : List α := (t.dropWhile space).rdropWhile space

/-- A trimmed text begins with nothing more to trim. -/
lemma dropWhile_trim (space : α → Bool) (t : List α) :
    (trim space t).dropWhile space = trim space t := by
  unfold trim
  rw [List.dropWhile_eq_self_iff]
  intro hl hp
  have hpre := List.rdropWhile_prefix space (l := t.dropWhile space)
  have hl' : 0 < (t.dropWhile space).length := lt_of_lt_of_le hl hpre.length_le
  rw [hpre.getElem hl] at hp
  exact List.dropWhile_eq_self_iff.mp (List.dropWhile_idempotent space t) hl' hp

lemma rdropWhile_trim (space : α → Bool) (t : List α) :
    (trim space t).rdropWhile space = trim space t :=
  List.rdropWhile_idempotent space _

lemma trim_of_ends (hfirst : t.dropWhile space = t) (hlast : t.rdropWhile space = t) :
    trim space t = t := by
  rw [trim, hfirst, hlast]

/-- Where there is nothing to trim. -/
lemma trim_eq_self (h : ∀ c ∈ t, space c = false) : trim space t = t := by
  have hnone : ∀ c ∈ t, ¬ space c = true := fun c hc => by
    rw [h c hc]
    exact Bool.false_ne_true
  refine trim_of_ends ?_ ?_
  · rw [List.dropWhile_eq_self_iff]
    exact fun hl => hnone _ (List.getElem_mem hl)
  · rw [List.rdropWhile_eq_self_iff]
    exact fun hl => hnone _ (List.getLast_mem hl)

lemma trim_trim (space : α → Bool) (t : List α) : trim space (trim space t) = trim space t :=
  trim_of_ends (dropWhile_trim space t) (rdropWhile_trim space t)

lemma mem_of_mem_trim (h : c ∈ trim space t) : c ∈ t :=
  (List.dropWhile_sublist space).subset ((List.rdropWhile_prefix space _).subset h)

/-- What is not of the class is not trimmed away. -/
lemma filter_trim {p : α → Bool} (hp : ∀ c, p c = true → space c = false) (t : List α) :
    (trim space t).filter p = t.filter p := by
  have hdrop : ∀ l : List α, (l.dropWhile space).filter p = l.filter p := by
    intro l
    have hnone : (l.takeWhile space).filter p = [] := by
      rw [List.filter_eq_nil_iff]
      intro c hc hpc
      have hspace := List.mem_takeWhile_imp hc
      rw [hp c hpc] at hspace
      exact Bool.false_ne_true hspace
    have happend := congrArg (List.filter p) (List.takeWhile_append_dropWhile (p := space)
      (l := l))
    rwa [List.filter_append, hnone, List.nil_append] at happend
  rw [trim, List.rdropWhile, List.filter_reverse, hdrop, List.filter_reverse,
    List.reverse_reverse, hdrop]

lemma mem_trim_iff [DecidableEq α] (hc : space c = false) : c ∈ trim space t ↔ c ∈ t := by
  have h : (trim space t).filter (· == c) = t.filter (· == c) :=
    filter_trim (fun c' hc' => by rwa [beq_iff_eq.mp hc']) t
  have hmem : ∀ l : List α, c ∈ l ↔ c ∈ l.filter (· == c) := fun l => by simp
  rw [hmem, h, ← hmem]

/-- Classes that agree on a text trim it alike. -/
lemma trim_congr (h : ∀ c ∈ t, space c = space' c) : trim space t = trim space' t := by
  have hdrop : ∀ l : List α, (∀ c ∈ l, space c = space' c) →
      l.dropWhile space = l.dropWhile space' := by
    intro l hl
    induction l with
    | nil => rfl
    | cons c l ih =>
        rw [List.dropWhile_cons, List.dropWhile_cons, hl c List.mem_cons_self,
          ih fun d hd => hl d (List.mem_cons_of_mem c hd)]
  have hrest : ∀ c ∈ (t.dropWhile space').reverse, space c = space' c := fun c hc =>
    h c ((List.dropWhile_sublist space').subset (List.mem_reverse.mp hc))
  rw [trim, trim, hdrop t h, List.rdropWhile, List.rdropWhile, hdrop _ hrest]

end Trim

/-! ## Expanding -/

/-- `u` is `t` with every character that is not fixed replaced by one or more such characters. -/
inductive Expands (fixed : α → Prop) : List α → List α → Prop where
  | nil : Expands fixed [] []
  | keep {c : α} {t u : List α} : fixed c → Expands fixed t u → Expands fixed (c :: t) (c :: u)
  | turn {c : α} {t u p : List α} : ¬ fixed c → p ≠ [] → (∀ d ∈ p, ¬ fixed d) →
      Expands fixed t u → Expands fixed (c :: t) (p ++ u)

namespace Expands

variable {fixed : α → Prop} {t u : List α}

lemma eq_nil_iff (h : Expands fixed t u) : u = [] ↔ t = [] := by
  induction h with
  | nil => rfl
  | keep => simp
  | turn _ hp => simp [hp]

/-- The characters that are kept are those of the text. -/
lemma mem_iff (h : Expands fixed t u) {a : α} (ha : fixed a) : a ∈ u ↔ a ∈ t := by
  induction h with
  | nil => rfl
  | keep _ _ ih => simp [ih]
  | @turn c t u p hc _ hp _ ih =>
      have hne : a ≠ c := fun heq => hc (heq ▸ ha)
      have hnew : a ∉ p := fun hmem => hp a hmem ha
      simp [hne, hnew, ih]

/-- An expansion is no shorter. -/
lemma length_le (h : Expands fixed t u) : t.length ≤ u.length := by
  induction h with
  | nil => exact le_rfl
  | keep _ _ ih => simpa using ih
  | turn _ hp _ _ ih =>
      have := List.length_pos_iff.mpr hp
      rw [List.length_cons, List.length_append]
      omega

/-- **The pieces of an expansion are the expansions of the pieces.** -/
lemma splitOn [DecidableEq α] (h : Expands fixed t u) {a : α} (ha : fixed a) :
    List.Forall₂ (Expands fixed) (t.splitOn a) (u.splitOn a) := by
  induction h with
  | nil => exact .cons .nil .nil
  | @keep c t u hc htu ih =>
      rw [List.splitOn_cons_eq_if_modifyHead, List.splitOn_cons_eq_if_modifyHead]
      split
      · exact .cons .nil ih
      · generalize t.splitOn a = ts at ih ⊢
        generalize u.splitOn a = us at ih ⊢
        cases ih with
        | nil => exact .nil
        | cons hhead htail => exact .cons (.keep hc hhead) htail
  | @turn c t u p hc hne hp htu ih =>
      have hca : ¬ (c == a) = true := fun heq => hc (beq_iff_eq.mp heq ▸ ha)
      have hsplit : (p ++ u).splitOn a = (u.splitOn a).modifyHead (p ++ ·) := by
        clear hne
        induction p with
        | nil =>
            rw [List.nil_append]
            cases u.splitOn a <;> rfl
        | cons d p ihp =>
            have hda : ¬ (d == a) = true := fun heq =>
              hp d List.mem_cons_self (beq_iff_eq.mp heq ▸ ha)
            rw [List.cons_append, List.splitOn_cons_eq_if_modifyHead, if_neg hda,
              ihp fun e he => hp e (List.mem_cons_of_mem d he), List.modifyHead_modifyHead]
            rfl
      rw [List.splitOn_cons_eq_if_modifyHead, if_neg hca, hsplit]
      generalize t.splitOn a = ts at ih ⊢
      generalize u.splitOn a = us at ih ⊢
      cases ih with
      | nil => exact .nil
      | cons hhead htail => exact .cons (.turn hc hne hp hhead) htail

end Expands

end Foundation.Texts
