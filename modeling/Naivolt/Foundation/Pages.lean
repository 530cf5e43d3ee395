import Mathlib.Data.List.Basic
import Mathlib.Data.List.Perm.Basic
import Mathlib.Data.List.Sort

/-!
# The first rows of a sorted table

`FirstRows le n rows page` says what `ORDER BY … LIMIT n` promises: the page is in order, no row
left out comes before one of the page, and rows are left out only when the page is full.  Rows
that the order does not tell apart come as they come.

Pages of several tables that are sorted together begin with the first rows of all the tables
(`FirstRows.merge`), whatever further rows the tables hold.
-/

namespace Foundation

variable {α β : Type} {le : α → α → Prop}

/-- The page holds the first `n` of the rows. -/
structure FirstRows (le : α → α → Prop) (n : ℕ) (rows page : List α) : Prop where
  sorted : page.Pairwise le
  length_le : page.length ≤ n
  left : ∃ rest, (page ++ rest).Perm rows ∧ (∀ x ∈ page, ∀ y ∈ rest, le x y) ∧
    (rest ≠ [] → page.length = n)

namespace FirstRows

variable {n : ℕ} {rows rows' page page' : List α}

lemma mem (h : FirstRows le n rows page) {x : α} (hx : x ∈ page) : x ∈ rows := by
  obtain ⟨rest, hperm, -⟩ := h.left
  exact hperm.mem_iff.mp (List.mem_append_left rest hx)

/-- A row left out comes after a full page. -/
lemma full (h : FirstRows le n rows page) {y : α} (hy : y ∈ rows) (hout : y ∉ page) :
    page.length = n ∧ ∀ x ∈ page, le x y := by
  obtain ⟨rest, hperm, hafter, hlength⟩ := h.left
  have hrest : y ∈ rest :=
    (List.mem_append.mp (hperm.mem_iff.mpr hy)).resolve_left hout
  exact ⟨hlength (List.ne_nil_of_mem hrest), fun x hx => hafter x hx y hrest⟩

/-- A table that fits is its own page. -/
lemma of_fits (hperm : page.Perm rows) (hsorted : page.Pairwise le) (hfits : rows.length ≤ n) :
    FirstRows le n rows page where
  sorted := hsorted
  length_le := hperm.length_eq.trans_le hfits
  left := ⟨[], by rwa [List.append_nil], fun _ _ _ hy => absurd hy List.not_mem_nil,
    fun h => absurd rfl h⟩

/-- Rows are shown as they are ordered. -/
lemma map {le' : β → β → Prop} (f : α → β) (hf : ∀ x y, le x y → le' (f x) (f y))
    (h : FirstRows le n rows page) : FirstRows le' n (rows.map f) (page.map f) where
  sorted := h.sorted.map f hf
  length_le := by
    rw [List.length_map]
    exact h.length_le
  left := by
    obtain ⟨rest, hperm, hafter, hlength⟩ := h.left
    refine ⟨rest.map f, ?_, ?_, ?_⟩
    · rw [← List.map_append]
      exact hperm.map f
    · simp only [List.mem_map, forall_exists_index, and_imp, forall_apply_eq_imp_iff₂]
      exact fun x hx y hy => hf x y (hafter x hx y hy)
    · rw [List.length_map, ne_eq, List.map_eq_nil_iff]
      exact hlength

end FirstRows

/-- The rows up to one that a downward closed property leaves out are all there are of it. -/
lemma length_filter_lt {p : α → Bool} (hdown : ∀ x y, le x y → p y = true → p x = true)
    {l : List α} (hsorted : l.Pairwise le) {n : ℕ} {x : α} (hx : x ∈ l.take n)
    (hout : p x = false) : (l.filter p).length < n := by
  induction l generalizing n with
  | nil => simp at hx
  | cons z l ih =>
      rcases n with _ | n
      · simp at hx
      · obtain ⟨hfirst, hsorted⟩ := List.pairwise_cons.mp hsorted
        by_cases hz : p z = true
        · rw [List.filter_cons_of_pos hz, List.length_cons]
          rw [List.take_succ_cons, List.mem_cons] at hx
          rcases hx with rfl | hx
          · rw [hz] at hout
            cases hout
          · exact Nat.succ_lt_succ (ih hsorted hx)
        · have hnone : (z :: l).filter p = [] := by
            rw [List.filter_eq_nil_iff]
            intro y hy
            rcases List.mem_cons.mp hy with rfl | hy
            · exact hz
            · exact fun hpy => hz (hdown z y (hfirst y hy) hpy)
          rw [hnone]
          exact Nat.succ_pos n

section Merge

variable {n : ℕ} {rows rows' page page' merged : List α}

/-- A row left out of one page comes after the first of the merged rows. -/
lemma le_of_left (htrans : ∀ x y z, le x y → le y z → le x z) {rest : List α}
    (hafter : ∀ x ∈ page, ∀ y ∈ rest, le x y) (hlength : rest ≠ [] → page.length = n)
    (hsub : List.Subperm page merged) (hsorted : merged.Pairwise le) {x y : α}
    (hx : x ∈ merged.take n) (hy : y ∈ rest) : le x y := by
  classical
  by_contra hxy
  -- The rows that come before `y` are all before `x`, and the page alone has `n` of them.
  have hlt : (merged.filter fun z => le z y).length < n :=
    length_filter_lt (fun u v huv hv => by
      rw [decide_eq_true_eq] at hv ⊢
      exact htrans u v y huv hv) hsorted hx (decide_eq_false hxy)
  have hpage : page.filter (fun z => le z y) = page :=
    List.filter_eq_self.mpr fun z hz => decide_eq_true (hafter z hz y hy)
  have hle := (hsub.filter fun z => le z y).length_le
  rw [hpage, hlength (List.ne_nil_of_mem hy)] at hle
  omega

/-- **Pages sorted together begin with the first rows of all tables.** -/
lemma FirstRows.merge (htrans : ∀ x y z, le x y → le y z → le x z)
    (h : FirstRows le n rows page) (h' : FirstRows le n rows' page')
    (hperm : merged.Perm (page ++ page')) (hsorted : merged.Pairwise le) :
    FirstRows le n (rows ++ rows') (merged.take n) where
  sorted := hsorted.sublist (List.take_sublist n merged)
  length_le := by
    rw [List.length_take]
    exact Nat.min_le_left ..
  left := by
    have hlength : merged.length = page.length + page'.length := by
      rw [hperm.length_eq, List.length_append]
    have hsub : List.Subperm page merged :=
      ((List.sublist_append_left page page').subperm).trans hperm.symm.subperm
    have hsub' : List.Subperm page' merged :=
      ((List.sublist_append_right page page').subperm).trans hperm.symm.subperm
    obtain ⟨rest, hrows, hafter, hfull⟩ := h.left
    obtain ⟨rest', hrows', hafter', hfull'⟩ := h'.left
    refine ⟨merged.drop n ++ (rest ++ rest'), ?_, fun x hx y hy => ?_, fun hne => ?_⟩
    · rw [← List.append_assoc, List.take_append_drop]
      have hsplit : ((page ++ page') ++ (rest ++ rest')).Perm
          ((page ++ rest) ++ (page' ++ rest')) := by
        simp only [List.append_assoc]
        refine List.Perm.append_left page ?_
        rw [← List.append_assoc, ← List.append_assoc]
        exact List.perm_append_comm.append_right rest'
      exact (hperm.append_right _).trans (hsplit.trans (hrows.append hrows'))
    · rcases List.mem_append.mp hy with hy | hy
      · rw [← List.take_append_drop n merged] at hsorted
        exact (List.pairwise_append.mp hsorted).2.2 x hx y hy
      · rcases List.mem_append.mp hy with hy | hy
        · exact le_of_left htrans hafter hfull hsub hsorted hx hy
        · exact le_of_left htrans hafter' hfull' hsub' hsorted hx hy
    · rw [List.length_take]
      have hle := h.length_le
      simp only [ne_eq, List.append_eq_nil_iff, not_and_or] at hne
      rcases hne with hne | hne | hne
      · have := List.length_pos_iff.mpr hne
        rw [List.length_drop] at this
        omega
      · have := hfull hne
        omega
      · have := hfull' hne
        omega

end Merge

end Foundation
