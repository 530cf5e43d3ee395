import Mathlib

/-!
# Keyed tables

A relational table with a primary key, as a list of key/row pairs that carries the
uniqueness of its keys.  `insert` refuses a key already present, which is how a primary-key
violation aborts an `INSERT`; `modify` is the `UPDATE … WHERE key = k` of one row.  Because
the invariant is a field, no operation built from these can produce a table in which a key
names two rows.

`sumBy` totals a weight over the rows; `sumBy_insert` and `sumBy_modify` are the two facts
conservation arguments need, one for each way a table changes.
-/

namespace Foundation

/-- A table with primary key `κ` and rows `α`. -/
structure Table (κ α : Type) where
  rows : List (κ × α)
  nodup : (rows.map Prod.fst).Nodup

namespace Table

variable {κ α : Type}

/-- The table without rows. -/
def empty : Table κ α := ⟨[], List.nodup_nil⟩

variable [DecidableEq κ]

/-- The row filed under `k`. -/
def get? (t : Table κ α) (k : κ) : Option α :=
  (t.rows.find? (fun r => r.1 = k)).map Prod.snd

/-- Add a row under a fresh key; `none` is a primary-key violation. -/
def insert (t : Table κ α) (k : κ) (a : α) : Option (Table κ α) :=
  if h : k ∈ t.rows.map Prod.fst then none
  else some ⟨(k, a) :: t.rows, by simpa using ⟨by simpa using h, t.nodup⟩⟩

/-- Rewrite the row filed under `k`, if there is one. -/
def modify (t : Table κ α) (k : κ) (f : α → α) : Table κ α :=
  ⟨t.rows.map (fun r => if r.1 = k then (r.1, f r.2) else r), by
    have hkeys : (t.rows.map (fun r => if r.1 = k then (r.1, f r.2) else r)).map Prod.fst
        = t.rows.map Prod.fst := by
      rw [List.map_map]
      refine List.map_congr_left (fun r _ => ?_)
      by_cases hr : r.1 = k <;> simp [hr]
    rw [hkeys]
    exact t.nodup⟩

/-- Add a row under `k`, or rewrite the one that is filed there:
`INSERT … ON CONFLICT (key) DO UPDATE`. -/
def upsert (t : Table κ α) (k : κ) (a : α) (f : α → α) : Table κ α :=
  if h : k ∈ t.rows.map Prod.fst then t.modify k f
  else ⟨(k, a) :: t.rows, by simpa using ⟨by simpa using h, t.nodup⟩⟩

/-- Take away the row filed under `k`. -/
def erase (t : Table κ α) (k : κ) : Table κ α :=
  ⟨t.rows.filter (fun r => r.1 ≠ k), t.nodup.sublist (List.filter_sublist.map _)⟩

omit [DecidableEq κ] in
/-- Rewrite every row. -/
def map (t : Table κ α) (f : α → α) : Table κ α :=
  ⟨t.rows.map (fun r => (r.1, f r.2)), by
    rw [List.map_map]
    exact t.nodup⟩

omit [DecidableEq κ] in
/-- Rewrite every row by its key. -/
def mapRows (t : Table κ α) (f : κ → α → α) : Table κ α :=
  ⟨t.rows.map (fun r => (r.1, f r.1 r.2)), by
    rw [List.map_map]
    exact t.nodup⟩

/-! ## Membership -/

@[simp] lemma get?_mapRows (t : Table κ α) (f : κ → α → α) (k : κ) :
    (t.mapRows f).get? k = (t.get? k).map (f k) := by
  rcases t with ⟨l, hnd⟩
  simp only [mapRows, get?]
  clear hnd
  induction l with
  | nil => rfl
  | cons r l ih => by_cases hr : r.1 = k <;> simp_all

@[simp] lemma get?_map (t : Table κ α) (f : α → α) (k : κ) :
    (t.map f).get? k = (t.get? k).map f := by
  rcases t with ⟨l, hnd⟩
  simp only [map, get?]
  clear hnd
  induction l with
  | nil => rfl
  | cons r l ih => by_cases hr : r.1 = k <;> simp_all

@[simp] lemma get?_empty (k : κ) : (empty : Table κ α).get? k = none := rfl

lemma get?_eq_some_iff {t : Table κ α} {k : κ} {a : α} :
    t.get? k = some a ↔ (k, a) ∈ t.rows := by
  constructor
  · intro h
    simp only [get?, Option.map_eq_some_iff] at h
    obtain ⟨⟨k', a'⟩, hf, rfl⟩ := h
    have hk : k' = k := by simpa using List.find?_some hf
    subst hk
    exact List.mem_of_find?_eq_some hf
  · intro h
    rcases t with ⟨l, hnd⟩
    simp only [get?]
    simp only at h hnd
    induction l with
    | nil => exact absurd h List.not_mem_nil
    | cons r l ih =>
        simp only [List.map_cons, List.nodup_cons] at hnd
        rcases List.mem_cons.mp h with hr | hl
        · subst hr
          simp
        · have hne : r.1 ≠ k := by
            rintro rfl
            exact hnd.1 (List.mem_map.mpr ⟨_, hl, rfl⟩)
          rw [List.find?_cons_of_neg (by simpa using hne)]
          exact ih hnd.2 hl

lemma get?_eq_none_iff {t : Table κ α} {k : κ} :
    t.get? k = none ↔ k ∉ t.rows.map Prod.fst := by
  simp only [get?, Option.map_eq_none_iff, List.find?_eq_none, List.mem_map, Prod.exists,
    exists_and_right, exists_eq_right, decide_eq_true_eq, Prod.forall]
  constructor
  · rintro h ⟨a, ha⟩
    exact h k a ha rfl
  · rintro h k' a ha rfl
    exact h ⟨a, ha⟩

lemma get?_erase (t : Table κ α) (k k' : κ) :
    (t.erase k).get? k' = if k' = k then none else t.get? k' := by
  split
  · rename_i hk
    subst hk
    exact get?_eq_none_iff.mpr (by simp [erase])
  · rename_i hk
    ext a
    simp [get?_eq_some_iff, erase, hk]

/-- A successful insertion found the key free and files exactly one new row. -/
lemma insert_eq_some {t t' : Table κ α} {k : κ} {a : α} (h : t.insert k a = some t') :
    t.get? k = none ∧ t'.rows = (k, a) :: t.rows := by
  unfold insert at h
  split at h
  · cases h
  · rename_i hk
    cases h
    exact ⟨get?_eq_none_iff.mpr hk, rfl⟩

lemma get?_insert {t t' : Table κ α} {k : κ} {a : α} (h : t.insert k a = some t') (k' : κ) :
    t'.get? k' = if k' = k then some a else t.get? k' := by
  obtain ⟨-, hrows⟩ := insert_eq_some h
  simp only [get?, hrows]
  by_cases hk : k' = k
  · subst hk
    simp
  · rw [if_neg hk, List.find?_cons_of_neg (by simpa using fun hc : k = k' => hk hc.symm)]

@[simp] lemma get?_modify (t : Table κ α) (k : κ) (f : α → α) (k' : κ) :
    (t.modify k f).get? k' = if k' = k then (t.get? k').map f else t.get? k' := by
  rcases t with ⟨l, hnd⟩
  simp only [modify, get?]
  clear hnd
  induction l with
  | nil => simp
  | cons r l ih =>
      by_cases hr : r.1 = k <;> by_cases hk' : r.1 = k'
      · subst hr
        subst hk'
        simp
      · have hne : k' ≠ k := fun hc => hk' (hr.trans hc.symm)
        subst hr
        rw [if_neg hne] at ih ⊢
        rw [List.map_cons, if_pos rfl, List.find?_cons_of_neg (by simpa using hk'),
          List.find?_cons_of_neg (by simpa using hk')]
        exact ih
      · subst hk'
        simp [hr]
      · rw [List.map_cons, if_neg hr, List.find?_cons_of_neg (by simpa using hk'),
          List.find?_cons_of_neg (by simpa using hk')]
        exact ih

@[simp] lemma get?_upsert (t : Table κ α) (k : κ) (a : α) (f : α → α) (k' : κ) :
    (t.upsert k a f).get? k' = if k' = k then some ((t.get? k).elim a f) else t.get? k' := by
  unfold upsert
  split_ifs with hmem hk hk
  · subst hk
    rw [get?_modify, if_pos rfl]
    cases hrow : t.get? k' with
    | none => exact absurd hmem (get?_eq_none_iff.mp hrow)
    | some b => rfl
  · rw [get?_modify, if_neg hk]
  · subst hk
    rw [get?_eq_none_iff.mpr hmem]
    simp [get?]
  · simp only [get?]
    rw [List.find?_cons_of_neg (by simpa using fun hc : k = k' => hk hc.symm)]

/-- There is nothing to rewrite under a key without a row. -/
lemma modify_of_get?_eq_none {t : Table κ α} {k : κ} {f : α → α} (h : t.get? k = none) :
    t.modify k f = t := by
  have hrows : (t.modify k f).rows = t.rows := by
    refine (List.map_congr_left fun r hr => if_neg ?_).trans (List.map_id _)
    rintro rfl
    exact get?_eq_none_iff.mp h (List.mem_map_of_mem hr)
  rcases t with ⟨l, hnd⟩
  simp only [modify] at hrows ⊢
  simp only [hrows]

/-- The rows of a table in which one row is rewritten. -/
lemma mem_modify {t : Table κ α} {k : κ} {f : α → α} {r : κ × α} :
    r ∈ (t.modify k f).rows ↔
      (r.1 ≠ k ∧ r ∈ t.rows) ∨ (r.1 = k ∧ ∃ a, (k, a) ∈ t.rows ∧ r.2 = f a) := by
  obtain ⟨k', b⟩ := r
  rw [← get?_eq_some_iff, get?_modify]
  by_cases hk : k' = k
  · subst hk
    simp only [if_true, Option.map_eq_some_iff, get?_eq_some_iff, ne_eq, not_true_eq_false,
      false_and, true_and, false_or]
    exact ⟨fun ⟨a, ha, hb⟩ => ⟨a, ha, hb.symm⟩, fun ⟨a, ha, hb⟩ => ⟨a, ha, hb.symm⟩⟩
  · simp [hk, get?_eq_some_iff]

/-! ## Totals -/

section Totals

variable {M : Type} [AddCommGroup M]

/-- The total of a weight over the rows. -/
def sumBy (w : κ → α → M) (t : Table κ α) : M :=
  (t.rows.map (fun r => w r.1 r.2)).sum

omit [DecidableEq κ] in
@[simp] lemma sumBy_empty (w : κ → α → M) : sumBy w (empty : Table κ α) = 0 := rfl

lemma sumBy_insert (w : κ → α → M) {t t' : Table κ α} {k : κ} {a : α}
    (h : t.insert k a = some t') : sumBy w t' = w k a + sumBy w t := by
  obtain ⟨-, hrows⟩ := insert_eq_some h
  simp [sumBy, hrows]

lemma sumBy_modify (w : κ → α → M) {t : Table κ α} {k : κ} {a : α} (f : α → α)
    (h : t.get? k = some a) :
    sumBy w (t.modify k f) = sumBy w t - w k a + w k (f a) := by
  rw [get?_eq_some_iff] at h
  rcases t with ⟨l, hnd⟩
  simp only [sumBy, modify]
  simp only at h hnd
  induction l with
  | nil => exact absurd h List.not_mem_nil
  | cons r l ih =>
      simp only [List.map_cons, List.nodup_cons] at hnd
      rcases List.mem_cons.mp h with hr | hl
      · subst hr
        -- The key occurs nowhere else, so the tail of the list is untouched.
        have htail : l.map (fun r => if r.1 = k then (r.1, f r.2) else r) = l := by
          refine (List.map_congr_left (fun r hr => ?_)).trans (List.map_id l)
          have hne : r.1 ≠ k := by
            rintro rfl
            exact hnd.1 (List.mem_map.mpr ⟨r, hr, rfl⟩)
          simp [hne]
        simp only [List.map_cons, if_true, htail, List.sum_cons]
        abel
      · have hne : r.1 ≠ k := by
          rintro rfl
          exact hnd.1 (List.mem_map.mpr ⟨_, hl, rfl⟩)
        simp only [List.map_cons, if_neg hne, List.sum_cons, ih hnd.2 hl]
        abel

/-- A rewrite that keeps the weight of the row keeps the total. -/
lemma sumBy_modify_eq (w : κ → α → M) (t : Table κ α) (k : κ) (f : α → α)
    (hw : ∀ a, t.get? k = some a → w k (f a) = w k a) :
    sumBy w (t.modify k f) = sumBy w t := by
  unfold sumBy modify
  simp only [List.map_map]
  refine congrArg List.sum (List.map_congr_left (fun r hr => ?_))
  by_cases hk : r.1 = k
  · subst hk
    simpa using hw r.2 (get?_eq_some_iff.mpr hr)
  · simp [hk]

end Totals

end Table

end Foundation
