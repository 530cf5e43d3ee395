import Mathlib

/-!
# Hash-linked logs

Records each of which carries the hash of the record before it.  `Linked` is the property of the
log, newest record first; it speaks of the two hashes only, so it can be checked of any log that
is presented.

What linking is for is `Linked.unique`: as long as no two records with one hash differ, a linked
log is determined by the hash of its newest record.  Whoever remembers that hash will not accept
a log from which a record was removed, in which two changed places, or of which one says
something else.  Under the same assumption no two records follow one and the same
(`Linked.prev_nodup`).
-/

namespace Foundation

/-- The hash a record has, the hash it carries of its predecessor, and what it says. -/
structure Linking (ρ κ γ : Type) where
  hash : ρ → κ
  prev : ρ → Option κ
  content : ρ → γ

namespace Linking

variable {ρ κ γ : Type} (L : Linking ρ κ γ)

/-- Every record carries the hash of the one before it, the oldest none. -/
def Linked : List ρ → Prop
  | [] => True
  | r :: older => L.prev r = older.head?.map L.hash ∧ Linked older

/-- Records of two logs that have one hash agree. -/
def Faithful (l l' : List ρ) : Prop :=
  ∀ r ∈ l, ∀ r' ∈ l', L.hash r = L.hash r' → L.prev r = L.prev r' ∧ L.content r = L.content r'

variable {L}

@[simp] lemma linked_nil : L.Linked [] := trivial

@[simp] lemma linked_cons {r : ρ} {older : List ρ} :
    L.Linked (r :: older) ↔ L.prev r = older.head?.map L.hash ∧ L.Linked older := Iff.rfl

/-- Anywhere in the log, a record carries the hash of the one before it. -/
lemma Linked.prev_eq {newer older : List ρ} {r : ρ} (h : L.Linked (newer ++ r :: older)) :
    L.prev r = older.head?.map L.hash := by
  induction newer with
  | nil => exact h.1
  | cons s newer ih => exact ih h.2

lemma Faithful.mono {l l' k k' : List ρ} (h : L.Faithful l l') (hk : k ⊆ l) (hk' : k' ⊆ l') :
    L.Faithful k k' := fun r hr r' hr' => h r (hk hr) r' (hk' hr')

/-- **A linked log is determined by the hash of its newest record.** -/
theorem Linked.unique {l l' : List ρ} (h : L.Linked l) (h' : L.Linked l')
    (hf : L.Faithful l l') (hnewest : l.head?.map L.hash = l'.head?.map L.hash) :
    l.map L.content = l'.map L.content := by
  induction l generalizing l' with
  | nil =>
      cases l' with
      | nil => rfl
      | cons r' older' => cases hnewest
  | cons r older ih =>
      cases l' with
      | nil => cases hnewest
      | cons r' older' =>
          obtain ⟨hprev, hcontent⟩ := hf r List.mem_cons_self r' List.mem_cons_self
            (Option.some.inj hnewest)
          have hrest : older.head?.map L.hash = older'.head?.map L.hash := by
            rw [← h.1, ← h'.1, hprev]
          rw [List.map_cons, List.map_cons, hcontent,
            ih h.2 h'.2 (hf.mono (List.subset_cons_self _ _) (List.subset_cons_self _ _)) hrest]

/-- **No two records follow the same one.** -/
theorem Linked.prev_nodup {l : List ρ} (h : L.Linked l) (hf : L.Faithful l l) :
    (l.map L.prev).Nodup := by
  induction l with
  | nil => exact List.nodup_nil
  | cons r older ih =>
      have hold := ih h.2 (hf.mono (List.subset_cons_self _ _) (List.subset_cons_self _ _))
      refine List.nodup_cons.mpr ⟨fun hmem => ?_, hold⟩
      obtain ⟨t, ht, hprev⟩ := List.mem_map.mp hmem
      rw [h.1] at hprev
      -- What `t` follows is the newest of `older` under its hash, but comes after it.
      obtain ⟨newer, tail, rfl⟩ := List.append_of_mem ht
      rw [h.2.prev_eq] at hprev
      obtain ⟨s, rest, hs⟩ := List.exists_cons_of_ne_nil
        (List.ne_nil_of_mem (List.mem_append_right newer (List.mem_cons_self (l := tail))))
      rw [hs] at hprev hold
      rcases tail with _ | ⟨u, tail⟩
      · cases hprev
      · have hu : u ∈ rest := by
          cases newer with
          | nil =>
              cases hs
              exact List.mem_cons_self
          | cons a newer =>
              cases hs
              simp
        have hsu := (hf s (List.mem_cons_of_mem _ (hs ▸ List.mem_cons_self)) u
          (List.mem_cons_of_mem _ (hs ▸ List.mem_cons_of_mem _ hu))
          (Option.some.inj hprev).symm).1
        rw [List.map_cons, List.nodup_cons, hsu] at hold
        exact hold.1 (List.mem_map_of_mem hu)

end Linking

end Foundation
