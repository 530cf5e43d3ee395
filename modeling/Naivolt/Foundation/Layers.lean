import Mathlib

/-!
# Stores in layers

Several stores stand in for one map.  A write goes to one of them, its layer, and a read looks
through the layers in order and takes the first value it finds.

So what a read finds is the newest write of the highest layer that took any, `Tops`, and not the
newest write (`read_of_tops`).  The writes here are those of one key, newest first.
-/

namespace Foundation.Layers

variable {ι ν : Type*} [LinearOrder ι] {ws : List (ι × ν)} {w : ι × ν}

/-- What a layer holds after the writes. -/
def held (ws : List (ι × ν)) (i : ι) : Option ν := (ws.find? fun w => w.1 = i).map Prod.snd

/-- What a read through the layers finds. -/
def read (layers : List ι) (ws : List (ι × ν)) : Option ν := layers.findSome? (held ws)

/-- The newest write of the highest layer that took any. -/
def Tops (ws : List (ι × ν)) (w : ι × ν) : Prop :=
  ∃ newer older, ws = newer ++ w :: older ∧ (∀ v ∈ newer, w.1 < v.1) ∧ ∀ v ∈ older, w.1 ≤ v.1

@[simp] lemma held_nil (i : ι) : held ([] : List (ι × ν)) i = none := rfl

lemma held_cons (w : ι × ν) (ws : List (ι × ν)) (i : ι) :
    held (w :: ws) i = if w.1 = i then some w.2 else held ws i := by
  unfold held
  by_cases h : w.1 = i <;> simp [h]

@[simp] lemma read_nil (layers : List ι) : read layers ([] : List (ι × ν)) = none := by
  simp [read]

namespace Tops

/-- No write went to a higher layer. -/
lemma le (h : Tops ws w) : ∀ v ∈ ws, w.1 ≤ v.1 := by
  obtain ⟨newer, older, rfl, hnewer, holder⟩ := h
  intro v hv
  rcases List.mem_append.mp hv with hv | hv
  · exact (hnewer v hv).le
  · rcases List.mem_cons.mp hv with rfl | hv
    · exact le_rfl
    · exact holder v hv

lemma mem (h : Tops ws w) : w ∈ ws := by
  obtain ⟨newer, older, rfl, -, -⟩ := h
  simp

/-- Its layer holds it. -/
lemma held_eq (h : Tops ws w) : held ws w.1 = some w.2 := by
  obtain ⟨newer, older, rfl, hnewer, -⟩ := h
  induction newer with
  | nil => rw [List.nil_append, held_cons, if_pos rfl]
  | cons v newer ih =>
      have hne : v.1 ≠ w.1 := (hnewer v List.mem_cons_self).ne'
      rw [List.cons_append, held_cons, if_neg hne]
      exact ih fun v' hv' => hnewer v' (List.mem_cons_of_mem v hv')

/-- The layers above it are empty. -/
lemma held_of_lt (h : Tops ws w) {i : ι} (hi : i < w.1) : held ws i = none := by
  have hnone : ws.find? (fun v => v.1 = i) = none := by
    rw [List.find?_eq_none]
    intro v hv heq
    have heq : v.1 = i := by simpa using heq
    exact absurd (h.le v hv) (by rw [heq]; exact not_le.mpr hi)
  rw [held, hnone]
  rfl

/-- There is one such write. -/
lemma unique {v : ι × ν} (h : Tops ws w) (h' : Tops ws v) : v = w := by
  have hlayer : v.1 = w.1 := le_antisymm (h'.le w h.mem) (h.le v h'.mem)
  have hvalue := h'.held_eq
  rw [hlayer, h.held_eq] at hvalue
  exact Prod.ext hlayer (Option.some.inj hvalue).symm

end Tops

lemma exists_tops (h : ws ≠ []) : ∃ w, Tops ws w := by
  induction ws with
  | nil => exact absurd rfl h
  | cons v ws ih =>
      by_cases hws : ws = []
      · exact ⟨v, [], ws, rfl, by simp, by simp [hws]⟩
      · obtain ⟨w, hw⟩ := ih hws
        by_cases hle : v.1 ≤ w.1
        · exact ⟨v, [], ws, rfl, by simp, fun x hx => hle.trans (hw.le x hx)⟩
        · obtain ⟨newer, older, rfl, hnewer, holder⟩ := hw
          refine ⟨w, v :: newer, older, rfl, ?_, holder⟩
          rintro x (_ | ⟨_, hx⟩)
          · exact not_le.mp hle
          · exact hnewer x hx

/-- **What a read finds.** -/
theorem read_of_tops {layers : List ι} (hsorted : layers.Pairwise (· < ·)) (hmem : w.1 ∈ layers)
    (h : Tops ws w) : read layers ws = some w.2 := by
  unfold read
  induction layers with
  | nil => cases hmem
  | cons i layers ih =>
      rw [List.pairwise_cons] at hsorted
      rw [List.findSome?_cons]
      by_cases hi : i = w.1
      · rw [hi, h.held_eq]
      · have hrest : w.1 ∈ layers := (List.mem_cons.mp hmem).resolve_left fun heq => hi heq.symm
        rw [h.held_of_lt (hsorted.1 _ hrest)]
        exact ih hsorted.2 hrest

/-- Layers above every write hold nothing. -/
lemma read_of_above {layers : List ι} (h : Tops ws w) (habove : ∀ i ∈ layers, i < w.1) :
    read layers ws = none := by
  unfold read
  rw [List.findSome?_eq_none_iff]
  exact fun i hi => h.held_of_lt (habove i hi)

end Foundation.Layers
