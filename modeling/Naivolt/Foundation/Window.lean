import Mathlib

/-!
# A limit on any window of time

Units are spent, each at a time, and no more than `max` may be spent within any `W`.  What is spent
is entered into a record only afterwards, and before it is spent somebody has looked at the record
and has been let in.  So between the look and the entry a unit is in flight, and the record does not
show it.

`Kept` is what makes the limit hold nevertheless: what is in flight and what the record shows of
the last `W` never exceed the limit together, and what is spent and not yet entered is in flight.
Its rules say what each step of such a protocol has to respect: `Kept.looked` of the look,
`Kept.spend` and `Kept.enter` of what follows, `Kept.prune` of a record that forgets what is too old
to matter.
-/

namespace Foundation.Window

/-! ## Counting -/

/-- How many of the times are at `t` or later. -/
def since (l : List ℕ) (t : ℕ) : ℕ := l.countP fun a => t ≤ a

/-- How many of the times are in the window that begins at `t`. -/
def within (W : ℕ) (l : List ℕ) (t : ℕ) : ℕ := l.countP fun a => t ≤ a ∧ a < t + W

/-- The times less than `W` ago. -/
def live (W now : ℕ) (l : List ℕ) : List ℕ := l.filter fun a => now < a + W

variable {W max now now' : ℕ} {l l' : List ℕ} {a t : ℕ}

lemma filter_sub_lt (hW : 0 < W) (now : ℕ) (l : List ℕ) :
    (l.filter fun a => now - a < W) = live W now l :=
  List.filter_congr fun a _ => by
    simp only [decide_eq_decide]
    omega

@[simp] lemma since_nil (t : ℕ) : since [] t = 0 := rfl

lemma since_cons (a : ℕ) (l : List ℕ) (t : ℕ) :
    since (a :: l) t = since l t + if t ≤ a then 1 else 0 := by
  simp [since, List.countP_cons]

lemma since_append (l l' : List ℕ) (t : ℕ) : since (l ++ l') t = since l t + since l' t :=
  List.countP_append

lemma within_cons (W a : ℕ) (l : List ℕ) (t : ℕ) :
    within W (a :: l) t = within W l t + if t ≤ a ∧ a < t + W then 1 else 0 := by
  simp [within, List.countP_cons]

lemma within_le_since (W : ℕ) (l : List ℕ) (t : ℕ) : within W l t ≤ since l t :=
  List.countP_mono_left fun a _ h => by
    simp only [decide_eq_true_eq] at h ⊢
    exact h.1

lemma since_eq_zero (h : ∀ a ∈ l, a < t) : since l t = 0 :=
  List.countP_eq_zero.mpr fun a ha => by simpa using h a ha

/-- What is too old to be counted does not count. -/
lemma since_live (l : List ℕ) (ht : now < t + W) : since (live W now l) t = since l t := by
  rw [since, live, List.countP_filter]
  refine List.countP_congr fun a _ => ?_
  simp only [Bool.and_eq_true, decide_eq_true_eq, and_iff_left_iff_imp]
  intro hta
  omega

lemma since_le_live (l : List ℕ) (ht : now < t + W) : since l t ≤ (live W now l).length :=
  since_live l ht ▸ List.countP_le_length

/-- All that is live is counted from some time on. -/
lemma exists_since_eq_live (W now : ℕ) (l : List ℕ) :
    ∃ t, now < t + W ∧ since l t = (live W now l).length := by
  refine ⟨now + 1 - W, by omega, ?_⟩
  rw [since, live, List.countP_eq_length_filter]
  congr 1
  refine List.filter_congr fun a _ => ?_
  simp only [decide_eq_decide]
  omega

/-! ## Keeping the limit -/

/-- What has been spent, what the record shows, who is in flight, and who has spent a unit and not
entered it yet. -/
structure Kept (W max now : ℕ) (spent record : List ℕ) (InFlight Owes : ℕ → Prop) : Prop where
  past : ∀ a ∈ spent, a ≤ now
  limited : ∀ t, within W spent t ≤ max
  room : ∀ t, now < t + W → ∀ T : Finset ℕ, (∀ i ∈ T, InFlight i) →
    since record t + T.card ≤ max
  covered : ∃ T : Finset ℕ, (∀ i ∈ T, Owes i) ∧
    ∀ t, now < t + W → since spent t ≤ since record t + T.card

namespace Kept

variable {spent record record' : List ℕ} {InFlight InFlight' Owes Owes' : ℕ → Prop} {i : ℕ}

lemma init (W max now : ℕ) : Kept W max now [] [] (fun _ => False) fun _ => False where
  past a ha := absurd ha List.not_mem_nil
  limited t := Nat.zero_le max
  room t _ T hT := by
    have hempty : T = ∅ := Finset.eq_empty_of_forall_notMem fun i hi => hT i hi
    simp [hempty]
  covered := ⟨∅, fun i hi => absurd hi (Finset.notMem_empty i), fun t _ => Nat.zero_le _⟩

/-- Time passes. -/
lemma tick (h : Kept W max now spent record InFlight Owes) (hle : now ≤ now') :
    Kept W max now' spent record InFlight Owes where
  past a ha := (h.past a ha).trans hle
  limited := h.limited
  room t ht := h.room t (hle.trans_lt ht)
  covered := by
    obtain ⟨T, hT, hspent⟩ := h.covered
    exact ⟨T, hT, fun t ht => hspent t (hle.trans_lt ht)⟩

/-- Somebody who owes nothing is through. -/
lemma mono (h : Kept W max now spent record InFlight Owes) (hflight : ∀ i, InFlight' i → InFlight i)
    (howes : ∀ i, Owes i → Owes' i) : Kept W max now spent record InFlight' Owes' where
  past := h.past
  limited := h.limited
  room t ht T hT := h.room t ht T fun i hi => hflight i (hT i hi)
  covered := by
    obtain ⟨T, hT, hspent⟩ := h.covered
    exact ⟨T, fun i hi => howes i (hT i hi), hspent⟩

/-- The record is rewritten, and shows as much of the last `W` as before. -/
lemma prune (h : Kept W max now spent record InFlight Owes)
    (heq : ∀ t, now < t + W → since record' t = since record t) :
    Kept W max now spent record' InFlight Owes where
  past := h.past
  limited := h.limited
  room t ht T hT := heq t ht ▸ h.room t ht T hT
  covered := by
    obtain ⟨T, hT, hspent⟩ := h.covered
    exact ⟨T, hT, fun t ht => heq t ht ▸ hspent t ht⟩

/-- **Somebody is let in** who finds that the record and those in flight leave room. -/
lemma looked (h : Kept W max now spent record InFlight Owes)
    (hroom : ∀ T : Finset ℕ, (∀ j ∈ T, InFlight j) → (live W now record).length + T.card < max)
    (hflight : ∀ j, InFlight' j → j = i ∨ InFlight j) :
    Kept W max now spent record InFlight' Owes where
  past := h.past
  limited := h.limited
  room t ht T hT := by
    have hothers : ∀ j ∈ T.erase i, InFlight j := fun j hj =>
      (hflight j (hT j (Finset.mem_of_mem_erase hj))).resolve_left (Finset.ne_of_mem_erase hj)
    have hlive := since_le_live record ht
    have hcard : T.card - 1 ≤ (T.erase i).card := Finset.pred_card_le_card_erase
    have hless := hroom _ hothers
    omega
  covered := h.covered

/-- **Somebody in flight spends a unit**, which the limit has room for. -/
lemma spend (h : Kept W max now spent record InFlight Owes) (hi : InFlight i) (hnot : ¬Owes i)
    (howing : ∀ j, Owes j → InFlight j) (howes : ∀ j, j = i ∨ Owes j → Owes' j) :
    Kept W max now (now :: spent) record InFlight Owes' where
  past a ha := by
    rcases List.mem_cons.mp ha with rfl | ha
    · exact le_rfl
    · exact h.past a ha
  limited t := by
    rw [within_cons]
    split
    · rename_i hin
      obtain ⟨T, hT, hspent⟩ := h.covered
      have hfresh : i ∉ T := fun hmem => hnot (hT i hmem)
      have hroom := h.room t hin.2 (insert i T) fun j hj => by
        rcases Finset.mem_insert.mp hj with rfl | hj
        · exact hi
        · exact howing j (hT j hj)
      rw [Finset.card_insert_of_notMem hfresh] at hroom
      have hsince := hspent t hin.2
      have hwithin := within_le_since W spent t
      omega
    · exact h.limited t
  room := h.room
  covered := by
    obtain ⟨T, hT, hspent⟩ := h.covered
    have hfresh : i ∉ T := fun hmem => hnot (hT i hmem)
    refine ⟨insert i T, fun j hj => howes j ?_, fun t ht => ?_⟩
    · exact (Finset.mem_insert.mp hj).imp_right (hT j)
    · have hsince := hspent t ht
      rw [since_cons, Finset.card_insert_of_notMem hfresh]
      split <;> omega

/-- **Somebody in flight makes an entry**, and is through. -/
lemma enter (h : Kept W max now spent record InFlight Owes) (hi : InFlight i)
    (hflight : ∀ j, InFlight' j → j ≠ i ∧ InFlight j) (howes : ∀ j, j ≠ i → Owes j → Owes' j)
    (hentry : ∀ t, now < t + W → since record' t = since record t + if t ≤ now then 1 else 0) :
    Kept W max now spent record' InFlight' Owes' where
  past := h.past
  limited := h.limited
  room t ht T hT := by
    have hfresh : i ∉ T := fun hmem => (hflight i (hT i hmem)).1 rfl
    have hroom := h.room t ht (insert i T) fun j hj => by
      rcases Finset.mem_insert.mp hj with rfl | hj
      · exact hi
      · exact (hflight j (hT j hj)).2
    rw [Finset.card_insert_of_notMem hfresh] at hroom
    rw [hentry t ht]
    split <;> omega
  covered := by
    obtain ⟨T, hT, hspent⟩ := h.covered
    refine ⟨T.erase i, fun j hj => howes j (Finset.ne_of_mem_erase hj)
      (hT j (Finset.mem_of_mem_erase hj)), fun t ht => ?_⟩
    rw [hentry t ht]
    split
    · have hsince := hspent t ht
      have hcard : T.card - 1 ≤ (T.erase i).card := Finset.pred_card_le_card_erase
      omega
    · rename_i hlater
      rw [since_eq_zero fun a ha => (h.past a ha).trans_lt (not_le.mp hlater)]
      exact Nat.zero_le _

/-- **Who is in flight finds the record short of the limit.** -/
lemma live_lt (h : Kept W max now spent record InFlight Owes) (hi : InFlight i) :
    (live W now record).length < max := by
  obtain ⟨t, ht, heq⟩ := exists_since_eq_live W now record
  have hroom := h.room t ht {i} fun j hj => Finset.mem_singleton.mp hj ▸ hi
  rw [Finset.card_singleton] at hroom
  omega

end Kept

end Foundation.Window
