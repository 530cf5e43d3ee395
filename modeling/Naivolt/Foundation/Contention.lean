import Mathlib.Order.Basic
import Mathlib.Order.Lattice
import Mathlib.Order.Defs.LinearOrder
import Mathlib.Data.List.Induction
import Mathlib.Data.List.Pairwise
import Mathlib.Logic.Function.Basic
import Mathlib.Tactic.Push

/-!
# Keys that contend for slots

Each slot is held by one key at most, and each key holds one slot at most.  The keys claim slots
in ascending order: a key that holds a slot keeps it and claims no other, and a key without one
takes the slot it claims unless a lower key holds it.  `claims_eq_some_iff` says who holds a slot
in the end, whoever held the slots before.

What it depends on is which keys are free when their turn comes (`Free`): those that held no slot
in the first place, and those whose slot a lower free key has taken.  A free key ends up without a
slot exactly when the one that it claims is barred to it (`holds_claims_iff`).
-/

namespace Foundation

namespace Contention

variable {C K : Type}

/-- Who holds which slot. -/
@[ext]
structure Tenure (C K : Type) where
  holder : C → Option K
  exclusive : ∀ {c c' k}, holder c = some k → holder c' = some k → c = c'

namespace Tenure

/-- The key holds some slot. -/
def Holds (t : Tenure C K) (k : K) : Prop := ∃ c, t.holder c = some k

variable [LinearOrder K]

open Classical in
/-- One key claims a slot. -/
noncomputable def claim (t : Tenure C K) (k : K) (c : C) : Tenure C K :=
  if h : t.Holds k then t
  else if ∃ r, t.holder c = some r ∧ r < k then t
  else
    { holder := fun d => if d = c then some k else t.holder d
      exclusive := by
        intro d d' r hd hd'
        split_ifs at hd hd' with hc hc' hc'
        · exact hc.trans hc'.symm
        · exact absurd ⟨d', (Option.some.inj hd) ▸ hd'⟩ h
        · exact absurd ⟨d, (Option.some.inj hd') ▸ hd⟩ h
        · exact t.exclusive hd hd' }

/-- The keys claim their slots one after the other. -/
noncomputable def claims (t : Tenure C K) (l : List (K × C)) : Tenure C K :=
  l.foldl (fun t e => t.claim e.1 e.2) t

/-- What a claim can do: nothing for a key with a slot, nothing against a lower key, or else the
slot changes hands. -/
lemma claim_cases (t : Tenure C K) (k : K) (c : C) :
    (t.Holds k ∧ t.claim k c = t) ∨
      (¬ t.Holds k ∧ (∃ r, t.holder c = some r ∧ r < k) ∧ t.claim k c = t) ∨
      (¬ t.Holds k ∧ (∀ r, t.holder c = some r → k < r) ∧ (t.claim k c).holder c = some k ∧
        ∀ d, d ≠ c → (t.claim k c).holder d = t.holder d) := by
  classical
  unfold claim
  split_ifs with hholds hlower
  · exact .inl ⟨hholds, rfl⟩
  · exact .inr (.inl ⟨hholds, hlower, rfl⟩)
  · refine .inr (.inr ⟨hholds, fun r hr => ?_, if_pos rfl, fun d hd => if_neg hd⟩)
    have hne : r ≠ k := fun h => hholds ⟨c, h ▸ hr⟩
    have hge : ¬ r < k := fun hlt => hlower ⟨r, hr, hlt⟩
    exact lt_of_le_of_ne (not_lt.mp hge) (Ne.symm hne)

lemma claim_of_holds {t : Tenure C K} {k : K} {c : C} (h : t.Holds k) : t.claim k c = t := by
  unfold claim
  rw [dif_pos h]

lemma claim_of_lower {t : Tenure C K} {k r : K} {c : C} (hr : t.holder c = some r) (h : r < k) :
    t.claim k c = t := by
  rcases t.claim_cases k c with ⟨-, heq⟩ | ⟨-, -, heq⟩ | ⟨-, hhigher, -⟩
  · exact heq
  · exact heq
  · exact absurd (hhigher r hr) (not_lt.mpr h.le)

lemma holder_claim_of_free [DecidableEq C] {t : Tenure C K} {k : K} {c : C} (hfree : ¬ t.Holds k)
    (hhigher : ∀ r, t.holder c = some r → k < r) (d : C) :
    (t.claim k c).holder d = if d = c then some k else t.holder d := by
  rcases t.claim_cases k c with ⟨h, -⟩ | ⟨-, ⟨r, hr, hlt⟩, -⟩ | ⟨-, -, htaken, hothers⟩
  · exact absurd h hfree
  · exact absurd (hhigher r hr) (not_lt.mpr hlt.le)
  · split_ifs with hd
    · rw [hd, htaken]
    · exact hothers d hd

lemma claims_append (t : Tenure C K) (l l' : List (K × C)) :
    t.claims (l ++ l') = (t.claims l).claims l' := List.foldl_append

@[simp] lemma claims_cons (t : Tenure C K) (e : K × C) (l : List (K × C)) :
    t.claims (e :: l) = (t.claim e.1 e.2).claims l := rfl

lemma claims_concat (t : Tenure C K) (l : List (K × C)) (k : K) (c : C) :
    t.claims (l ++ [(k, c)]) = (t.claims l).claim k c := by
  rw [claims_append]
  rfl

/-! ## What claims leave alone -/

/-- Nobody but the claimant gains a slot. -/
lemma holder_of_claim {t : Tenure C K} {k j : K} {c d : C} (hne : j ≠ k)
    (h : (t.claim k c).holder d = some j) : t.holder d = some j := by
  rcases t.claim_cases k c with ⟨-, heq⟩ | ⟨-, -, heq⟩ | ⟨-, -, htaken, hothers⟩
  · rwa [heq] at h
  · rwa [heq] at h
  · by_cases hd : d = c
    · subst hd
      rw [htaken] at h
      exact absurd (Option.some.inj h).symm hne
    · rwa [hothers d hd] at h

/-- A key keeps its slot against higher claimants. -/
lemma holder_claim_of_lt {t : Tenure C K} {k j : K} {c d : C} (hlt : j < k)
    (h : t.holder d = some j) : (t.claim k c).holder d = some j := by
  rcases t.claim_cases k c with ⟨-, heq⟩ | ⟨-, -, heq⟩ | ⟨-, hhigher, -, hothers⟩
  · rwa [heq]
  · rwa [heq]
  · have hne : d ≠ c := by
      rintro rfl
      exact absurd (hhigher j h) (not_lt.mpr hlt.le)
    rwa [hothers d hne]

/-- A slot that is not claimed stays as it is. -/
lemma holder_claim_of_ne {t : Tenure C K} {k : K} {c d : C} (hne : d ≠ c) :
    (t.claim k c).holder d = t.holder d := by
  rcases t.claim_cases k c with ⟨-, heq⟩ | ⟨-, -, heq⟩ | ⟨-, -, -, hothers⟩
  · rw [heq]
  · rw [heq]
  · exact hothers d hne

lemma holder_of_claims {t : Tenure C K} {l : List (K × C)} {j : K} {d : C}
    (hne : ∀ e ∈ l, e.1 ≠ j) (h : (t.claims l).holder d = some j) : t.holder d = some j := by
  induction l generalizing t with
  | nil => exact h
  | cons e l ih =>
      have hrest := ih (fun e he => hne e (List.mem_cons_of_mem _ he)) h
      exact holder_of_claim (Ne.symm (hne e List.mem_cons_self)) hrest

lemma holder_claims_of_lt {t : Tenure C K} {l : List (K × C)} {j : K} {d : C}
    (hlt : ∀ e ∈ l, j < e.1) (h : t.holder d = some j) : (t.claims l).holder d = some j := by
  induction l generalizing t with
  | nil => exact h
  | cons e l ih =>
      exact ih (fun e he => hlt e (List.mem_cons_of_mem _ he))
        (holder_claim_of_lt (hlt e List.mem_cons_self) h)

lemma holder_claims_of_ne {t : Tenure C K} {l : List (K × C)} {d : C}
    (hne : ∀ e ∈ l, e.2 ≠ d) : (t.claims l).holder d = t.holder d := by
  induction l generalizing t with
  | nil => rfl
  | cons e l ih =>
      refine (ih fun e he => hne e (List.mem_cons_of_mem _ he)).trans ?_
      exact holder_claim_of_ne (Ne.symm (hne e List.mem_cons_self))

/-! ## Who is free when its turn comes -/

/-- The key holds no slot when its turn comes: it never held one, or a lower key that is free
itself has claimed it. -/
inductive Free (t : Tenure C K) (l : List (K × C)) : K → Prop
  | vacant {k : K} : ¬ t.Holds k → Free t l k
  | displaced {k j : K} {c : C} :
      t.holder c = some k → (j, c) ∈ l → j < k → Free t l j → Free t l k

lemma Free.mono {t : Tenure C K} {l l' : List (K × C)} {k : K} (hsub : l ⊆ l')
    (h : Free t l k) : Free t l' k := by
  induction h with
  | vacant hvacant => exact .vacant hvacant
  | displaced hheld hmem hlt _ ih => exact .displaced hheld (hsub hmem) hlt ih

/-- Claims of keys that are not lower do not matter. -/
lemma free_append_iff {t : Tenure C K} {l l' : List (K × C)} {k : K} (hge : ∀ e ∈ l', k ≤ e.1) :
    Free t (l ++ l') k ↔ Free t l k := by
  refine ⟨fun h => ?_, .mono (List.subset_append_left _ _)⟩
  induction h with
  | vacant hvacant => exact .vacant hvacant
  | @displaced k j c hheld hmem hlt _ ih =>
      have hmem' : (j, c) ∈ l := by
        rcases List.mem_append.mp hmem with hmem | hmem
        · exact hmem
        · exact absurd hlt (not_lt.mpr (hge _ hmem))
      exact .displaced hheld hmem' hlt (ih fun e he => hlt.le.trans (hge e he))

/-- One more claim frees the key whose slot it is, if the claimant is free. -/
lemma free_concat_iff {t : Tenure C K} {l : List (K × C)} {k j : K} {c : C} (hjk : j < k)
    (hlow : ∀ e ∈ l, e.1 < j) :
    Free t (l ++ [(j, c)]) k ↔ Free t l k ∨ (t.holder c = some k ∧ Free t l j) := by
  have hprior : ∀ i, i ≤ j → (Free t (l ++ [(j, c)]) i ↔ Free t l i) := fun i hi =>
    free_append_iff fun e he => List.mem_singleton.mp he ▸ hi
  constructor
  · rintro (hvacant | ⟨hheld, hmem, hlt, hfree⟩)
    · exact .inl (.vacant hvacant)
    · rcases List.mem_append.mp hmem with hmem | hmem
      · exact .inl (.displaced hheld hmem hlt ((hprior _ (hlow _ hmem).le).mp hfree))
      · obtain ⟨rfl, rfl⟩ := Prod.mk.inj (List.mem_singleton.mp hmem)
        exact .inr ⟨hheld, (hprior _ le_rfl).mp hfree⟩
  · rintro (hfree | ⟨hheld, hfree⟩)
    · exact hfree.mono (List.subset_append_left _ _)
    · exact .displaced hheld (List.mem_append_right _ (List.mem_singleton.mpr rfl)) hjk
        ((hprior _ le_rfl).mpr hfree)

/-- **After the lower keys have had their turns, a key holds no slot exactly when it is free.** -/
theorem not_holds_claims_iff {t : Tenure C K} {l : List (K × C)}
    (hsorted : l.Pairwise fun a b => a.1 < b.1) {k : K} (hlt : ∀ e ∈ l, e.1 < k) :
    ¬ (t.claims l).Holds k ↔ Free t l k := by
  induction l using List.reverseRecOn generalizing k with
  | nil =>
      refine ⟨.vacant, ?_⟩
      rintro (hvacant | ⟨-, hmem, -, -⟩)
      · exact hvacant
      · cases hmem
  | append_singleton l e ih =>
      obtain ⟨j, c⟩ := e
      obtain ⟨hl, -, hlast⟩ := List.pairwise_append.mp hsorted
      have hlow : ∀ e ∈ l, e.1 < j := fun e he => hlast e he _ (List.mem_singleton.mpr rfl)
      have hjk : j < k := hlt (j, c) (List.mem_append_right _ (List.mem_singleton.mpr rfl))
      have hlk : ∀ e ∈ l, e.1 < k := fun e he => (hlow e he).trans hjk
      -- The lower keys give `k` no slot, so that what it holds it has held from the start.
      have hkept : ∀ d, (t.claims l).holder d = some k → t.holder d = some k := fun d =>
        holder_of_claims fun e he => (hlk e he).ne
      rw [claims_concat, free_concat_iff hjk hlow, ← ih hl hlk, ← ih hl hlow]
      rcases (t.claims l).claim_cases j c with ⟨hj, heq⟩ | ⟨hj, ⟨r, hr, hrj⟩, heq⟩ |
        ⟨hj, -, htaken, hothers⟩
      · simp [heq, hj]
      · rw [heq]
        refine ⟨.inl, ?_⟩
        rintro (hk | ⟨hheld, -⟩)
        · exact hk
        · rintro ⟨d, hd⟩
          obtain rfl := t.exclusive (hkept d hd) hheld
          exact absurd (Option.some.inj (hd.symm.trans hr)) (hrj.trans hjk).ne'
      · constructor
        · intro hk
          by_cases hbefore : (t.claims l).Holds k
          · obtain ⟨d, hd⟩ := hbefore
            by_cases hdc : d = c
            · exact .inr ⟨hdc ▸ hkept d hd, hj⟩
            · exact absurd ⟨d, (hothers d hdc).trans hd⟩ hk
          · exact .inl hbefore
        · rintro hk ⟨d, hd⟩
          have hdc : d ≠ c := by
            rintro rfl
            exact hjk.ne (Option.some.inj (htaken.symm.trans hd))
          have hbefore := (hothers d hdc).symm.trans hd
          rcases hk with hk | ⟨hheld, -⟩
          · exact hk ⟨d, hbefore⟩
          · exact hdc (t.exclusive (hkept d hbefore) hheld)

/-! ## Who gets no slot -/

/-- The slot is out of the key's reach: a lower key held it from the start, or one that is free
itself claims it. -/
def Barred (t : Tenure C K) (l : List (K × C)) (k : K) (c : C) : Prop :=
  (∃ r, t.holder c = some r ∧ r < k) ∨ ∃ j, (j, c) ∈ l ∧ j < k ∧ Free t l j

lemma Barred.mono {t : Tenure C K} {l l' : List (K × C)} {k : K} {c : C} (hsub : l ⊆ l')
    (h : Barred t l k c) : Barred t l' k c :=
  h.imp_right fun ⟨j, hmem, hjk, hfree⟩ => ⟨j, hsub hmem, hjk, hfree.mono hsub⟩

/-- One more claim bars the slot to the higher keys, if the claimant is free. -/
lemma barred_concat_iff {t : Tenure C K} {l : List (K × C)} {k j : K} {c d : C}
    (hlow : ∀ e ∈ l, e.1 < j) : Barred t (l ++ [(j, d)]) k c ↔
      Barred t l k c ∨ (c = d ∧ j < k ∧ Free t l j) := by
  have hprior : ∀ i, i ≤ j → (Free t (l ++ [(j, d)]) i ↔ Free t l i) := fun i hi =>
    free_append_iff fun e he => List.mem_singleton.mp he ▸ hi
  unfold Barred
  rw [or_assoc]
  refine or_congr_right ⟨?_, ?_⟩
  · rintro ⟨i, hmem, hik, hfree⟩
    rcases List.mem_append.mp hmem with hmem | hmem
    · exact .inl ⟨i, hmem, hik, (hprior i (hlow _ hmem).le).mp hfree⟩
    · obtain ⟨rfl, rfl⟩ := Prod.mk.inj (List.mem_singleton.mp hmem)
      exact .inr ⟨rfl, hik, (hprior _ le_rfl).mp hfree⟩
  · rintro (⟨i, hmem, hik, hfree⟩ | ⟨rfl, hjk, hfree⟩)
    · exact ⟨i, List.mem_append_left _ hmem, hik, (hprior i (hlow _ hmem).le).mpr hfree⟩
    · exact ⟨j, List.mem_append_right _ (List.mem_singleton.mpr rfl), hjk,
        (hprior _ le_rfl).mpr hfree⟩

/-- **A lower key holds the slot in the end exactly when it is barred.** -/
theorem lower_holder_claims_iff {t : Tenure C K} {l : List (K × C)}
    (hsorted : l.Pairwise fun a b => a.1 < b.1) {k : K} {c : C} :
    (∃ r, (t.claims l).holder c = some r ∧ r < k) ↔ Barred t l k c := by
  induction l using List.reverseRecOn with
  | nil => simp [Barred, claims]
  | append_singleton l e ih =>
      obtain ⟨j, d⟩ := e
      obtain ⟨hl, -, hlast⟩ := List.pairwise_append.mp hsorted
      have hlow : ∀ e ∈ l, e.1 < j := fun e he => hlast e he _ (List.mem_singleton.mpr rfl)
      rw [claims_concat, barred_concat_iff hlow, ← ih hl, ← not_holds_claims_iff hl hlow]
      rcases (t.claims l).claim_cases j d with ⟨hj, heq⟩ | ⟨hj, ⟨r, hr, hrj⟩, heq⟩ |
        ⟨hj, hhigher, htaken, hothers⟩
      · simp [heq, hj]
      · rw [heq]
        refine ⟨.inl, ?_⟩
        rintro (h | ⟨rfl, hjk, -⟩)
        · exact h
        · exact ⟨r, hr, hrj.trans hjk⟩
      · by_cases hcd : c = d
        · subst hcd
          constructor
          · rintro ⟨r, hr, hrk⟩
            obtain rfl := Option.some.inj (htaken.symm.trans hr)
            exact .inr ⟨rfl, hrk, hj⟩
          · rintro (⟨r, hr, hrk⟩ | ⟨-, hjk, -⟩)
            · exact ⟨j, htaken, (hhigher r hr).trans hrk⟩
            · exact ⟨j, htaken, hjk⟩
        · simp [hothers c hcd, hcd]

/-- **A claimant ends up without a slot exactly when it is free and the slot is barred.** -/
theorem holds_claims_iff {t : Tenure C K} {l : List (K × C)}
    (hsorted : l.Pairwise fun a b => a.1 < b.1) {k : K} {c : C} (hmem : (k, c) ∈ l) :
    (t.claims l).Holds k ↔ ¬ (Free t l k ∧ Barred t l k c) := by
  rw [← lower_holder_claims_iff hsorted]
  obtain ⟨lower, higher, rfl⟩ := List.append_of_mem hmem
  obtain ⟨hlower, hhigher, hcross⟩ := List.pairwise_append.mp hsorted
  have hlt : ∀ e ∈ lower, e.1 < k := fun e he => hcross e he _ List.mem_cons_self
  have hgt : ∀ e ∈ higher, k < e.1 := fun e he => List.rel_of_pairwise_cons hhigher he
  have hge : ∀ e ∈ (k, c) :: higher, k ≤ e.1 := fun e he => by
    rcases List.mem_cons.mp he with rfl | he
    · exact le_rfl
    · exact (hgt e he).le
  -- What the higher keys do neither gives nor takes a slot from `k` or a lower key.
  have hfinal : ∀ j d, j ≤ k → ((t.claims (lower ++ (k, c) :: higher)).holder d = some j ↔
      ((t.claims lower).claim k c).holder d = some j) := by
    intro j d hj
    rw [claims_append, claims_cons]
    exact ⟨fun h => holder_of_claims (fun e he => (hj.trans_lt (hgt e he)).ne') h,
      fun h => holder_claims_of_lt (fun e he => hj.trans_lt (hgt e he)) h⟩
  have hholds : (t.claims (lower ++ (k, c) :: higher)).Holds k ↔
      ((t.claims lower).claim k c).Holds k := exists_congr fun d => hfinal k d le_rfl
  have hlow : (∃ r, (t.claims (lower ++ (k, c) :: higher)).holder c = some r ∧ r < k) ↔
      ∃ r, ((t.claims lower).claim k c).holder c = some r ∧ r < k :=
    exists_congr fun r => and_congr_left fun hr => hfinal r c hr.le
  rw [hholds, hlow, free_append_iff hge, ← not_holds_claims_iff hlower hlt]
  rcases (t.claims lower).claim_cases k c with ⟨hbefore, heq⟩ | ⟨hfree, hbar, heq⟩ |
    ⟨hfree, -, htaken, -⟩
  · simp [heq, hbefore]
  · simp [heq, hfree, hbar]
  · refine iff_of_true ⟨c, htaken⟩ ?_
    rintro ⟨-, r, hr, hrk⟩
    exact hrk.ne (Option.some.inj (htaken.symm.trans hr)).symm

/-- The key is the lowest to claim the slot. -/
def Lowest (l : List (K × C)) (k : K) (c : C) : Prop :=
  (k, c) ∈ l ∧ ∀ j, (j, c) ∈ l → k ≤ j

/-- **The lowest claimant of a slot holds it in the end** exactly when it held it from the start,
or is free and no lower key held the slot. -/
theorem claims_eq_some_iff {t : Tenure C K} {l : List (K × C)}
    (hsorted : l.Pairwise fun a b => a.1 < b.1) {k : K} {c : C} (hlowest : Lowest l k c) :
    (t.claims l).holder c = some k ↔
      t.holder c = some k ∨ (Free t l k ∧ ∀ r, t.holder c = some r → k < r) := by
  obtain ⟨hmem, hfirst⟩ := hlowest
  obtain ⟨lower, higher, rfl⟩ := List.append_of_mem hmem
  obtain ⟨hlower, hhigher, hcross⟩ := List.pairwise_append.mp hsorted
  have hlt : ∀ e ∈ lower, e.1 < k := fun e he => hcross e he _ List.mem_cons_self
  have hgt : ∀ e ∈ higher, k < e.1 := fun e he => List.rel_of_pairwise_cons hhigher he
  have hge : ∀ e ∈ (k, c) :: higher, k ≤ e.1 := fun e he => by
    rcases List.mem_cons.mp he with rfl | he
    · exact le_rfl
    · exact (hgt e he).le
  -- Nobody claims the slot before `k`, and nobody can take it away from `k`.
  have huntouched : (t.claims lower).holder c = t.holder c := holder_claims_of_ne fun e he hc =>
    absurd (hlt e he) (not_lt.mpr (hfirst e.1 (List.mem_append_left _ (hc ▸ he))))
  have hfinal : (t.claims (lower ++ (k, c) :: higher)).holder c = some k ↔
      ((t.claims lower).claim k c).holder c = some k := by
    rw [claims_append, claims_cons]
    exact ⟨fun h => holder_of_claims (fun e he => (hgt e he).ne') h,
      fun h => holder_claims_of_lt hgt h⟩
  rw [hfinal, free_append_iff hge, ← not_holds_claims_iff hlower hlt, ← huntouched]
  rcases (t.claims lower).claim_cases k c with ⟨hholds, heq⟩ | ⟨hfree, ⟨r, hr, hrk⟩, heq⟩ |
    ⟨hfree, hhigher, htaken, -⟩
  · simp [heq, hholds]
  · rw [heq]
    refine ⟨.inl, ?_⟩
    rintro (h | ⟨-, h⟩)
    · exact h
    · exact absurd (h r hr) (not_lt.mpr hrk.le)
  · exact iff_of_true htaken (.inr ⟨hfree, hhigher⟩)

end Tenure

end Contention

end Foundation
