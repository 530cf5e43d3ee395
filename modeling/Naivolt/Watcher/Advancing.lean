import Naivolt.System.Steps
import Naivolt.Foundation.Executions

/-!
# Advancing uncredited deposits

`advance_pending` goes over the deposits of its network that are not yet credited: below the
confirmations the network asks for it stores their count, and from there on it hands them to
`credit_deposit`.

The statement that stores a count asks for a row that is still `seen`, and makes it `confirming`.
So a deposit's count is that of the first head that found it below the threshold, `storedAfter`,
and stays at it however the chain grows: `counts_track_iff` says when this is the count of the
head a pass goes by.  What is handed to `credit_deposit` does not depend on it.
-/

namespace Naivolt

open Foundation Foundation.Prog

/-! ## Rows -/

/-- A deposit of the network that `pending_deposits` returns. -/
def Deposit.PendingOn (net : Network) (d : Deposit) : Prop :=
  d.network = net ∧ (d.status = .seen ∨ d.status = .confirming)

/-- Below the confirmations the network asks for. -/
def Shallow (net : Network) (head : ℤ) (d : Deposit) : Prop :=
  confirmationsAt head d.blockNumber < net.minConfirmations

instance (net : Network) (d : Deposit) : Decidable (d.PendingOn net) :=
  inferInstanceAs (Decidable (_ ∧ _))

instance (net : Network) (head : ℤ) (d : Deposit) : Decidable (Shallow net head d) :=
  inferInstanceAs (Decidable (_ < _))

/-- The row `set_confirmations` leaves. -/
def depositCounted (confirmations : ℤ) (d : Deposit) : Deposit :=
  if d.status = .seen then { d with confirmations := confirmations, status := .confirming } else d

/-- The first of the heads that finds a deposit below the threshold. -/
def firstShallow (net : Network) (heads : List ℤ) (d : Deposit) : Option ℤ :=
  heads.find? fun head => Shallow net head d

/-- What passes at these heads make of a deposit that they do not credit. -/
def storedAfter (net : Network) (heads : List ℤ) (d : Deposit) : Deposit :=
  (firstShallow net heads d).elim d fun head =>
    depositCounted (confirmationsAt head d.blockNumber) d

section Rows

variable {net : Network} {heads : List ℤ} {head n : ℤ} {d : Deposit}

@[simp] lemma depositCounted_blockNumber : (depositCounted n d).blockNumber = d.blockNumber := by
  unfold depositCounted
  split <;> rfl

lemma depositCounted_pendingOn (h : d.PendingOn net) : (depositCounted n d).PendingOn net := by
  unfold depositCounted
  split
  · exact ⟨h.1, .inr rfl⟩
  · exact h

/-- A count is stored once. -/
lemma depositCounted_depositCounted (m : ℤ) :
    depositCounted m (depositCounted n d) = depositCounted n d := by
  by_cases h : d.status = .seen <;> simp [depositCounted, h]

@[simp] lemma storedAfter_blockNumber : (storedAfter net heads d).blockNumber = d.blockNumber := by
  unfold storedAfter
  cases firstShallow net heads d <;> simp

lemma storedAfter_pendingOn (heads : List ℤ) (h : d.PendingOn net) :
    (storedAfter net heads d).PendingOn net := by
  unfold storedAfter
  cases firstShallow net heads d
  · exact h
  · exact depositCounted_pendingOn h

lemma shallow_storedAfter (heads : List ℤ) :
    Shallow net head (storedAfter net heads d) ↔ Shallow net head d := by
  rw [Shallow, Shallow, storedAfter_blockNumber]

/-- One more head that finds it below the threshold. -/
lemma storedAfter_concat_shallow (h : Shallow net head d) :
    storedAfter net (heads ++ [head]) d =
      depositCounted (confirmationsAt head d.blockNumber) (storedAfter net heads d) := by
  unfold storedAfter firstShallow
  rw [List.find?_append]
  cases heads.find? fun head => Shallow net head d with
  | none => simp [h]
  | some first => simp [depositCounted_depositCounted]

lemma storedAfter_concat_deep (h : ¬ Shallow net head d) :
    storedAfter net (heads ++ [head]) d = storedAfter net heads d := by
  unfold storedAfter firstShallow
  rw [List.find?_append]
  cases heads.find? fun head => Shallow net head d <;> simp [h]

end Rows

/-! ## One statement -/

section Statements

variable {cfg : Config} {tid : ℕ} {ω : Oracle} {w w' : World} {id : Uuid}

lemma exec_setConfirmations {n : ℤ} {r : Unit}
    (h : exec cfg tid (.watcher (.setConfirmations id n)) ω w = some (r, w')) (i : Uuid) :
    w'.deposits.get? i =
      if i = id then (w.deposits.get? i).map (depositCounted n) else w.deposits.get? i := by
  obtain ⟨db, es, he, rfl⟩ := exec_watcher h
  obtain ⟨db', hset, hres⟩ := Option.map_eq_some_iff.mp he
  cases hres
  obtain ⟨deposits, hupdate, rfl⟩ := Option.map_eq_some_iff.mp hset
  exact DepositTable.get?_update hupdate i

/-- Crediting touches the row it is asked for, and confirms it or leaves it. -/
lemma exec_credit {t : ObservedTransfer} {r : Bool}
    (h : exec cfg tid (.watcher (.credit id t)) ω w = some (r, w')) :
    (∀ i, i ≠ id → w'.deposits.get? i = w.deposits.get? i) ∧
      (w'.deposits.get? id = w.deposits.get? id ∨
        ∃ journalId,
          w'.deposits.get? id = (w.deposits.get? id).map (depositConfirmed journalId)) := by
  obtain ⟨db, es, he, rfl⟩ := exec_watcher h
  simp only [execWatcher, creditDeposit] at he
  split at he
  · cases he
    exact ⟨fun _ _ => rfl, .inl rfl⟩
  · split at he
    · cases he
      exact ⟨fun _ _ => rfl, .inl rfl⟩
    · split at he
      · cases he
        exact ⟨fun _ _ => rfl, .inl rfl⟩
      · obtain ⟨journalId, journal, posted, -, -, -, -, hupdate, -, -⟩ := postDeposit_cases he
        refine ⟨fun i hi => ?_, .inr ⟨posted.journalId, ?_⟩⟩
        · exact (DepositTable.get?_update hupdate i).trans (if_neg hi)
        · exact (DepositTable.get?_update hupdate id).trans (if_pos rfl)

end Statements

/-! ## One pass -/

section Pass

variable {cfg : Config} {tid : ℕ} {net : Network} {head : ℤ} {w w' : World} {ops : List Op}

/-- What going over the rows does to the deposits, and what it performs. -/
structure Advances (net : Network) (head : ℤ) (rows : List (Uuid × Deposit)) (w : World)
    (ops : List Op) (w' : World) : Prop where
  other : ∀ id, id ∉ rows.map Prod.fst → w'.deposits.get? id = w.deposits.get? id
  shallow : ∀ id d, (id, d) ∈ rows → Shallow net head d →
    w'.deposits.get? id =
      (w.deposits.get? id).map (depositCounted (confirmationsAt head d.blockNumber))
  deep : ∀ id d, (id, d) ∈ rows → ¬ Shallow net head d →
    .watcher (.credit id (transferOfRow net d)) ∈ ops ∧
      (w'.deposits.get? id = w.deposits.get? id ∨
        ∃ journalId, w'.deposits.get? id = (w.deposits.get? id).map (depositConfirmed journalId))

/-- **The loop.** -/
lemma advances_rows {rows : List (Uuid × Deposit)} (hnodup : (rows.map Prod.fst).Nodup)
    (h : Executes (exec cfg tid) (advanceRows net head rows) w ops () w') :
    Advances net head rows w ops w' := by
  induction rows generalizing w ops with
  | nil =>
      obtain ⟨rfl, -, rfl⟩ := executes_ret h
      exact ⟨fun _ _ => rfl, by simp, by simp⟩
  | cons row rows ih =>
      obtain ⟨id, d⟩ := row
      obtain ⟨hnew, hnodup⟩ := List.nodup_cons.mp hnodup
      have hne : ∀ i e, (i, e) ∈ rows → i ≠ id := fun i e hmem heq =>
        hnew (List.mem_map.mpr ⟨(i, e), hmem, heq⟩)
      unfold advanceRows at h
      by_cases hd : Shallow net head d
      · have hcount : confirmationsAt head d.blockNumber < net.minConfirmations := hd
        rw [if_pos hcount] at h
        obtain ⟨ω, r, w₁, rest, he, hk, rfl⟩ := executes_call h
        have hset := exec_setConfirmations he
        have hrest := ih hnodup hk
        refine ⟨fun i hi => ?_, fun i e hmem hshallow => ?_, fun i e hmem hdeep => ?_⟩
        · rw [List.map_cons, List.mem_cons, not_or] at hi
          rw [hrest.other i hi.2, hset, if_neg hi.1]
        · rcases List.mem_cons.mp hmem with heq | hmem
          · cases heq
            rw [hrest.other _ hnew, hset, if_pos rfl]
          · rw [hrest.shallow i e hmem hshallow, hset, if_neg (hne i e hmem)]
        · rcases List.mem_cons.mp hmem with heq | hmem
          · cases heq
            exact absurd hd hdeep
          · obtain ⟨hops, hrow⟩ := hrest.deep i e hmem hdeep
            rw [hset, if_neg (hne i e hmem)] at hrow
            exact ⟨List.mem_cons_of_mem _ hops, hrow⟩
      · have hcount : ¬ confirmationsAt head d.blockNumber < net.minConfirmations := hd
        rw [if_neg hcount] at h
        obtain ⟨ω, r, w₁, rest, he, hk, rfl⟩ := executes_call h
        obtain ⟨hsame, hcredit⟩ := exec_credit he
        have hrest := ih hnodup hk
        refine ⟨fun i hi => ?_, fun i e hmem hshallow => ?_, fun i e hmem hdeep => ?_⟩
        · rw [List.map_cons, List.mem_cons, not_or] at hi
          rw [hrest.other i hi.2, hsame i hi.1]
        · rcases List.mem_cons.mp hmem with heq | hmem
          · cases heq
            exact absurd hshallow hd
          · rw [hrest.shallow i e hmem hshallow, hsame i (hne i e hmem)]
        · rcases List.mem_cons.mp hmem with heq | hmem
          · cases heq
            rw [hrest.other _ hnew]
            exact ⟨List.mem_cons_self, hcredit⟩
          · obtain ⟨hops, hrow⟩ := hrest.deep i e hmem hdeep
            rw [hsame i (hne i e hmem)] at hrow
            exact ⟨List.mem_cons_of_mem _ hops, hrow⟩

lemma mem_pendingDeposits {db : WatcherDb} {id : Uuid} {d : Deposit} :
    (id, d) ∈ pendingDeposits net db ↔ db.deposits.get? id = some d ∧ d.PendingOn net := by
  rw [pendingDeposits, List.mem_mergeSort, List.mem_filter, DepositTable.get?,
    Table.get?_eq_some_iff]
  simp [Deposit.PendingOn]

lemma pendingDeposits_nodup (db : WatcherDb) :
    ((pendingDeposits net db).map Prod.fst).Nodup := by
  refine List.Perm.nodup ((List.mergeSort_perm _ _).symm.map Prod.fst) ?_
  exact db.deposits.table.nodup.sublist (List.filter_sublist.map _)

/-- **One pass.**  It counts what it finds below the threshold, hands on what is at or above it,
and touches nothing else. -/
structure PassAdvances (net : Network) (head : ℤ) (w : World) (ops : List Op) (w' : World) :
    Prop where
  other : ∀ id, (∀ d, w.deposits.get? id = some d → ¬ d.PendingOn net) →
    w'.deposits.get? id = w.deposits.get? id
  shallow : ∀ id d, w.deposits.get? id = some d → d.PendingOn net → Shallow net head d →
    w'.deposits.get? id = some (depositCounted (confirmationsAt head d.blockNumber) d)
  deep : ∀ id d, w.deposits.get? id = some d → d.PendingOn net → ¬ Shallow net head d →
    .watcher (.credit id (transferOfRow net d)) ∈ ops ∧
      (w'.deposits.get? id = some d ∨
        ∃ journalId, w'.deposits.get? id = some (depositConfirmed journalId d))

lemma advances_pass (h : Executes (exec cfg tid) (advancePending net head) w ops () w') :
    PassAdvances net head w ops w' := by
  obtain ⟨ω, rows, w₁, rest, he, hk, rfl⟩ := executes_call h
  obtain ⟨db, es, hread, rfl⟩ := exec_watcher he
  cases hread
  have hrows := advances_rows (pendingDeposits_nodup w.watcherDb) hk
  refine ⟨fun id hid => hrows.other id fun hmem => ?_, fun id d hd hpending hshallow => ?_,
    fun id d hd hpending hdeep => ?_⟩
  · obtain ⟨⟨i, d⟩, hrow, rfl⟩ := List.mem_map.mp hmem
    obtain ⟨hd, hpending⟩ := mem_pendingDeposits.mp hrow
    exact hid d hd hpending
  · rw [hrows.shallow id d (mem_pendingDeposits.mpr ⟨hd, hpending⟩) hshallow]
    exact congrArg (Option.map _) hd
  · obtain ⟨hops, hrow⟩ := hrows.deep id d (mem_pendingDeposits.mpr ⟨hd, hpending⟩) hdeep
    have hsame : ((w.draw ω).putWatcher w.watcherDb []).deposits.get? id = some d := hd
    rw [hsame] at hrow
    exact ⟨List.mem_cons_of_mem _ hops, hrow⟩

end Pass

/-! ## A pass completes -/

section Completes

variable (cfg : Config) (tid : ℕ) (net : Network) (head : ℤ)

/-- Storing a count breaks no constraint. -/
lemma depositConstraints_counted {t : Table Uuid Deposit} (h : DepositConstraints t) (id : Uuid)
    (n : ℤ) : DepositConstraints (t.modify id (depositCounted n)) := by
  have horigin : ∀ r ∈ (t.modify id (depositCounted n)).rows,
      ∃ d, (r.1, d) ∈ t.rows ∧ (r.2 = d ∨ r.2 = depositCounted n d) := by
    intro r hr
    rcases Table.mem_modify.mp hr with ⟨-, hr⟩ | ⟨hid, d, hd, heq⟩
    · exact ⟨r.2, hr, .inl rfl⟩
    · exact ⟨d, hid ▸ hd, .inr heq⟩
  have hkept : ∀ r ∈ (t.modify id (depositCounted n)).rows, ∃ d, (r.1, d) ∈ t.rows ∧
      r.2.naturalKey = d.naturalKey ∧ r.2.amount = d.amount ∧
      (r.2.status = d.status ∨ r.2.status = .confirming) ∧
      r.2.creditedJournalId = d.creditedJournalId ∧
      r.2.reversedJournalId = d.reversedJournalId := by
    intro r hr
    obtain ⟨d, hd, heq⟩ := horigin r hr
    refine ⟨d, hd, ?_⟩
    rcases heq with heq | heq
    · rw [heq]
      simp
    · rw [heq]
      by_cases hseen : d.status = .seen <;> simp [depositCounted, hseen, Deposit.naturalKey]
  refine ⟨fun r hr => ?_, fun r hr r' hr' hkey => ?_⟩
  · obtain ⟨d, hd, -, hamount, hstatus, hcredited, hreversed⟩ := hkept r hr
    obtain ⟨hpositive, hconfirmed, hback⟩ := h.1 _ hd
    rw [hamount, hcredited, hreversed]
    rcases hstatus with hstatus | hstatus
    · rw [hstatus]
      exact ⟨hpositive, hconfirmed, hback⟩
    · rw [hstatus]
      exact ⟨hpositive, by simp, by simp⟩
  · obtain ⟨d, hd, hkeyd, -⟩ := hkept r hr
    obtain ⟨d', hd', hkeyd', -⟩ := hkept r' hr'
    have hsame : d.naturalKey = d'.naturalKey := by rw [← hkeyd, ← hkeyd', hkey]
    exact h.2 (r.1, d) hd (r'.1, d') hd' hsame

/-- Every row can be visited. -/
lemma exists_executes_rows (rows : List (Uuid × Deposit)) (w : World) :
    ∃ ops w', Executes (exec cfg tid) (advanceRows net head rows) w ops () w' := by
  have hfresh : ∀ w, Fresh { dbFails := true } w := fun w => ⟨List.nodup_nil, by simp⟩
  induction rows generalizing w with
  | nil => exact ⟨[], w, .ret () w⟩
  | cons row rows ih =>
      obtain ⟨id, d⟩ := row
      unfold advanceRows
      by_cases hd : confirmationsAt head d.blockNumber < net.minConfirmations
      · rw [if_pos hd]
        obtain ⟨deposits, hupdate⟩ : ∃ deposits, w.deposits.update id
            (depositCounted (confirmationsAt head d.blockNumber)) = some deposits := by
          have hvalid := depositConstraints_counted w.deposits.valid id
            (confirmationsAt head d.blockNumber)
          exact ⟨⟨_, hvalid⟩, dif_pos hvalid⟩
        obtain ⟨ops, w', hrest⟩ := ih ((w.draw { dbFails := true }).putWatcher
          { w.watcherDb with deposits := deposits } [])
        refine ⟨_, w', .call (ω := { dbFails := true }) (r := ()) ?_ hrest⟩
        have hset : setConfirmations id (confirmationsAt head d.blockNumber)
            (w.draw { dbFails := true }).watcherDb =
              some { w.watcherDb with deposits := deposits } :=
          congrArg (Option.map _) hupdate
        rw [exec, if_pos (hfresh w)]
        change ((setConfirmations id _ (w.draw { dbFails := true }).watcherDb).map _).map _ = _
        rw [hset]
        rfl
      · rw [if_neg hd]
        obtain ⟨ops, w', hrest⟩ := ih ((w.draw { dbFails := true }).putWatcher w.watcherDb [])
        refine ⟨_, w', .call (ω := { dbFails := true }) (r := false) ?_ hrest⟩
        rw [exec, if_pos (hfresh w)]
        rfl

/-- A pass has a way to its end from every state. -/
theorem exists_executes_pass (w : World) :
    ∃ ops w', Executes (exec cfg tid) (advancePending net head) w ops () w' := by
  obtain ⟨ops, w', hrows⟩ := exists_executes_rows cfg tid net head
    (pendingDeposits net w.watcherDb) ((w.draw {}).putWatcher w.watcherDb [])
  have hfresh : Fresh {} w := ⟨List.nodup_nil, by simp⟩
  have hread : exec cfg tid (.watcher (.pending net)) {} w =
      some (pendingDeposits net w.watcherDb, (w.draw {}).putWatcher w.watcherDb []) := by
    rw [exec, if_pos hfresh]
    rfl
  exact ⟨_, w', .call hread hrows⟩

end Completes

/-! ## A sequence of passes -/

/-- What a sequence of passes leaves of the deposits it began with. -/
structure Stored (net : Network) (heads : List ℤ) (w w' : World) : Prop where
  other : ∀ id, (∀ d, w.deposits.get? id = some d → ¬ d.PendingOn net) →
    w'.deposits.get? id = w.deposits.get? id
  pending : ∀ id d, w.deposits.get? id = some d → d.PendingOn net →
    w'.deposits.get? id = some (storedAfter net heads d) ∨
      ∃ d', w'.deposits.get? id = some d' ∧ d'.status = .confirmed

lemma Stored.pass {net : Network} {heads : List ℤ} {head : ℤ} {ops : List Op} {w w₁ w₂ : World}
    (h : Stored net heads w w₁) (hpass : PassAdvances net head w₁ ops w₂) :
    Stored net (heads ++ [head]) w w₂ := by
  refine ⟨fun id hid => ?_, fun id d hd hpending => ?_⟩
  · have hsame := h.other id hid
    rw [← hsame]
    exact hpass.other id fun d hd => hid d (hsame ▸ hd)
  · rcases h.pending id d hd hpending with hstored | ⟨d', hd', hconfirmed⟩
    · have hstill := storedAfter_pendingOn heads hpending
      by_cases hshallow : Shallow net head d
      · left
        rw [hpass.shallow id _ hstored hstill ((shallow_storedAfter heads).mpr hshallow),
          storedAfter_concat_shallow hshallow, storedAfter_blockNumber]
      · rw [storedAfter_concat_deep hshallow]
        have hdeep := (shallow_storedAfter heads).not.mpr hshallow
        rcases (hpass.deep id _ hstored hstill hdeep).2 with hrow | ⟨journalId, hrow⟩
        · exact .inl hrow
        · exact .inr ⟨_, hrow, rfl⟩
    · right
      refine ⟨d', (hpass.other id fun e he hpend => ?_).trans hd', hconfirmed⟩
      cases hd'.symm.trans he
      simp [Deposit.PendingOn, hconfirmed] at hpend

/-- **A sequence of passes**, at any heads. -/
theorem stored_rounds {cfg : Config} {tid : ℕ} {net : Network} {heads : List ℤ} {w w' : World}
    (h : Rounds (exec cfg tid) (advancePending net) w heads w') : Stored net heads w w' := by
  induction h with
  | nil => exact ⟨fun _ _ => rfl, fun id d hd _ => .inl hd⟩
  | concat _ hpass ih => exact ih.pass (advances_pass hpass)

/-! ## Counts that track the chain -/

/-- Every deposit below the threshold stores its count at the head. -/
def Counted (net : Network) (head : ℤ) (w : World) : Prop :=
  ∀ id d, w.deposits.get? id = some d → d.PendingOn net → Shallow net head d →
    d.confirmations = confirmationsAt head d.blockNumber

/-- Every deposit at or above the threshold was handed to `credit_deposit`. -/
def HandedOn (net : Network) (head : ℤ) (w : World) (ops : List Op) : Prop :=
  ∀ id d, w.deposits.get? id = some d → d.PendingOn net → ¬ Shallow net head d →
    .watcher (.credit id (transferOfRow net d)) ∈ ops

/-- The count a deposit has at the head is the one it had at the first of the heads that found it
below the threshold, or had stored before them if it was `confirming` already. -/
structure FirstCountKept (net : Network) (heads : List ℤ) (head : ℤ) (d : Deposit) : Prop where
  seen : d.status = .seen → ∀ first ∈ firstShallow net (heads ++ [head]) d,
    confirmationsAt first d.blockNumber = confirmationsAt head d.blockNumber
  confirming : d.status = .confirming →
    d.confirmations = confirmationsAt head d.blockNumber

lemma firstCountKept_iff {net : Network} {heads : List ℤ} {head : ℤ} {d : Deposit}
    (hpending : d.PendingOn net) (hshallow : Shallow net head d) :
    FirstCountKept net heads head d ↔
      (storedAfter net (heads ++ [head]) d).confirmations =
        confirmationsAt head d.blockNumber := by
  obtain ⟨first, hfirst⟩ : ∃ first, firstShallow net (heads ++ [head]) d = some first := by
    rw [← Option.isSome_iff_exists, firstShallow, List.find?_isSome]
    exact ⟨head, by simp, by simpa using hshallow⟩
  have hstored : storedAfter net (heads ++ [head]) d =
      depositCounted (confirmationsAt first d.blockNumber) d := by
    rw [storedAfter, hfirst, Option.elim_some]
  rw [hstored]
  constructor
  · intro h
    rcases hpending.2 with hseen | hconfirming
    · rw [depositCounted, if_pos hseen]
      exact h.seen hseen first hfirst
    · rw [depositCounted, if_neg (by simp [hconfirming])]
      exact h.confirming hconfirming
  · intro h
    refine ⟨fun hseen first' hfirst' => ?_, fun hconfirming => ?_⟩
    · cases hfirst.symm.trans hfirst'
      rwa [depositCounted, if_pos hseen] at h
    · rwa [depositCounted, if_neg (by simp [hconfirming])] at h

/-- **When counts track the chain**: after each pass of a sequence, from any deposits and at any
heads. -/
theorem counts_track_iff {cfg : Config} {tid : ℕ} {net : Network} {heads : List ℤ} {head : ℤ}
    {ops : List Op} {w w₁ w₂ : World}
    (hbefore : Rounds (exec cfg tid) (advancePending net) w heads w₁)
    (hpass : Executes (exec cfg tid) (advancePending net head) w₁ ops () w₂) :
    Counted net head w₂ ∧ HandedOn net head w₁ ops ↔
      ∀ id d, w.deposits.get? id = some d → d.PendingOn net → Shallow net head d →
        (∃ d₁ ∈ w₁.deposits.get? id, d₁.PendingOn net) → FirstCountKept net heads head d := by
  have hstored₁ := stored_rounds hbefore
  have hadvances := advances_pass hpass
  have hstored₂ := hstored₁.pass hadvances
  constructor
  · rintro ⟨hcounted, -⟩ id d hd hpending hshallow ⟨d₁, hd₁, hpending₁⟩
    rw [firstCountKept_iff hpending hshallow, storedAfter_concat_shallow hshallow]
    have hrow : d₁ = storedAfter net heads d := by
      rcases hstored₁.pending id d hd hpending with hrow | ⟨d', hd', hconfirmed⟩
      · exact Option.some.inj (hd₁.symm.trans hrow)
      · cases hd₁.symm.trans hd'
        simp [Deposit.PendingOn, hconfirmed] at hpending₁
    subst hrow
    have hshallow₁ := (shallow_storedAfter heads).mpr hshallow
    have hafter := hadvances.shallow id _ hd₁ hpending₁ hshallow₁
    rw [storedAfter_blockNumber] at hafter
    have hcount := hcounted id _ hafter (depositCounted_pendingOn hpending₁)
      (by simpa [Shallow] using hshallow)
    simpa using hcount
  · intro h
    refine ⟨fun id d₂ hd₂ hpending₂ hshallow₂ => ?_, fun id d hd hpending hdeep =>
      (hadvances.deep id d hd hpending hdeep).1⟩
    by_cases hsome : ∃ d, w.deposits.get? id = some d ∧ d.PendingOn net
    · obtain ⟨d, hd, hpending⟩ := hsome
      have hrow : d₂ = storedAfter net (heads ++ [head]) d := by
        rcases hstored₂.pending id d hd hpending with hrow | ⟨d', hd', hconfirmed⟩
        · exact Option.some.inj (hd₂.symm.trans hrow)
        · cases hd₂.symm.trans hd'
          simp [Deposit.PendingOn, hconfirmed] at hpending₂
      subst hrow
      have hshallow : Shallow net head d := (shallow_storedAfter _).mp hshallow₂
      have hfound : ∃ d₁ ∈ w₁.deposits.get? id, d₁.PendingOn net := by
        rcases hstored₁.pending id d hd hpending with hrow | ⟨d', hd', hconfirmed⟩
        · exact ⟨_, hrow, storedAfter_pendingOn heads hpending⟩
        · have hstays : w₂.deposits.get? id = some d' :=
            (hadvances.other id fun e he hpend => by
              cases hd'.symm.trans he
              simp [Deposit.PendingOn, hconfirmed] at hpend).trans hd'
          cases hd₂.symm.trans hstays
          simp [Deposit.PendingOn, hconfirmed] at hpending₂
      rw [storedAfter_blockNumber]
      exact (firstCountKept_iff hpending hshallow).mp (h id d hd hpending hshallow hfound)
    · have hnone : ∀ d, w.deposits.get? id = some d → ¬ d.PendingOn net := fun d hd hpending =>
        hsome ⟨d, hd, hpending⟩
      exact absurd hpending₂ (hnone d₂ (hstored₂.other id hnone ▸ hd₂))

/-! ## A count that stays behind -/

/-- A transfer of the block at height 100, recorded and not yet counted. -/
def recordedAt100 : Deposit :=
  ⟨7, 11, .evm, .ethereum, .usdt, "0xaa", 0, 100, 100, some "b100", 1, .seen, none, none⟩

def oneRecorded : World :=
  { World.fresh 0 [] with
    deposits := ⟨⟨[(200, recordedAt100)], by simp⟩, by simp [DepositConstraints, recordedAt100]⟩ }

/-- At height 101 the deposit still has the count of height 100. -/
theorem count_left_behind :
    ¬ ∀ (cfg : Config) (tid : ℕ) (net : Network) (heads : List ℤ) (head : ℤ) (ops : List Op)
        (w w₁ w₂ : World), Rounds (exec cfg tid) (advancePending net) w heads w₁ →
      Executes (exec cfg tid) (advancePending net head) w₁ ops () w₂ →
      Counted net head w₂ ∧ HandedOn net head w₁ ops := by
  intro h
  obtain ⟨ops₁, w₁, hfirst⟩ := exists_executes_pass stubConfig 0 .ethereum 100 oneRecorded
  obtain ⟨ops₂, w₂, hsecond⟩ := exists_executes_pass stubConfig 0 .ethereum 101 w₁
  have hrow₁ := (advances_pass hfirst).shallow 200 recordedAt100 rfl (by decide) (by decide)
  have hrow₂ := (advances_pass hsecond).shallow 200 _ hrow₁ (by decide) (by decide)
  have hcounted := (h _ _ _ _ _ _ _ _ _ (.concat .nil hfirst) hsecond).1
  exact absurd (hcounted 200 _ hrow₂ (by decide) (by decide)) (by decide)

/-- The first pass that counts it stores the count of its head. -/
theorem counts_track_first : ∃ ops w, Executes (exec stubConfig 0) (advancePending .ethereum 100)
    oneRecorded ops () w ∧ Counted .ethereum 100 w ∧ HandedOn .ethereum 100 oneRecorded ops := by
  obtain ⟨ops, w, hpass⟩ := exists_executes_pass stubConfig 0 .ethereum 100 oneRecorded
  refine ⟨ops, w, hpass, (counts_track_iff .nil hpass).mpr fun id d hd _ _ _ => ?_⟩
  have hrow : (id, d) ∈ [(200, recordedAt100)] := Table.get?_eq_some_iff.mp hd
  cases List.mem_singleton.mp hrow
  exact ⟨fun _ first hfirst => by cases hfirst; rfl, fun hconfirming => by cases hconfirming⟩

end Naivolt
