import Naivolt.System.KeySpace

/-!
# Deposits are credited at most once

Watchers of several networks observe, advance, credit and reverse over and over, any number of
them at once.  `DepositBooks` is the invariant that keeps the rows and the ledger in step: every
credit and every reversal belongs to one row that names it.

What it does not say is in which asset a deposit is credited.  A row is found by chain family,
hash and output, so a transfer on one network can hit the row of another network's transfer and
is then credited in its own asset under the row's amount.  `CreditedInKind` is the condition that
excludes exactly that.  `deposit_credited_once` is the law under it; `deposit_credited_twice` is a
run in which a reversal does not undo the credit.
-/

namespace Naivolt

open Foundation Foundation.Machine

/-! ## The journals of a deposit -/

/-- The journals of one kind that carry the deposit's reference. -/
def depositJournals (l : Ledger) (id : Uuid) (kind : JournalKind) : List Posting :=
  l.postings.filter fun q => q.journal.kind = kind && q.journal.reference = id.hyphenated

/-- What the deposit's journals add to an account. -/
def depositEffect (l : Ledger) (id : Uuid) (a : Account) : ℚ :=
  ((depositJournals l id .depositCredit ++ depositJournals l id .depositReversal).map
    fun q => q.journal.amountOn a).sum

/-- What they do to the owner's balance in an asset. -/
def ownerEffect (l : Ledger) (id : Uuid) (d : Deposit) (asset : Asset) : ℚ :=
  AccountKind.userCrypto.userFacingBalance (depositEffect l id (.userCrypto d.userId asset))

/-- The row and the journals of a deposit agree. -/
structure DepositKept (l : Ledger) (id : Uuid) (d : Deposit) : Prop where
  effect : (∀ asset, ownerEffect l id d asset = 0) ∨
    ∀ asset, ownerEffect l id d asset = if asset = d.asset then d.amount else 0
  confirmed : d.status = .confirmed ↔
    (∃ p, depositJournals l id .depositCredit = [p]) ∧ depositJournals l id .depositReversal = []
  reversed : d.status = .reversed ↔
    (∃ p, depositJournals l id .depositCredit = [p]) ∧
      ∃ q, depositJournals l id .depositReversal = [q]
  cancel : ∀ p ∈ depositJournals l id .depositCredit,
    ∀ q ∈ depositJournals l id .depositReversal, ∀ a,
      p.journal.amountOn a + q.journal.amountOn a = 0

/-- Every deposit is. -/
def DepositsKept (w : World) : Prop :=
  ∀ id d, w.deposits.get? id = some d → DepositKept w.ledger id d

/-! ## Conditions on the steps -/

/-- A deposit about to be credited or reversed finds no payout under the key of its journal. -/
def DepositKeyOwn (op : Op) (w : World) : Prop :=
  match op with
  | .watcher (.credit id t) => ∀ d ∈ w.deposits.get? id,
      d.status ≠ .confirmed → d.status ≠ .reversed →
        NoPayoutUnder w.ledger (depositKey "deposit" t.network t.txHash t.outputIndex)
  | .watcher (.reverse id t) => ∀ d ∈ w.deposits.get? id, d.status = .confirmed →
      NoPayoutUnder w.ledger (depositKey "reversal" t.network t.txHash t.outputIndex)
  | _ => True

instance (op : Op) (w : World) : Decidable (DepositKeyOwn op w) := by
  unfold DepositKeyOwn
  split <;> infer_instance

/-- A deposit about to be credited is credited in the asset of its row. -/
def CreditedInKind (op : Op) (w : World) : Prop :=
  match op with
  | .watcher (.credit id t) => ∀ d ∈ w.deposits.get? id,
      d.status ≠ .confirmed → d.status ≠ .reversed → t.asset = d.asset
  | _ => True

instance (op : Op) (w : World) : Decidable (CreditedInKind op w) := by
  unfold CreditedInKind
  split <;> infer_instance

/-! ## The invariant -/

/-- The row was credited, whatever happened since. -/
def Deposit.WasCredited (d : Deposit) : Prop := d.status = .confirmed ∨ d.status = .reversed

/-- The posting is the credit of the row, made for some transfer that hits the row. -/
def CreditOf (id : Uuid) (d : Deposit) (q : Posting) : Prop :=
  d.WasCredited ∧ d.creditedJournalId = some q.id ∧ ∃ t : ObservedTransfer,
    t.naturalKey = d.naturalKey ∧ q.journal.builder = creditJournal id d.userId t.asset d.amount t

/-- The posting is the reversal of the row. -/
def ReversalOf (id : Uuid) (d : Deposit) (q : Posting) : Prop :=
  d.status = .reversed ∧ d.reversedJournalId = some q.id ∧ ∃ t : ObservedTransfer,
    t.naturalKey = d.naturalKey ∧ q.journal.builder = reversalJournal id d.userId d.asset d.amount t

/-- Credits and reversals are those of the rows that name them. -/
structure DepositBooks (l : Ledger) (t : DepositTable) : Prop where
  credit : ∀ q ∈ l.postings, q.journal.kind = .depositCredit →
    ∃ id d, t.get? id = some d ∧ CreditOf id d q
  reversal : ∀ q ∈ l.postings, q.journal.kind = .depositReversal →
    ∃ id d, t.get? id = some d ∧ ReversalOf id d q
  credited : ∀ id d, t.get? id = some d → d.WasCredited →
    ∃ q ∈ depositJournals l id .depositCredit, d.creditedJournalId = some q.id
  reversed : ∀ id d, t.get? id = some d → d.status = .reversed →
    ∃ q ∈ depositJournals l id .depositReversal, d.reversedJournalId = some q.id

/-! ### Finding the owner of a journal -/

lemma mem_depositJournals {l : Ledger} {id : Uuid} {kind : JournalKind} {q : Posting} :
    q ∈ depositJournals l id kind ↔
      q ∈ l.postings ∧ q.journal.kind = kind ∧ q.journal.reference = id.hyphenated := by
  simp [depositJournals, List.mem_filter]

lemma CreditOf.reference {id : Uuid} {d : Deposit} {q : Posting} (h : CreditOf id d q) :
    q.journal.reference = id.hyphenated := by
  obtain ⟨-, -, t, -, hb⟩ := h
  exact congrArg JournalBuilder.reference hb

lemma ReversalOf.reference {id : Uuid} {d : Deposit} {q : Posting} (h : ReversalOf id d q) :
    q.journal.reference = id.hyphenated := by
  obtain ⟨-, -, t, -, hb⟩ := h
  exact congrArg JournalBuilder.reference hb

/-- Following a deposit keeps its credit and its reversal. -/
lemma Deposit.Touched.wasCredited {d d' : Deposit} (h : d.Touched d') :
    d'.WasCredited ↔ d.WasCredited := by
  rcases h.status with hs | ⟨hs, hs'⟩
  · simp [Deposit.WasCredited, hs]
  · simp [Deposit.WasCredited, hs, hs']

lemma Deposit.Touched.creditOf {d d' : Deposit} (h : d.Touched d') {id : Uuid} {q : Posting}
    (hq : CreditOf id d q) : CreditOf id d' q := by
  obtain ⟨hwas, hid, t, hkey, hb⟩ := hq
  refine ⟨h.wasCredited.mpr hwas, h.credited.trans hid, t, hkey.trans h.same.naturalKey.symm, ?_⟩
  rw [hb, h.same.userId, h.same.amount]

lemma Deposit.Touched.reversed_iff {d d' : Deposit} (h : d.Touched d') :
    d'.status = .reversed ↔ d.status = .reversed := by
  rcases h.status with hs | ⟨hs, hs'⟩ <;> simp [*]

lemma Deposit.Touched.reversalOf {d d' : Deposit} (h : d.Touched d') {id : Uuid} {q : Posting}
    (hq : ReversalOf id d q) : ReversalOf id d' q := by
  obtain ⟨hs, hid, t, hkey, hb⟩ := hq
  refine ⟨h.reversed_iff.mpr hs, h.reversed.trans hid, t, hkey.trans h.same.naturalKey.symm, ?_⟩
  rw [hb, h.same.userId, h.same.amount, h.same.asset]

namespace DepositBooks

variable {l l' : Ledger} {t t' : DepositTable}

lemma empty : DepositBooks .empty .empty where
  credit q hq := absurd hq List.not_mem_nil
  reversal q hq := absurd hq List.not_mem_nil
  credited id d hd := by simp [DepositTable.get?, DepositTable.empty] at hd
  reversed id d hd := by simp [DepositTable.get?, DepositTable.empty] at hd

/-- A posting of another producer. -/
lemma post_other (h : DepositBooks l t) {j : Journal} {id : Uuid} {out : PostOutcome}
    (hpost : l.post j id = some (out, l')) (hcredit : j.kind ≠ .depositCredit)
    (hreversal : j.kind ≠ .depositReversal) : DepositBooks l' t := by
  rcases Ledger.post_cases hpost with ⟨-, hp, -⟩ | ⟨q, -, -, -, rfl⟩
  · have hsame : ∀ i kind, kind ≠ j.kind →
        depositJournals l' i kind = depositJournals l i kind := by
      intro i kind hk
      simp [depositJournals, hp, hk.symm]
    have hold : ∀ q ∈ l'.postings, q.journal.kind ≠ j.kind → q ∈ l.postings := by
      intro q hq hk
      rw [hp] at hq
      exact (List.mem_cons.mp hq).resolve_left fun heq => hk (heq ▸ rfl)
    refine ⟨fun q hq hk => h.credit q (hold q hq (hk ▸ hcredit.symm)) hk,
      fun q hq hk => h.reversal q (hold q hq (hk ▸ hreversal.symm)) hk,
      fun i d hd hwas => ?_, fun i d hd hs => ?_⟩
    · rw [hsame i _ hcredit.symm]
      exact h.credited i d hd hwas
    · rw [hsame i _ hreversal.symm]
      exact h.reversed i d hd hs
  · exact h

/-- A deposit is followed. -/
lemma touch (h : DepositBooks l t) {id : Uuid} {f : Deposit → Deposit}
    (htouch : ∀ d : Deposit, d.Touched (f d)) (hupdate : t.update id f = some t') :
    DepositBooks l t' := by
  have hget : ∀ i d', t'.get? i = some d' → ∃ d, t.get? i = some d ∧ d.Touched d' := by
    intro i d' hd'
    rw [DepositTable.get?_update hupdate] at hd'
    split at hd'
    · obtain ⟨d, hd, rfl⟩ := Option.map_eq_some_iff.mp hd'
      exact ⟨d, hd, htouch d⟩
    · exact ⟨d', hd', .refl d', rfl, rfl, .inl rfl⟩
  have hold : ∀ i d, t.get? i = some d → ∃ d', t'.get? i = some d' ∧ d.Touched d' := by
    intro i d hd
    rw [DepositTable.get?_update hupdate, hd]
    split
    · exact ⟨f d, rfl, htouch d⟩
    · exact ⟨d, rfl, .refl d, rfl, rfl, .inl rfl⟩
  refine ⟨fun q hq hk => ?_, fun q hq hk => ?_, fun i d' hd' hwas => ?_, fun i d' hd' hs => ?_⟩
  · obtain ⟨i, d, hd, hc⟩ := h.credit q hq hk
    obtain ⟨d', hd', ht⟩ := hold i d hd
    exact ⟨i, d', hd', ht.creditOf hc⟩
  · obtain ⟨i, d, hd, hr⟩ := h.reversal q hq hk
    obtain ⟨d', hd', ht⟩ := hold i d hd
    exact ⟨i, d', hd', ht.reversalOf hr⟩
  · obtain ⟨d, hd, ht⟩ := hget i d' hd'
    rw [ht.credited]
    exact h.credited i d hd (ht.wasCredited.mp hwas)
  · obtain ⟨d, hd, ht⟩ := hget i d' hd'
    rw [ht.reversed]
    exact h.reversed i d hd (ht.reversed_iff.mp hs)

/-- A first observation: its row is neither confirmed nor reversed, for it names no journal. -/
lemma observe (h : DepositBooks l t) {id : Uuid} {tr : ObservedTransfer} {userId walletId : Uuid}
    {confirmations : ℤ} {status : DepositStatus}
    (hinsert : t.insert id (observedRow tr userId walletId confirmations status) = some t') :
    DepositBooks l t' := by
  have hnone := DepositTable.get?_of_insert hinsert
  have hget := DepositTable.get?_insert hinsert
  have hold : ∀ i d, t.get? i = some d → t'.get? i = some d := by
    intro i d hd
    rw [hget, if_neg (fun heq => by simp [heq, hnone] at hd), hd]
  have hvalid := t'.valid.1 (id, _) (Table.get?_eq_some_iff.mp (by
    have := hget id
    rwa [if_pos rfl] at this))
  refine ⟨fun q hq hk => ?_, fun q hq hk => ?_, fun i d hd hwas => ?_, fun i d hd hs => ?_⟩
  · obtain ⟨i, d, hd, hc⟩ := h.credit q hq hk
    exact ⟨i, d, hold i d hd, hc⟩
  · obtain ⟨i, d, hd, hr⟩ := h.reversal q hq hk
    exact ⟨i, d, hold i d hd, hr⟩
  · rw [hget] at hd
    split at hd
    · cases hd
      rcases hwas with hs | hs
      · exact absurd rfl (hvalid.2.1 hs)
      · exact absurd rfl (hvalid.2.2 hs)
    · exact h.credited i d hd hwas
  · rw [hget] at hd
    split at hd
    · cases hd
      exact absurd rfl (hvalid.2.2 hs)
    · exact h.reversed i d hd hs

/-- The key of the credit of a row that was not credited is free. -/
lemma credit_key_free {w : World} (h : DepositBooks w.ledger w.deposits) (hspace : KeySpace w)
    {id : Uuid} {row : Deposit} {tr : ObservedTransfer} (hrow : w.deposits.get? id = some row)
    (hopen : ¬ row.WasCredited) (htr : row.naturalKey = tr.naturalKey)
    (hown : NoPayoutUnder w.ledger (depositKey "deposit" tr.network tr.txHash tr.outputIndex)) :
    ∀ q ∈ w.ledger.postings,
      q.journal.idempotencyKey ≠ depositKey "deposit" tr.network tr.txHash tr.outputIndex := by
  intro q hq hkey
  have hkind := hspace.kind_eq hq (hown q hq hkey) (.deposit _ _ _) hkey
  obtain ⟨i, d, hd, hwas, -, tr', htr', hb⟩ := h.credit q hq hkind
  have hkey' : q.journal.idempotencyKey =
      depositKey "deposit" tr'.network tr'.txHash tr'.outputIndex :=
    congrArg JournalBuilder.idempotencyKey hb
  obtain ⟨hn, hh, hi⟩ := depositKey_injective (hkey'.symm.trans hkey)
  have hsame : d.naturalKey = row.naturalKey := by
    rw [htr, ← htr']
    simp [ObservedTransfer.naturalKey, hn, hh, hi]
  obtain rfl := w.deposits.eq_of_naturalKey hd hrow hsame
  cases hrow.symm.trans hd
  exact hopen hwas

/-- The key of the reversal of a confirmed row is free. -/
lemma reversal_key_free {w : World} (h : DepositBooks w.ledger w.deposits) (hspace : KeySpace w)
    {id : Uuid} {row : Deposit} {tr : ObservedTransfer} (hrow : w.deposits.get? id = some row)
    (hconfirmed : row.status = .confirmed) (htr : row.naturalKey = tr.naturalKey)
    (hown : NoPayoutUnder w.ledger (depositKey "reversal" tr.network tr.txHash tr.outputIndex)) :
    ∀ q ∈ w.ledger.postings,
      q.journal.idempotencyKey ≠ depositKey "reversal" tr.network tr.txHash tr.outputIndex := by
  intro q hq hkey
  have hkind := hspace.kind_eq hq (hown q hq hkey) (.reversal _ _ _) hkey
  obtain ⟨i, d, hd, hs, -, tr', htr', hb⟩ := h.reversal q hq hkind
  have hkey' : q.journal.idempotencyKey =
      depositKey "reversal" tr'.network tr'.txHash tr'.outputIndex :=
    congrArg JournalBuilder.idempotencyKey hb
  obtain ⟨hn, hh, hi⟩ := depositKey_injective (hkey'.symm.trans hkey)
  have hsame : d.naturalKey = row.naturalKey := by
    rw [htr, ← htr']
    simp [ObservedTransfer.naturalKey, hn, hh, hi]
  obtain rfl := w.deposits.eq_of_naturalKey hd hrow hsame
  cases hrow.symm.trans hd
  cases hconfirmed.symm.trans hs

/-- The rows after a row is rewritten under a new journal. -/
lemma get?_posted {id : Uuid} {row row' : Deposit} (hrow : t.get? id = some row)
    (hupdate : t.update id (fun _ => row') = some t') :
    t'.get? id = some row' ∧ ∀ i, i ≠ id → t'.get? i = t.get? i := by
  have hget := DepositTable.get?_update hupdate
  exact ⟨by rw [hget, if_pos rfl, hrow, Option.map_some], fun i hi => by rw [hget, if_neg hi]⟩

/-- The journals of a deposit after a posting. -/
lemma depositJournals_posted {j : Journal} {jid : Uuid}
    (hpost : l.post j jid = some (.posted jid, l')) (i : Uuid) (kind : JournalKind) :
    depositJournals l' i kind =
      if j.kind = kind ∧ j.reference = i.hyphenated then ⟨jid, j⟩ :: depositJournals l i kind
      else depositJournals l i kind := by
  obtain ⟨-, hp, -⟩ := Ledger.of_posted hpost
  simp [depositJournals, hp, List.filter_cons]

lemma depositJournals_subset {j : Journal} {jid : Uuid}
    (hpost : l.post j jid = some (.posted jid, l')) {i : Uuid} {kind : JournalKind} :
    depositJournals l i kind ⊆ depositJournals l' i kind := by
  rw [depositJournals_posted hpost]
  split
  · exact List.subset_cons_self _ _
  · exact List.Subset.refl _

/-- A credit under a free key. -/
lemma post_credit (h : DepositBooks l t) {id jid : Uuid} {row : Deposit} {tr : ObservedTransfer}
    {j : Journal} (hrow : t.get? id = some row) (hopen : ¬ row.WasCredited)
    (htr : row.naturalKey = tr.naturalKey)
    (hbuild : (creditJournal id row.userId tr.asset row.amount tr).build = .ok j)
    (hpost : l.post j jid = some (.posted jid, l'))
    (hupdate : t.update id (fun _ => depositConfirmed jid row) = some t') :
    DepositBooks l' t' := by
  obtain ⟨-, hp, -⟩ := Ledger.of_posted hpost
  obtain ⟨hnew, hold⟩ := get?_posted hrow hupdate
  obtain ⟨hkind, href, -, -⟩ := JournalBuilder.build_eq_ok hbuild
  -- The row was not credited before, so every journal so far is another row's.
  have hother : ∀ i d, t.get? i = some d → d.WasCredited → t'.get? i = some d := by
    intro i d hd hwas
    rw [hold i, hd]
    rintro rfl
    cases hrow.symm.trans hd
    exact hopen hwas
  refine ⟨fun q hq hk => ?_, fun q hq hk => ?_, fun i d hd hwas => ?_, fun i d hd hs => ?_⟩
  · rw [hp] at hq
    rcases List.mem_cons.mp hq with rfl | hq
    · exact ⟨id, _, hnew, .inl rfl, rfl, tr, htr.symm, Journal.builder_of_build hbuild⟩
    · obtain ⟨i, d, hd, hc⟩ := h.credit q hq hk
      exact ⟨i, d, hother i d hd hc.1, hc⟩
  · rw [hp] at hq
    rcases List.mem_cons.mp hq with rfl | hq
    · cases hkind.symm.trans hk
    · obtain ⟨i, d, hd, hr⟩ := h.reversal q hq hk
      exact ⟨i, d, hother i d hd (.inr hr.1), hr⟩
  · by_cases hi : i = id
    · subst hi
      cases hnew.symm.trans hd
      exact ⟨⟨jid, j⟩, mem_depositJournals.mpr ⟨by simp [hp], hkind, href⟩, rfl⟩
    · rw [hold i hi] at hd
      obtain ⟨q, hq, hid⟩ := h.credited i d hd hwas
      exact ⟨q, depositJournals_subset hpost hq, hid⟩
  · by_cases hi : i = id
    · subst hi
      cases hnew.symm.trans hd
      cases hs
    · rw [hold i hi] at hd
      obtain ⟨q, hq, hid⟩ := h.reversed i d hd hs
      exact ⟨q, depositJournals_subset hpost hq, hid⟩

/-- A reversal under a free key. -/
lemma post_reversal (h : DepositBooks l t) {id jid : Uuid} {row : Deposit}
    {tr : ObservedTransfer} {j : Journal} (hrow : t.get? id = some row)
    (hconfirmed : row.status = .confirmed) (htr : row.naturalKey = tr.naturalKey)
    (hasset : row.asset = tr.asset)
    (hbuild : (reversalJournal id row.userId tr.asset row.amount tr).build = .ok j)
    (hpost : l.post j jid = some (.posted jid, l'))
    (hupdate : t.update id (fun _ => depositReversed jid row) = some t') :
    DepositBooks l' t' := by
  obtain ⟨-, hp, -⟩ := Ledger.of_posted hpost
  obtain ⟨hnew, hold⟩ := get?_posted hrow hupdate
  obtain ⟨hkind, href, -, -⟩ := JournalBuilder.build_eq_ok hbuild
  refine ⟨fun q hq hk => ?_, fun q hq hk => ?_, fun i d hd hwas => ?_, fun i d hd hs => ?_⟩
  · rw [hp] at hq
    rcases List.mem_cons.mp hq with rfl | hq
    · cases hkind.symm.trans hk
    · obtain ⟨i, d, hd, hc⟩ := h.credit q hq hk
      by_cases hi : i = id
      · subst hi
        cases hrow.symm.trans hd
        exact ⟨i, _, hnew, .inr rfl, hc.2⟩
      · exact ⟨i, d, (hold i hi).trans hd, hc⟩
  · rw [hp] at hq
    rcases List.mem_cons.mp hq with rfl | hq
    · refine ⟨id, _, hnew, rfl, rfl, tr, htr.symm, ?_⟩
      rw [Journal.builder_of_build hbuild, ← hasset]
      rfl
    · obtain ⟨i, d, hd, hr⟩ := h.reversal q hq hk
      refine ⟨i, d, (hold i ?_).trans hd, hr⟩
      rintro rfl
      cases hrow.symm.trans hd
      cases hconfirmed.symm.trans hr.1
  · by_cases hi : i = id
    · subst hi
      cases hnew.symm.trans hd
      obtain ⟨q, hq, hid⟩ := h.credited i row hrow (.inl hconfirmed)
      exact ⟨q, depositJournals_subset hpost hq, hid⟩
    · rw [hold i hi] at hd
      obtain ⟨q, hq, hid⟩ := h.credited i d hd hwas
      exact ⟨q, depositJournals_subset hpost hq, hid⟩
  · by_cases hi : i = id
    · subst hi
      cases hnew.symm.trans hd
      exact ⟨⟨jid, j⟩, mem_depositJournals.mpr ⟨by simp [hp], hkind, href⟩, rfl⟩
    · rw [hold i hi] at hd
      obtain ⟨q, hq, hid⟩ := h.reversed i d hd hs
      exact ⟨q, depositJournals_subset hpost hq, hid⟩

end DepositBooks

/-! ## One step -/

section Step

variable {cfg : Config} {tid : ℕ} {req : Request} {born : Time} {ω : Oracle} {w w' : World}
  {op : Op}

/-- Only the watcher posts the journals of deposits. -/
lemma Posts.not_deposit {b : JournalBuilder} (h : Posts w op b) (hop : ∀ wop, op ≠ .watcher wop) :
    b.kind ≠ .depositCredit ∧ b.kind ≠ .depositReversal := by
  cases h with
  | deposit => exact absurd rfl (hop _)
  | reversal => exact absurd rfl (hop _)
  | _ => exact ⟨JournalKind.noConfusion, JournalKind.noConfusion⟩

/-- What the steps of a deposit's row do to the ledger and the table. -/
inductive DepositStep (w w' : World) (op : Op) : Prop where
  | other {j : Journal} {jid : Uuid} {out : PostOutcome}
      (hpost : w.ledger.post j jid = some (out, w'.ledger)) (hcredit : j.kind ≠ .depositCredit)
      (hreversal : j.kind ≠ .depositReversal) (hdeposits : w'.deposits = w.deposits)
  | idle (hledger : w'.ledger = w.ledger) (hdeposits : w'.deposits = w.deposits)
  | observed {id : Uuid} {tr : ObservedTransfer} {userId walletId : Uuid} {confirmations : ℤ}
      {status : DepositStatus} (hledger : w'.ledger = w.ledger)
      (hinsert : w.deposits.insert id (observedRow tr userId walletId confirmations status) =
        some w'.deposits)
  | touched {id : Uuid} {f : Deposit → Deposit} (hledger : w'.ledger = w.ledger)
      (htouch : ∀ d : Deposit, d.Touched (f d))
      (hupdate : w.deposits.update id f = some w'.deposits)
  | credited {id jid : Uuid} {row : Deposit} {tr : ObservedTransfer} {j : Journal}
      (hop : op = .watcher (.credit id tr)) (hrow : w.deposits.get? id = some row)
      (hopen : ¬ row.WasCredited) (htr : row.naturalKey = tr.naturalKey)
      (hbuild : (creditJournal id row.userId tr.asset row.amount tr).build = .ok j)
      (hpost : w.ledger.post j jid = some (.posted jid, w'.ledger))
      (hupdate : w.deposits.update id (fun _ => depositConfirmed jid row) = some w'.deposits)
  | reversed {id jid : Uuid} {row : Deposit} {tr : ObservedTransfer} {j : Journal}
      (hop : op = .watcher (.reverse id tr)) (hrow : w.deposits.get? id = some row)
      (hconfirmed : row.status = .confirmed) (htr : row.naturalKey = tr.naturalKey)
      (hasset : row.asset = tr.asset)
      (hbuild : (reversalJournal id row.userId tr.asset row.amount tr).build = .ok j)
      (hpost : w.ledger.post j jid = some (.posted jid, w'.ledger))
      (hupdate : w.deposits.update id (fun _ => depositReversed jid row) = some w'.deposits)

/-- With the keys its own, a deposit's journal is always posted anew. -/
lemma DepositBooks.step_cases {r : op.Res} (he : exec cfg tid op ω w = some (r, w'))
    (hC : Contract cfg tid req born op w) (hspace : KeySpace w) (hown : DepositKeyOwn op w)
    (hI : DepositBooks w.ledger w.deposits) : DepositStep w w' op := by
  have hother : (∀ wop, op ≠ .watcher wop) → w'.deposits = w.deposits → DepositStep w w' op := by
    intro hop hdeposits
    cases exec_ledger he with
    | same hledger hlog => exact .idle hledger hdeposits
    | posted hposts hbuild hpost hlog =>
        obtain ⟨hcredit, hreversal⟩ := hposts.not_deposit hop
        rw [← (JournalBuilder.build_eq_ok hbuild).1] at hcredit hreversal
        exact .other hpost hcredit hreversal hdeposits
  cases (exec_move he).2 with
  | watcher hexec =>
      cases execWatcher_move hexec with
      | idle => exact .idle rfl rfl
      | observed hnew hinsert => exact .observed rfl hinsert
      | touched htouch hupdate => exact .touched rfl htouch hupdate
      | posted hrow hpost hbuild hledger hupdate =>
          cases hpost with
          | credit hopen =>
              obtain ⟨d, hd, htr⟩ := hC
              cases hrow.symm.trans hd
              have hnot := hopen
              rw [← not_or, ← Deposit.WasCredited] at hnot
              have hfree := hI.credit_key_free hspace hrow hnot htr (hown _ hrow hopen.1 hopen.2)
              obtain ⟨rfl, -⟩ := Ledger.post_of_fresh hledger fun p hp => by
                rw [(JournalBuilder.build_eq_ok hbuild).2.2.1]
                exact hfree p hp
              exact .credited rfl hrow hnot htr hbuild hledger hupdate
          | reverse hconfirmed =>
              obtain ⟨d, hd, htr, -, hasset⟩ := hC
              cases hrow.symm.trans hd
              have hfree := hI.reversal_key_free hspace hrow hconfirmed htr
                (hown _ hrow hconfirmed)
              obtain ⟨rfl, -⟩ := Ledger.post_of_fresh hledger fun p hp => by
                rw [(JournalBuilder.build_eq_ok hbuild).2.2.1]
                exact hfree p hp
              exact .reversed rfl hrow hconfirmed htr hasset hbuild hledger hupdate
  | numbers => exact hother (fun _ => Op.noConfusion) rfl
  | supplier => exact hother (fun _ => Op.noConfusion) rfl
  | payouts => exact hother (fun _ => Op.noConfusion) rfl
  | funding => exact hother (fun _ => Op.noConfusion) rfl
  | look hop =>
      refine hother (fun pop heq => ?_) rfl
      subst heq
      rcases hop with hop | ⟨id, hop⟩ <;> cases hop

lemma DepositBooks.step (h : DepositStep w w' op) (hI : DepositBooks w.ledger w.deposits) :
    DepositBooks w'.ledger w'.deposits := by
  cases h with
  | other hpost hcredit hreversal hdeposits =>
      exact hdeposits ▸ hI.post_other hpost hcredit hreversal
  | idle hledger hdeposits => exact hledger ▸ hdeposits ▸ hI
  | observed hledger hinsert => exact hledger ▸ hI.observe hinsert
  | touched hledger htouch hupdate => exact hledger ▸ hI.touch htouch hupdate
  | credited hop hrow hopen htr hbuild hpost hupdate =>
      exact hI.post_credit hrow hopen htr hbuild hpost hupdate
  | reversed hop hrow hconfirmed htr hasset hbuild hpost hupdate =>
      exact hI.post_reversal hrow hconfirmed htr hasset hbuild hpost hupdate

/-- The credits of every row are of its asset and amount. -/
def CreditsInKind (l : Ledger) (t : DepositTable) : Prop :=
  ∀ id d, t.get? id = some d → ∀ q ∈ depositJournals l id .depositCredit,
    ∃ tr, q.journal.builder = creditJournal id d.userId d.asset d.amount tr

/-- A row that keeps its transfer keeps its credits in kind. -/
lemma CreditsInKind.frame {l : Ledger} {t t' : DepositTable} (h : CreditsInKind l t)
    (hget : ∀ i d', t'.get? i = some d' → ∃ d, t.get? i = some d ∧ d.SameTransfer d') :
    CreditsInKind l t' := by
  intro i d' hd' q hq
  obtain ⟨d, hd, hsame⟩ := hget i d' hd'
  rw [hsame.userId, hsame.asset, hsame.amount]
  exact h i d hd q hq

lemma CreditsInKind.step (h : DepositStep w w' op) (hkind : CreditedInKind op w)
    (hbooks : DepositBooks w.ledger w.deposits) (hI : CreditsInKind w.ledger w.deposits) :
    CreditsInKind w'.ledger w'.deposits := by
  cases h with
  | @other j jid out hpost hcredit hreversal hdeposits =>
      rw [hdeposits]
      rcases Ledger.post_cases hpost with ⟨rfl, -, -⟩ | ⟨q, -, -, -, hl⟩
      · intro i d hd q hq
        rw [DepositBooks.depositJournals_posted hpost, if_neg (fun h => hcredit h.1)] at hq
        exact hI i d hd q hq
      · exact hl ▸ hI
  | idle hledger hdeposits => exact hledger ▸ hdeposits ▸ hI
  | @observed id tr userId walletId confirmations status hledger hinsert =>
      intro i d hd q hq
      rw [hledger] at hq
      rw [DepositTable.get?_insert hinsert] at hd
      split at hd
      · -- A row that was not there has no journals.
        rename_i hi
        obtain ⟨hmem, hk, href⟩ := mem_depositJournals.mp hq
        obtain ⟨i', d', hd', hc⟩ := hbooks.credit q hmem hk
        have heq := Uuid.hyphenated_injective (hc.reference.symm.trans href)
        rw [heq, hi, DepositTable.get?_of_insert hinsert] at hd'
        cases hd'
      · exact hI i d hd q hq
  | @touched id f hledger htouch hupdate =>
      rw [hledger]
      refine hI.frame fun i d' hd' => ?_
      rw [DepositTable.get?_update hupdate] at hd'
      split at hd'
      · obtain ⟨d, hd, rfl⟩ := Option.map_eq_some_iff.mp hd'
        exact ⟨d, hd, (htouch d).same⟩
      · exact ⟨d', hd', .refl d'⟩
  | @credited id jid row tr j hop hrow hopen htr hbuild hpost hupdate =>
      subst hop
      obtain ⟨hnew, hold⟩ := DepositBooks.get?_posted hrow hupdate
      obtain ⟨hjkind, href, -, -⟩ := JournalBuilder.build_eq_ok hbuild
      have hasset := hkind row hrow (fun hs => hopen (.inl hs)) fun hs => hopen (.inr hs)
      intro i d hd q hq
      rw [DepositBooks.depositJournals_posted hpost] at hq
      by_cases hi : i = id
      · subst hi
        cases hnew.symm.trans hd
        rw [if_pos ⟨hjkind, href⟩] at hq
        rcases List.mem_cons.mp hq with rfl | hq
        · exact ⟨tr, by rw [Journal.builder_of_build hbuild, hasset]; rfl⟩
        · exact hI i row hrow q hq
      · rw [if_neg fun h => hi (Uuid.hyphenated_injective (h.2.symm.trans href))] at hq
        exact hI i d (by rw [← hold i hi, hd]) q hq
  | @reversed id jid row tr j hop hrow hconfirmed htr hasset hbuild hpost hupdate =>
      obtain ⟨hnew, hold⟩ := DepositBooks.get?_posted hrow hupdate
      obtain ⟨hjkind, -, -, -⟩ := JournalBuilder.build_eq_ok hbuild
      have hbefore : CreditsInKind w'.ledger w.deposits := by
        intro i d hd q hq
        rw [DepositBooks.depositJournals_posted hpost,
          if_neg fun h => by cases hjkind.symm.trans h.1] at hq
        exact hI i d hd q hq
      refine hbefore.frame fun i d' hd' => ?_
      by_cases hi : i = id
      · subst hi
        cases hnew.symm.trans hd'
        exact ⟨row, hrow, rfl, rfl, rfl, rfl, rfl⟩
      · exact ⟨d', (hold i hi).symm.trans hd', .refl d'⟩

end Step

/-! ## The law of one deposit -/

section Kept

variable {l : Ledger} {t : DepositTable} {id : Uuid} {d : Deposit}

lemma depositJournals_eq_singleton {kind : JournalKind} {p : Posting}
    (hp : p ∈ depositJournals l id kind) (h : ∀ q ∈ depositJournals l id kind, q.id = p.id) :
    depositJournals l id kind = [p] := by
  have hnodup : (depositJournals l id kind).Nodup :=
    (List.Nodup.of_map _ l.idsUnique).filter _
  refine List.perm_singleton.mp ((List.perm_ext_iff_of_nodup hnodup
    (List.nodup_singleton p)).mpr fun q => ⟨fun hq => ?_, fun hq => ?_⟩)
  · exact List.mem_singleton.mpr (List.inj_on_of_nodup_map l.idsUnique
      (mem_depositJournals.mp hq).1 (mem_depositJournals.mp hp).1 (h q hq))
  · exact List.mem_singleton.mp hq ▸ hp

/-- A journal with the deposit's reference is the deposit's. -/
lemma DepositBooks.creditOf (h : DepositBooks l t) (hd : t.get? id = some d) {q : Posting}
    (hq : q ∈ depositJournals l id .depositCredit) : CreditOf id d q := by
  obtain ⟨hmem, hk, href⟩ := mem_depositJournals.mp hq
  obtain ⟨i, d', hd', hc⟩ := h.credit q hmem hk
  obtain rfl := Uuid.hyphenated_injective (hc.reference.symm.trans href)
  cases hd.symm.trans hd'
  exact hc

lemma DepositBooks.reversalOf (h : DepositBooks l t) (hd : t.get? id = some d) {q : Posting}
    (hq : q ∈ depositJournals l id .depositReversal) : ReversalOf id d q := by
  obtain ⟨hmem, hk, href⟩ := mem_depositJournals.mp hq
  obtain ⟨i, d', hd', hr⟩ := h.reversal q hmem hk
  obtain rfl := Uuid.hyphenated_injective (hr.reference.symm.trans href)
  cases hd.symm.trans hd'
  exact hr

/-- How many credits a row has. -/
lemma DepositBooks.credits_eq (h : DepositBooks l t) (hd : t.get? id = some d) :
    (d.WasCredited → ∃ p, depositJournals l id .depositCredit = [p]) ∧
      (¬ d.WasCredited → depositJournals l id .depositCredit = []) := by
  refine ⟨fun hwas => ?_, fun hnot => List.eq_nil_iff_forall_not_mem.mpr fun q hq =>
    hnot (h.creditOf hd hq).1⟩
  obtain ⟨p, hp, hid⟩ := h.credited id d hd hwas
  exact ⟨p, depositJournals_eq_singleton hp fun q hq =>
    Option.some.inj ((h.creditOf hd hq).2.1.symm.trans hid)⟩

/-- How many reversals it has. -/
lemma DepositBooks.reversals_eq (h : DepositBooks l t) (hd : t.get? id = some d) :
    (d.status = .reversed → ∃ p, depositJournals l id .depositReversal = [p]) ∧
      (d.status ≠ .reversed → depositJournals l id .depositReversal = []) := by
  refine ⟨fun hs => ?_, fun hnot => List.eq_nil_iff_forall_not_mem.mpr fun q hq =>
    hnot (h.reversalOf hd hq).1⟩
  obtain ⟨p, hp, hid⟩ := h.reversed id d hd hs
  exact ⟨p, depositJournals_eq_singleton hp fun q hq =>
    Option.some.inj ((h.reversalOf hd hq).2.1.symm.trans hid)⟩

lemma amountOn_credit {q : Posting} {tr : ObservedTransfer} {userId : Uuid} {asset : Asset}
    {amount : ℚ} (h : q.journal.builder = creditJournal id userId asset amount tr) (a : Account) :
    q.journal.amountOn a = (if Account.custody asset = a then amount else 0) -
      (if Account.userCrypto userId asset = a then amount else 0) := by
  rw [Journal.amountOn, h, creditJournal, JournalBuilder.amountOn_transfer]

lemma amountOn_reversal {q : Posting} {tr : ObservedTransfer} {userId : Uuid} {asset : Asset}
    {amount : ℚ} (h : q.journal.builder = reversalJournal id userId asset amount tr)
    (a : Account) :
    q.journal.amountOn a = (if Account.userCrypto userId asset = a then amount else 0) -
      (if Account.custody asset = a then amount else 0) := by
  rw [Journal.amountOn, h, reversalJournal, JournalBuilder.amountOn_transfer]
  split <;> split <;> ring

/-- **One deposit's money.** -/
theorem DepositBooks.kept (h : DepositBooks l t) (hkind : CreditsInKind l t)
    (hd : t.get? id = some d) : DepositKept l id d := by
  have hcredits := h.credits_eq hd
  have hreversals := h.reversals_eq hd
  have hcancel : ∀ p ∈ depositJournals l id .depositCredit,
      ∀ q ∈ depositJournals l id .depositReversal, ∀ a,
        p.journal.amountOn a + q.journal.amountOn a = 0 := by
    intro p hp q hq a
    obtain ⟨tr, hb⟩ := hkind id d hd p hp
    obtain ⟨-, -, tr', -, hb'⟩ := h.reversalOf hd hq
    rw [amountOn_credit hb, amountOn_reversal hb']
    ring
  refine ⟨?_, ⟨fun hs => ⟨hcredits.1 (.inl hs), hreversals.2 (by simp [hs])⟩, ?_⟩,
    ⟨fun hs => ⟨hcredits.1 (.inr hs), hreversals.1 hs⟩, ?_⟩, hcancel⟩
  · by_cases hreversed : d.status = .reversed
    · -- Credited and reversed: the two cancel.
      obtain ⟨p, hp⟩ := hcredits.1 (.inr hreversed)
      obtain ⟨q, hq⟩ := hreversals.1 hreversed
      refine .inl fun asset => ?_
      have := hcancel p (by simp [hp]) q (by simp [hq]) (.userCrypto d.userId asset)
      simp [ownerEffect, depositEffect, hp, hq, this, AccountKind.userFacingBalance]
    · have hr := hreversals.2 hreversed
      by_cases hconfirmed : d.status = .confirmed
      · -- Credited: the amount, in its asset.
        obtain ⟨p, hp⟩ := hcredits.1 (.inl hconfirmed)
        obtain ⟨tr, hb⟩ := hkind id d hd p (by simp [hp])
        refine .inr fun asset => ?_
        simp only [ownerEffect, depositEffect, hp, hr, List.append_nil, List.map_cons, List.map_nil,
          List.sum_cons, List.sum_nil, amountOn_credit hb]
        by_cases ha : asset = d.asset
        · simp [ha, Account.custody, Account.userCrypto, AccountKind.userFacingBalance,
            AccountKind.isLiability]
        · simp [ha, Ne.symm ha, Account.custody, Account.userCrypto,
            AccountKind.userFacingBalance]
      · have hc := hcredits.2 (by simp [Deposit.WasCredited, hconfirmed, hreversed])
        exact .inl fun asset => by
          simp [ownerEffect, depositEffect, hc, hr, AccountKind.userFacingBalance]
  · rintro ⟨⟨p, hp⟩, hr⟩
    rcases (h.creditOf hd (hp ▸ List.mem_singleton_self p)).1 with hs | hs
    · exact hs
    · obtain ⟨q, hq⟩ := hreversals.1 hs
      simp [hr] at hq
  · rintro ⟨-, q, hq⟩
    exact (h.reversalOf hd (hq ▸ List.mem_singleton_self q)).1

end Kept

/-! ## The two results -/

/-- **A deposit is credited at most once**, and its row and its journals agree, in every run in
which no payout holds a deposit's key and every credit is in the asset of its row. -/
theorem deposit_credited_once {cfg : Config} {now : Time} {wallets : List Wallet} {s : State}
    (h : (backend cfg).Reachable
      (onOps fun _ _ _ op _ w => DepositKeyOwn op w ∧ CreditedInKind op w)
      (initial now wallets) s) : DepositsKept s.world := by
  have hbooks : DepositBooks s.world.ledger s.world.deposits ∧
      CreditsInKind s.world.ledger s.world.deposits := by
    refine Reachable.guarded_inv (I := fun w => DepositBooks w.ledger w.deposits ∧
      CreditsInKind w.ledger w.deposits) ⟨.empty, fun id d hd => by
        simp [initial, Sys.idle, World.fresh, DepositTable.get?, DepositTable.empty] at hd⟩
      (fun e w w' he hI => ?_) (fun tid req b op ω r w w' hP he hI => ?_) (contracted_keySpace h)
    · obtain ⟨now, wallets, tiers, -, rfl⟩ := execEnv_eq he
      exact hI
    · obtain ⟨⟨⟨hown, hkind⟩, -, hC⟩, hspace⟩ := hP
      have hstep := hI.1.step_cases he hC hspace hown
      exact ⟨hI.1.step hstep, hI.2.step hstep hkind hI.1⟩
  exact fun id d hd => hbooks.1.kept hbooks.2 hd

/-- The deposit address of a user on the EVM networks. -/
def evmWallet : Wallet := ⟨11, 7, .evm, "0xabc"⟩

/-- A transfer of one hundred coins to it. -/
def evmTransfer (network : Network) (asset : Asset) (block : ℤ) (blockHash : String) :
    ObservedTransfer := ⟨network, "0xaa", 0, "0xabc", asset, 100, block, blockHash⟩

/-- A transfer is seen, credited when it is deep enough, and reversed when its block is gone. -/
def creditedThenReversed : List Move :=
  serve 0 (.watch .ethereum 1000 [evmTransfer .ethereum .usdt 1000 "b1"])
    [{}, { fresh := [200] }, {}, {}, {}] ++
  serve 1 (.watch .ethereum 1020 []) [{}, { fresh := [201] }, {},
    { blockHash := some "b2" }, { location := .ok none }, { fresh := [202] }]

theorem deposit_credited_once_reversed :
    ∃ s : State, s.world.ledger.postings.length = 2 ∧ DepositsKept s.world := by
  obtain ⟨s, hs, hposted⟩ := exists_reachable_of_run (backend stubConfig)
    (onOps fun _ _ _ op _ w => DepositKeyOwn op w ∧ CreditedInKind op w)
    (initial 0 [evmWallet]) creditedThenReversed
    (fun s => s.world.ledger.postings.length = 2) (by decide +kernel)
  exact ⟨s, hposted, deposit_credited_once hs⟩

/-- The same hash on two networks: the first transfer is seen, the second credited. -/
def sameHashTwice : List Move :=
  serve 0 (.watch .ethereum 1000 [evmTransfer .ethereum .usdt 1000 "b1"])
    [{}, { fresh := [200] }, {}, {}, {}] ++
  serve 1 (.watch .bsc 5000 [evmTransfer .bsc .usdc 10 "c1"]) [{}, {}, { fresh := [201] }]

/-- A transfer of USDC on one network that hits the row of a transfer of USDT on another credits
its owner with USDC for it. -/
theorem deposit_credited_as_other :
    ¬ ∀ s : State, (backend stubConfig).Reachable unguarded (initial 0 [evmWallet]) s →
      DepositsKept s.world := by
  intro h
  obtain ⟨s, hs, d, hd, hasset, hamount, husdc⟩ := exists_reachable_of_run (backend stubConfig)
    unguarded (initial 0 [evmWallet]) sameHashTwice
    (fun s => ∃ d ∈ s.world.deposits.get? 200, d.asset = .usdt ∧ d.amount = 100 ∧
      ownerEffect s.world.ledger 200 d .usdc = 100) (by decide +kernel)
  rcases (h s hs 200 d hd).effect with heffect | heffect
  · rw [heffect] at husdc
    norm_num at husdc
  · rw [heffect, hasset, if_neg (by decide)] at husdc
    norm_num at husdc

end Naivolt
