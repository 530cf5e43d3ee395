import Naivolt.Numbers.Decision
import Naivolt.System.Interference

/-!
# No overdraft at READ COMMITTED

The transactions that post to the ledger, in any interleaving.  Three results:

* `posts_at_commit`: a transaction that commits takes the ledger to what `Ledger.post` makes of it
  in one step.  What it takes from a user's naira the user can afford in that very moment, not only
  when the balance was summed.
* `never_overdrawn`: so no user's naira is ever below zero.
* `accounts_opened_once`: everybody finds or creates one and the same account, no lookup after a
  lost race comes back empty, and the only transactions that fail over an account are those of
  `platform_account` that find it missing and lose the race to create it.
-/

namespace Naivolt

open Foundation Database

namespace Standing

variable {d₀ : LedgerDb} {σ : Standing} {a : Account} {userId : Uuid}

/-! ## Finding or creating an account -/

/-- The account is found, or created, or found again: the row of somebody else's insert is there
when the lookup is repeated. -/
lemma runs_lockUserNgnAccount (hok : σ.Ok d₀) {k : Uuid → LedgerTxn}
    (hk : ∀ id σ', σ'.Ok d₀ → σ.Onward σ' → σ'.Held id (.userNgn userId) →
      .account id ∈ σ'.locks → σ'.Runs d₀ (k id)) :
    σ.Runs d₀ (lockUserNgnAccount userId k) := by
  refine runs_select hok (fun id σ₁ hok₁ hon₁ hheld hl => hk id σ₁ hok₁ hon₁ hheld (hl rfl))
    fun σ₁ hok₁ hon₁ hsame hnot => ?_
  have hnew : ∀ id, (id, Account.userNgn userId) ∉ σ₁.opened := fun id hmem =>
    hnot id (.inr (hsame ▸ hmem))
  refine runs_insert hok₁ hnew
    (fun id σ₂ hok₂ hon₂ hheld hl => hk id σ₂ hok₂ (hon₁.trans hon₂) hheld hl)
    fun id σ₂ hok₂ hon₂ hthere => ?_
  refine runs_select hok₂
    (fun id σ₃ hok₃ hon₃ hheld hl => hk id σ₃ hok₃ ((hon₁.trans hon₂).trans hon₃) hheld (hl rfl))
    fun σ₃ _ _ _ hnone => ?_
  exact absurd (.inl hthere) (hnone id)

lemma runs_findOrCreateAccount (hok : σ.Ok d₀) {k : Uuid → LedgerTxn}
    (hk : ∀ id σ', σ'.Ok d₀ → σ.Onward σ' → σ'.Held id a → σ'.Runs d₀ (k id)) :
    σ.Runs d₀ (findOrCreateAccount a k) := by
  refine runs_select hok (fun id σ₁ hok₁ hon₁ hheld _ => hk id σ₁ hok₁ hon₁ hheld)
    fun σ₁ hok₁ hon₁ hsame hnot => ?_
  have hnew : ∀ id, (id, a) ∉ σ₁.opened := fun id hmem => hnot id (.inr (hsame ▸ hmem))
  refine runs_insert hok₁ hnew
    (fun id σ₂ hok₂ hon₂ hheld _ => hk id σ₂ hok₂ (hon₁.trans hon₂) hheld)
    fun id σ₂ hok₂ hon₂ hthere => ?_
  refine runs_select hok₂
    (fun id σ₃ hok₃ hon₃ hheld _ => hk id σ₃ hok₃ ((hon₁.trans hon₂).trans hon₃) hheld)
    fun σ₃ _ _ _ hnone => ?_
  exact absurd (.inl hthere) (hnone id)

/-- `platform_account` finds the account or creates it, or fails because somebody else has created
it since it looked. -/
lemma runs_platformAccount (hok : σ.Ok d₀) {kind : AccountKind} {k : Uuid → LedgerTxn}
    (hk : ∀ id σ', σ'.Ok d₀ → σ.Onward σ' → σ'.Held id (.platform kind) → σ'.Runs d₀ (k id)) :
    σ.Runs d₀ (platformAccount kind k) := by
  refine runs_select hok (fun id σ₁ hok₁ hon₁ hheld _ => hk id σ₁ hok₁ hon₁ hheld)
    fun σ₁ hok₁ hon₁ hsame hnot => ?_
  have hnew : ∀ id, (id, Account.platform kind) ∉ σ₁.opened := fun id hmem =>
    hnot id (.inr (hsame ▸ hmem))
  refine runs_insert hok₁ hnew
    (fun id σ₂ hok₂ hon₂ hheld _ => hk id σ₂ hok₂ (hon₁.trans hon₂) hheld)
    fun id σ₂ _ _ hthere => ?_
  have hfirst : d₀.accountId (.platform kind) = none := LedgerDb.accountId_eq_none.mpr
    fun i hi => hnot i (.inl (hok.db.grown i _ hi))
  intro d hR _
  refine ⟨⟨kind, rfl⟩, hfirst, fun hnone => ?_⟩
  exact LedgerDb.accountId_eq_none.mp hnone id (hR.accounts id _ hthere)

/-- The balance of a locked account does not fall below what was summed. -/
lemma runs_sumEntries (hok : σ.Ok d₀) {id : Uuid} (hheld : σ.Held id a) (hkind : a.kind = .userNgn)
    (hl : .account id ∈ σ.locks) {k : ℚ → LedgerTxn}
    (hk : ∀ rawBalance σ', σ'.Ok d₀ → σ.Onward σ' → σ'.db.sum id ≤ rawBalance →
      σ'.Runs d₀ (k rawBalance)) : σ.Runs d₀ (.call (.sumEntries id) k) := by
  refine runs_call hok fun ω r ws ls d₁ d₂ seen current hok₁ hok₂ hon₁ hR₂ hseen _ hexec => ?_
  cases hexec
  rw [List.append_nil, List.append_nil]
  have hon₂ : Standing.Onward ⟨σ.opened, σ.locks, d₁⟩ ⟨σ.opened, σ.locks, d₂⟩ :=
    ⟨List.Subset.refl _, List.Subset.refl _, hR₂⟩
  have hsum : seen.sum id = d₁.sum id := by
    simp only [LedgerDb.sum, (view_opened σ.opened hseen).2.1]
  rw [hsum]
  exact hk _ ⟨σ.opened, σ.locks, d₂⟩ hok₂ (hon₁.trans hon₂)
    (sum_onward hon₂ hok₁ hl (hheld.onward hon₁) hkind)

end Standing

/-! ## Posting -/

section Posting

variable {d₀ : LedgerDb} {σ σ' : Standing} {b : JournalBuilder} {j : Journal} {id : Uuid}
  {lines : List (Uuid × Entry)}

/-- What is being filed stays possible. -/
lemma Filing.onward (h : Filing d₀ b j id lines σ) (hok : σ'.Ok d₀) (hon : σ.Onward σ') :
    Filing d₀ b j id lines σ' where
  ok := hok
  build := h.build
  entries := h.entries
  held r hr := (h.held r hr).onward hon
  safe := h.safe.onward h.ok hon
  idLocked := hon.locks h.idLocked
  keyLocked := hon.locks h.keyLocked
  idFree := hon.later.journalIds id h.idLocked h.idFree
  keyFree := hon.later.journalKeys _ h.keyLocked h.keyFree

/-- The loop over the entries: those before `rest` are inserted. -/
lemma Filing.runs_insertEntries {rest done : List (Uuid × Entry)} (h : Filing d₀ b j id lines σ)
    (hsplit : done ++ rest = lines) :
    Wp ledgerDatabase anyStatement (LedgerOk d₀) LedgerLater (LedgerPost d₀)
      (insertEntries id rest (nameJournal b (.posted id)))
      (σ.writes ++ .journal id j.row :: done.map fun r => .entry (entryRow id r))
      σ.locks σ.db := by
  induction rest generalizing done σ with
  | nil =>
      intro d₁ d₂ hR₁ hI₁ hR₂ hI₂ ω r ws ls _ hst
      obtain ⟨_, _, _, _, hexec⟩ := statement_eq_some.mp hst
      cases hexec
      rw [List.append_nil, List.append_nil]
      obtain ⟨hok, hon⟩ := h.ok.later hI₂ (hR₁.trans hR₂)
      cases hrow : ω.row with
      | false => exact fun _ _ _ => trivial
      | true =>
          intro d hR hI
          obtain ⟨hok', hon'⟩ := hok.later hI hR
          refine ⟨σ.opened, j, lines, h.onward hok' (hon.trans hon'), ?_⟩
          rw [← hsplit, List.append_nil]
          rfl
  | cons line rest ih =>
      intro d₁ d₂ hR₁ hI₁ hR₂ hI₂ ω r ws ls _ hst
      obtain ⟨_, _, _, _, hexec⟩ := statement_eq_some.mp hst
      cases hexec
      obtain ⟨hok, hon⟩ := h.ok.later hI₂ (hR₁.trans hR₂)
      have hrest : (done ++ [line]) ++ rest = lines := by simpa using hsplit
      have hnext := ih (h.onward hok hon) hrest
      rw [List.append_nil]
      simpa [Standing.writes, entryRow] using hnext

/-- The journal under the key is there, and so named. -/
lemma runs_nameJournal (hok : σ.Ok d₀) (hbuild : b.build = .ok j) {row : JournalRow}
    (hrow : σ.db.journals.get? id = some row) (hkey : row.idempotencyKey = j.idempotencyKey) :
    σ.Runs d₀ (nameJournal b (.alreadyPosted id)) := by
  refine Standing.runs_elsewhere hok rfl
    fun r σ₁ hok₁ hon₁ => ?_
  cases r with
  | false => exact fun _ _ _ => trivial
  | true =>
      intro d hR hI
      obtain ⟨hok₂, hon₂⟩ := hok₁.later hI hR
      exact ⟨σ₁.opened, j, row, hok₂, rfl, hbuild,
        hR.journals id row (hon₁.later.journals id row hrow), hkey⟩

lemma runs_postAndName (hok : σ.Ok d₀) {ids : List Uuid}
    (hids : List.Forall₂ (fun id e => σ.Held id e.account) ids b.entries) (hsafe : σ.Safe b) :
    σ.Runs d₀ (postAndName b ids) := by
  unfold postAndName postJournal
  split
  · exact fun _ _ _ => trivial
  · rename_i j hbuild
    refine Standing.runs_call hok fun ω r ws ls d₁ d₂ seen current _ hok₂ hon₁ hR₂ _ hcur hexec =>
      ?_
    have hon₂ : σ.Onward ⟨σ.opened, σ.locks, d₂⟩ :=
      ⟨List.Subset.refl _, List.Subset.refl _, hon₁.later.trans hR₂⟩
    have hjournals := (view_opened σ.opened hcur).1
    simp only [execLedger, LedgerDb.journalId, hjournals] at hexec
    split at hexec
    · -- Somebody's journal is under the key, and will be when it is looked up.
      rename_i hthere
      cases hexec
      rw [List.append_nil, List.append_nil]
      obtain ⟨id, hid⟩ := Option.isSome_iff_exists.mp hthere
      obtain ⟨row, hrow, hkey⟩ := LedgerDb.journalId_eq_some (d := d₂) hid
      refine Standing.runs_call hok₂ fun ω' r ws ls d₃ d₄ seen' _ hok₃ hok₄ hon₃ hR₄ hseen _
        hexec => ?_
      have hjournals' := (view_opened σ.opened hseen).1
      simp only [execLedger, LedgerDb.journalId, hjournals'] at hexec
      cases hexec
      rw [List.append_nil, List.append_nil]
      rcases hfound : d₃.journalId j.idempotencyKey with _ | id'
      · exact absurd hkey
          (LedgerDb.journalId_eq_none.mp hfound id row (hon₃.later.journals id row hrow))
      · obtain ⟨row', hrow', hkey'⟩ := LedgerDb.journalId_eq_some hfound
        have hrun := runs_nameJournal (σ := ⟨σ.opened, σ.locks, d₄⟩) hok₄ hbuild
          (hR₄.journals id' row' hrow') hkey'
        simp only [LedgerDb.journalId] at hfound
        simp only [hfound]
        exact hrun
    · rename_i hfree
      rw [Bool.not_eq_true, Option.isSome_eq_false_iff, Option.isNone_iff_eq_none] at hfree
      split at hexec
      · cases hexec
      · rename_i hid
        rw [Bool.not_eq_true, Option.isSome_eq_false_iff, Option.isNone_iff_eq_none] at hid
        cases hexec
        obtain ⟨hok₃, hon₃⟩ := hok₂.lock [.journal ω.fresh, .journalKey j.idempotencyKey]
        have hentries := (JournalBuilder.build_eq_ok hbuild).2.2.2
        have hfiling : Filing d₀ b j ω.fresh (ids.zip j.entries)
            ⟨σ.opened, σ.locks ++ [.journal ω.fresh, .journalKey j.idempotencyKey], d₂⟩ :=
          { ok := hok₃
            build := hbuild
            entries := List.map_snd_zip (by rw [hentries, hids.length_eq])
            held := fun r hr => ((List.forall₂_zip hids (hentries ▸ hr)).onward hon₂).onward hon₃
            safe := (hsafe.onward hok hon₂).onward hok₂ hon₃
            idLocked := by simp
            keyLocked := by simp
            idFree := hid
            keyFree := by simpa only [LedgerDb.journalId] using hfree }
        exact hfiling.runs_insertEntries (List.nil_append _)

/-- A transfer is safe when what it takes from naira is there, and what it adds to naira is not
negative. -/
lemma safe_transfer {kind : JournalKind} {reference key : String} {debit credit : Account}
    {amount : ℚ} (hdebit : debit.kind = .userNgn → ∃ id, σ.Held id debit ∧
      .account id ∈ σ.locks ∧ σ.db.sum id + amount ≤ 0)
    (hcredit : credit.kind = .userNgn → 0 ≤ amount) :
    σ.Safe (.transfer kind reference key debit credit amount) := by
  intro a hkind hpos
  rw [JournalBuilder.amountOn_transfer] at hpos ⊢
  by_cases hd : debit = a
  · subst hd
    by_cases hc : credit = debit
    · simp [hc] at hpos
    · simpa [hc] using hdebit hkind
  · by_cases hc : credit = a
    · subst hc
      have hle := hcredit hkind
      simp only [hd, if_false, if_true, zero_sub] at hpos
      linarith
    · simp [hd, hc] at hpos

/-- What was summed under the lock is still there. -/
lemma affordable {userId accountId : Uuid} {rawBalance amount : ℚ} (hok : σ.Ok d₀)
    (hheld : σ.Held accountId (.userNgn userId)) (hl : .account accountId ∈ σ.locks)
    (hsum : σ.db.sum accountId ≤ rawBalance)
    (hamount : ¬ AccountKind.userNgn.userFacingBalance rawBalance < amount)
    (hon : σ.Onward σ') : ∃ id, σ'.Held id (.userNgn userId) ∧ .account id ∈ σ'.locks ∧
      σ'.db.sum id + amount ≤ 0 := by
  have hlater := Standing.sum_onward hon hok hl hheld rfl
  rw [AccountKind.userFacingBalance_userNgn, not_lt] at hamount
  exact ⟨accountId, hheld.onward hon, hon.locks hl, by linarith⟩

end Posting

/-! ## The transactions -/

section Transactions

variable {d₀ : LedgerDb} {σ : Standing}

lemma runs_payoutTxn (hok : σ.Ok d₀) (userId : Uuid) (key : String) (amount : ℚ) :
    σ.Runs d₀ (payoutTxn userId key amount) := by
  refine Standing.runs_lockUserNgnAccount hok fun account σ₁ hok₁ _ hheld hl => ?_
  refine Standing.runs_sumEntries hok₁ hheld rfl hl fun rawBalance σ₂ hok₂ hon₂ hsum => ?_
  split
  · exact fun _ _ _ => trivial
  · rename_i hamount
    refine Standing.runs_platformAccount hok₂ fun pending σ₃ hok₃ hon₃ hpending => ?_
    refine Standing.runs_elsewhere hok₃ rfl
      fun referenceId σ₄ hok₄ hon₄ => ?_
    have hon := hon₃.trans hon₄
    refine runs_postAndName hok₄
      (.cons ((hheld.onward hon₂).onward hon) (.cons (hpending.onward hon₄) .nil)) ?_
    exact safe_transfer (fun _ => affordable hok₂ (hheld.onward hon₂) (hon₂.locks hl) hsum hamount
      hon) (fun hkind => by cases hkind)

lemma reservationJournal_eq (keysRequired : Bool) (userId key referenceId : Uuid) (price : ℚ) :
    ∃ k, reservationJournal keysRequired userId key referenceId price =
      .transfer .numberReserve (orderReference referenceId) k (.userNgn userId)
        (.platform .numberPayablePending) price := by
  cases keysRequired with
  | false => exact ⟨_, rfl⟩
  | true => exact ⟨_, rfl⟩

lemma runs_orderTxn (hok : σ.Ok d₀) (userId key : Uuid) : σ.Runs d₀ (orderTxn userId key) := by
  refine Standing.runs_lockUserNgnAccount hok fun account σ₁ hok₁ _ hheld hl => ?_
  refine Standing.runs_elsewhere hok₁ rfl
    fun existing σ₂ hok₂ hon₂ => ?_
  rcases existing with _ | _ | _
  · refine Standing.runs_elsewhere hok₂ rfl
      fun quoted σ₃ hok₃ hon₃ => ?_
    rcases quoted with e | price
    · exact fun _ _ _ => trivial
    · have hheld₃ := (hheld.onward hon₂).onward hon₃
      have hl₃ := hon₃.locks (hon₂.locks hl)
      refine Standing.runs_sumEntries hok₃ hheld₃ rfl hl₃ fun rawBalance σ₄ hok₄ hon₄ hsum => ?_
      split
      · exact fun _ _ _ => trivial
      · rename_i hprice
        refine Standing.runs_platformAccount hok₄ fun pending σ₅ hok₅ hon₅ hpending => ?_
        refine Standing.runs_elsewhere hok₅ rfl
          fun referenceId σ₆ hok₆ hon₆ => ?_
        refine Standing.runs_elsewhere hok₆ rfl
          fun keysRequired σ₇ hok₇ hon₇ => ?_
        obtain ⟨k, hk⟩ := reservationJournal_eq keysRequired userId key referenceId price
        have hon := (hon₅.trans hon₆).trans hon₇
        rw [hk]
        refine runs_postAndName hok₇ (.cons ((hheld₃.onward hon₄).onward hon)
          (.cons (hpending.onward (hon₆.trans hon₇)) .nil)) ?_
        exact safe_transfer (fun _ => affordable hok₄ (hheld₃.onward hon₄) (hon₄.locks hl₃) hsum
          hprice hon) (fun hkind => by cases hkind)
  · exact fun _ _ _ => trivial
  · intro d hR hI
    exact ⟨σ₂.opened, (hok₂.later hI hR).1, rfl⟩

/-- The row lets the transaction go on, or it ends. -/
lemma runs_underLock (hok : σ.Ok d₀) {p : LedgerTxn}
    (hp : ∀ σ' : Standing, σ'.Ok d₀ → σ'.Runs d₀ p) : σ.Runs d₀ (underLock p) := by
  refine Standing.runs_elsewhere hok rfl
    fun goesOn σ₁ hok₁ _ => ?_
  cases goesOn with
  | false => exact fun d hR hI => ⟨σ₁.opened, (hok₁.later hI hR).1, rfl⟩
  | true => exact hp σ₁ hok₁

lemma runs_settleTxn (hok : σ.Ok d₀) (reference : String) (price : StoredPrice) :
    σ.Runs d₀ (settleTxn reference price) := by
  refine runs_underLock hok fun σ₁ hok₁ => ?_
  refine Standing.runs_platformAccount hok₁ fun pending σ₂ hok₂ _ hpending => ?_
  refine Standing.runs_platformAccount hok₂ fun revenue σ₃ hok₃ hon₃ hrevenue => ?_
  refine runs_postAndName hok₃ (.cons (hpending.onward hon₃) (.cons hrevenue .nil)) ?_
  exact safe_transfer (fun hkind => by cases hkind) (fun hkind => by cases hkind)

lemma runs_refundTxn (hok : σ.Ok d₀) (userId : Uuid) (reference : String) (price : StoredPrice) :
    σ.Runs d₀ (refundTxn userId reference price) := by
  refine runs_underLock hok fun σ₁ hok₁ => ?_
  refine Standing.runs_lockUserNgnAccount hok₁ fun account σ₂ hok₂ _ hheld _ => ?_
  refine Standing.runs_platformAccount hok₂ fun pending σ₃ hok₃ hon₃ hpending => ?_
  refine runs_postAndName hok₃ (.cons hpending (.cons (hheld.onward hon₃) .nil)) ?_
  exact safe_transfer (fun hkind => by cases hkind) fun _ => price.2.le

lemma runs_fundingTxn (hok : σ.Ok d₀) (userId : Uuid) (reference : String) (kobo : ℕ) :
    σ.Runs d₀ (fundingTxn userId reference kobo) := by
  refine Standing.runs_lockUserNgnAccount hok fun account σ₁ hok₁ _ hheld _ => ?_
  refine Standing.runs_platformAccount hok₁ fun float σ₂ hok₂ hon₂ hfloat => ?_
  refine runs_postAndName hok₂ (.cons hfloat (.cons (hheld.onward hon₂) .nil)) ?_
  exact safe_transfer (fun hkind => by cases hkind) fun _ => by positivity

/-- Both transactions of the watcher: a user's coins are no naira. -/
lemma runs_deposit (hok : σ.Ok d₀) {kind : JournalKind} {reference key : String} (userId : Uuid)
    (asset : Asset) (amount : ℚ) :
    σ.Runs d₀ (underLock <| findOrCreateAccount (.custody asset) fun custody =>
      findOrCreateAccount (.userCrypto userId asset) fun account =>
        postAndName (.transfer kind reference key (.custody asset) (.userCrypto userId asset)
          amount) [custody, account]) := by
  refine runs_underLock hok fun σ₁ hok₁ => ?_
  refine Standing.runs_findOrCreateAccount hok₁ fun custody σ₂ hok₂ _ hcustody => ?_
  refine Standing.runs_findOrCreateAccount hok₂ fun account σ₃ hok₃ hon₃ haccount => ?_
  refine runs_postAndName hok₃ (.cons (hcustody.onward hon₃) (.cons haccount .nil)) ?_
  exact safe_transfer (fun hkind => by cases hkind) (fun hkind => by cases hkind)

/-- **Every transaction, from its first statement to its last.** -/
lemma runs_program (hok : σ.Ok d₀) (req : LedgerRequest) : σ.Runs d₀ req.program := by
  cases req with
  | payout userId key amount => exact runs_payoutTxn hok userId key amount
  | order userId key => exact runs_orderTxn hok userId key
  | settle reference price => exact runs_settleTxn hok reference price
  | refund userId reference price => exact runs_refundTxn hok userId reference price
  | funding userId reference kobo => exact runs_fundingTxn hok userId reference kobo
  | credit depositId userId amount t => exact runs_deposit hok userId t.asset amount
  | reverse depositId userId amount t => exact runs_deposit hok userId t.asset (-amount)

end Transactions

/-! ## What a commit leaves -/

section Commit

variable {d₀ v d' : LedgerDb} {σ : Standing} {b : JournalBuilder} {j : Journal} {id : Uuid}
  {lines : List (Uuid × Entry)} {l : Ledger}

/-- The accounts a transaction finds and opens have one row each. -/
lemma Standing.Ok.held_unique (hok : σ.Ok d₀) {i i' : Uuid} {a : Account} (h : σ.Held i a)
    (h' : σ.Held i' a) : i = i' := by
  rcases h with h | h <;> rcases h' with h' | h'
  · exact hok.db.once i i' a h h'
  · exact absurd h (LedgerDb.accountId_eq_none.mp (hok.free _ h').2 i)
  · exact absurd h' (LedgerDb.accountId_eq_none.mp (hok.free _ h).2 i')
  · exact congrArg Prod.fst (List.inj_on_of_nodup_map hok.nodup h h' rfl)

/-- New accounts are nobody else's business. -/
lemma Standing.Ok.leaves (hok : σ.Ok d₀) (hview : ledgerDatabase.view σ.writes σ.db = some v) :
    v.Once ∧ (∀ i a, σ.db.accounts.get? i = some a → v.accounts.get? i = some a) ∧
      ∀ others, (∀ lock ∈ σ.locks, lock ∉ others) → LedgerLater others σ.db v := by
  obtain ⟨hjournals, hentries, hacc⟩ := view_opened σ.opened hview
  refine ⟨fun i i' a h h' => hok.held_unique ((hacc i a).mp h) ((hacc i' a).mp h'),
    fun i a h => (hacc i a).mpr (.inl h), fun others hdis => ?_⟩
  refine ⟨fun i a h => (hacc i a).mpr (.inl h), fun i hl hnone => ?_, fun a hl hnone => ?_,
    fun i row h => hjournals ▸ h, fun i _ h => hjournals ▸ h, fun key _ h => ?_, fun i _ _ => ?_⟩
  · by_contra hne
    obtain ⟨a, ha⟩ := Option.ne_none_iff_exists'.mp hne
    rcases (hacc i a).mp ha with h | h
    · rw [hnone] at h
      cases h
    · exact hdis _ (hok.locked _ h).1 hl
  · refine LedgerDb.accountId_eq_none.mpr fun i hi => ?_
    rcases (hacc i a).mp hi with h | h
    · exact LedgerDb.accountId_eq_none.mp hnone i h
    · exact hdis _ (hok.locked _ h).2 hl
  · simpa only [LedgerDb.journalId, hjournals] using h
  · simp only [LedgerDb.sum, hentries, le_refl]

lemma view_entries (es : List EntryRow) (d : LedgerDb) :
    ledgerDatabase.view (es.map .entry) d = some { d with entries := es.reverse ++ d.entries } := by
  induction es generalizing d with
  | nil => rfl
  | cons e es ih =>
      refine (ih { d with entries := e :: d.entries }).trans ?_
      simp

/-- The tables with the journal in them. -/
lemma Filing.view (hview : ledgerDatabase.view (σ.writes ++
      .journal id j.row :: lines.map fun r => .entry (entryRow id r)) σ.db = some d') :
    ∃ v t, ledgerDatabase.view σ.writes σ.db = some v ∧ v.journals.insert id j.row = some t ∧
      d' = ⟨v.accounts, t, (lines.map (entryRow id)).reverse ++ v.entries⟩ := by
  rw [view_append] at hview
  obtain ⟨v, hv, hrest⟩ := Option.bind_eq_some_iff.mp hview
  obtain ⟨d₁, h₁, h₂⟩ := Option.bind_eq_some_iff.mp
    (show ((LedgerWrite.journal id j.row).apply v).bind (ledgerDatabase.view
      (lines.map fun r => LedgerWrite.entry (entryRow id r))) = some d' from hrest)
  obtain ⟨t, ht, rfl⟩ := Option.map_eq_some_iff.mp h₁
  have hmap : (lines.map fun r => LedgerWrite.entry (entryRow id r)) =
      (lines.map (entryRow id)).map .entry := by simp
  rw [hmap, view_entries] at h₂
  exact ⟨v, t, hv, ht, (Option.some.inj h₂).symm⟩

/-- Filing a journal in the tables is posting it in the ledger. -/
lemma Filing.posts (h : Filing d₀ b j id lines σ) (hl : Represents σ.db l)
    (hview : ledgerDatabase.view (σ.writes ++
      .journal id j.row :: lines.map fun r => .entry (entryRow id r)) σ.db = some d') :
    ∃ l', l.post j id = some (.posted id, l') ∧ Represents d' l' := by
  obtain ⟨v, t, hv, ht, rfl⟩ := Filing.view hview
  have hrows := (Table.insert_eq_some ht).2
  have hlv := hl.accounts_grow (h.ok.leaves hv).2.1 (view_opened _ hv).1 (view_opened _ hv).2.1
  have hkey := hl.journalId_eq_none.mp h.keyFree
  have hid := hl.notMem_ids h.idFree
  have hnew : ∀ p ∈ l.postings, p.id ≠ id := fun p hp hpid =>
    hid (hpid ▸ List.mem_map_of_mem hp)
  obtain ⟨out, l', hpost⟩ := Ledger.exists_post j hnew
  obtain ⟨rfl, hpostings⟩ := Ledger.post_of_fresh hpost fun p hp heq => by
    have hnone := List.find?_eq_none.mp hkey p hp
    simp [heq] at hnone
  refine ⟨l', hpost, ⟨?_, ?_⟩⟩
  · rw [hrows, hpostings, List.map_cons, hlv.journals]
  · have hnew : (lines.map (entryRow id)).map v.named = Posting.named ⟨id, j⟩ := by
      simp only [Posting.named, ← h.entries, List.map_map]
      refine List.map_congr_left fun r hr => ?_
      have hheld := (Standing.view_held hv).mpr (h.held r hr)
      simp only [Function.comp_apply, entryRow, LedgerDb.named, hheld]
    rw [hpostings, List.flatMap_cons, List.map_append, List.map_reverse]
    refine List.Perm.append ((List.reverse_perm _).trans ?_) hlv.entries
    exact .of_eq hnew

/-- What a journal takes from naira was there, under the lock. -/
lemma Filing.covered (h : Filing d₀ b j id lines σ) (hl : Represents σ.db l)
    (hv : ledgerDatabase.view σ.writes σ.db = some v) {a : Account} (hkind : a.kind = .userNgn)
    (hpos : 0 < j.amountOn a) : ∃ i, v.accounts.get? i = some a ∧ .account i ∈ σ.locks ∧
      l.balance a + j.amountOn a ≤ 0 := by
  have hb : j.amountOn a = b.amountOn a := by
    rw [Journal.amountOn, Journal.builder_of_build h.build]
  obtain ⟨i, hheld, hlock, hle⟩ := h.safe a hkind (hb ▸ hpos)
  have hi := (Standing.view_held hv).mpr hheld
  have hlv := hl.accounts_grow (h.ok.leaves hv).2.1 (view_opened _ hv).1 (view_opened _ hv).2.1
  have hsum : σ.db.sum i = l.balance a := by
    rw [← hlv.sum_eq (h.ok.leaves hv).1 hi]
    simp only [LedgerDb.sum, (view_opened _ hv).2.1]
  exact ⟨i, hi, hlock, by rw [hb, ← hsum]; exact hle⟩

lemma Filing.leaves (h : Filing d₀ b j id lines σ)
    (hview : ledgerDatabase.view (σ.writes ++
      .journal id j.row :: lines.map fun r => .entry (entryRow id r)) σ.db = some d') :
    LedgerOk d₀ d' ∧
      ∀ others, (∀ lock ∈ σ.locks, lock ∉ others) → LedgerLater others σ.db d' := by
  obtain ⟨l, hl, hsolvent⟩ := h.ok.db.ledger
  obtain ⟨l', hpost, hl'⟩ := h.posts hl hview
  obtain ⟨v, t, hv, ht, rfl⟩ := Filing.view hview
  obtain ⟨honce, hgrows, hlater⟩ := h.ok.leaves hv
  have hjournals := (view_opened _ hv).1
  have hlv := hl.accounts_grow hgrows hjournals (view_opened _ hv).2.1
  have hbalance := Ledger.balance_of_post hpost
  refine ⟨⟨honce, ⟨l', hl', fun userId => ?_⟩, fun i a ha => hgrows i a (h.ok.db.grown i a ha)⟩,
    fun others hdis => ?_⟩
  · rw [AccountKind.userFacingBalance_userNgn, hbalance]
    have hbefore := hsolvent userId
    rw [AccountKind.userFacingBalance_userNgn] at hbefore
    rcases le_or_gt (j.amountOn (.userNgn userId)) 0 with hle | hpos
    · linarith
    · obtain ⟨-, -, -, hle⟩ := h.covered hl hv rfl hpos
      linarith
  · have hsame := hlater others hdis
    refine ⟨hsame.accounts, hsame.accountIds, hsame.accountKeys, fun i row hrow => ?_,
      fun i hl hnone => ?_, fun key hl hnone => ?_, fun i hlock hkind => ?_⟩
    · have hne : i ≠ id := by
        rintro rfl
        rw [h.idFree] at hrow
        cases hrow
      rw [Table.get?_insert ht, if_neg hne, hjournals]
      exact hrow
    · have hne : i ≠ id := by
        rintro rfl
        exact hdis _ h.idLocked hl
      rw [Table.get?_insert ht, if_neg hne, hjournals]
      exact hnone
    · have hne : j.idempotencyKey ≠ key := by
        rintro rfl
        exact hdis _ h.keyLocked hl
      refine LedgerDb.journalId_eq_none.mpr fun i row hrow => ?_
      rw [Table.get?_insert ht] at hrow
      split at hrow
      · cases hrow
        exact hne
      · exact LedgerDb.journalId_eq_none.mp hnone i row (hjournals ▸ hrow)
    · have hsum : σ.db.sum i = v.sum i := by simp only [LedgerDb.sum, (view_opened _ hv).2.1]
      rcases hi : v.accounts.get? i with _ | a
      · rw [hsum, hl'.sum_eq_zero hi, hlv.sum_eq_zero hi]
      · have ha : a.kind = .userNgn := by
          rcases (Standing.view_held hv).mp hi with hdb | hopen
          · exact hkind a hdb
          · exact absurd hlock (hdis _ (h.ok.locked _ hopen).1)
        rw [hsum, hl'.sum_eq honce hi, hlv.sum_eq honce hi, hbalance]
        have hle : j.amountOn a ≤ 0 := by
          by_contra hpos
          obtain ⟨i', hi', hlock', -⟩ := h.covered hl hv ha (not_le.mp hpos)
          rw [honce i' i a hi' hi] at hlock'
          exact hdis _ hlock' hlock
        linarith

/-- **A commit leaves the ledger in order, and respects what the others rely on.** -/
lemma LedgerPost.leaves {d : LedgerDb} {ls : List LedgerLock} {ws : List LedgerWrite}
    {a : LedgerAnswer} (hI : LedgerOk d₀ d) (h : LedgerPost d₀ a ws ls d)
    (ha : a.commits = true) : Database.Leaves ledgerDatabase (LedgerOk d₀) LedgerLater ws ls d := by
  intro d' hview
  have hopened : ∀ opened, Standing.Ok d₀ ⟨opened, ls, d⟩ →
      ws = Standing.writes ⟨opened, ls, d⟩ → LedgerOk d₀ d' ∧
        ∀ others, (∀ lock ∈ ls, lock ∉ others) → LedgerLater others d d' := by
    intro opened hok hws
    subst hws
    obtain ⟨honce, hgrows, hlater⟩ := hok.leaves hview
    obtain ⟨l, hl, hsolvent⟩ := hI.ledger
    have hl' := hl.accounts_grow hgrows (view_opened opened hview).1
      (view_opened opened hview).2.1
    exact ⟨⟨honce, ⟨l, hl', hsolvent⟩, fun i b hb => hgrows i b (hI.grown i b hb)⟩, hlater⟩
  cases a with
  | posted b outcome =>
      cases outcome with
      | posted id =>
          obtain ⟨opened, j, lines, hfiling, rfl⟩ := h
          exact hfiling.leaves hview
      | alreadyPosted id =>
          obtain ⟨opened, j, row, hok, hws, -⟩ := h
          exact hopened opened hok hws
  | nothing =>
      obtain ⟨opened, hok, hws⟩ := h
      exact hopened opened hok hws
  | refused e | failed e => cases ha

end Commit

/-! ## In any interleaving -/

section Interleavings

variable {d₀ : LedgerDb} {l₀ : Ledger} {s s' : LedgerStore} {tid : ℕ}

/-- Transactions under way, whatever was in the ledger before. -/
def ledgerDiscipline (d₀ : LedgerDb) : Discipline ledgerDatabase anyStatement where
  inv := LedgerOk d₀
  rely := LedgerLater
  post := LedgerPost d₀
  refl := .refl
  trans := LedgerLater.trans
  starts req d hI := runs_program (σ := ⟨[], [], d⟩)
    ⟨hI, fun _ hr => absurd hr List.not_mem_nil, fun _ hr => absurd hr List.not_mem_nil,
      List.nodup_nil⟩ req
  commits hI hpost ha := hpost.leaves hI ha

lemma storeOk_ledger (honce : d₀.Once) (hl : Represents d₀ l₀) (hsolvent : Solvent l₀)
    (hr : ledgerDatabase.Reachable unguarded (.quiet d₀) s) :
    StoreOk (ledgerDiscipline d₀) s :=
  (StoreOk.quiet (K := ledgerDiscipline d₀) ⟨honce, ⟨l₀, hl, hsolvent⟩, fun _ _ h => h⟩).reachable
    (hr.mono fun s m _ => onStatements_anyStatement s m)

/-- Journals posted one after another, each as one step, each when what it takes from a user's
naira can be afforded. -/
inductive Ledger.Follows (l₀ : Ledger) : Ledger → Prop where
  | start : Follows l₀ l₀
  | post {l l' : Ledger} {j : Journal} {id : Uuid} : Follows l₀ l →
      l.post j id = some (.posted id, l') →
      (∀ userId, 0 < j.amountOn (.userNgn userId) →
        l.affords userId (j.amountOn (.userNgn userId)) = true) → Follows l₀ l'

/-- What a filed journal takes from a user's naira can be afforded. -/
lemma Filing.affords {b : JournalBuilder} {j : Journal} {id : Uuid} {lines : List (Uuid × Entry)}
    {σ : Standing} {v : LedgerDb} {l : Ledger} (h : Filing d₀ b j id lines σ)
    (hl : Represents σ.db l) (hv : ledgerDatabase.view σ.writes σ.db = some v) (userId : Uuid)
    (hpos : 0 < j.amountOn (.userNgn userId)) :
    l.affords userId (j.amountOn (.userNgn userId)) = true := by
  obtain ⟨-, -, -, hle⟩ := h.covered hl hv rfl hpos
  rw [Ledger.affords, decide_eq_true_eq, AccountKind.userFacingBalance_userNgn]
  linarith

/-- **A commit is one step of the ledger.**  It posts what the transaction answers to have posted,
or leaves the ledger alone. -/
lemma commit_step (h : StoreOk (ledgerDiscipline d₀) s) {a : LedgerAnswer}
    (ha : s.answer tid = some a)
    (hs : ledgerDatabase.step s (.commit tid : TxnMove LedgerOracle LedgerRequest) = some s')
    {l : Ledger} (hl : Represents s.committed l) :
    (Represents s'.committed l ∧ ∀ b id, a ≠ .posted b (.posted id)) ∨
    (∃ b id j l', a = .posted b (.posted id) ∧ b.build = .ok j ∧ Represents s'.committed l' ∧
      l.post j id = some (.posted id, l') ∧
      ∀ userId, 0 < j.amountOn (.userNgn userId) →
        l.affords userId (j.amountOn (.userNgn userId)) = true) := by
  obtain ⟨hcommits, ws, ls, hpost, hview⟩ := h.commit ha hs
  have hsame : ∀ opened, Standing.Ok d₀ ⟨opened, ls, s.committed⟩ →
      ws = Standing.writes ⟨opened, ls, s.committed⟩ → Represents s'.committed l := by
    intro opened hok hws
    subst hws
    exact hl.accounts_grow (hok.leaves hview).2.1 (view_opened opened hview).1
      (view_opened opened hview).2.1
  cases a with
  | posted b outcome =>
      cases outcome with
      | posted id =>
          obtain ⟨opened, j, lines, hfiling, rfl⟩ := hpost
          obtain ⟨l', hposted, hl'⟩ := hfiling.posts hl hview
          obtain ⟨v, -, hv, -⟩ := Filing.view hview
          exact .inr ⟨b, id, j, l', rfl, hfiling.build, hl', hposted, hfiling.affords hl hv⟩
      | alreadyPosted id =>
          obtain ⟨opened, j, row, hok, hws, -⟩ := hpost
          exact .inl ⟨hsame opened hok hws, by simp⟩
  | nothing =>
      obtain ⟨opened, hok, hws⟩ := hpost
      exact .inl ⟨hsame opened hok hws, by simp⟩
  | refused e | failed e => cases hcommits

/-- Nothing is owed before anything was posted. -/
lemma ledger_empty : LedgerDb.empty.Once ∧ Represents .empty .empty ∧ Solvent .empty := by
  refine ⟨fun id id' a h => ?_, ⟨rfl, .refl _⟩, fun userId => ?_⟩
  · cases h
  · rw [Ledger.balance_empty, AccountKind.userFacingBalance_userNgn, neg_zero]

/-- The answers to the statements of the top-up, and of a payout. -/
def topUpAnswers : List LedgerOracle :=
  [{}, { fresh := 1 }, {}, { fresh := 2 }, { fresh := 10 }, {}, {}, {}]

def payoutAnswers : List LedgerOracle :=
  [{}, {}, {}, { fresh := 3 }, { fresh := 20 }, { fresh := 11 }, {}, {}, {}]

/-- User 7 tops up with ₦1000, then asks for two payouts of ₦600 at once: the second has looked
for the account before the first commits, and locks it afterwards. -/
def racingPayouts : List (TxnMove LedgerOracle LedgerRequest) :=
  TxnMove.served 1 (.funding 7 "NVFD-1" 100000) topUpAnswers ++
    (TxnMove.begun 2 (.payout 7 "first" 600) payoutAnswers ++
    [.start 3 (.payout 7 "second" 600), .send 3, .commit 2, .perform 3 {}, .send 3, .perform 3 {}])

/-- **The interleaved ledger is a serial one.**  In every interleaving of payouts, orders,
settlements, refunds, top-ups and deposits at READ COMMITTED, the committed tables are a ledger
that comes about by posting journals one at a time, each affordable in the moment it is posted;
and a transaction that commits with a journal posted makes the next step. -/
theorem ledger_serialises (honce : d₀.Once) (hl₀ : Represents d₀ l₀) (hsolvent : Solvent l₀)
    (hr : ledgerDatabase.Reachable unguarded (.quiet d₀) s) :
    ∃ l, Represents s.committed l ∧ l₀.Follows l ∧ ∀ tid b id s',
      s.answer tid = some (.posted b (.posted id)) →
      ledgerDatabase.step s (.commit tid) = some s' →
      ∃ j l', b.build = .ok j ∧ l.post j id = some (.posted id, l') ∧
        Represents s'.committed l' ∧ l₀.Follows l' := by
  have hruns : ∃ l, Represents s.committed l ∧ l₀.Follows l := by
    induction hr with
    | init => exact ⟨l₀, hl₀, .start⟩
    | step hr _ hs ih =>
        obtain ⟨l, hl, hfollows⟩ := ih
        have hok := storeOk_ledger honce hl₀ hsolvent hr
        rcases step_cases hs with ⟨tid, req, rfl, hc, -⟩ | ⟨tid, rfl, hc, -⟩ |
          ⟨tid, op, k, writes, locks, snapshot, ω, r, ws, ls, rfl, -, -, -, hc, -⟩ |
          ⟨tid, a, writes, locks, snapshot, rfl, htxn, -⟩ | ⟨tid, rfl, hc, -⟩
        · exact ⟨l, hc ▸ hl, hfollows⟩
        · exact ⟨l, hc ▸ hl, hfollows⟩
        · exact ⟨l, hc ▸ hl, hfollows⟩
        · have ha := Store.answer_eq_some.mpr ⟨writes, locks, snapshot, htxn⟩
          rcases commit_step hok ha hs hl with ⟨hl', -⟩ |
            ⟨b, id, j, l', -, -, hl', hpost, hafford⟩
          · exact ⟨l, hl', hfollows⟩
          · exact ⟨l', hl', hfollows.post hpost hafford⟩
        · exact ⟨l, hc ▸ hl, hfollows⟩
  obtain ⟨l, hl, hfollows⟩ := hruns
  refine ⟨l, hl, hfollows, fun tid b id s' ha hs => ?_⟩
  rcases commit_step (storeOk_ledger honce hl₀ hsolvent hr) ha hs hl with ⟨-, hne⟩ |
    ⟨b', id', j, l', heq, hbuild, hl', hpost, hafford⟩
  · exact absurd rfl (hne b id)
  · cases heq
    exact ⟨j, l', hbuild, hpost, hl', hfollows.post hpost hafford⟩

theorem ledger_serialises_racing : ∃ s, ledgerDatabase.Reachable unguarded (.quiet .empty) s ∧
    s.committed.sum 1 = -400 ∧ ∃ l, Represents s.committed l ∧ Ledger.empty.Follows l := by
  obtain ⟨s, hr, hsum⟩ := exists_reachable_of_run ledgerDatabase unguarded (.quiet .empty)
    racingPayouts (fun s => s.committed.sum 1 = -400) (by decide +kernel)
  obtain ⟨honce, hl, hsolvent⟩ := ledger_empty
  obtain ⟨l, hl', hfollows, -⟩ := ledger_serialises honce hl hsolvent hr
  exact ⟨s, hr, hsum, l, hl', hfollows⟩

/-- **No user's naira is ever below zero**, in any interleaving. -/
theorem never_overdrawn (honce : d₀.Once) (hl₀ : Represents d₀ l₀) (hsolvent : Solvent l₀)
    (hr : ledgerDatabase.Reachable unguarded (.quiet d₀) s) {id userId : Uuid}
    (hid : s.committed.accounts.get? id = some (.userNgn userId)) :
    0 ≤ AccountKind.userNgn.userFacingBalance (s.committed.sum id) := by
  have hok := (storeOk_ledger honce hl₀ hsolvent hr).committed
  obtain ⟨l, hl, hs⟩ := hok.ledger
  rw [hl.sum_eq hok.once hid]
  exact hs userId

/-- The second payout is refused. -/
theorem never_overdrawn_racing : ∃ s, ledgerDatabase.Reachable unguarded (.quiet .empty) s ∧
    (s.answer 3).map LedgerAnswer.commits = some false ∧
    0 ≤ AccountKind.userNgn.userFacingBalance (s.committed.sum 1) := by
  obtain ⟨s, hr, hid, hanswer⟩ := exists_reachable_of_run ledgerDatabase unguarded (.quiet .empty)
    racingPayouts (fun s => s.committed.accounts.get? 1 = some (.userNgn 7) ∧
      (s.answer 3).map LedgerAnswer.commits = some false) (by decide +kernel)
  obtain ⟨honce, hl, hsolvent⟩ := ledger_empty
  exact ⟨s, hr, hanswer, never_overdrawn honce hl hsolvent hr hid⟩

/-- The answers to the statements of a settlement that creates both its accounts. -/
def settlementAnswers : List LedgerOracle :=
  [{}, {}, { fresh := 1 }, {}, { fresh := 2 }, { fresh := 10 }, {}, {}, {}]

/-- Two orders are settled at once, the first ever: both look for the account of pending orders
before either creates it. -/
def racingSettlements : List (TxnMove LedgerOracle LedgerRequest) :=
  TxnMove.begun 1 (.settle "NVNO-1" ⟨620, by norm_num⟩) (settlementAnswers.take 2) ++
    (TxnMove.begun 2 (.settle "NVNO-2" ⟨620, by norm_num⟩) (settlementAnswers.take 2) ++
    (TxnMove.steps 1 (settlementAnswers.drop 2) ++
    (.commit 1 :: TxnMove.steps 2 [{ fresh := 3 }])))

/-- **Everybody finds or creates one and the same account.**  In any interleaving no account has
two rows, and a lookup that is repeated after a lost race does not come back empty.  A transaction
fails over an account only where `platform_account` looked before the account was there and
inserted after somebody else had. -/
theorem accounts_opened_once (honce : d₀.Once) (hl₀ : Represents d₀ l₀) (hsolvent : Solvent l₀)
    (hr : ledgerDatabase.Reachable unguarded (.quiet d₀) s) :
    s.committed.Once ∧ ∀ tid e, s.answer tid = some (.failed e) → e ≠ .rowNotFound ∧
      ∀ a, e = .accountExists a → (∃ kind, a = .platform kind) ∧ d₀.accountId a = none ∧
        s.committed.accountId a ≠ none := by
  have hok := storeOk_ledger honce hl₀ hsolvent hr
  refine ⟨hok.committed.once, fun tid e ha => ?_⟩
  obtain ⟨ws, ls, snapshot, htxn⟩ := Store.answer_eq_some.mp ha
  have hpost : LedgerPost d₀ (.failed e) ws ls s.committed := hok.post htxn
  cases e with
  | rowNotFound => exact hpost.elim
  | accountExists a =>
      refine ⟨by simp, fun a' heq => ?_⟩
      cases heq
      exact hpost
  | journal e => simp
  | row => simp

/-- The error a transaction ends with. -/
def LedgerAnswer.failure : LedgerAnswer → Option LedgerFailure
  | .failed e => some e
  | _ => none

/-- The second settlement fails on the unique index. -/
theorem accounts_opened_once_racing :
    ∃ s, ledgerDatabase.Reachable unguarded (.quiet .empty) s ∧
      (s.answer 2).bind LedgerAnswer.failure =
        some (.accountExists (.platform .numberPayablePending)) ∧
      s.committed.Once ∧ s.committed.accountId (.platform .numberPayablePending) ≠ none := by
  obtain ⟨s, hr, hfailure⟩ := exists_reachable_of_run ledgerDatabase unguarded (.quiet .empty)
    racingSettlements (fun s => (s.answer 2).bind LedgerAnswer.failure =
      some (.accountExists (.platform .numberPayablePending))) (by decide +kernel)
  obtain ⟨honce, hl, hsolvent⟩ := ledger_empty
  obtain ⟨hone, hfails⟩ := accounts_opened_once honce hl hsolvent hr
  obtain ⟨a, ha, hfailed⟩ := Option.bind_eq_some_iff.mp hfailure
  cases a with
  | failed e =>
      cases hfailed
      exact ⟨s, hr, hfailure, hone, ((hfails 2 _ ha).2 _ rfl).2.2⟩
  | posted b outcome | nothing | refused e => cases hfailed

end Interleavings

end Naivolt
