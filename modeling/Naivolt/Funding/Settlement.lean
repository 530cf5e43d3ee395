import Naivolt.System.Contracted

/-!
# A top-up is credited exactly when it succeeded

`credit_deposit` posts the credit and then marks the intent, if it is still pending, in one
transaction; how many rows the update touched is not looked at.  Between the provider's answer
and the credit a sweep may abandon the intent, and the money is then credited to an intent that
says it never came.

`FundingBooks` is the invariant that pairs every credit with its intent.  `CreditInStep` is the
condition under which a credit keeps it: the ledger key is free exactly when the intent is
pending.  `credited_iff_succeeded` is the law of the runs that meet it, and
`credited_but_abandoned` a run that does not.
-/

namespace Naivolt

open Foundation Foundation.Machine

/-! ## Credits and intents -/

/-- The journal is the credit of the intent's reference. -/
def Intent.CreditedBy (i : Intent) (q : Posting) : Prop :=
  q.journal.kind = .ngnDeposit ∧ q.journal.reference = i.reference

instance (i : Intent) (q : Posting) : Decidable (i.CreditedBy q) := by
  unfold Intent.CreditedBy
  infer_instance

/-- The row says that the charge succeeded and names the journal that credited it. -/
def Intent.SucceededBy (i : Intent) (q : Posting) : Prop :=
  i.status = .succeeded ∧ i.creditedJournalId = some q.id

instance (i : Intent) (q : Posting) : Decidable (i.SucceededBy q) := by
  unfold Intent.SucceededBy
  infer_instance

/-- A credit of the intent's reference exists exactly when the intent succeeded and names it;
there is at most one, and it credits the intent's user by the amount on the row. -/
structure Intent.Settled (l : Ledger) (i : Intent) : Prop where
  named : ∀ q ∈ l.postings, i.CreditedBy q → i.SucceededBy q
  exists_credit : i.status = .succeeded → ∃ q ∈ l.postings, i.CreditedBy q ∧ i.SucceededBy q
  unique : ∀ q ∈ l.postings, ∀ q' ∈ l.postings, i.CreditedBy q → i.CreditedBy q' → q = q'
  entries : ∀ q ∈ l.postings, i.CreditedBy q → q.journal.entries =
    [⟨.platform .ngnFloat, i.amountNgn⟩, ⟨.userNgn i.userId, -i.amountNgn⟩]

/-- Every top-up is settled. -/
def TopUpsSettled (w : World) : Prop :=
  ∀ id i, w.intents.get? id = some i → i.Settled w.ledger

/-- A credit that the database carries out finds the key of its reference free exactly when it
finds the intent pending. -/
def CreditInStep (op : Op) (ω : Oracle) (w : World) : Prop :=
  match op with
  | .funding (.credit id _ reference _) => ω.dbFails = false → ∀ i ∈ w.intents.get? id,
      (w.ledger.findKey (creditKey reference) = none ↔ i.status = .pending)
  | _ => True

instance (op : Op) (ω : Oracle) (w : World) : Decidable (CreditInStep op ω w) := by
  unfold CreditInStep
  split <;> infer_instance

/-! ## The invariant -/

/-- Every credit has its intent, and every intent that succeeded its credit. -/
structure FundingBooks (l : Ledger) (t : IntentTable) : Prop where
  owned : ∀ q ∈ l.postings, q.journal.kind = .ngnDeposit → ∃ id i, t.get? id = some i ∧
    i.SucceededBy q ∧ q.journal.builder = creditJournalNgn i.userId i.reference i.amountNgn
  posted : ∀ id i, t.get? id = some i → i.status = .succeeded →
    ∃ q ∈ l.postings, i.CreditedBy q ∧ i.creditedJournalId = some q.id

namespace FundingBooks

variable {l l' : Ledger} {t t' : IntentTable}

lemma empty : FundingBooks .empty .empty :=
  ⟨fun q hq => absurd hq List.not_mem_nil, fun id i hi => by
    simp [IntentTable.get?, IntentTable.empty] at hi⟩

/-- The intents that succeeded are the same. -/
lemma frame (h : FundingBooks l t) (hsame : ∀ id i, i.status = .succeeded →
    (t'.get? id = some i ↔ t.get? id = some i)) : FundingBooks l t' := by
  refine ⟨fun q hq hk => ?_, fun id i hi hs => h.posted id i ((hsame id i hs).mp hi) hs⟩
  obtain ⟨id, i, hi, hs, hb⟩ := h.owned q hq hk
  exact ⟨id, i, (hsame id i hs.1).mpr hi, hs, hb⟩

/-- A posting of another kind. -/
lemma post_other (h : FundingBooks l t) {j : Journal} {id : Uuid} {out : PostOutcome}
    (hpost : l.post j id = some (out, l')) (hkind : j.kind ≠ .ngnDeposit) : FundingBooks l' t := by
  rcases Ledger.post_cases hpost with ⟨-, hp, -⟩ | ⟨q, -, -, -, rfl⟩
  · refine ⟨fun q hq hk => ?_, fun id i hi hs => ?_⟩
    · rw [hp] at hq
      rcases List.mem_cons.mp hq with rfl | hq
      · exact absurd hk hkind
      · exact h.owned q hq hk
    · obtain ⟨q, hq, hrest⟩ := h.posted id i hi hs
      exact ⟨q, hp ▸ List.mem_cons_of_mem _ hq, hrest⟩
  · exact h

/-- A credit that finds its key free and its intent pending. -/
lemma credit (h : FundingBooks l t) {id jid : Uuid} {i : Intent} {amount : ℚ} {j : Journal}
    (hi : t.get? id = some i) (hpending : i.status = .pending)
    (hbuild : (creditJournalNgn i.userId i.reference amount).build = .ok j)
    (hpost : l.post j jid = some (.posted jid, l'))
    (hintents : t'.table = t.table.modify id (intentSucceeded amount jid)) :
    FundingBooks l' t' := by
  obtain ⟨-, hp, -⟩ := Ledger.of_posted hpost
  have hget := IntentTable.get?_of_modify hintents
  have hnew : t'.get? id = some (intentSucceeded amount jid i) := by
    rw [hget, if_pos rfl, hi, Option.map_some]
  have hrow : (intentSucceeded amount jid i).SucceededBy ⟨jid, j⟩ := by
    simp [intentSucceeded, hpending, Intent.SucceededBy]
  refine ⟨fun q hq hk => ?_, fun k i' hi' hs => ?_⟩
  · rw [hp] at hq
    rcases List.mem_cons.mp hq with rfl | hq
    · refine ⟨id, _, hnew, hrow, ?_⟩
      simp [Journal.builder_of_build hbuild, intentSucceeded, hpending]
    · obtain ⟨k, i', hi', hs, hb⟩ := h.owned q hq hk
      have hne : k ≠ id := by
        rintro rfl
        cases hi.symm.trans hi'
        cases hpending.symm.trans hs.1
      exact ⟨k, i', by rw [hget, if_neg hne, hi', Option.map_some], hs, hb⟩
  · by_cases hk : k = id
    · subst hk
      cases hnew.symm.trans hi'
      obtain ⟨hkind, href, -, -⟩ := JournalBuilder.build_eq_ok hbuild
      refine ⟨⟨jid, j⟩, by simp [hp], ⟨hkind, href.trans ?_⟩, hrow.2⟩
      simp [creditJournalNgn, JournalBuilder.transfer, intentSucceeded, hpending]
    · rw [hget, if_neg hk, Option.map_id'] at hi'
      obtain ⟨q, hq, hrest⟩ := h.posted k i' hi' hs
      exact ⟨q, hp ▸ List.mem_cons_of_mem _ hq, hrest⟩

/-- The books settle every intent. -/
lemma settled (h : FundingBooks l t) {id : Uuid} {i : Intent} (hi : t.get? id = some i) :
    i.Settled l := by
  -- A credit of the reference is owned by the intent itself: no two share a reference.
  have hown : ∀ q ∈ l.postings, i.CreditedBy q → i.SucceededBy q ∧
      q.journal.builder = creditJournalNgn i.userId i.reference i.amountNgn := by
    rintro q hq ⟨hk, hr⟩
    obtain ⟨id', i', hi', hs, hb⟩ := h.owned q hq hk
    have href : i'.reference = i.reference :=
      (congrArg JournalBuilder.reference hb).symm.trans hr
    obtain rfl := t.eq_of_reference hi' hi href
    cases hi.symm.trans hi'
    exact ⟨hs, hb⟩
  refine ⟨fun q hq hc => (hown q hq hc).1, fun hs => ?_, fun q hq q' hq' hc hc' => ?_,
    fun q hq hc => congrArg JournalBuilder.entries (hown q hq hc).2⟩
  · obtain ⟨q, hq, hc, hid⟩ := h.posted id i hi hs
    exact ⟨q, hq, hc, hs, hid⟩
  · have hid := (hown q hq hc).1.2.symm.trans (hown q' hq' hc').1.2
    exact List.inj_on_of_nodup_map l.idsUnique hq hq' (Option.some.inj hid)

end FundingBooks

/-! ## One step -/

section Step

variable {cfg : Config} {tid : ℕ} {req : Request} {born : Time} {ω : Oracle} {w w' : World}
  {op : Op}

/-- Only a confirmed top-up is credited as one. -/
lemma Posts.kind_ne_ngnDeposit {b : JournalBuilder} (h : Posts w op b)
    (hop : ∀ fop, op ≠ .funding fop) : b.kind ≠ .ngnDeposit := by
  cases h with
  | fund => exact absurd rfl (hop _)
  | _ => exact JournalKind.noConfusion

/-- A rewrite of intents that leaves those that succeeded as they are. -/
lemma FundingBooks.rewrite {l : Ledger} {t t' : IntentTable} (h : FundingBooks l t)
    {f : Uuid → Intent → Intent} (hget : ∀ id, t'.get? id = (t.get? id).map (f id))
    (hf : ∀ id i, t.get? id = some i → i.status = .succeeded ∨ (f id i).status = .succeeded →
      f id i = i) : FundingBooks l t' := by
  refine h.frame fun id i hs => ?_
  rw [hget]
  constructor
  · intro hi
    obtain ⟨i₀, hi₀, rfl⟩ := Option.map_eq_some_iff.mp hi
    rw [hi₀, hf id i₀ hi₀ (.inr hs)]
  · intro hi
    rw [hi, Option.map_some, hf id i hi (.inl hs)]

/-- Declining and abandoning leave an intent that succeeded alone. -/
lemma intentFailed_of_succeeded {reason : String} {i : Intent}
    (h : i.status = .succeeded ∨ (intentFailed reason i).status = .succeeded) :
    intentFailed reason i = i := by
  unfold intentFailed at h ⊢
  split
  · rename_i hpending
    simp [hpending] at h
  · rfl

lemma intentAbandoned_of_succeeded {now : Time} {i : Intent}
    (h : i.status = .succeeded ∨ (intentAbandoned now i).status = .succeeded) :
    intentAbandoned now i = i := by
  unfold intentAbandoned at h ⊢
  split
  · rename_i hdue
    have hpending : i.status = .pending := by
      simp only [dueForAbandon, Bool.and_eq_true, decide_eq_true_eq] at hdue
      exact hdue.1.1
    simp [hdue, hpending] at h
  · rfl

/-- Every step under its contract, a credit in step, keeps the books. -/
lemma FundingBooks.step {r : op.Res} (he : exec cfg tid op ω w = some (r, w'))
    (hC : Contract cfg tid req born op w) (hstep : CreditInStep op ω w)
    (hI : FundingBooks w.ledger w.intents) : FundingBooks w'.ledger w'.intents := by
  have hother : (∀ fop, op ≠ .funding fop) → w'.intents = w.intents →
      FundingBooks w'.ledger w'.intents := by
    intro hop hintents
    rw [hintents]
    cases exec_ledger he with
    | same hledger hlog => rwa [hledger]
    | posted hposts hbuild hpost hlog =>
        refine hI.post_other hpost ?_
        rw [(JournalBuilder.build_eq_ok hbuild).1]
        exact hposts.kind_ne_ngnDeposit hop
  cases (exec_move he).2 with
  | funding hexec =>
      cases execFunding_move hexec with
      | idle => exact hI
      | verified => exact hI
      | @inserted userId id amount intents u hinsert =>
          refine hI.frame fun k i hs => ?_
          have hget : intents.get? k = _ := Table.get?_insert hinsert k
          change intents.get? k = some i ↔ w.intents.get? k = some i
          rw [hget]
          split
          · rename_i hk
            have hnone : w.intents.get? k = none := hk ▸ (Table.insert_eq_some hinsert).1
            rw [hnone]
            refine iff_of_false (fun hi => ?_) fun hi => by cases hi
            cases hi
            cases hs
          · rfl
      | failed hintents =>
          refine hI.rewrite (IntentTable.get?_of_modify hintents) fun k i hi hs => ?_
          split at hs <;> rename_i hk
          · rw [if_pos hk, intentFailed_of_succeeded hs]
          · rw [if_neg hk]
      | abandoned hintents =>
          exact hI.rewrite (IntentTable.get?_of_map hintents) fun k i hi hs =>
            intentAbandoned_of_succeeded hs
      | @credited id userId journalId reference amount journal out ledger intents hdb hbuild hledger
          hintents =>
          obtain ⟨i, hi, rfl, rfl, -⟩ := hC
          have hin := hstep hdb i hi
          have hkey : journal.idempotencyKey = creditKey i.reference :=
            (JournalBuilder.build_eq_ok hbuild).2.2.1
          rcases Ledger.post_cases hledger with ⟨rfl, -, hfree⟩ | ⟨q, hq, hqkey, rfl, hl⟩
          · have hnone : w.ledger.findKey (creditKey i.reference) = none := by
              refine List.find?_eq_none.mpr fun q hq => ?_
              simpa [hkey] using hfree q hq
            exact hI.credit hi (hin.mp hnone) hbuild hledger hintents
          · -- The key is held, so the intent is not pending and keeps its row.
            have hheld : w.ledger.findKey (creditKey i.reference) = some q :=
              Ledger.findKey_eq_some_iff.mpr ⟨hq, hqkey.trans hkey⟩
            have hsettled : i.status ≠ .pending := fun hpending => by
              rw [hin.mpr hpending] at hheld
              cases hheld
            have hbooks : FundingBooks w.ledger intents := by
              refine hI.rewrite (IntentTable.get?_of_modify hintents) fun k i' hi' _ => ?_
              split
              · rename_i hk
                subst hk
                cases hi.symm.trans hi'
                exact if_neg hsettled
              · rfl
            exact hl ▸ hbooks
  | numbers => exact hother (fun _ => Op.noConfusion) rfl
  | supplier => exact hother (fun _ => Op.noConfusion) rfl
  | payouts => exact hother (fun _ => Op.noConfusion) rfl
  | watcher => exact hother (fun _ => Op.noConfusion) rfl
  | look hop =>
      refine hother (fun pop heq => ?_) rfl
      subst heq
      rcases hop with hop | ⟨id, hop⟩ <;> cases hop

end Step

/-! ## The two results -/

/-- **A top-up is credited exactly when it succeeded**, in every run in which a credit finds its
key free exactly when it finds its intent pending. -/
theorem credited_iff_succeeded {cfg : Config} {now : Time} {wallets : List Wallet} {s : State}
    (h : (backend cfg).Reachable (onOps fun _ _ _ op ω w => CreditInStep op ω w)
      (initial now wallets) s) : TopUpsSettled s.world := by
  have hbooks : FundingBooks s.world.ledger s.world.intents := by
    refine Reachable.guarded_inv (I := fun w => FundingBooks w.ledger w.intents) .empty
      (fun e w w' he hI => ?_) (fun tid req b op ω r w w' hP he hI => hI.step he hP.2.2 hP.1)
      (contracted h)
    obtain ⟨now, wallets, tiers, -, rfl⟩ := execEnv_eq he
    exact hI
  exact fun id i hi => hbooks.settled hi

/-- A customer looks at a top-up just before it is a day old, and the provider confirms it.  The
read is answered before the next sweep, or after it. -/
def lastMinuteTopUp (sweepFirst : Bool) : List Move :=
  let credit : Move := .resume 1 { fresh := [102] }
  let sweep : List Move := wait (seconds 10) :: serve 2 .fundingSweep [{}, {}]
  serve 0 (.createIntent 7 5000 0) [{ fresh := [100, 101] }, {}] ++ wait (hours 24 - seconds 5) ::
  serve 1 (.getIntent 7 100) [{}, { charge := .succeeded 5000 }] ++
  if sweepFirst then sweep ++ [credit] else credit :: sweep

theorem credited_iff_succeeded_lastMinute :
    ∃ s : State, s.world.ledger.postings.length = 1 ∧ TopUpsSettled s.world := by
  obtain ⟨s, hs, hposted⟩ := exists_reachable_of_run (backend paystackConfig)
    (onOps fun _ _ _ op ω w => CreditInStep op ω w) (initial 0 []) (lastMinuteTopUp false)
    (fun s => s.world.ledger.postings.length = 1) (by decide +kernel)
  exact ⟨s, hposted, credited_iff_succeeded hs⟩

/-- A credit for this intent exists, and its row does not say so. -/
def creditedUnnamed (w : World) (id : Uuid) : Bool :=
  (w.intents.get? id).any fun i =>
    w.ledger.postings.any fun q => i.CreditedBy q && !decide (i.SucceededBy q)

/-- A sweep between the provider's answer and the credit leaves a credited top-up abandoned. -/
theorem credited_but_abandoned :
    ¬ ∀ s : State, (backend paystackConfig).Reachable unguarded (initial 0 []) s →
      TopUpsSettled s.world := by
  intro h
  obtain ⟨s, hs, hun⟩ := exists_reachable_of_run (backend paystackConfig) unguarded
    (initial 0 []) (lastMinuteTopUp true) (fun s => creditedUnnamed s.world 100 = true)
    (by decide +kernel)
  obtain ⟨i, hi, hun⟩ := (Option.any_eq_true _ _).mp hun
  obtain ⟨q, hq, hun⟩ := List.any_eq_true.mp hun
  simp only [Bool.and_eq_true, decide_eq_true_eq, Bool.not_eq_true', decide_eq_false_iff_not] at hun
  exact hun.2 ((h s hs 100 i hi).named q hq hun.1)

end Naivolt
