import Naivolt.System.Steps

/-!
# What backs a payout

A row of `payouts` should name the journal that took its naira from its user.  The reserving
transaction posts under the raw key its client sent, and a posting that finds the key in use
hands back whatever journal is there, so the row can name a journal that never debited
anyone.

`PayoutKeyOwn` is the condition that excludes exactly that: the key is free, or holds a
journal a payout posted.  `payout_backed` shows that under it every row is backed by a
reservation of its own, and `payout_not_backed` runs the backend into a row that is not.
-/

namespace Naivolt

open Foundation Foundation.Machine

/-! ## Backing -/

/-- The journal reserves the naira of the row. -/
def BackedBy (p : Payout) (q : Posting) : Prop :=
  q.id = p.reservedJournalId ∧ q.journal.kind = .payoutReserve ∧
    q.journal.entries =
      [⟨.userNgn p.userId, p.amountNgn⟩, ⟨.platform .ngnPayablePending, -p.amountNgn⟩]

instance (p : Payout) (q : Posting) : Decidable (BackedBy p q) := by
  unfold BackedBy
  infer_instance

/-- Every payout names a reservation of its user's naira for exactly its amount, and no two
payouts name one journal. -/
def PayoutsBacked (w : World) : Prop :=
  (∀ r ∈ w.payouts.rows, ∃ q ∈ w.ledger.postings, BackedBy r.2 q) ∧
    ∀ r ∈ w.payouts.rows, ∀ r' ∈ w.payouts.rows,
      r.2.reservedJournalId = r'.2.reservedJournalId → r.1 = r'.1

instance (w : World) : Decidable (PayoutsBacked w) := by
  unfold PayoutsBacked
  infer_instance

/-- An affordable payout about to be reserved finds its key free, or held by a payout's
journal. -/
def PayoutKeyOwn (op : Op) (w : World) : Prop :=
  match op with
  | .payouts (.reserve userId key amount _) =>
      w.ledger.affords userId amount = true →
        ∀ q ∈ w.ledger.postings, q.journal.idempotencyKey = key →
          q.journal.kind = .payoutReserve
  | _ => True

instance (op : Op) (w : World) : Decidable (PayoutKeyOwn op w) := by
  unfold PayoutKeyOwn
  split <;> infer_instance

/-! ## The invariant -/

/-- The rows are backed, and every reservation has its row. -/
structure PayoutBooks (l : Ledger) (t : Table Uuid Payout) : Prop where
  backed : ∀ r ∈ t.rows, ∃ q ∈ l.postings, BackedBy r.2 q
  distinct : ∀ r ∈ t.rows, ∀ r' ∈ t.rows,
    r.2.reservedJournalId = r'.2.reservedJournalId → r.1 = r'.1
  rowed : ∀ q ∈ l.postings, q.journal.kind = .payoutReserve →
    ∃ r ∈ t.rows, r.2.reservedJournalId = q.id

namespace PayoutBooks

variable {l l' : Ledger} {t t' : Table Uuid Payout}

/-- The other producers leave the payouts' books as they are. -/
lemma post_other (h : PayoutBooks l t) {j : Journal} {id : Uuid} {out : PostOutcome}
    (hpost : l.post j id = some (out, l')) (hkind : j.kind ≠ .payoutReserve) :
    PayoutBooks l' t := by
  rcases Ledger.post_cases hpost with ⟨-, hp, -⟩ | ⟨q, -, -, -, rfl⟩
  · refine ⟨fun r hr => ?_, h.distinct, fun q hq hk => ?_⟩
    · obtain ⟨q, hq, hb⟩ := h.backed r hr
      exact ⟨q, hp ▸ List.mem_cons_of_mem _ hq, hb⟩
    · rw [hp] at hq
      rcases List.mem_cons.mp hq with rfl | hq
      · exact absurd hk hkind
      · exact h.rowed q hq hk
  · exact h

/-- A new reservation and the row that names it. -/
lemma reserve (h : PayoutBooks l t) {j : Journal} {jid id : Uuid} {p : Payout}
    (hpost : l.post j jid = some (.posted jid, l')) (hinsert : t.insert id p = some t')
    (hbacked : BackedBy p ⟨jid, j⟩) : PayoutBooks l' t' := by
  obtain ⟨-, hp, hnew⟩ := Ledger.of_posted hpost
  obtain ⟨-, hrows⟩ := Table.insert_eq_some hinsert
  -- The rows already there name journals already there, not the new one.
  have hold : ∀ r ∈ t.rows, r.2.reservedJournalId ≠ jid := by
    intro r hr heq
    obtain ⟨q, hq, hb⟩ := h.backed r hr
    exact hnew q hq (hb.1.trans heq)
  have hjid : p.reservedJournalId = jid := hbacked.1.symm
  refine ⟨fun r hr => ?_, fun r hr r' hr' heq => ?_, fun q hq hk => ?_⟩
  · rw [hrows] at hr
    rcases List.mem_cons.mp hr with rfl | hr
    · exact ⟨⟨jid, j⟩, by simp [hp], hbacked⟩
    · obtain ⟨q, hq, hb⟩ := h.backed r hr
      exact ⟨q, hp ▸ List.mem_cons_of_mem _ hq, hb⟩
  · rw [hrows] at hr hr'
    rcases List.mem_cons.mp hr with rfl | hr <;> rcases List.mem_cons.mp hr' with rfl | hr'
    · rfl
    · exact absurd (heq.symm.trans hjid) (hold r' hr')
    · exact absurd (heq.trans hjid) (hold r hr)
    · exact h.distinct r hr r' hr' heq
  · rw [hp] at hq
    rcases List.mem_cons.mp hq with rfl | hq
    · exact ⟨(id, p), by simp [hrows], hjid⟩
    · obtain ⟨r, hr, heq⟩ := h.rowed q hq hk
      exact ⟨r, hrows ▸ List.mem_cons_of_mem _ hr, heq⟩

/-- The reserving transaction keeps the books when it finds its key free or its own. -/
lemma reservePayout (h : PayoutBooks l t) {now : Time} {fresh : List Uuid} {userId : Uuid}
    {key : String} {amount : ℚ} {bank : Uuid} {db' : PayoutsDb}
    {r : Except ApiError (Uuid × Payout)} {es : Log}
    (hkey : l.affords userId amount = true → ∀ q ∈ l.postings,
      q.journal.idempotencyKey = key → q.journal.kind = .payoutReserve)
    {tiers : Uuid → KycTier}
    (hexec : Naivolt.reservePayout now fresh userId key amount bank ⟨l, t, tiers⟩ =
      some (r, db', es)) : PayoutBooks db'.ledger db'.payouts := by
  rcases reservePayout_cases hexec with ⟨rfl, rfl⟩ | ⟨payoutId, journalId, referenceId, journal,
    posted, ledger, -, hbuild, hafford, hpost, rfl, hrow⟩
  · exact h
  · obtain ⟨hkind, -, hjkey, hentries⟩ := JournalBuilder.build_eq_ok hbuild
    rcases Ledger.post_cases hpost with ⟨rfl, hp, -⟩ | ⟨q, hq, hqkey, rfl, hl⟩
    · rcases hrow with ⟨existing, hfound, -⟩ | ⟨-, hinsert, -⟩
      · -- No row can name a journal that was not in the ledger before.
        obtain ⟨hmem, hnamed⟩ := findByJournal_eq_some hfound
        obtain ⟨q, hq, hb⟩ := h.backed existing hmem
        exact absurd (hb.1.trans hnamed) ((Ledger.of_posted hpost).2.2 q hq)
      · exact h.reserve hpost hinsert ⟨rfl, hkind, hentries⟩
    · obtain ⟨r, hr, hnamed⟩ := h.rowed q hq (hkey hafford q hq (hqkey.trans hjkey))
      rcases hrow with ⟨existing, -, hpayouts, -⟩ | ⟨hnone, -⟩
      · rw [hl, hpayouts]
        exact h
      · exact absurd hnamed (findByJournal_eq_none hnone hr)

end PayoutBooks

/-- Only a payout's own producer reserves. -/
lemma Posts.kind_ne_payoutReserve {w : World} {op : Op} {b : JournalBuilder}
    (h : Posts w op b) (hop : ∀ pop, op ≠ .payouts pop) : b.kind ≠ .payoutReserve := by
  cases h with
  | payout u => exact absurd rfl (hop _)
  | _ => exact JournalKind.noConfusion

/-- Every step whose payout key is its own keeps the books. -/
lemma PayoutBooks.step {cfg : Config} {tid : ℕ} {ω : Oracle} {w w' : World} {op : Op}
    {r : op.Res} (h : exec cfg tid op ω w = some (r, w')) (hown : PayoutKeyOwn op w)
    (hI : PayoutBooks w.ledger w.payouts) : PayoutBooks w'.ledger w'.payouts := by
  have hother : (∀ pop, op ≠ .payouts pop) → w'.payouts = w.payouts →
      PayoutBooks w'.ledger w'.payouts := by
    intro hop hpayouts
    rw [hpayouts]
    cases exec_ledger h with
    | same hledger hlog => rwa [hledger]
    | posted hposts hbuild hpost hlog =>
        refine hI.post_other hpost ?_
        rw [(JournalBuilder.build_eq_ok hbuild).1]
        exact hposts.kind_ne_payoutReserve hop
  cases (exec_move h).2 with
  | @payouts pop r db es hexec =>
      cases pop with
      | reserve userId key amount bank => exact hI.reservePayout hown hexec
      | _ =>
          cases hexec
          exact hI
  | numbers => exact hother (fun _ => Op.noConfusion) rfl
  | supplier => exact hother (fun _ => Op.noConfusion) rfl
  | funding => exact hother (fun _ => Op.noConfusion) rfl
  | watcher => exact hother (fun _ => Op.noConfusion) rfl
  | look hop =>
      refine hother (fun pop heq => ?_) rfl
      subst heq
      rcases hop with hop | ⟨id, hop⟩ <;> cases hop

/-! ## The two results -/

/-- **Payouts are backed** in every run in which no payout is reserved under a key that holds
another producer's journal. -/
theorem payout_backed {cfg : Config} {now : Time} {wallets : List Wallet} {s : State}
    (h : (backend cfg).Reachable (onOps fun _ _ _ op _ w => PayoutKeyOwn op w)
      (initial now wallets) s) : PayoutsBacked s.world := by
  have hbooks : PayoutBooks s.world.ledger s.world.payouts := by
    refine Reachable.guarded_inv (I := fun w => PayoutBooks w.ledger w.payouts) ?_
      (fun e w w' he hI => ?_) (fun tid req b op ω r w w' hown he hI => hI.step he hown) h
    · exact ⟨fun r hr => absurd hr List.not_mem_nil, fun r hr => absurd hr List.not_mem_nil,
        fun q hq => absurd hq List.not_mem_nil⟩
    · obtain ⟨now, wallets, tiers, -, rfl⟩ := execEnv_eq he
      exact hI
  exact ⟨hbooks.backed, hbooks.distinct⟩

/-- A user tops up twice and withdraws once. -/
def withdrawal (key : String) : List Move :=
  .env (.setTier 7 .tier2) :: topUp 0 7 100 101 102 5000 ++ topUp 2 7 110 (1 <<< 100) 112 5000 ++
  serve 4 (.createPayout 7 key ⟨1000, 0, 9⟩)
    [{}, {}, { destination := .ok 9 },
      { fresh := [200, 201, 202] }]

theorem payout_backed_withdrawal :
    ∃ s : State, s.world.payouts.rows.length = 1 ∧ PayoutsBacked s.world := by
  obtain ⟨s, hs, hrows⟩ := exists_reachable_of_run (backend stubConfig)
    (onOps fun _ _ _ op _ w => PayoutKeyOwn op w) (initial 0 []) (withdrawal "once")
    (fun s => s.world.payouts.rows.length = 1) (by decide +kernel)
  exact ⟨s, hrows, payout_backed hs⟩

/-- A payout under the key of its user's own top-up names the top-up's journal and takes
nothing. -/
theorem payout_not_backed :
    ¬ ∀ s : State, (backend stubConfig).Reachable unguarded (initial 0 []) s →
      PayoutsBacked s.world := by
  intro h
  obtain ⟨s, hs, hnot⟩ := exists_reachable_of_run (backend stubConfig) unguarded (initial 0 [])
    (withdrawal (creditKey (fundingReference 101))) (fun s => ¬ PayoutsBacked s.world)
    (by decide +kernel)
  exact hnot (h s hs)

end Naivolt
