import Naivolt.System.Contracted

/-!
# Who holds which ledger key

Every producer but `create_payout` posts under a key of its own shape (`KeyShape`), whatever the
run.  `KeySpace` says so of the journals in the ledger, together with the shapes of the
references the keys are made from.  Two journals under one key are then of one kind unless one
of them is a payout's, which posts under any text its client sends.
-/

namespace Naivolt

open Foundation Foundation.Machine

/-- Journals are filed under keys of their producer's shape, payouts excepted. -/
structure KeySpace (w : World) : Prop where
  shape : ∀ q ∈ w.ledger.postings, q.journal.kind = .payoutReserve ∨
    KeyShape q.journal.kind q.journal.idempotencyKey
  orders : ∀ id o, w.orders.get? id = some o → ∃ u, o.reference = orderReference u
  intents : ∀ id i, w.intents.get? id = some i → ∃ u, i.reference = fundingReference u

/-- **One key, one kind**, when no payout holds it. -/
lemma KeySpace.kind_eq {w : World} (h : KeySpace w) {q : Posting} (hq : q ∈ w.ledger.postings)
    (hpayout : q.journal.kind ≠ .payoutReserve) {kind : JournalKind} {key : String}
    (hshape : KeyShape kind key) (hkey : q.journal.idempotencyKey = key) :
    q.journal.kind = kind := by
  have hq := (h.shape q hq).resolve_left hpayout
  rw [hkey] at hq
  exact hq.kind_unique hshape

/-- No payout holds the key. -/
def NoPayoutUnder (l : Ledger) (key : String) : Prop :=
  ∀ q ∈ l.postings, q.journal.idempotencyKey = key → q.journal.kind ≠ .payoutReserve

instance (l : Ledger) (key : String) : Decidable (NoPayoutUnder l key) := by
  unfold NoPayoutUnder
  infer_instance

section Step

variable {cfg : Config} {tid : ℕ} {req : Request} {born : Time} {ω : Oracle} {w w' : World}
  {op : Op}

/-- What a producer posts has the producer's shape. -/
lemma Posts.shape {b : JournalBuilder} (h : Posts w op b) (hI : KeySpace w)
    (hC : Contract cfg tid req born op w) :
    b.kind = .payoutReserve ∨ KeyShape b.kind b.idempotencyKey := by
  cases h with
  | reserve u price hkey => exact .inr (.reserve _ _)
  | settle hop hrow hopen =>
      obtain ⟨u, hu⟩ := hI.orders _ _ hrow
      exact .inr (hu ▸ .settle u)
  | refund hop hrow hopen =>
      obtain ⟨u, hu⟩ := hI.orders _ _ hrow
      exact .inr (hu ▸ .refund u)
  | payout u => exact .inl rfl
  | fund =>
      obtain ⟨i, hi, -, rfl, -⟩ := hC
      obtain ⟨u, hu⟩ := hI.intents _ _ hi
      exact .inr (hu ▸ .credit u)
  | deposit hrow hopen => exact .inr (.deposit _ _ _)
  | reversal hrow hconfirmed => exact .inr (.reversal _ _ _)

/-- An order keeps the reference it was placed under. -/
lemma NumbersMove.reference {now : Time} {fresh : List Uuid} {db db' : NumbersDb}
    {nop : NumberOp} {es : Log} (h : NumbersMove now tid fresh db nop db' es) {id : Uuid}
    {o' : Order} (ho' : db'.orders.get? id = some o') :
    (∃ o, db.orders.get? id = some o ∧ o'.reference = o.reference) ∨
      ∃ u, o'.reference = orderReference u := by
  cases ho : db.orders.get? id with
  | some o =>
      obtain ⟨o'', ho'', hchange⟩ := h.change ho
      cases ho''.symm.trans ho'
      exact .inl ⟨o, rfl, congrArg Order.Terms.reference hchange.later.terms⟩
  | none =>
      have not_rewritten : ∀ {i row row'}, db.orders.get? i = some row →
          db.orders.update i (fun _ => row') = some db'.orders → False := by
        intro i row row' hrow hupdate
        rw [OrderTable.get?_update hupdate, ho] at ho'
        split at ho' <;> cases ho'
      cases h with
      | idle hledger horders =>
          rw [horders, ho] at ho'
          cases ho'
      | read => cases ho.symm.trans ho'
      | @placed userId key body orderId journalId referenceId journal posted ledger orders q
          hids hkey hafford hbuild hpost hinsert =>
          rw [OrderTable.get?_insert hinsert, ho] at ho'
          split at ho'
          · cases ho'
            exact .inr ⟨referenceId, rfl⟩
          · cases ho'
      | row hrow hstep hupdate hledger => exact (not_rewritten hrow hupdate).elim
      | ended hop hrow hfenced hopen hstep hbuild hpost hupdate =>
          exact (not_rewritten hrow hupdate).elim

/-- An intent keeps whose it is and the reference it was opened under. -/
lemma FundingMove.reference {now : Time} {db db' : FundingDb} {fop : FundingOp} {es : Log}
    (h : FundingMove cfg now ω db fop db' es) {id : Uuid} {i' : Intent}
    (hi' : db'.intents.get? id = some i') :
    (∃ i, db.intents.get? id = some i ∧ i'.reference = i.reference ∧ i'.userId = i.userId) ∨
      ∃ u, i'.reference = fundingReference u := by
  have modified : ∀ {k : Uuid} {f : Intent → Intent}, (∀ i, (f i).reference = i.reference ∧
      (f i).userId = i.userId) → db'.intents.table = db.intents.table.modify k f →
      ∃ i, db.intents.get? id = some i ∧ i'.reference = i.reference ∧ i'.userId = i.userId := by
    intro k f hf htable
    rw [IntentTable.get?_of_modify htable] at hi'
    obtain ⟨i, hi, rfl⟩ := Option.map_eq_some_iff.mp hi'
    refine ⟨i, hi, ?_⟩
    split
    · exact hf i
    · exact ⟨rfl, rfl⟩
  cases h with
  | idle => exact .inl ⟨i', hi', rfl, rfl⟩
  | verified => exact .inl ⟨i', hi', rfl, rfl⟩
  | @inserted userId id' amount intents u hinsert =>
      have hget : intents.get? id = _ := Table.get?_insert hinsert id
      rw [hget] at hi'
      split at hi'
      · cases hi'
        exact .inr ⟨u, rfl⟩
      · exact .inl ⟨i', hi', rfl, rfl⟩
  | failed hintents =>
      exact .inl (modified (fun i => ⟨(i.sameCharge_failed _).reference,
        (i.sameCharge_failed _).userId⟩) hintents)
  | abandoned hintents =>
      rw [IntentTable.get?_of_map hintents] at hi'
      obtain ⟨i, hi, rfl⟩ := Option.map_eq_some_iff.mp hi'
      exact .inl ⟨i, hi, (i.sameCharge_abandoned now).reference,
        (i.sameCharge_abandoned now).userId⟩
  | @credited id' userId journalId reference amount journal out ledger intents hdb hbuild hledger
      hintents =>
      refine .inl (modified (fun i => ?_) hintents)
      unfold intentSucceeded
      split <;> exact ⟨rfl, rfl⟩

/-- Every step under its contract keeps the key space. -/
lemma KeySpace.step {r : op.Res} (he : exec cfg tid op ω w = some (r, w'))
    (hC : Contract cfg tid req born op w) (hI : KeySpace w) : KeySpace w' := by
  refine ⟨?_, fun id o' ho' => ?_, fun id i' hi' => ?_⟩
  · cases exec_ledger he with
    | same hledger hlog => exact hledger ▸ hI.shape
    | posted hposts hbuild hpost hlog =>
        intro q hq
        rcases Ledger.post_cases hpost with ⟨-, hp, -⟩ | ⟨p, -, -, -, hl⟩
        · rw [hp] at hq
          rcases List.mem_cons.mp hq with rfl | hq
          · obtain ⟨hkind, -, hkey, -⟩ := JournalBuilder.build_eq_ok hbuild
            rw [hkind, hkey]
            exact hposts.shape hI hC
          · exact hI.shape q hq
        · exact hI.shape q (hl ▸ hq)
  · cases (exec_move he).2 with
    | numbers hmove =>
        rcases hmove.reference ho' with ⟨o, ho, href⟩ | hu
        · exact href ▸ hI.orders id o ho
        · exact hu
    | _ => exact hI.orders id o' ho'
  · cases (exec_move he).2 with
    | funding hexec =>
        rcases (execFunding_move hexec).reference hi' with ⟨i, hi, href, -⟩ | hu
        · exact href ▸ hI.intents id i hi
        · exact hu
    | _ => exact hI.intents id i' hi'

end Step

/-- **The key space is kept** in every run. -/
theorem keySpace {cfg : Config} {now : Time} {wallets : List Wallet}
    {P : ℕ → Request → Time → Op → Oracle → World → Prop} {s : State}
    (h : (backend cfg).Reachable (onOps P) (initial now wallets) s) : KeySpace s.world := by
  refine Reachable.guarded_inv (I := KeySpace) ?_ (fun e w w' he hI => ?_)
    (fun tid req b op ω r w w' hP he hI => hI.step he hP.2.2) (contracted h)
  · exact ⟨fun q hq => absurd hq List.not_mem_nil, fun id o ho => by simp [initial, Sys.idle,
      World.fresh] at ho, fun id i hi => by simp [initial, Sys.idle, World.fresh,
      IntentTable.get?, IntentTable.empty] at hi⟩
  · obtain ⟨now, wallets, tiers, -, rfl⟩ := execEnv_eq he
    exact ⟨hI.shape, hI.orders, hI.intents⟩

/-- Every operation is performed under its contract, in a world with its key space. -/
theorem contracted_keySpace {cfg : Config} {now : Time} {wallets : List Wallet}
    {P : ℕ → Request → Time → Op → Oracle → World → Prop} {s : State}
    (h : (backend cfg).Reachable (onOps P) (initial now wallets) s) :
    (backend cfg).Reachable (onOps fun tid req born op ω w =>
      (P tid req born op ω w ∧ Sound w ∧ Contract cfg tid req born op w) ∧ KeySpace w)
      (initial now wallets) s :=
  Reachable.and_inv (fun h => keySpace h) (contracted h)

end Naivolt
