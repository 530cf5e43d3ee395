import Naivolt.System.Handlers

/-!
# What one operation can do

Inversion lemmas for `exec`, stated once.  `RowStep` lists the ways an operation rewrites one
order's row without touching the ledger, `EndStep` the two ways an order ends, and
`NumbersMove` adds placing an order and leaving everything as it was; `execNumbers_move` says
that nothing else happens.  The invariants of the later modules split on these cases and never
unfold a transaction again.
-/

namespace Naivolt

open Foundation

/-! ## Rows -/

/-- Two versions of a row that agree on everything but the progress of the order. -/
structure Order.SameIdentity (o o' : Order) : Prop where
  terms : o'.terms = o.terms
  provider : o'.provider = o.provider
  providerOrderId : o'.providerOrderId = o.providerOrderId
  purchaseStartedAt : o'.purchaseStartedAt = o.purchaseStartedAt
  asked : o'.asked = o.asked

/-- The journals that ended the order are the same. -/
def Order.SameJournals (o o' : Order) : Prop :=
  o'.settledJournalId = o.settledJournalId ∧ o'.refundedJournalId = o.refundedJournalId

lemma Order.SameIdentity.refl (o : Order) : o.SameIdentity o := ⟨rfl, rfl, rfl, rfl, rfl⟩

lemma Order.SameIdentity.trans {o o' o'' : Order} (h : o.SameIdentity o')
    (h' : o'.SameIdentity o'') : o.SameIdentity o'' :=
  ⟨h'.terms.trans h.terms, h'.provider.trans h.provider,
    h'.providerOrderId.trans h.providerOrderId,
    h'.purchaseStartedAt.trans h.purchaseStartedAt, h'.asked.trans h.asked⟩

/-- The guard and the row change of each way to take a claim. -/
inductive Grants (now : Time) (id : Uuid) (row : Order) : NumberOp → ClaimPurpose → Prop where
  | purchase : row.status = .reserved → row.purchaseStartedAt = none →
      Grants now id row (.claimPurchase id) .purchase
  | sweep : dueForSweep now row = true → Grants now id row (.sweepClaim id) .sweep
  | cancel : row.status = .reserved ∨ row.status = .awaitingCode →
      Grants now id row (.tryClaimOrder id) .cancel
  | operator : row.status.moneyOpen = true →
      Grants now id row (.tryClaimHeldOrder id) .operator

/-- The row under a new claim. -/
def Order.granted (o : Order) (purpose : ClaimPurpose) (claim : Claim) (now : Time) : Order :=
  match purpose with
  | .purchase => { o with purchaseStartedAt := some now, claim := some claim }
  | _ => { o with claim := some claim }

/-- An operation rewrites one row and leaves the ledger alone. -/
inductive RowStep (now : Time) (tid : ℕ) (fresh : List Uuid) (id : Uuid) (row : Order) :
    NumberOp → Order → Log → Prop where
  | granted {op : NumberOp} {purpose : ClaimPurpose} {token : Uuid}
      (hop : Grants now id row op purpose) (hfree : row.claimable now = true)
      (htoken : token ∈ fresh) :
      RowStep now tid fresh id row op (row.granted purpose ⟨token, now + leaseLength⟩ now)
        [.granted ⟨id, ⟨token, now + leaseLength⟩, purpose, tid, now, row⟩]
  | released {op : NumberOp} {token : Uuid} {row' : Order}
      (hop : op = .releaseClaim id token ∨ ∃ delay e, op = .releaseOrder id token delay e)
      (hheld : row.claimedBy token = true) (hsame : row.SameIdentity row')
      (hjournals : row.SameJournals row') (hstatus : row'.status = row.status)
      (hclaim : row'.claim = none) :
      RowStep now tid fresh id row op row' []
  | markedForReview {token : Uuid} {reason : String}
      (hstatus : row.status = .reserved ∨ row.status = .awaitingCode)
      (hlive : row.liveClaim token now = true) :
      RowStep now tid fresh id row (.markReview id token reason) (reviewMarked now reason row)
        [.wrote ⟨id, .markReview, some token, now, row, reviewMarked now reason row⟩]
  | assigned {token : Uuid} {a : Activation} (hstatus : row.status = .reserved)
      (hlive : row.liveClaim token now = true) :
      RowStep now tid fresh id row (.assign id token a)
        (withActivation now (now + seconds 10) a row)
        [.wrote ⟨id, .assign, some token, now, row,
          withActivation now (now + seconds 10) a row⟩]
  | pinned {s : Source} :
      RowStep now tid fresh id row (.pin id s)
        { row with
          provider := s.provider, sourceCountry := some s.country,
          sourceProduct := some s.product, sourceOperator := some s.operator }
        [.pinned id s.provider row]
  | recovered {token : Uuid} {a : Activation} (hstatus : row.status = .reviewRequired)
      (hheld : row.claimedBy token = true) :
      RowStep now tid fresh id row (.recoverAssign id token a) (withActivation now now a row)
        [.wrote ⟨id, .recoverAssign, some token, now, row, withActivation now now a row⟩,
          .handed id row.provider a]
  | kept {token : Option Uuid} {check : ActivationCheck} {row' : Order}
      (hfenced : staleClaim row token now = false) (hopen : row.status.isRefunded = false)
      (hsame : row.SameIdentity row') (hjournals : row.SameJournals row')
      (hstatus : row'.status = row.status) (hclaim : row'.claim = none) :
      RowStep now tid fresh id row (.applyCheck id token check) row' []
  | checkedForReview {token : Option Uuid} {check : ActivationCheck} {row' : Order}
      (hfenced : staleClaim row token now = false) (hopen : row.status.moneyOpen = true)
      (hsame : row.SameIdentity row') (hstatus : row'.status = .reviewRequired)
      (hclaim : row'.claim = none) :
      RowStep now tid fresh id row (.applyCheck id token check) row'
        [.wrote ⟨id, .applyCheck, token, now, row, row'⟩]

/-- The operations that end an order, with the path and the token they write under. -/
inductive Ends (id : Uuid) : NumberOp → WritePath → Option Uuid → Prop where
  | check {token : Option Uuid} {check : ActivationCheck} :
      Ends id (.applyCheck id token check) .applyCheck token
  | claimed {token : Uuid} {via : Via} {transition : OrderTransition} :
      Ends id (.applyClaimed id token via transition) (.applyClaimed via) (some token)

/-- An order ends: the journal that is posted for it and the row it leaves. -/
inductive EndStep (row : Order) (posted : Uuid) : JournalBuilder → Order → Prop where
  | settle {row' : Order} (hsame : row.SameIdentity row') (hstatus : row'.status = .delivered)
      (hjournal : row'.settledJournalId = some posted) (hclaim : row'.claim = none) :
      EndStep row posted (settleJournal row.reference row.priceNgn) row'
  | refund {row' : Order} (hsame : row.SameIdentity row')
      (hstatus : row'.status.isRefunded = true)
      (hjournal : row'.refundedJournalId = some posted) (hclaim : row'.claim = none) :
      EndStep row posted (refundJournal row.userId row.reference row.priceNgn) row'

lemma EndStep.same {row row' : Order} {posted : Uuid} {b : JournalBuilder}
    (h : EndStep row posted b row') : row.SameIdentity row' := by
  cases h <;> assumption

lemma EndStep.status {row row' : Order} {posted : Uuid} {b : JournalBuilder}
    (h : EndStep row posted b row') :
    row'.status = .delivered ∨ row'.status.isRefunded = true := by
  cases h with
  | settle hsame hstatus hjournal hclaim => exact .inl hstatus
  | refund hsame hstatus hjournal hclaim => exact .inr hstatus

lemma EndStep.claim_none {row row' : Order} {posted : Uuid} {b : JournalBuilder}
    (h : EndStep row posted b row') : row'.claim = none := by
  cases h <;> assumption

/-- What one operation on number orders does to their tables. -/
inductive NumbersMove (now : Time) (tid : ℕ) (fresh : List Uuid) (db : NumbersDb) :
    NumberOp → NumbersDb → Log → Prop where
  | idle {op : NumberOp} {db' : NumbersDb} (hledger : db'.ledger = db.ledger)
      (horders : db'.orders = db.orders) : NumbersMove now tid fresh db op db' []
  | read {id : Uuid} {row : Order} (hrow : db.orders.get? id = some row) :
      NumbersMove now tid fresh db (.readOrder id) db [.read id row]
  | placed {userId key : Uuid} {body : CreateOrderBody} {orderId journalId referenceId : Uuid}
      {journal : Journal} {posted : PostOutcome} {ledger : Ledger} {orders : OrderTable}
      {q : Quote} (hids : fresh.take 3 = [orderId, journalId, referenceId])
      (hkey : findByKey db.orders userId key = none)
      (hafford : db.ledger.affords userId q.priceNgn = true)
      (hbuild : (reserveJournal userId key (orderReference referenceId) q.priceNgn).build =
        .ok journal)
      (hpost : db.ledger.post journal journalId = some (posted, ledger))
      (hinsert : db.orders.insert orderId (newOrder now userId key posted.journalId
        (orderReference referenceId) q body.expectedPriceNgn) = some orders) :
      NumbersMove now tid fresh db (.reserve userId key body)
        { db with ledger := ledger, orders := orders } [.posted journal posted]
  | row {op : NumberOp} {id : Uuid} {row row' : Order} {db' : NumbersDb} {es : Log}
      (hrow : db.orders.get? id = some row) (hstep : RowStep now tid fresh id row op row' es)
      (hupdate : db.orders.update id (fun _ => row') = some db'.orders)
      (hledger : db'.ledger = db.ledger) : NumbersMove now tid fresh db op db' es
  | ended {op : NumberOp} {id : Uuid} {row row' : Order} {path : WritePath}
      {token : Option Uuid} {builder : JournalBuilder} {journal : Journal} {journalId : Uuid}
      {posted : PostOutcome} {db' : NumbersDb} (hop : Ends id op path token)
      (hrow : db.orders.get? id = some row) (hfenced : staleClaim row token now = false)
      (hopen : row.status.moneyOpen = true) (hstep : EndStep row posted.journalId builder row')
      (hbuild : builder.build = .ok journal)
      (hpost : db.ledger.post journal journalId = some (posted, db'.ledger))
      (hupdate : db.orders.update id (fun _ => row') = some db'.orders) :
      NumbersMove now tid fresh db op db'
        [.wrote ⟨id, path, token, now, row, row'⟩, .posted journal posted]

/-- What a statement on number orders records. -/
lemma NumbersMove.ofOrders {now : Time} {tid : ℕ} {fresh : List Uuid} {db db' : NumbersDb}
    {op : NumberOp} {es : Log} (h : NumbersMove now tid fresh db op db' es) {e : Event}
    (he : e ∈ es) : e.ofOrders = true := by
  cases h with
  | idle => exact absurd he List.not_mem_nil
  | read => cases List.mem_singleton.mp he; rfl
  | placed => cases List.mem_singleton.mp he; rfl
  | row hrow hstep hupdate hledger =>
      cases hstep with
      | recovered hstatus hheld => rcases List.mem_pair.mp he with rfl | rfl <;> rfl
      | released => exact absurd he List.not_mem_nil
      | kept => exact absurd he List.not_mem_nil
      | _ => cases List.mem_singleton.mp he; rfl
  | ended => rcases List.mem_pair.mp he with rfl | rfl <;> rfl

/-! ## The transactions that end an order -/

lemma extendExpiry_same (check : ActivationCheck) (o : Order) :
    o.SameIdentity (extendExpiry check o) ∧ o.SameJournals (extendExpiry check o) ∧
      (extendExpiry check o).status = o.status := by
  unfold extendExpiry
  split
  · exact ⟨.refl o, ⟨rfl, rfl⟩, rfl⟩
  · split
    · exact ⟨⟨rfl, rfl, rfl, rfl, rfl⟩, ⟨rfl, rfl⟩, rfl⟩
    · exact ⟨.refl o, ⟨rfl, rfl⟩, rfl⟩

section Transactions

variable {now : Time} {tid : ℕ} {fresh : List Uuid} {id : Uuid} {row base : Order}
  {db db₀ db' : NumbersDb} {r : Except ApiError TransitionOutcome} {es : Log} {op : NumberOp}
  {path : WritePath} {token : Option Uuid}

/-- Posting an order's journal and moving its row ends it. -/
lemma postAndMove_move {journalId : Uuid} {builder : JournalBuilder}
    {move : Uuid → Order → Order}
    (hop : Ends id op path token) (hrow : db₀.orders.get? id = some base)
    (hledger : db.ledger = db₀.ledger) (horders : db.orders = db₀.orders)
    (hfenced : staleClaim base token now = false) (hopen : base.status.moneyOpen = true)
    (hstep : ∀ posted, EndStep base posted builder (move posted row))
    (h : postAndMove db id journalId builder (fun after => ⟨id, path, token, now, base, after⟩)
      move row = some (r, db', es)) : NumbersMove now tid fresh db₀ op db' es := by
  unfold postAndMove at h
  split at h
  · cases h
  · rename_i journal hbuild
    obtain ⟨⟨posted, ledger⟩, hpost, h⟩ := Option.bind_eq_some_iff.mp h
    obtain ⟨orders, hupdate, h⟩ := Option.bind_eq_some_iff.mp h
    cases h
    rw [hledger] at hpost
    rw [horders] at hupdate
    exact .ended hop hrow hfenced hopen (hstep _) hbuild hpost hupdate

/-- A refund ends the order. -/
lemma refundOpen_move {journalId : Uuid} {status : RefundStatus} {reason : String}
    (hop : Ends id op path token) (hrow : db₀.orders.get? id = some base)
    (hledger : db.ledger = db₀.ledger) (horders : db.orders = db₀.orders)
    (hfenced : staleClaim base token now = false) (hopen : base.status.moneyOpen = true)
    (hsame : base.SameIdentity row)
    (h : refundOpen db id journalId (fun after => ⟨id, path, token, now, base, after⟩) status
      reason row = some (r, db', es)) : NumbersMove now tid fresh db₀ op db' es := by
  unfold refundOpen at h
  split at h
  · cases h
  · have hterms : row.userId = base.userId ∧ row.reference = base.reference ∧
        row.priceNgn = base.priceNgn := by
      have := hsame.terms
      simp only [Order.terms, Order.Terms.mk.injEq] at this
      exact ⟨this.1, this.2.2.1, this.2.1⟩
    rw [hterms.1, hterms.2.1, hterms.2.2] at h
    refine postAndMove_move hop hrow hledger horders hfenced hopen (fun posted => ?_) h
    refine .refund ⟨hsame.terms, hsame.provider, hsame.providerOrderId,
      hsame.purchaseStartedAt, hsame.asked⟩ ?_ rfl rfl
    cases status <;> rfl

lemma keepOpen_move {check : ActivationCheck} {open_ : Bool}
    (hrow : db₀.orders.get? id = some base) (hledger : db.ledger = db₀.ledger)
    (horders : db.orders = db₀.orders) (hfenced : staleClaim base token now = false)
    (hopen : base.status.isRefunded = false) (hsame : base.SameIdentity row)
    (hjournals : base.SameJournals row) (hstatus : row.status = base.status)
    (h : keepOpen now db id open_ row = some (r, db', es)) :
    NumbersMove now tid fresh db₀ (.applyCheck id token check) db' es := by
  unfold keepOpen at h
  obtain ⟨orders, hupdate, h⟩ := Option.bind_eq_some_iff.mp h
  cases h
  rw [horders] at hupdate
  have hkept : RowStep now tid fresh id base (.applyCheck id token check)
      (scheduledOpen now open_ row) [] :=
    .kept hfenced hopen ⟨hsame.terms, hsame.provider, hsame.providerOrderId,
      hsame.purchaseStartedAt, hsame.asked⟩ hjournals hstatus rfl
  exact .row hrow hkept hupdate hledger

/-- `apply_check` after the row is locked: settle, review, refund or keep. -/
lemma decideCheck_move (db : NumbersDb) {journalId : Uuid} {check : ActivationCheck}
    (hrow : db₀.orders.get? id = some base) (hledger : db.ledger = db₀.ledger)
    (horders : db.orders = db₀.orders) (hfenced : staleClaim base token now = false)
    (hopen : base.status.isRefunded = false) (hsame : base.SameIdentity row)
    (hjournals : base.SameJournals row) (hstatus : row.status = base.status)
    (h : decideCheck now db id journalId
      (fun after => ⟨id, .applyCheck, token, now, base, after⟩) check row = some (r, db', es)) :
    NumbersMove now tid fresh db₀ (.applyCheck id token check) db' es := by
  unfold decideCheck at h
  simp only at h
  split at h
  · rename_i hmoney
    rw [hstatus] at hmoney
    split at h
    · rename_i code text hq
      unfold settleOpen at h
      have hterms : row.reference = base.reference ∧ row.priceNgn = base.priceNgn := by
        have := hsame.terms
        simp only [Order.terms, Order.Terms.mk.injEq] at this
        exact ⟨this.2.2.1, this.2.1⟩
      rw [hterms.1, hterms.2] at h
      refine postAndMove_move .check hrow hledger horders hfenced hmoney (fun posted => ?_) h
      exact .settle ⟨hsame.terms, hsame.provider, hsame.providerOrderId,
        hsame.purchaseStartedAt, hsame.asked⟩ rfl rfl rfl
    · split at h
      · split at h
        · unfold reviewOpen at h
          obtain ⟨orders, hupdate, h⟩ := Option.bind_eq_some_iff.mp h
          cases h
          rw [horders] at hupdate
          refine .row hrow (.checkedForReview hfenced hmoney ?_ rfl rfl) hupdate hledger
          exact ⟨hsame.terms, hsame.provider, hsame.providerOrderId, hsame.purchaseStartedAt,
            hsame.asked⟩
        · exact refundOpen_move .check hrow hledger horders hfenced hmoney hsame h
      · exact keepOpen_move hrow hledger horders hfenced hopen hsame hjournals hstatus h
  · exact keepOpen_move hrow hledger horders hfenced hopen hsame hjournals hstatus h

lemma applyCheck_move {check : ActivationCheck}
    (h : applyCheck now fresh id token check db = some (r, db', es)) :
    NumbersMove now tid fresh db (.applyCheck id token check) db' es := by
  unfold applyCheck at h
  split at h
  · cases h
    exact .idle rfl rfl
  · rename_i row hrow
    split at h
    · cases h
      exact .idle rfl rfl
    · rename_i hfenced
      split at h
      · cases h
        exact .idle rfl rfl
      · rename_i hopen
        split at h
        · cases h
        · obtain ⟨messages | messages, -, h⟩ := Option.bind_eq_some_iff.mp h
          · cases h
            exact .idle rfl rfl
          obtain ⟨hsame, hjournals, hstatus⟩ := extendExpiry_same check row
          exact decideCheck_move { db with messages := messages } hrow rfl rfl
            (by simpa using hfenced) (by simpa using hopen) hsame hjournals hstatus h

lemma applyInner_move {t : Uuid} {via : Via} {transition : OrderTransition}
    (h : applyInner now fresh id (some t) via transition db = some (r, db', es)) :
    NumbersMove now tid fresh db (.applyClaimed id t via transition) db' es := by
  unfold applyInner at h
  split at h
  · cases h
    exact .idle rfl rfl
  · rename_i row hrow
    split at h
    · cases h
      exact .idle rfl rfl
    · rename_i hfenced
      have hfenced : staleClaim row (some t) now = false := by simpa using hfenced
      split at h
      · cases h
        exact .idle rfl rfl
      · rename_i hopen
        have hopen : row.status.moneyOpen = true := by simpa using hopen
        simp only at h
        split at h
        · cases h
        · split at h
          · refine postAndMove_move .claimed hrow rfl rfl hfenced hopen (fun posted => ?_) h
            exact .settle ⟨rfl, rfl, rfl, rfl, rfl⟩ rfl rfl rfl
          · exact refundOpen_move .claimed hrow rfl rfl hfenced hopen (.refl row) h

end Transactions

/-! ## Every operation -/

section Statements

variable {now : Time} {tid : ℕ} {id : Uuid} {db db' : NumbersDb} {es : Log} {op : NumberOp}

/-- Taking a claim is a grant, or nothing. -/
lemma grantClaim_move {fresh : List Uuid} {purpose : ClaimPurpose} {guard : Order → Bool}
    {set : Order → Order} {r : Option (Uuid × Order)}
    (hop : ∀ row, guard row = true → Grants now id row op purpose)
    (hset : ∀ row claim, { set row with claim := some claim } = row.granted purpose claim now)
    (h : (fresh.head?.bind fun token =>
      withToken token (grantClaim now tid id token purpose guard set db)) = some (r, db', es)) :
    NumbersMove now tid fresh db op db' es := by
  obtain ⟨token, htoken, h⟩ := Option.bind_eq_some_iff.mp h
  obtain ⟨⟨row?, db₁, es₁⟩, hgrant, hres⟩ := Option.map_eq_some_iff.mp h
  cases hres
  rcases grantClaim_cases hgrant with ⟨-, rfl, rfl⟩ |
    ⟨row, orders, hrow, hguard, hfree, -, hupdate, rfl, rfl⟩
  · exact .idle rfl rfl
  · rw [hset] at hupdate
    exact .row hrow (.granted (hop row hguard) hfree (List.mem_of_mem_head? htoken)) hupdate rfl

/-- A conditional write is a step of its row, or nothing. -/
lemma updateWhere_move {fresh : List Uuid} {guard : Order → Bool} {set : Order → Order}
    {record : Order → Log} {r : Bool}
    (hstep : ∀ row, guard row = true → RowStep now tid fresh id row op (set row) (record row))
    (h : updateWhere id guard set record db = some (r, db', es)) :
    NumbersMove now tid fresh db op db' es := by
  rcases updateWhere_cases h with ⟨-, rfl, rfl⟩ |
    ⟨row, orders, hrow, hguard, -, hupdate, rfl, rfl⟩
  · exact .idle rfl rfl
  · exact .row hrow (hstep row hguard) hupdate rfl

end Statements

/-- **What an operation on number orders can do.** -/
theorem execNumbers_move {cfg : Config} {tid : ℕ} {now : Time} {ω : Oracle} {db db' : NumbersDb}
    {op : NumberOp} {r : op.Res} {es : Log}
    (h : execNumbers cfg tid now ω db op = some (r, db', es)) :
    NumbersMove now tid ω.fresh db op db' es := by
  cases op with
  | reserve userId key body =>
      rcases reserveOrder_cases h with ⟨rfl, rfl, -⟩ | ⟨orderId, journalId, referenceId, journal,
        posted, ledger, orders, q, hids, hkey, -, hafford, hbuild, hpost, hinsert, -, rfl, rfl⟩
      · exact .idle rfl rfl
      · exact .placed hids hkey hafford hbuild hpost hinsert
  | claimPurchase id =>
      refine grantClaim_move (fun row hg => ?_) (fun _ _ => rfl) h
      simp only [Bool.and_eq_true, decide_eq_true_eq, Option.isNone_iff_eq_none] at hg
      exact .purchase hg.1 hg.2
  | sweepClaim id => exact grantClaim_move (fun _ hg => .sweep hg) (fun _ _ => rfl) h
  | tryClaimOrder id =>
      exact grantClaim_move (fun _ hg => .cancel (by simpa using hg)) (fun _ _ => rfl) h
  | tryClaimHeldOrder id =>
      exact grantClaim_move (fun _ hg => .operator hg) (fun _ _ => rfl) h
  | releaseOrder id token delay error =>
      refine updateWhere_move (fun row hg => ?_) h
      exact .released (.inr ⟨delay, error, rfl⟩) hg ⟨rfl, rfl, rfl, rfl, rfl⟩ ⟨rfl, rfl⟩ rfl rfl
  | releaseClaim id token =>
      refine updateWhere_move (fun row hg => ?_) h
      exact .released (.inl rfl) hg ⟨rfl, rfl, rfl, rfl, rfl⟩ ⟨rfl, rfl⟩ rfl rfl
  | markReview id token reason =>
      refine updateWhere_move (fun row hg => ?_) h
      simp only [Bool.and_eq_true, Bool.or_eq_true, decide_eq_true_eq] at hg
      exact .markedForReview hg.1 hg.2
  | assign id token a =>
      refine updateWhere_move (fun row hg => ?_) h
      simp only [Bool.and_eq_true, decide_eq_true_eq] at hg
      exact .assigned hg.1 hg.2
  | pin id s => exact updateWhere_move (fun row _ => .pinned) h
  | recoverAssign id token a =>
      refine updateWhere_move (fun row hg => ?_) h
      simp only [Bool.and_eq_true, decide_eq_true_eq] at hg
      exact .recovered hg.1 hg.2
  | applyClaimed id token via transition => exact applyInner_move h
  | applyCheck id token check => exact applyCheck_move h
  | readOrder id =>
      simp only [execNumbers] at h
      cases hrow : db.orders.get? id with
      | none =>
          rw [hrow] at h
          cases h
          exact .idle rfl rfl
      | some row =>
          rw [hrow] at h
          cases h
          exact .read hrow
  | taken id providerOrderId =>
      cases h
      exact .idle rfl rfl
  | claimSlot token =>
      simp only [execNumbers, execClaimSlot] at h
      split at h
      · cases h
        exact .idle rfl rfl
      · obtain ⟨db₁, hslot, hres⟩ := Option.map_eq_some_iff.mp h
        cases hres
        unfold claimSlot at hslot
        split at hslot
        · cases hslot
          exact .idle rfl rfl
        · cases hslot
  | releaseSlot slot token =>
      cases h
      exact .idle rfl rfl

/-! ## Deposits -/

/-- Two versions of a deposit that agree on the transfer it records and on whose it is. -/
structure Deposit.SameTransfer (d d' : Deposit) : Prop where
  userId : d'.userId = d.userId
  naturalKey : d'.naturalKey = d.naturalKey
  network : d'.network = d.network
  asset : d'.asset = d.asset
  amount : d'.amount = d.amount

lemma Deposit.SameTransfer.refl (d : Deposit) : d.SameTransfer d := ⟨rfl, rfl, rfl, rfl, rfl⟩

lemma Deposit.SameTransfer.trans {d d' d'' : Deposit} (h : d.SameTransfer d')
    (h' : d'.SameTransfer d'') : d.SameTransfer d'' :=
  ⟨h'.userId.trans h.userId, h'.naturalKey.trans h.naturalKey, h'.network.trans h.network,
    h'.asset.trans h.asset, h'.amount.trans h.amount⟩

/-- A deposit is followed without being credited or reversed. -/
structure Deposit.Touched (d d' : Deposit) : Prop where
  same : d.SameTransfer d'
  credited : d'.creditedJournalId = d.creditedJournalId
  reversed : d'.reversedJournalId = d.reversedJournalId
  status : d'.status = d.status ∨ (d.status = .seen ∧ d'.status = .confirming)

/-- The operations that post for a deposit: the row they start from, the journal and the row
they leave. -/
inductive DepositPost (id : Uuid) (row : Deposit) (posted : Uuid) :
    WatcherOp → JournalBuilder → Deposit → Prop where
  | credit {t : ObservedTransfer} (hopen : row.status ≠ .confirmed ∧ row.status ≠ .reversed) :
      DepositPost id row posted (.credit id t) (creditJournal id row.userId t.asset row.amount t)
        (depositConfirmed posted row)
  | reverse {t : ObservedTransfer} (hconfirmed : row.status = .confirmed) :
      DepositPost id row posted (.reverse id t)
        (reversalJournal id row.userId t.asset row.amount t) (depositReversed posted row)

/-- What one operation on deposits does to their tables. -/
inductive WatcherMove (db : WatcherDb) : WatcherOp → WatcherDb → Log → Prop where
  | idle {op : WatcherOp} : WatcherMove db op db []
  | observed {t : ObservedTransfer} {userId walletId id : Uuid} {confirmations : ℤ}
      {status : DepositStatus} {deposits : DepositTable}
      (hnew : db.deposits.find t.naturalKey = none)
      (hinsert : db.deposits.insert id (observedRow t userId walletId confirmations status) =
        some deposits) :
      WatcherMove db (.upsert t userId walletId confirmations status)
        { db with deposits := deposits } []
  | touched {op : WatcherOp} {id : Uuid} {f : Deposit → Deposit} {deposits : DepositTable}
      (htouch : ∀ d : Deposit, d.Touched (f d))
      (hupdate : db.deposits.update id f = some deposits) :
      WatcherMove db op { db with deposits := deposits } []
  | posted {op : WatcherOp} {id journalId : Uuid} {row row' : Deposit}
      {builder : JournalBuilder} {journal : Journal} {out : PostOutcome} {ledger : Ledger}
      {deposits : DepositTable} (hrow : db.deposits.get? id = some row)
      (hpost : DepositPost id row out.journalId op builder row')
      (hbuild : builder.build = .ok journal)
      (hledger : db.ledger.post journal journalId = some (out, ledger))
      (hupdate : db.deposits.update id (fun _ => row') = some deposits) :
      WatcherMove db op { db with ledger := ledger, deposits := deposits }
        [.posted journal out]

/-- Rewriting the row that is there by a function or by its value comes to the same. -/
lemma DepositTable.update_const {t t' : DepositTable} {id : Uuid} {d : Deposit}
    {f : Deposit → Deposit} (hd : t.get? id = some d) (h : t.update id f = some t') :
    t.update id (fun _ => f d) = some t' := by
  have heq : t.table.modify id f = t.table.modify id (fun _ => f d) := by
    have hrows : (t.table.modify id f).rows = (t.table.modify id (fun _ => f d)).rows := by
      refine List.map_congr_left fun r hr => ?_
      by_cases hid : r.1 = id
      · have hrd : r.2 = d := by
          have : t.table.get? r.1 = some r.2 := Table.get?_eq_some_iff.mpr hr
          rw [hid] at this
          exact Option.some.inj (this.symm.trans hd)
        simp [hid, hrd]
      · simp [hid]
    cases hm : t.table.modify id f
    cases hm' : t.table.modify id (fun _ => f d)
    simp only [hm, hm'] at hrows
    cases hrows
    rfl
  rwa [DepositTable.update, heq] at h

lemma postDeposit_move {fresh : List Uuid} {id : Uuid} {row : Deposit}
    {builder : JournalBuilder} {move : Uuid → Deposit → Deposit} {db db' : WatcherDb} {r : Bool}
    {es : Log} {op : WatcherOp} (hrow : db.deposits.get? id = some row)
    (hpost : ∀ posted, DepositPost id row posted op builder (move posted row))
    (h : postDeposit fresh id builder move db = some (r, db', es)) :
    WatcherMove db op db' es := by
  obtain ⟨journalId, journal, posted, -, hbuild, -, hledger, hupdate, hwallets, rfl⟩ :=
    postDeposit_cases h
  rcases db' with ⟨ledger, deposits, wallets⟩
  simp only at hledger hupdate hwallets
  subst hwallets
  exact .posted hrow (hpost _) hbuild hledger (DepositTable.update_const hrow hupdate)

/-- **What an operation on deposits can do.** -/
theorem execWatcher_move {ω : Oracle} {db db' : WatcherDb} {op : WatcherOp} {r : op.Res}
    {es : Log} (h : execWatcher ω db op = some (r, db', es)) : WatcherMove db op db' es := by
  cases op with
  | credit id t =>
      simp only [execWatcher, creditDeposit] at h
      split at h
      · cases h
        exact .idle
      · split at h
        · cases h
          exact .idle
        · rename_i row hrow
          split at h
          · cases h
            exact .idle
          · rename_i hopen
            simp only [Bool.or_eq_true, decide_eq_true_eq, not_or] at hopen
            exact postDeposit_move hrow (fun _ => .credit hopen) h
  | reverse id t =>
      simp only [execWatcher, reverseDeposit] at h
      split at h
      · cases h
        exact .idle
      · rename_i row hrow
        split at h
        · cases h
          exact .idle
        · rename_i hstatus
          exact postDeposit_move hrow (fun _ => .reverse (by simpa using hstatus)) h
  | upsert t userId walletId confirmations status =>
      simp only [execWatcher] at h
      split at h
      · cases h
        exact .idle
      · obtain ⟨⟨⟨id, st⟩, db₁⟩, hup, hres⟩ := Option.map_eq_some_iff.mp h
        cases hres
        unfold upsertDeposit at hup
        split at hup
        · obtain ⟨d, hd, hres⟩ := Option.map_eq_some_iff.mp hup
          cases hres
          refine .touched (fun d => ?_) hd
          exact ⟨⟨rfl, rfl, rfl, rfl, rfl⟩, rfl, rfl, .inl rfl⟩
        · rename_i hnew
          split at hup
          · obtain ⟨d, hd, hres⟩ := Option.map_eq_some_iff.mp hup
            cases hres
            exact .observed hnew hd
          · cases hup
  | relocate id number hash =>
      obtain ⟨db₁, hup, hres⟩ := Option.map_eq_some_iff.mp h
      cases hres
      obtain ⟨d, hd, hres⟩ := Option.map_eq_some_iff.mp hup
      cases hres
      refine .touched (fun d => ?_) hd
      exact ⟨⟨rfl, rfl, rfl, rfl, rfl⟩, rfl, rfl, .inl rfl⟩
  | setConfirmations id n =>
      obtain ⟨db₁, hup, hres⟩ := Option.map_eq_some_iff.mp h
      cases hres
      obtain ⟨d, hd, hres⟩ := Option.map_eq_some_iff.mp hup
      cases hres
      refine .touched (fun d => ?_) hd
      split
      · rename_i hseen
        exact ⟨⟨rfl, rfl, rfl, rfl, rfl⟩, rfl, rfl, .inr ⟨hseen, rfl⟩⟩
      · exact ⟨.refl d, rfl, rfl, .inl rfl⟩
  | _ =>
      cases h
      exact .idle

/-- A deposit was there before with the same transfer, or has just been observed. -/
lemma WatcherMove.origin {db db' : WatcherDb} {op : WatcherOp} {es : Log}
    (h : WatcherMove db op db' es) {id : Uuid} {d' : Deposit}
    (hd' : db'.deposits.get? id = some d') :
    (∃ d, db.deposits.get? id = some d ∧ d.SameTransfer d') ∨
    ∃ t userId walletId confirmations status,
      op = .upsert t userId walletId confirmations status ∧
        d' = observedRow t userId walletId confirmations status := by
  cases h with
  | idle => exact .inl ⟨d', hd', .refl d'⟩
  | observed hnew hinsert =>
      simp only [DepositTable.get?_insert hinsert] at hd'
      split at hd'
      · cases hd'
        exact .inr ⟨_, _, _, _, _, rfl, rfl⟩
      · exact .inl ⟨d', hd', .refl d'⟩
  | touched htouch hupdate =>
      simp only [DepositTable.get?_update hupdate] at hd'
      split at hd'
      · obtain ⟨d, hd, rfl⟩ := Option.map_eq_some_iff.mp hd'
        exact .inl ⟨d, hd, (htouch d).same⟩
      · exact .inl ⟨d', hd', .refl d'⟩
  | posted hrow hpost hbuild hledger hupdate =>
      simp only [DepositTable.get?_update hupdate] at hd'
      split at hd'
      · rename_i hid
        subst hid
        obtain ⟨d, hd, rfl⟩ := Option.map_eq_some_iff.mp hd'
        cases hrow.symm.trans hd
        refine .inl ⟨_, hrow, ?_⟩
        cases hpost <;> exact ⟨rfl, rfl, rfl, rfl, rfl⟩
      · exact .inl ⟨d', hd', .refl d'⟩

/-! ## Top-ups -/

/-- Two versions of an intent that agree on whose it is, its reference and its amount. -/
structure Intent.SameCharge (i i' : Intent) : Prop where
  userId : i'.userId = i.userId
  reference : i'.reference = i.reference
  amountNgn : i'.amountNgn = i.amountNgn

lemma Intent.sameCharge_failed (reason : String) (i : Intent) :
    i.SameCharge (intentFailed reason i) := by
  unfold intentFailed
  split <;> exact ⟨rfl, rfl, rfl⟩

lemma Intent.sameCharge_abandoned (now : Time) (i : Intent) :
    i.SameCharge (intentAbandoned now i) := by
  unfold intentAbandoned
  split <;> exact ⟨rfl, rfl, rfl⟩

/-- What one operation on top-ups does to their tables. -/
inductive FundingMove (cfg : Config) (now : Time) (ω : Oracle) (db : FundingDb) :
    FundingOp → FundingDb → Log → Prop where
  | idle {op : FundingOp} : FundingMove cfg now ω db op db []
  | verified {reference : String} {amount : ℚ} :
      FundingMove cfg now ω db (.verify reference amount) db
        [.verified reference (chargeAnswer cfg ω amount)]
  | inserted {userId id : Uuid} {amount : ℚ} {intents : IntentTable} (u : Uuid)
      (hinsert : db.intents.table.insert id ⟨userId, amount, cfg.fundingLive, fundingReference u,
        .pending, none, none, now⟩ = some intents.table) :
      FundingMove cfg now ω db (.insertIntent userId amount) { db with intents := intents } []
  | failed {id : Uuid} {reason : String} {intents : IntentTable}
      (hintents : intents.table = db.intents.table.modify id (intentFailed reason)) :
      FundingMove cfg now ω db (.fail id reason) { db with intents := intents } []
  | abandoned {intents : IntentTable}
      (hintents : intents.table = db.intents.table.map (intentAbandoned now)) :
      FundingMove cfg now ω db .abandon { db with intents := intents } (abandonedBy now db)
  | credited {id userId journalId : Uuid} {reference : String} {amount : ℚ} {journal : Journal}
      {out : PostOutcome} {ledger : Ledger} {intents : IntentTable} (hdb : ω.dbFails = false)
      (hbuild : (creditJournalNgn userId reference amount).build = .ok journal)
      (hledger : db.ledger.post journal journalId = some (out, ledger))
      (hintents : intents.table =
        db.intents.table.modify id (intentSucceeded amount out.journalId)) :
      FundingMove cfg now ω db (.credit id userId reference amount)
        { db with ledger := ledger, intents := intents } [.posted journal out]

/-- **What an operation on top-ups can do.** -/
theorem execFunding_move {cfg : Config} {now : Time} {ω : Oracle} {db db' : FundingDb}
    {op : FundingOp} {r : op.Res} {es : Log}
    (h : execFunding cfg now ω db op = some (r, db', es)) :
    FundingMove cfg now ω db op db' es := by
  cases op with
  | credit id userId reference amount =>
      simp only [execFunding] at h
      split at h
      · cases h
        exact .idle
      · rename_i hdb
        obtain ⟨⟨⟨⟩, db₁, es₁⟩, hcredit, hres⟩ := Option.map_eq_some_iff.mp h
        cases hres
        obtain ⟨journalId, journal, posted, -, hbuild, hledger, hintents, rfl⟩ :=
          creditIntent_cases hcredit
        exact .credited (by simpa using hdb) hbuild hledger hintents
  | verify reference amount =>
      cases h
      exact .verified
  | insertIntent userId amount =>
      obtain ⟨⟨r₁, db₁⟩, hins, hres⟩ := Option.map_eq_some_iff.mp h
      cases hres
      unfold insertIntent at hins
      split at hins
      · rename_i intentId referenceId rest hfresh
        obtain ⟨intents, hint, hres⟩ := Option.bind_eq_some_iff.mp hins
        cases hres
        obtain ⟨t, ht, hcommit⟩ := Option.bind_eq_some_iff.mp hint
        rw [← IntentTable.commit_eq_some hcommit] at ht
        exact .inserted referenceId ht
      · cases hins
  | fail id reason =>
      simp only [execFunding] at h
      split at h
      · cases h
        exact .idle
      · obtain ⟨db₁, hfail, hres⟩ := Option.map_eq_some_iff.mp h
        cases hres
        obtain ⟨t, ht, hres⟩ := Option.map_eq_some_iff.mp hfail
        cases hres
        exact .failed (IntentTable.commit_eq_some ht)
  | abandon =>
      obtain ⟨db₁, hab, hres⟩ := Option.map_eq_some_iff.mp h
      cases hres
      obtain ⟨t, ht, hres⟩ := Option.map_eq_some_iff.mp hab
      cases hres
      exact .abandoned (IntentTable.commit_eq_some ht)
  | _ =>
      cases h
      exact .idle

end Naivolt
