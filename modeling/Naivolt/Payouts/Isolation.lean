import Naivolt.Payouts.Backing
import Naivolt.Payouts.Replay

/-!
# What a payout request learns of another user

The key of a payout request is looked up among the journals of all users, and the payout that
names the journal found is returned without asking whose it is.  A user who sends a key that
someone else has used is therefore shown that payout: its identifier, amount, status and
reference.

`AgreeOff` relates two states that differ only in one user's payouts and the journals behind them,
and `Twins` is one request served in two such states, each of its operations in a pair of them.
`payout_isolated_iff` says when the two servings are answered alike and with no payout of that
user: when the request is refused by a check of its own, or its key is that of no payout of theirs
in either state.  `payout_of_another` is a request that is answered with a stranger's payout.
-/

namespace Naivolt

open Foundation Foundation.Machine

/-! ## Two states and two servings -/

/-- The posting reserves the naira of one of the user's payouts. -/
def Behind (userId : Uuid) (w : World) (q : Posting) : Prop :=
  ∃ r ∈ w.payouts.rows, r.2.userId = userId ∧ BackedBy r.2 q

instance (userId : Uuid) (w : World) (q : Posting) : Decidable (Behind userId w q) := by
  unfold Behind
  infer_instance

/-- The tables differ at most in the user's payouts and the journals behind them. -/
structure TablesAgreeOff (userId : Uuid) (w w' : World) : Prop where
  now : w.now = w'.now
  orders : w.orders.table.rows = w'.orders.table.rows
  messages : w.messages = w'.messages
  slots : w.slots = w'.slots
  intents : w.intents.table.rows = w'.intents.table.rows
  deposits : w.deposits.table.rows = w'.deposits.table.rows
  wallets : w.wallets = w'.wallets
  payouts : w.payouts.rows.filter (fun r => r.2.userId ≠ userId) =
    w'.payouts.rows.filter (fun r => r.2.userId ≠ userId)
  postings : w.ledger.postings.filter (fun q => ¬ Behind userId w q) =
    w'.ledger.postings.filter (fun q => ¬ Behind userId w' q)

instance (userId : Uuid) (w w' : World) : Decidable (TablesAgreeOff userId w w') :=
  decidable_of_iff (w.now = w'.now ∧ w.orders.table.rows = w'.orders.table.rows ∧
    w.messages = w'.messages ∧ w.slots = w'.slots ∧
    w.intents.table.rows = w'.intents.table.rows ∧
    w.deposits.table.rows = w'.deposits.table.rows ∧ w.wallets = w'.wallets ∧
    w.payouts.rows.filter (fun r => r.2.userId ≠ userId) =
      w'.payouts.rows.filter (fun r => r.2.userId ≠ userId) ∧
    w.ledger.postings.filter (fun q => ¬ Behind userId w q) =
      w'.ledger.postings.filter (fun q => ¬ Behind userId w' q))
    ⟨fun ⟨h₁, h₂, h₃, h₄, h₅, h₆, h₇, h₈, h₉⟩ => ⟨h₁, h₂, h₃, h₄, h₅, h₆, h₇, h₈, h₉⟩,
      fun ⟨h₁, h₂, h₃, h₄, h₅, h₆, h₇, h₈, h₉⟩ => ⟨h₁, h₂, h₃, h₄, h₅, h₆, h₇, h₈, h₉⟩⟩

/-- The states differ at most in the user's payouts and the journals behind them. -/
structure AgreeOff (userId : Uuid) (w w' : World) : Prop extends TablesAgreeOff userId w w' where
  tiers : w.tiers = w'.tiers

/-- The body of the response, `PayoutResponse`.  The bank account is the one of the request. -/
structure PayoutReply where
  id : Uuid
  amountNgn : ℚ
  fee : ℚ
  bankAccount : Uuid
  status : PayoutStatus
  reference : String
  createdAt : Time
  deriving DecidableEq

/-- The destination the request resolved, once it has. -/
def destinationOf : List (Moment Oracle World) → Option Uuid
  | [_, _, destination, _] => destination.answer.destination.toOption
  | _ => none

/-- What the client receives. -/
def replyOf (ms : List (Moment Oracle World)) : Result → Option (Except ApiError PayoutReply)
  | .error e => some (.error e)
  | .ok (.payout id p) => (destinationOf ms).map fun bank =>
      .ok ⟨id, p.amountNgn, p.feeNgn, bank, p.status, p.providerReference, p.createdAt⟩
  | .ok _ => none

/-- One request of `userId` served twice, in states of runs that differ at most in what `other`
has withdrawn. -/
structure Twins (cfg : Config) (other userId : Uuid) (key : String) (body : CreatePayoutBody)
    (ms ms' : List (Moment Oracle World)) (r r' : Result) : Prop where
  served : ∃ tid, (payingBackend cfg).Along tid (createPayout userId key body) ms (.ret r)
  served' : ∃ tid, (payingBackend cfg).Along tid (createPayout userId key body) ms' (.ret r')
  reached : ∀ m ∈ ms ++ ms', ∃ now wallets s,
    (payingBackend cfg).Reachable unguarded (initial now wallets) s ∧ s.world = m.before
  answers : ∀ p ∈ ms.zip ms', p.1.answer = p.2.answer
  agree : ∀ p ∈ ms.zip ms', AgreeOff other p.1.before p.2.before

/-- The answer names no payout of the user. -/
def NotOf (other : Uuid) (r : Result) : Prop :=
  ∀ id p, r = .ok (.payout id p) → p.userId ≠ other

/-- Both are answered alike, and with no payout of `other`. -/
structure Isolated (other : Uuid) (ms ms' : List (Moment Oracle World)) (r r' : Result) : Prop where
  alike : replyOf ms r = replyOf ms' r'
  notOf : NotOf other r
  notOf' : NotOf other r'

/-- The key is not that of a payout of `other` in this state. -/
def KeyFreeOf (other : Uuid) (key : String) (w : World) : Prop :=
  ∀ q ∈ w.ledger.findKey key, ∀ r ∈ findByJournal w.payouts q.id, r.2.userId ≠ other

instance (other : Uuid) (key : String) (w : World) : Decidable (KeyFreeOf other key w) := by
  unfold KeyFreeOf
  infer_instance

/-- Nor is it when the request comes to reserve. -/
def KeyNotOf (other : Uuid) (key : String) (ms : List (Moment Oracle World)) : Prop :=
  ∀ m ∈ ms.getLast?, KeyFreeOf other key m.before

instance (other : Uuid) (key : String) (ms : List (Moment Oracle World)) :
    Decidable (KeyNotOf other key ms) := by
  unfold KeyNotOf
  infer_instance

/-! ## Reading two states that agree -/

section Agree

variable {other : Uuid} {w w' : World}

lemma AgreeOff.symm (h : AgreeOff other w w') : AgreeOff other w' w :=
  ⟨⟨h.now.symm, h.orders.symm, h.messages.symm, h.slots.symm, h.intents.symm, h.deposits.symm,
    h.wallets.symm, h.payouts.symm, h.postings.symm⟩, h.tiers.symm⟩

lemma AgreeOff.mem_payouts (h : AgreeOff other w w') {r : Uuid × Payout} (hr : r ∈ w.payouts.rows)
    (huser : r.2.userId ≠ other) : r ∈ w'.payouts.rows := by
  have hmem : r ∈ w.payouts.rows.filter (fun r => r.2.userId ≠ other) := by simp [hr, huser]
  rw [h.payouts] at hmem
  exact List.mem_of_mem_filter hmem

lemma AgreeOff.mem_postings (h : AgreeOff other w w') {q : Posting} (hq : q ∈ w.ledger.postings)
    (hbehind : ¬ Behind other w q) : q ∈ w'.ledger.postings := by
  have hmem : q ∈ w.ledger.postings.filter (fun q => ¬ Behind other w q) := by simp [hq, hbehind]
  rw [h.postings] at hmem
  exact List.mem_of_mem_filter hmem

/-- The usage of another user is read from rows the states share. -/
lemma AgreeOff.usedToday (h : AgreeOff other w w') {userId : Uuid} (huser : userId ≠ other) :
    usedToday w.now w.payouts userId = usedToday w'.now w'.payouts userId := by
  have hrows : ∀ w : World, w.payouts.rows.filter (fun r => r.2.userId = userId &&
      w.now < r.2.createdAt + hours 24 &&
      (r.2.status = .reserved || r.2.status = .processing || r.2.status = .settled)) =
      (w.payouts.rows.filter (fun r => r.2.userId ≠ other)).filter (fun r => r.2.userId = userId &&
        w.now < r.2.createdAt + hours 24 &&
        (r.2.status = .reserved || r.2.status = .processing || r.2.status = .settled)) := by
    intro w
    rw [List.filter_filter]
    refine List.filter_congr fun r _ => ?_
    by_cases hr : r.2.userId = userId
    · simp [hr, huser]
    · simp [hr]
  unfold Naivolt.usedToday
  rw [hrows w, hrows w', h.payouts, h.now]

/-- A reservation of `other` moves nothing on another user's account. -/
lemma Behind.amountOn {q : Posting} (h : Behind other w q) {userId : Uuid}
    (huser : userId ≠ other) : q.journal.amountOn (.userNgn userId) = 0 := by
  obtain ⟨r, -, rfl, -, -, hentries⟩ := h
  have hne : Account.userNgn r.2.userId ≠ .userNgn userId :=
    fun heq => huser (Account.userNgn_injective heq).symm
  have hplatform : Account.platform .ngnPayablePending ≠ .userNgn userId := by
    simp [Account.platform, Account.userNgn]
  simp [Journal.amountOn, Journal.builder, JournalBuilder.amountOn, hentries, hne, hplatform]

/-- The balance of another user is read from journals the states share. -/
lemma AgreeOff.balance (h : AgreeOff other w w') {userId : Uuid} (huser : userId ≠ other) :
    w.ledger.balance (.userNgn userId) = w'.ledger.balance (.userNgn userId) := by
  have hshared : ∀ w : World, w.ledger.balance (.userNgn userId) =
      ((w.ledger.postings.filter (fun q => ¬ Behind other w q)).map
        (fun q => q.journal.amountOn (.userNgn userId))).sum := by
    intro w
    unfold Ledger.balance
    induction w.ledger.postings with
    | nil => rfl
    | cons q qs ih =>
        by_cases hq : Behind other w q
        · simp [hq, hq.amountOn huser, ih]
        · simp [hq, ih]
  rw [hshared w, hshared w', h.postings]

lemma AgreeOff.affords (h : AgreeOff other w w') {userId : Uuid} (huser : userId ≠ other)
    (amount : ℚ) : w.ledger.affords userId amount = w'.ledger.affords userId amount := by
  simp only [Ledger.affords, h.balance huser]

/-- The journal under a key that is none of theirs is none of theirs. -/
lemma KeyFreeOf.not_behind {key : String} {q : Posting} (h : KeyFreeOf other key w)
    (hnamed : RowsNamed w) (hq : w.ledger.findKey key = some q) : ¬ Behind other w q := by
  rintro ⟨r, hr, huser, hbacked⟩
  have hfind := hnamed.findByJournal (Table.get?_eq_some_iff.mpr hr)
  rw [← hbacked.1] at hfind
  exact h q hq _ hfind huser

lemma AgreeOff.findKey {key : String} (h : AgreeOff other w w') (hnamed : RowsNamed w)
    (hnamed' : RowsNamed w') (hfree : KeyFreeOf other key w) (hfree' : KeyFreeOf other key w') :
    w.ledger.findKey key = w'.ledger.findKey key := by
  have half : ∀ {w w' : World}, AgreeOff other w w' → RowsNamed w → KeyFreeOf other key w →
      ∀ q, w.ledger.findKey key = some q → w'.ledger.findKey key = some q := by
    intro w w' h hnamed hfree q hq
    obtain ⟨hmem, hkey⟩ := Ledger.findKey_eq_some_iff.mp hq
    exact Ledger.findKey_eq_some_iff.mpr ⟨h.mem_postings hmem (hfree.not_behind hnamed hq), hkey⟩
  ext q
  exact ⟨half h hnamed hfree q, half h.symm hnamed' hfree' q⟩

/-- The payout that names a journal is the same in both, unless it is one of `other`. -/
lemma AgreeOff.findByJournal {journalId : Uuid} (h : AgreeOff other w w') (hnamed : RowsNamed w)
    (hnamed' : RowsNamed w')
    (hfree : ∀ r ∈ findByJournal w.payouts journalId, r.2.userId ≠ other)
    (hfree' : ∀ r ∈ findByJournal w'.payouts journalId, r.2.userId ≠ other) :
    findByJournal w.payouts journalId = findByJournal w'.payouts journalId := by
  have half : ∀ {w w' : World}, AgreeOff other w w' → RowsNamed w' →
      (∀ r ∈ Naivolt.findByJournal w.payouts journalId, r.2.userId ≠ other) →
      ∀ r, Naivolt.findByJournal w.payouts journalId = some r →
        Naivolt.findByJournal w'.payouts journalId = some r := by
    intro w w' h hnamed' hfree r hr
    obtain ⟨hmem, hj⟩ := findByJournal_eq_some hr
    have hmem' := h.mem_payouts hmem (hfree r hr)
    exact hj ▸ hnamed'.findByJournal (Table.get?_eq_some_iff.mpr hmem')
  ext r
  exact ⟨half h hnamed' hfree r, half h.symm hnamed hfree' r⟩

end Agree

/-! ## Two reservations -/

section Reserve

variable {cfg : Config} {tid tid' : ℕ} {other userId bank : Uuid} {key : String} {amount : ℚ}
  {ω : Oracle} {w w' v v' : World} {a a' : Except ApiError (Uuid × Payout)}

/-- A reservation under a key of `other` that can be afforded is answered with their payout. -/
lemma reserve_leaks (h : exec cfg tid (.payouts (.reserve userId key amount bank)) ω w =
      some (a, v)) (hrich : w.ledger.affords userId amount = true)
    (hkey : ¬ KeyFreeOf other key w) : ∃ id p, a = .ok (id, p) ∧ p.userId = other := by
  obtain ⟨db, es, hexec, -⟩ := exec_payouts h
  simp only [KeyFreeOf, not_forall, not_not] at hkey
  obtain ⟨q, hq, r, hr, huser⟩ := hkey
  have hq : w.ledger.findKey key = some q := hq
  have hr : findByJournal w.payouts q.id = some r := hr
  rcases reservePayout_answer hexec with ⟨hpoor, -⟩ | ⟨-, payoutId, journalId, referenceId, rest, -,
    -, ha⟩
  · cases hrich.symm.trans hpoor
  · refine ⟨r.1, r.2, ?_, huser⟩
    simp [ha, World.payoutsDb, hq, hr]

/-- Two reservations in agreeing states, under a key that is none of `other`. -/
lemma reserve_alike (h : exec cfg tid (.payouts (.reserve userId key amount bank)) ω w =
      some (a, v)) (h' : exec cfg tid' (.payouts (.reserve userId key amount bank)) ω w' =
      some (a', v')) (hagree : AgreeOff other w w') (hnamed : RowsNamed w)
    (hnamed' : RowsNamed w') (huser : userId ≠ other)
    (hfree : w.ledger.affords userId amount = true →
      KeyFreeOf other key w ∧ KeyFreeOf other key w') :
    a = a' ∧ ∀ id p, a = .ok (id, p) → p.userId ≠ other := by
  obtain ⟨db, es, hexec, -⟩ := exec_payouts h
  obtain ⟨db', es', hexec', -⟩ := exec_payouts h'
  have hafford := hagree.affords huser amount
  rcases reservePayout_answer hexec with ⟨hpoor, rfl⟩ | ⟨hrich, payoutId, journalId, referenceId,
    rest, hids, hfresh, rfl⟩ <;>
    rcases reservePayout_answer hexec' with ⟨hpoor', rfl⟩ | ⟨hrich', payoutId', journalId',
      referenceId', rest', hids', hfresh', rfl⟩
  · exact ⟨rfl, fun _ _ h => nomatch h⟩
  · cases (hpoor.symm.trans hafford).trans hrich'
  · cases (hrich.symm.trans hafford).trans hpoor'
  · obtain ⟨hw, hw'⟩ := hfree hrich
    cases hids.symm.trans hids'
    have hkey : w.ledger.findKey key = w'.ledger.findKey key :=
      hagree.findKey hnamed hnamed' hw hw'
    -- Whichever journal it is, the payout that names it is not one of `other`.
    have hnotOf : ∀ {u : World}, KeyFreeOf other key u → RowsNamed u →
        (u.ledger.findKey key = none → ∀ q ∈ u.ledger.postings, q.id ≠ journalId) →
        ∀ r ∈ findByJournal u.payouts ((u.ledger.findKey key).elim journalId Posting.id),
          r.2.userId ≠ other := by
      intro u hu hnamed hfresh r hr
      rcases hq : u.ledger.findKey key with _ | q
      · rw [hq] at hr
        obtain ⟨hmem, hj⟩ := findByJournal_eq_some hr
        obtain ⟨q, hqmem, hqid⟩ := hnamed.named r.1 r.2 (Table.get?_eq_some_iff.mpr hmem)
        exact absurd (hqid.trans hj) (hfresh hq q hqmem)
      · rw [hq] at hr
        exact hu q hq r hr
    have hrow := hnotOf hw hnamed hfresh
    have hrow' := hnotOf hw' hnamed' hfresh'
    rw [← hkey] at hrow'
    have hfind := hagree.findByJournal hnamed hnamed' hrow hrow'
    simp only [World.payoutsDb] at hfind ⊢
    rw [← hkey, ← hfind, hagree.now]
    refine ⟨rfl, fun id p hp => ?_⟩
    have hp := Except.ok.inj hp
    rcases hr : findByJournal w.payouts ((w.ledger.findKey key).elim journalId Posting.id) with
      _ | r
    · rw [hr] at hp
      cases hp
      exact huser
    · rw [hr] at hp
      cases hp
      exact hrow _ hr

end Reserve

/-! ## The two results -/

/-- **A payout request is isolated from another user exactly when** a check of its own refuses it,
or its key is that of no payout of that user in either state. -/
theorem payout_isolated_iff {cfg : Config} {other userId : Uuid} {key : String}
    {body : CreatePayoutBody} {ms ms' : List (Moment Oracle World)} {r r' : Result}
    (huser : userId ≠ other) (h : Twins cfg other userId key body ms ms' r r') :
    Isolated other ms ms' r r' ↔
      (ChecksPass userId body ms → KeyNotOf other key ms ∧ KeyNotOf other key ms') := by
  have hnamed : ∀ m ∈ ms ++ ms', RowsNamed m.before := by
    intro m hm
    obtain ⟨now, wallets, s, hs, hworld⟩ := h.reached m hm
    exact hworld ▸ (Reachable.world_rel PayoutsLater.refl PayoutsLater.trans
      (fun _ _ => payoutsLater_of_step) hs).named (rowsNamed_fresh now wallets)
  obtain ⟨tid, hserved⟩ := h.served
  obtain ⟨tid', hserved'⟩ := h.served'
  have hanswers := h.answers
  have hagree := h.agree
  -- The checks come out alike in two moments of which the states agree.
  have hpins : ∀ {m m' : Moment Oracle World}, m.answer = m'.answer →
      AgreeOff other m.before m'.before →
      checkPin ⟨m.answer.pinSet, m.answer.pinMatches, m.before.tiers userId⟩ =
        checkPin ⟨m'.answer.pinSet, m'.answer.pinMatches, m'.before.tiers userId⟩ := by
    intro m m' ha hg
    rw [ha, hg.tiers]
  have hcaps : ∀ {m m' n n' : Moment Oracle World}, AgreeOff other m.before m'.before →
      AgreeOff other n.before n'.before →
      checkPayout (m.before.tiers userId) body.amountNgn
          (usedToday n.before.now n.before.payouts userId) =
        checkPayout (m'.before.tiers userId) body.amountNgn
          (usedToday n'.before.now n'.before.payouts userId) := by
    intro m m' n n' hg hg'
    rw [hg.tiers, hg'.usedToday huser]
  have refused : ∀ {ms ms' : List (Moment Oracle World)} {e : ApiError},
      ¬ ChecksPass userId body ms →
      (Isolated other ms ms' (.error e) (.error e) ↔
        (ChecksPass userId body ms → KeyNotOf other key ms ∧ KeyNotOf other key ms')) := by
    intro ms ms' e hno
    exact ⟨fun _ hpass => absurd hpass hno, fun _ => ⟨rfl, fun _ _ h => (nomatch h),
      fun _ _ h => (nomatch h)⟩⟩
  have hfirst := servedPayout_of_along hserved
  have hsecond := servedPayout_of_along hserved'
  clear hserved hserved' h
  cases hfirst <;> cases hsecond <;>
    simp only [List.zip_cons_cons, List.zip_nil_left, List.zip_nil_right, List.mem_cons,
      List.not_mem_nil, or_false, forall_eq_or_imp, forall_eq] at hanswers hagree
  -- Neither is refused by a check the other passes.
  all_goals try (exfalso; clear hnamed refused; grind)
  case amount.amount e he e' he' =>
    obtain rfl : e = e' := Except.error.inj (he.symm.trans he')
    exact refused id
  case pin.pin m e _ he m' e' _ he' =>
    obtain rfl : e = e' := Except.error.inj ((he.symm.trans (hpins hanswers hagree)).trans he')
    exact refused id
  case cap.cap m n e _ _ he m' n' e' _ _ he' =>
    obtain rfl : e = e' :=
      Except.error.inj ((he.symm.trans (hcaps hagree.1 hagree.2)).trans he')
    exact refused id
  case destination.destination m n d e _ _ _ he m' n' d' e' _ _ _ he' =>
    rw [hanswers.2.2] at he
    obtain rfl : e = e' := Except.error.inj (he.symm.trans he')
    exact refused id
  case reserve.reserve user usage destination reserve bank a _ hpin hcap hbank _ hexec user' usage'
      destination' reserve' bank' a' _ _ _ hbank' _ hexec' =>
    obtain ⟨-, -, hdestination, hanswer⟩ := hanswers
    obtain ⟨-, -, -, hagree⟩ := hagree
    have hbanks := hbank
    rw [hdestination] at hbanks
    obtain rfl : bank = bank' := Except.ok.inj (hbanks.symm.trans hbank')
    have hn := hnamed reserve (by simp)
    have hn' := hnamed reserve' (by simp)
    rw [hanswer] at hexec
    have hpass : ChecksPass userId body [user, usage, destination, reserve] ↔
        reserve.before.ledger.affords userId body.amountNgn = true :=
      ⟨fun h => h.2.2.2, fun h => ⟨hpin, hcap, by rw [hbank]; rfl, h⟩⟩
    have hfree : ∀ {m n d reserve : Moment Oracle World}, KeyNotOf other key [m, n, d, reserve] ↔
        KeyFreeOf other key reserve.before := by simp [KeyNotOf]
    rw [hpass, hfree, hfree]
    constructor
    · intro h hrich
      constructor
      · by_contra hkey
        obtain ⟨id, p, rfl, hp⟩ := reserve_leaks hexec hrich hkey
        exact h.notOf id p rfl hp
      · by_contra hkey
        obtain ⟨id, p, rfl, hp⟩ :=
          reserve_leaks hexec' (hagree.affords huser body.amountNgn ▸ hrich) hkey
        exact h.notOf' id p rfl hp
    · intro h
      obtain ⟨rfl, hnot⟩ := reserve_alike hexec hexec' hagree hn hn' huser h
      have hnot : NotOf other (a.map fun x => .payout x.1 x.2) := by
        intro id p hp
        rcases a with e | ⟨id', p'⟩
        · cases hp
        · cases hp
          exact hnot _ _ rfl
      refine ⟨?_, hnot, hnot⟩
      rcases a with e | ⟨id, p⟩
      · rfl
      · simp [Except.map, replyOf, destinationOf, hdestination]

/-! ## Two servings -/

section Servings

variable {cfg : Config}

/-- No operation changes a user's tier. -/
lemma tiers_of_exec {tid : ℕ} {op : Op} {ω : Oracle} {r : op.Res} {w w' : World}
    (h : exec cfg tid op ω w = some (r, w')) : w'.tiers = w.tiers := by
  cases (exec_move h).2 <;> rfl

/-- The move is not the backend's. -/
def fromOutside : Act Oracle PayingMove Request → Bool
  | .env _ => true
  | _ => false

lemma tiers_of_run {s s' : State} {as : List (Act Oracle PayingMove Request)}
    (hquiet : ∀ a ∈ as, fromOutside a = false)
    (h : (payingBackend cfg).run (fun _ _ => true) s as = some s') :
    s'.world.tiers = s.world.tiers := by
  induction as generalizing s with
  | nil =>
      cases h
      rfl
  | cons a as ih =>
      simp only [run, if_true, Option.bind_eq_some_iff] at h
      obtain ⟨s₁, hs, h⟩ := h
      rw [ih (fun a ha => hquiet a (List.mem_cons_of_mem _ ha)) h]
      rcases step_cases hs with ⟨e, rfl, -⟩ | ⟨tid, req, -, rfl⟩ |
        ⟨tid, ω, req, b, op, k, r, -, -, hexec, -⟩ | ⟨tid, -, rfl⟩
      · cases hquiet _ List.mem_cons_self
      · rfl
      · exact tiers_of_exec hexec
      · rfl

/-- The request served in one state, its checks passed. -/
lemma along_whole {tid : ℕ} {userId bank : Uuid} {key : String} {body : CreatePayoutBody}
    {ω : Oracle} {w v : World} {a : Except ApiError (Uuid × Payout)}
    (hamount : checkAmount body = .ok ())
    (hcap : checkPayout (w.tiers userId) body.amountNgn (usedToday w.now w.payouts userId) = .ok ())
    (hexec : exec cfg tid (.payouts (.reserve userId key body.amountNgn bank)) ω w = some (a, v)) :
    (payingBackend cfg).Along tid (createPayout userId key body)
      [⟨w, {}, w⟩, ⟨w, {}, w⟩, ⟨w, { destination := .ok bank }, w⟩, ⟨w, ω, v⟩]
      (.ret (a.map fun x => .payout x.1 x.2)) := by
  unfold createPayout
  simp only [hamount, Prog.perform_bind]
  refine .cons (r := ⟨true, true, w.tiers userId⟩) rfl ?_
  refine .cons (r := usedToday w.now w.payouts userId) rfl ?_
  rw [hcap]
  refine .cons (r := .ok bank) rfl ?_
  refine .cons hexec ?_
  rcases a with e | ⟨id, p⟩ <;> exact .nil

/-- What the request finds when it is served in one state. -/
def wholeMoments (bank : Uuid) (ω : Oracle) (w v : World) : List (Moment Oracle World) :=
  [⟨w, {}, w⟩, ⟨w, {}, w⟩, ⟨w, { destination := .ok bank }, w⟩, ⟨w, ω, v⟩]

/-- One schedule reaches a state and a second goes on from there; a request that passes its checks
in both states is served in each. -/
lemma exists_twins (cfg : Config) (first rest : List (Act Oracle PayingMove Request))
    (other userId bank : Uuid) (key : String) (body : CreatePayoutBody) (ω : Oracle)
    (T : World → World → Except ApiError (Uuid × Payout) → Prop) [∀ w w' a, Decidable (T w w' a)]
    (hquiet : ∀ a ∈ rest, fromOutside a = false) (hamount : checkAmount body = .ok ())
    (h : ((payingBackend cfg).run (fun _ _ => true) (initial 0 []) first).any (fun s' =>
      ((payingBackend cfg).run (fun _ _ => true) s' rest).any fun s =>
        decide (TablesAgreeOff other s.world s'.world) &&
        decide (checkPayout (s.world.tiers userId) body.amountNgn
          (usedToday s.world.now s.world.payouts userId) = .ok ()) &&
        decide (checkPayout (s'.world.tiers userId) body.amountNgn
          (usedToday s'.world.now s'.world.payouts userId) = .ok ()) &&
        (exec cfg 0 (.payouts (.reserve userId key body.amountNgn bank)) ω s'.world).isSome &&
        (exec cfg 0 (.payouts (.reserve userId key body.amountNgn bank)) ω s.world).any fun x =>
          T s.world s'.world x.1) = true) :
    ∃ (w v w' v' : World) (a a' : Except ApiError (Uuid × Payout)),
      Twins cfg other userId key body (wholeMoments bank ω w v)
        (wholeMoments bank ω w' v') (a.map fun x => .payout x.1 x.2)
        (a'.map fun x => .payout x.1 x.2) ∧
      T w w' a := by
  obtain ⟨s', hs', h⟩ := (Option.any_eq_true _ _).mp h
  obtain ⟨s, hs, h⟩ := (Option.any_eq_true _ _).mp h
  simp only [Bool.and_eq_true, decide_eq_true_eq, Option.any_eq_true,
    Option.isSome_iff_exists] at h
  obtain ⟨⟨⟨⟨htables, hcap⟩, hcap'⟩, ⟨a', v'⟩, hexec'⟩, ⟨a, v⟩, hexec, hT⟩ := h
  have hreach' : (payingBackend cfg).Reachable unguarded (initial 0 []) s' :=
    reachable_of_run (fun _ _ _ => trivial) .init hs'
  have hreach : (payingBackend cfg).Reachable unguarded (initial 0 []) s :=
    reachable_of_run (fun _ _ _ => trivial) hreach' hs
  have hagree : AgreeOff other s.world s'.world := ⟨htables, tiers_of_run hquiet hs⟩
  refine ⟨s.world, v, s'.world, v', a, a', ⟨⟨0, along_whole hamount hcap hexec⟩,
    ⟨0, along_whole hamount hcap' hexec'⟩, fun m hm => ?_, fun p hp => ?_, fun p hp => ?_⟩, hT⟩
  · simp only [wholeMoments, List.mem_append, List.mem_cons, List.not_mem_nil, or_false] at hm
    rcases hm with (rfl | rfl | rfl | rfl) | rfl | rfl | rfl | rfl
    all_goals first | exact ⟨0, [], s, hreach, rfl⟩ | exact ⟨0, [], s', hreach', rfl⟩
  · simp only [wholeMoments, List.zip_cons_cons, List.zip_nil_left, List.mem_cons,
      List.not_mem_nil, or_false] at hp
    rcases hp with rfl | rfl | rfl | rfl <;> rfl
  · simp only [wholeMoments, List.zip_cons_cons, List.zip_nil_left, List.mem_cons,
      List.not_mem_nil, or_false] at hp
    rcases hp with rfl | rfl | rfl | rfl <;> exact hagree

end Servings

/-- Two users top up ₦5 000 each. -/
def twoTopUps : List (Act Oracle PayingMove Request) :=
  .env (.env (.setTier 7 .tier1)) :: .env (.env (.setTier 8 .tier1)) ::
    atRest (topUp 0 7 100 101 102 5000 ++ topUp 2 8 110 (1 <<< 100) 112 5000)

/-- One of them withdraws. -/
def strangerWithdraws : List (Act Oracle PayingMove Request) :=
  atRest (serve 4 (.createPayout 8 "once" ⟨1000, 0, 9⟩)
    [{}, {}, { destination := .ok 9 }, { fresh := [200, 201, 202] }])

theorem payout_isolated_own_key :
    ∃ ms ms' r r', Twins stubConfig 8 7 "mine" ⟨500, 0, 9⟩ ms ms' r r' ∧
      Isolated 8 ms ms' r r' := by
  obtain ⟨w, v, w', v', a, a', h, hfree, hfree'⟩ := exists_twins stubConfig twoTopUps
    strangerWithdraws 8 7 9 "mine" ⟨500, 0, 9⟩ { fresh := [300, 301, 302] }
    (fun w w' _ => KeyFreeOf 8 "mine" w ∧ KeyFreeOf 8 "mine" w') (by decide) (by decide)
    (by decide +kernel)
  refine ⟨_, _, _, _, h, (payout_isolated_iff (by decide) h).mpr fun _ => ⟨?_, ?_⟩⟩
  · simpa [KeyNotOf, wholeMoments] using hfree
  · simpa [KeyNotOf, wholeMoments] using hfree'

/-- A user who sends a key a stranger has used is shown the stranger's payout. -/
theorem payout_of_another :
    ¬ ∀ (other userId : Uuid) (key : String) (body : CreatePayoutBody)
      (ms ms' : List (Moment Oracle World)) (r r' : Result), userId ≠ other →
        Twins stubConfig other userId key body ms ms' r r' → Isolated other ms ms' r r' := by
  intro h
  obtain ⟨w, v, w', v', a, a', htwins, ha⟩ := exists_twins stubConfig twoTopUps
    strangerWithdraws 8 7 9 "once" ⟨500, 0, 9⟩ { fresh := [300, 301, 302] }
    (fun _ _ a => a.toOption.any (fun x => x.2.userId = 8) = true) (by decide) (by decide)
    (by decide +kernel)
  have hnot := (h 8 7 "once" _ _ _ _ _ (by decide) htwins).notOf
  rcases a with e | ⟨id, p⟩
  · cases ha
  · exact hnot id p rfl (by simpa [Except.toOption] using ha)

end Naivolt
