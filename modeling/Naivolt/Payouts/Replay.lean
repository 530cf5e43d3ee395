import Naivolt.Foundation.Moments
import Naivolt.System.Steps

/-!
# Repeating a payout request

A client that lost the response of `create_payout` sends the request again under the same key, and
is to be told of the payout it already has.  The lookup that would tell it comes last: by then the
request has passed the PIN, the daily cap — which counts the payout itself —, the destination and
the balance, which the payout has been taken from.

`ChecksPass` says that the request passes them once more, each in the moment it is made.
`payout_replay_stable_iff` shows that this is exactly when it is answered with the payout it
repeats, whatever happened in between; `payout_replay_refused` is a user who withdrew all they had
and is refused their own payout.

The job that sends payouts to the bank is not part of this backend, but the rows are there for it
to move through their statuses, so `payingBackend` lets it.
-/

namespace Naivolt

open Foundation Foundation.Machine

/-! ## The backend and the job that sends its payouts -/

/-- What happens without the backend: its environment, and a payout that changes its status. -/
inductive PayingMove where
  | env (e : EnvMove)
  | moved (payout : Uuid) (status : PayoutStatus)

def execPaying : PayingMove → World → Option World
  | .env e, w => execEnv e w
  | .moved payout status, w =>
      some { w with payouts := w.payouts.modify payout fun p => { p with status := status } }

/-- The backend beside the job that sends its payouts. -/
def payingBackend (cfg : Config) :
    Machine Op Op.Res Oracle PayingMove World Request Time Result where
  exec tid op ω w := exec cfg tid op ω w
  env := execPaying
  program := program cfg
  stamp w := w.now

/-! ## What is required -/

/-- The request passes the checks of `create_payout`, each in the moment it is made. -/
def ChecksPass (userId : Uuid) (body : CreatePayoutBody) : List (Moment Oracle World) → Prop
  | [user, usage, destination, reserve] =>
      checkPin ⟨user.answer.pinSet, user.answer.pinMatches, user.before.tiers userId⟩ = .ok () ∧
      checkPayout (user.before.tiers userId) body.amountNgn
        (usedToday usage.before.now usage.before.payouts userId) = .ok () ∧
      destination.answer.destination.isOk = true ∧
      reserve.before.ledger.affords userId body.amountNgn = true
  | _ => False

instance (userId : Uuid) (body : CreatePayoutBody) (ms : List (Moment Oracle World)) :
    Decidable (ChecksPass userId body ms) := by
  unfold ChecksPass
  split <;> infer_instance

/-- The request is answered with the payout and changes neither ledger nor payouts. -/
def SameAgain (payout : Uuid) (r : Result) (ms : List (Moment Oracle World)) : Prop :=
  (∃ p, r = .ok (.payout payout p)) ∧
    ∀ m ∈ ms, m.after.ledger = m.before.ledger ∧ m.after.payouts = m.before.payouts

/-- The task's answer is that of the request. -/
def AnsweredPayout (s : State) (tid : ℕ) (userId : Uuid) (key : String) (body : CreatePayoutBody)
    (r : Result) : Prop :=
  ∃ born, s.task tid = some ⟨.createPayout userId key body, born, .ret r⟩

/-- In a state of some run the request has been answered with a payout; the schedule goes on from
there, and at its end a later request with the same user, key and body has been answered. -/
structure Repeated (cfg : Config) (s : State) (as : List (Act Oracle PayingMove Request))
    (later : ℕ) (userId : Uuid) (key : String) (body : CreatePayoutBody) (payout : Uuid)
    (r : Result) : Prop where
  reached : ∃ now wallets, (payingBackend cfg).Reachable unguarded (initial now wallets) s
  first : ∃ tid p, AnsweredPayout s tid userId key body (.ok (.payout payout p))
  idle : s.task later = none
  repeated : ∃ s', (payingBackend cfg).run (fun _ _ => true) s as = some s' ∧
    AnsweredPayout s' later userId key body r

/-- The moments of the later request. -/
def repeatMoments (cfg : Config) (s : State) (as : List (Act Oracle PayingMove Request))
    (later : ℕ) : List (Moment Oracle World) :=
  (payingBackend cfg).moments later s [] as

/-! ## Rows and journals -/

/-- Every payout names a journal of the ledger, and no two name the same. -/
structure RowsNamed (w : World) : Prop where
  named : ∀ id p, w.payouts.get? id = some p →
    ∃ q ∈ w.ledger.postings, q.id = p.reservedJournalId
  once : ∀ id p id' p', w.payouts.get? id = some p → w.payouts.get? id' = some p' →
    p.reservedJournalId = p'.reservedJournalId → id = id'

lemma rowsNamed_fresh (now : Time) (wallets : List Wallet) :
    RowsNamed (World.fresh now wallets) where
  named _ _ hp := nomatch hp
  once _ _ _ _ hp := nomatch hp

/-- The payout names the journal filed under the key. -/
def PaidUnder (key : String) (payout : Uuid) (w : World) : Prop :=
  ∃ q p, w.ledger.findKey key = some q ∧ w.payouts.get? payout = some p ∧
    p.reservedJournalId = q.id

/-- What may become of the books: postings are added, and no payout comes to name another
journal. -/
structure PayoutsLater (w w' : World) : Prop where
  postings : ∀ q ∈ w.ledger.postings, q ∈ w'.ledger.postings
  payouts : ∀ id p, w.payouts.get? id = some p →
    ∃ p', w'.payouts.get? id = some p' ∧ p'.reservedJournalId = p.reservedJournalId
  named : RowsNamed w → RowsNamed w'

namespace PayoutsLater

variable {w w' w'' : World}

lemma refl (w : World) : PayoutsLater w w := ⟨fun _ h => h, fun _ p h => ⟨p, h, rfl⟩, fun h => h⟩

lemma trans (h : PayoutsLater w w') (h' : PayoutsLater w' w'') : PayoutsLater w w'' where
  postings q hq := h'.postings q (h.postings q hq)
  payouts id p hp := by
    obtain ⟨p', hp', hj⟩ := h.payouts id p hp
    obtain ⟨p'', hp'', hj'⟩ := h'.payouts id p' hp'
    exact ⟨p'', hp'', hj'.trans hj⟩
  named := h'.named ∘ h.named

lemma paidUnder {key : String} {payout : Uuid} (h : PayoutsLater w w')
    (hp : PaidUnder key payout w) : PaidUnder key payout w' := by
  obtain ⟨q, p, hq, hp, hj⟩ := hp
  obtain ⟨hmem, hkey⟩ := Ledger.findKey_eq_some_iff.mp hq
  obtain ⟨p', hp', hj'⟩ := h.payouts payout p hp
  exact ⟨q, p', Ledger.findKey_eq_some_iff.mpr ⟨h.postings q hmem, hkey⟩, hp', hj'.trans hj⟩

/-- A ledger that grew beside the same payouts. -/
lemma of_payouts (hpayouts : w'.payouts = w.payouts)
    (hledger : ∀ q ∈ w.ledger.postings, q ∈ w'.ledger.postings) : PayoutsLater w w' where
  postings := hledger
  payouts id p hp := ⟨p, hpayouts ▸ hp, rfl⟩
  named h := by
    refine ⟨fun id p hp => ?_, fun id p id' p' hp hp' => ?_⟩
    · obtain ⟨q, hq, hj⟩ := h.named id p (hpayouts ▸ hp)
      exact ⟨q, hledger q hq, hj⟩
    · exact h.once id p id' p' (hpayouts ▸ hp) (hpayouts ▸ hp')

end PayoutsLater

/-- The payout that names a journal is the one found by it. -/
lemma RowsNamed.findByJournal {w : World} (h : RowsNamed w) {payout : Uuid} {p : Payout}
    (hp : w.payouts.get? payout = some p) :
    Naivolt.findByJournal w.payouts p.reservedJournalId = some (payout, p) := by
  rcases hfind : Naivolt.findByJournal w.payouts p.reservedJournalId with _ | ⟨id', p'⟩
  · exact absurd rfl (findByJournal_eq_none hfind (Table.get?_eq_some_iff.mp hp))
  · obtain ⟨hmem, hj⟩ := findByJournal_eq_some hfind
    have hp' : w.payouts.get? id' = some p' := Table.get?_eq_some_iff.mpr hmem
    cases h.once id' p' payout p hp' hp hj
    cases hp'.symm.trans hp
    rfl

section Steps

variable {cfg : Config} {tid : ℕ} {ω : Oracle} {w w' : World}

/-- A reservation adds at most one posting, and a row only when none names its journal. -/
lemma payoutsLater_of_reserve {userId : Uuid} {key : String} {amount : ℚ} {bank : Uuid}
    {r : Except ApiError (Uuid × Payout)} {db : PayoutsDb} {es : Log}
    (h : reservePayout w.now ω.fresh userId key amount bank w.payoutsDb = some (r, db, es)) :
    PayoutsLater w ((w.draw ω).putPayouts db es) := by
  have hgrows : ∀ {j : Journal} {id : Uuid} {out : PostOutcome} {ledger : Ledger},
      db.ledger = ledger → w.ledger.post j id = some (out, ledger) →
        ∀ q ∈ w.ledger.postings, q ∈ db.ledger.postings := by
    rintro j id out _ rfl hpost q hq
    exact (Ledger.postings_suffix_of_post hpost).subset hq
  rcases reservePayout_cases h with ⟨rfl, rfl⟩ | ⟨payoutId, journalId, referenceId, journal, posted,
    ledger, -, -, -, hpost, hledger, ⟨existing, -, hpayouts, -⟩ | ⟨hnone, hinsert, -⟩⟩
  · exact .of_payouts rfl fun _ hq => hq
  · exact .of_payouts hpayouts fun q hq =>
      hgrows hledger hpost q hq
  · refine ⟨hgrows hledger hpost,
      fun id p hp => ⟨p, ?_, rfl⟩, fun hnamed => ?_⟩
    · refine (Table.get?_insert hinsert id).trans ?_
      rw [if_neg]
      · exact hp
      rintro rfl
      cases hp.symm.trans (Table.insert_eq_some hinsert).1
    · have hget : ∀ {i q}, ((w.draw ω).putPayouts db es).payouts.get? i = some q →
          (i = payoutId ∧ q.reservedJournalId = posted.journalId) ∨
            w.payouts.get? i = some q := by
        intro i q hq
        rw [show ((w.draw ω).putPayouts db es).payouts = db.payouts from rfl,
          Table.get?_insert hinsert] at hq
        split at hq
        · cases hq
          exact .inl ⟨‹_›, rfl⟩
        · exact .inr hq
      -- No row already there names the journal of the new one.
      have hold : ∀ {i q}, w.payouts.get? i = some q →
          q.reservedJournalId ≠ posted.journalId :=
        fun hq => findByJournal_eq_none hnone (Table.get?_eq_some_iff.mp hq)
      refine ⟨fun id p hp => ?_, fun id p id' p' hp hp' hj => ?_⟩
      · rcases hget hp with ⟨rfl, hpj⟩ | hp
        · obtain ⟨q, hq, hqid, -⟩ := Ledger.mem_of_post hpost
          subst hledger
          exact ⟨q, hq, hqid.trans hpj.symm⟩
        · obtain ⟨q, hq, hqid⟩ := hnamed.named id p hp
          exact ⟨q, hgrows hledger hpost q hq, hqid⟩
      · rcases hget hp with ⟨rfl, hpj⟩ | hp <;> rcases hget hp' with ⟨rfl, hpj'⟩ | hp'
        · rfl
        · exact absurd (hj.symm.trans hpj) (hold hp')
        · exact absurd (hj.trans hpj') (hold hp)
        · exact hnamed.once id p id' p' hp hp' hj

lemma payoutsLater_of_exec {op : Op} {r : op.Res} (h : exec cfg tid op ω w = some (r, w')) :
    PayoutsLater w w' := by
  have hother : w'.payouts = w.payouts → PayoutsLater w w' := by
    intro hpayouts
    refine .of_payouts hpayouts fun q hq => ?_
    cases exec_ledger h with
    | same hledger => exact hledger ▸ hq
    | posted _ _ hpost => exact (Ledger.postings_suffix_of_post hpost).subset hq
  cases (exec_move h).2 with
  | @payouts pop r db es hexec =>
      cases pop with
      | reserve userId key amount bank => exact payoutsLater_of_reserve hexec
      | _ =>
          cases hexec
          exact .of_payouts rfl fun _ hq => hq
  | _ => exact hother rfl

lemma payoutsLater_of_step (h : (payingBackend cfg).WorldStep w w') : PayoutsLater w w' := by
  cases h with
  | exec he => exact payoutsLater_of_exec he
  | @env e _ _ he =>
      cases e with
      | env e =>
          obtain ⟨now, wallets, tiers, -, rfl⟩ := execEnv_eq he
          exact .of_payouts rfl fun _ hq => hq
      | moved payout status =>
          cases he
          have hget : ∀ {i q}, (w.payouts.modify payout
              fun p => { p with status := status }).get? i = some q →
                ∃ q', w.payouts.get? i = some q' ∧ q'.reservedJournalId = q.reservedJournalId := by
            intro i q hq
            rw [Table.get?_modify] at hq
            split at hq
            · obtain ⟨q', hq', rfl⟩ := Option.map_eq_some_iff.mp hq
              exact ⟨q', hq', rfl⟩
            · exact ⟨q, hq, rfl⟩
          refine ⟨fun _ hq => hq, fun id p hp => ?_, fun hnamed => ⟨fun id p hp => ?_,
            fun id p id' p' hp hp' hj => ?_⟩⟩
          · simp only [Table.get?_modify, hp]
            split <;> exact ⟨_, rfl, rfl⟩
          · obtain ⟨q, hq, hqj⟩ := hget hp
            exact hqj ▸ hnamed.named id q hq
          · obtain ⟨q, hq, hqj⟩ := hget hp
            obtain ⟨q', hq', hqj'⟩ := hget hp'
            exact hnamed.once id q id' q' hq hq' (hqj.trans (hj.trans hqj'.symm))

/-! ## The request, check by check -/

/-- The row a reservation inserts. -/
def newPayout (userId bank referenceId : Uuid) (amount : ℚ) (now : Time) (journalId : Uuid) :
    Payout :=
  ⟨userId, bank, amount, 0, .reserved, payoutReference referenceId, journalId, now⟩

/-- The journal under the key is the one found there, or the new one. -/
lemma posted_under {j : Journal} {id : Uuid} {posted : PostOutcome} {l l' : Ledger}
    (h : l.post j id = some (posted, l')) :
    posted.journalId = (l.findKey j.idempotencyKey).elim id Posting.id ∧
      (l.findKey j.idempotencyKey = none → ∀ q ∈ l.postings, q.id ≠ id) := by
  rcases Ledger.post_cases h with ⟨rfl, -, hfree⟩ | ⟨q, hq, hqkey, rfl, rfl⟩
  · have hnone : l.findKey j.idempotencyKey = none := by
      simpa [Ledger.findKey] using hfree
    exact ⟨by rw [hnone]; rfl, fun _ => (Ledger.of_posted h).2.2⟩
  · have hsome := Ledger.findKey_eq_some_iff.mpr ⟨hq, hqkey⟩
    exact ⟨by rw [hsome]; rfl, fun hnone => by cases hsome.symm.trans hnone⟩

/-- **What a reservation answers.**  The balance does not suffice; or the payout that names the
journal under the key, a new one if there is none. -/
lemma reservePayout_answer {now : Time} {fresh : List Uuid} {userId : Uuid} {key : String}
    {amount : ℚ} {bank : Uuid} {db db' : PayoutsDb} {a : Except ApiError (Uuid × Payout)}
    {es : Log} (h : reservePayout now fresh userId key amount bank db = some (a, db', es)) :
    (db.ledger.affords userId amount = false ∧ a = .error .insufficientBalance) ∨
    (db.ledger.affords userId amount = true ∧ ∃ payoutId journalId referenceId rest,
      fresh = payoutId :: journalId :: referenceId :: rest ∧
      (db.ledger.findKey key = none → ∀ q ∈ db.ledger.postings, q.id ≠ journalId) ∧
      a = .ok ((findByJournal db.payouts ((db.ledger.findKey key).elim journalId Posting.id)).getD
        (payoutId, newPayout userId bank referenceId amount now
          ((db.ledger.findKey key).elim journalId Posting.id)))) := by
  unfold reservePayout at h
  split at h
  · rename_i hpoor
    cases h
    exact .inl ⟨by simpa using hpoor, rfl⟩
  · rename_i hrich
    split at h
    · rename_i payoutId journalId referenceId rest
      simp only at h
      split at h
      · cases h
      · rename_i journal hbuild
        obtain ⟨⟨posted, ledger⟩, hpost, h⟩ := Option.bind_eq_some_iff.mp h
        have hkey : journal.idempotencyKey = key := (JournalBuilder.build_eq_ok hbuild).2.2.1
        have hposted := hkey ▸ posted_under hpost
        refine .inr ⟨by simpa using hrich, payoutId, journalId, referenceId, rest, rfl,
          hposted.2, ?_⟩
        rw [← hposted.1]
        simp only at h
        split at h
        · rename_i existing hex
          cases h
          rw [hex]
          rfl
        · rename_i hnone
          obtain ⟨payouts, -, h⟩ := Option.bind_eq_some_iff.mp h
          cases h
          rw [hnone]
          rfl
    · cases h

/-- The operation left ledger and payouts alone. -/
def Untouched (m : Moment Oracle World) : Prop :=
  m.after.ledger = m.before.ledger ∧ m.after.payouts = m.before.payouts

/-- `create_payout` up to the check that refuses it, or to its reservation. -/
inductive ServedPayout (cfg : Config) (tid : ℕ) (userId : Uuid) (key : String)
    (body : CreatePayoutBody) : List (Moment Oracle World) → Result → Prop where
  | amount {e : ApiError} (hamount : checkAmount body = .error e) :
      ServedPayout cfg tid userId key body [] (.error e)
  | pin {user : Moment Oracle World} {e : ApiError} (hamount : checkAmount body = .ok ())
      (hpin : checkPin ⟨user.answer.pinSet, user.answer.pinMatches, user.before.tiers userId⟩ =
        .error e) :
      ServedPayout cfg tid userId key body [user] (.error e)
  | cap {user usage : Moment Oracle World} {e : ApiError} (hamount : checkAmount body = .ok ())
      (hpin : checkPin ⟨user.answer.pinSet, user.answer.pinMatches, user.before.tiers userId⟩ =
        .ok ())
      (hcap : checkPayout (user.before.tiers userId) body.amountNgn
        (usedToday usage.before.now usage.before.payouts userId) = .error e) :
      ServedPayout cfg tid userId key body [user, usage] (.error e)
  | destination {user usage destination : Moment Oracle World} {e : ApiError}
      (hamount : checkAmount body = .ok ())
      (hpin : checkPin ⟨user.answer.pinSet, user.answer.pinMatches, user.before.tiers userId⟩ =
        .ok ())
      (hcap : checkPayout (user.before.tiers userId) body.amountNgn
        (usedToday usage.before.now usage.before.payouts userId) = .ok ())
      (hdestination : destination.answer.destination = .error e) :
      ServedPayout cfg tid userId key body [user, usage, destination] (.error e)
  | reserve {user usage destination reserve : Moment Oracle World} {bank : Uuid}
      {a : Except ApiError (Uuid × Payout)} (hamount : checkAmount body = .ok ())
      (hpin : checkPin ⟨user.answer.pinSet, user.answer.pinMatches, user.before.tiers userId⟩ =
        .ok ())
      (hcap : checkPayout (user.before.tiers userId) body.amountNgn
        (usedToday usage.before.now usage.before.payouts userId) = .ok ())
      (hdestination : destination.answer.destination = .ok bank)
      (hlooked : ∀ m ∈ [user, usage, destination], Untouched m)
      (hexec : exec cfg tid (.payouts (.reserve userId key body.amountNgn bank)) reserve.answer
        reserve.before = some (a, reserve.after)) :
      ServedPayout cfg tid userId key body [user, usage, destination, reserve]
        (a.map fun x => .payout x.1 x.2)

lemma untouched_of_read {cfg : Config} {tid : ℕ} {pop : PayoutOp} {a : pop.Res}
    {m : Moment Oracle World}
    (hread : ∀ db es, execPayouts m.before.now m.answer m.before.payoutsDb pop = some (a, db, es) →
      db = m.before.payoutsDb)
    (h : exec cfg tid (.payouts pop) m.answer m.before = some (a, m.after)) : Untouched m := by
  obtain ⟨db, es, hexec, hafter⟩ := exec_payouts h
  rw [Untouched, hafter, hread db es hexec]
  exact ⟨rfl, rfl⟩

/-- **A request that has been answered was refused by one of its checks, or came to reserve.** -/
lemma servedPayout_of_along {cfg : Config} {tid : ℕ} {userId : Uuid} {key : String}
    {body : CreatePayoutBody} {ms : List (Moment Oracle World)} {r : Result}
    (h : (payingBackend cfg).Along tid (createPayout userId key body) ms (.ret r)) :
    ServedPayout cfg tid userId key body ms r := by
  unfold createPayout at h
  split at h
  · rename_i e he
    obtain ⟨rfl, rfl⟩ := h.ret_nil
    exact .amount he
  · rename_i hamount
    simp only [Prog.perform_bind] at h
    obtain ⟨user, ms₁, a₁, rfl, he₁, h⟩ := h.call_ret
    have hlook₁ := untouched_of_read (fun _ _ h => by cases h; rfl) he₁
    obtain ⟨db, es, hexec, -⟩ := exec_payouts he₁
    cases hexec
    split at h
    · rename_i e he
      obtain ⟨rfl, rfl⟩ := h.ret_nil
      exact .pin hamount he
    · rename_i hpin
      obtain ⟨usage, ms₂, a₂, rfl, he₂, h⟩ := h.call_ret
      have hlook₂ := untouched_of_read (fun _ _ h => by cases h; rfl) he₂
      obtain ⟨db, es, hexec, -⟩ := exec_payouts he₂
      cases hexec
      split at h
      · rename_i e he
        obtain ⟨rfl, rfl⟩ := h.ret_nil
        exact .cap hamount hpin he
      · rename_i hcap
        obtain ⟨destination, ms₃, a₃, rfl, he₃, h⟩ := h.call_ret
        have hlook₃ := untouched_of_read (fun _ _ h => by cases h; rfl) he₃
        obtain ⟨db, es, hexec, -⟩ := exec_payouts he₃
        cases hexec
        split at h
        · rename_i e he
          obtain ⟨rfl, rfl⟩ := h.ret_nil
          exact .destination hamount hpin hcap he
        · rename_i bank hbank
          obtain ⟨reserve, ms₄, a₄, rfl, he₄, h⟩ := h.call_ret
          have hlooked : ∀ m ∈ [user, usage, destination], Untouched m := by
            simp only [List.mem_cons, List.not_mem_nil, or_false]
            rintro m (rfl | rfl | rfl)
            exacts [hlook₁, hlook₂, hlook₃]
          have hserved := ServedPayout.reserve hamount hpin hcap hbank hlooked he₄
          rcases a₄ with e | ⟨id, p⟩
          · obtain ⟨rfl, rfl⟩ := h.ret_nil
            exact hserved
          · obtain ⟨rfl, rfl⟩ := h.ret_nil
            exact hserved

/-! ## The request, repeated -/

/-- A reservation that comes back with a payout comes back with the one under its key. -/
lemma paidUnder_of_reserve {userId : Uuid} {key : String} {amount : ℚ} {bank payout : Uuid}
    {p : Payout}
    (h : exec cfg tid (.payouts (.reserve userId key amount bank)) ω w =
      some (.ok (payout, p), w')) : PaidUnder key payout w' := by
  obtain ⟨db, es, hexec, rfl⟩ := exec_payouts h
  simp only [execPayouts, reservePayout] at hexec
  split at hexec
  · cases hexec
  · split at hexec
    · rename_i payoutId journalId referenceId rest _
      split at hexec
      · cases hexec
      · rename_i journal hbuild
        obtain ⟨⟨posted, ledger⟩, hpost, hexec⟩ := Option.bind_eq_some_iff.mp hexec
        have hkey : journal.idempotencyKey = key := (JournalBuilder.build_eq_ok hbuild).2.2.1
        obtain ⟨q, hq, hqid, hqkey⟩ := Ledger.mem_of_post hpost
        have hfound := Ledger.findKey_eq_some_iff.mpr ⟨hq, hqkey.trans hkey⟩
        simp only at hexec
        split at hexec
        · rename_i existing hex
          cases hexec
          obtain ⟨hmem, hj⟩ := findByJournal_eq_some hex
          exact ⟨q, p, hfound, Table.get?_eq_some_iff.mpr hmem, hj.trans hqid.symm⟩
        · obtain ⟨payouts, hinsert, hexec⟩ := Option.bind_eq_some_iff.mp hexec
          cases hexec
          exact ⟨q, _, hfound, (Table.get?_insert hinsert _).trans (if_pos rfl), hqid.symm⟩
    · cases hexec

/-- Under a key that already has its payout nothing is written, and the answer depends on the
balance alone. -/
lemma reserve_again {userId : Uuid} {key : String} {amount : ℚ} {bank payout : Uuid}
    {m : Moment Oracle World} {a : Except ApiError (Uuid × Payout)}
    (h : exec cfg tid (.payouts (.reserve userId key amount bank)) m.answer m.before =
      some (a, m.after)) (hpaid : PaidUnder key payout m.before) (hnamed : RowsNamed m.before) :
    Untouched m ∧ ((∃ p, a = .ok (payout, p)) ↔ m.before.ledger.affords userId amount = true) := by
  obtain ⟨q, p, hq, hp, hj⟩ := hpaid
  obtain ⟨db, es, hexec, hafter⟩ := exec_payouts h
  have hfind : findByJournal m.before.payouts q.id = some (payout, p) :=
    hj ▸ hnamed.findByJournal hp
  constructor
  · rw [Untouched, hafter]
    rcases reservePayout_cases hexec with ⟨rfl, -⟩ | ⟨payoutId, journalId, referenceId, journal,
      posted, ledger, -, hbuild, -, hpost, hledger, hrow⟩
    · exact ⟨rfl, rfl⟩
    · have hkey : journal.idempotencyKey = key := (JournalBuilder.build_eq_ok hbuild).2.2.1
      obtain ⟨hmem, hqkey⟩ := Ledger.findKey_eq_some_iff.mp hq
      rcases Ledger.post_cases hpost with ⟨-, -, hfree⟩ | ⟨q', hq', hqkey', rfl, rfl⟩
      · exact absurd (hqkey.trans hkey.symm) (hfree q hmem)
      · cases List.inj_on_of_nodup_map m.before.ledger.keysUnique hq' hmem
          (hqkey'.trans (hkey.trans hqkey.symm))
        rcases hrow with ⟨-, -, hpayouts, -⟩ | ⟨hnone, -⟩
        · exact ⟨hledger, hpayouts⟩
        · cases hnone.symm.trans hfind
  · rcases reservePayout_answer hexec with ⟨hpoor, rfl⟩ | ⟨hrich, payoutId, journalId, referenceId,
      rest, -, -, ha⟩
    · have hpoor : m.before.ledger.affords userId amount = false := hpoor
      simp [hpoor]
    · have hrich : m.before.ledger.affords userId amount = true := hrich
      simp [ha, hrich, World.payoutsDb, hq, hfind]

/-- The request served along its moments, all of them under a key that has its payout. -/
lemma createPayout_again {userId : Uuid} {key : String} {body : CreatePayoutBody} {payout : Uuid}
    {r : Result} {ms : List (Moment Oracle World)} (hamount : checkAmount body = .ok ())
    (h : (payingBackend cfg).Along tid (createPayout userId key body) ms (.ret r))
    (hms : ∀ m ∈ ms, PaidUnder key payout m.before ∧ RowsNamed m.before) :
    SameAgain payout r ms ↔ ChecksPass userId body ms := by
  cases servedPayout_of_along h with
  | amount he => cases hamount.symm.trans he
  | @reserve user usage destination reserve bank a _ hpin hcap hbank hlooked hexec =>
      obtain ⟨hpaid, hnamed⟩ := hms reserve (by simp)
      obtain ⟨huntouched, hiff⟩ := reserve_again hexec hpaid hnamed
      have hr : (∃ p, a.map (fun x : Uuid × Payout => Response.payout x.1 x.2) =
          .ok (.payout payout p)) ↔ ∃ p, a = .ok (payout, p) := by
        rcases a with e | ⟨id, p⟩ <;> simp [Except.map]
      simp only [SameAgain, ChecksPass, hr, hiff]
      constructor
      · exact fun h => ⟨hpin, hcap, by rw [hbank]; rfl, h.1⟩
      · rintro ⟨-, -, -, hrich⟩
        refine ⟨hrich, fun m hm => ?_⟩
        rcases List.mem_append.mp (show m ∈ [user, usage, destination] ++ [reserve] from hm) with
          hm | hm
        · exact hlooked m hm
        · exact List.mem_singleton.mp hm ▸ huntouched
  | _ => simp [SameAgain, ChecksPass]

end Steps

/-! ## The two results -/

/-- What a request answered with a payout says: the amount was sound, and the key has its payout. -/
def AnsweredPaid : Request → Result → World → Prop
  | .createPayout _ key body, .ok (.payout payout _), w =>
      checkAmount body = .ok () ∧ PaidUnder key payout w
  | _, _, _ => True

lemma AnsweredPaid.later {req : Request} {r : Result} {w w' : World} (h : PayoutsLater w w')
    (hr : AnsweredPaid req r w) : AnsweredPaid req r w' := by
  unfold AnsweredPaid at hr ⊢
  split
  · exact ⟨hr.1, h.paidUnder hr.2⟩
  · trivial

lemma returns_createPayout {cfg : Config} {userId : Uuid} {key : String} {body : CreatePayoutBody}
    {w : World} :
    Returns (payingBackend cfg) PayoutsLater (AnsweredPaid (.createPayout userId key body))
      (createPayout userId key body) w := by
  unfold createPayout
  split
  · trivial
  · rename_i hamount
    simp only [Prog.perform_bind]
    intro w₁ _ tid₁ ω₁ user w₁' _
    dsimp only
    split
    · trivial
    · intro w₂ _ tid₂ ω₂ used w₂' _
      dsimp only
      split
      · trivial
      · intro w₃ _ tid₃ ω₃ destination w₃' _
        cases destination with
        | error e => trivial
        | ok bank =>
            intro w₄ _ tid₄ ω₄ r w₄' he
            match r, he with
            | .error e, _ => trivial
            | .ok (id, p), he => exact ⟨hamount, paidUnder_of_reserve he⟩

/-- **A repeated payout request is answered with the payout it repeats, and changes nothing,
exactly when it passes every check of the first once more.** -/
theorem payout_replay_stable_iff {cfg : Config} {s : State}
    {as : List (Act Oracle PayingMove Request)} {later : ℕ} {userId : Uuid} {key : String}
    {body : CreatePayoutBody} {payout : Uuid} {r : Result}
    (h : Repeated cfg s as later userId key body payout r) :
    SameAgain payout r (repeatMoments cfg s as later) ↔
      ChecksPass userId body (repeatMoments cfg s as later) := by
  obtain ⟨⟨now, wallets, hreach⟩, ⟨tid, p, born, hfirst⟩, hidle, s', hrun, born', hlater⟩ := h
  have hpaid : AnsweredPaid (.createPayout userId key body) (.ok (.payout payout p)) s.world := by
    refine Reachable.answers (R := PayoutsLater) (Q := AnsweredPaid) .refl .trans
      (fun _ _ => payoutsLater_of_step) AnsweredPaid.later (fun req w => ?_) (fun _ => rfl) hreach
      tid _ born _ hfirst
    cases req with
    | createPayout userId key body => exact returns_createPayout
    | _ => exact Returns.of_forall (fun _ _ => trivial) _ _
  have hnamed : RowsNamed s.world :=
    (Reachable.world_rel PayoutsLater.refl PayoutsLater.trans
      (fun _ _ => payoutsLater_of_step) hreach).named (rowsNamed_fresh now wallets)
  obtain ⟨halong, hms⟩ := along_of_run PayoutsLater.refl PayoutsLater.trans
    (fun _ _ => payoutsLater_of_step) hidle hrun hlater
  exact createPayout_again hpaid.1 halong fun m hm =>
    ⟨(hms m hm).paidUnder hpaid.2, (hms m hm).named hnamed⟩

/-! ## Two runs -/

/-- The answer to the request, if it has been answered. -/
def payoutAnswer (s : State) (tid : ℕ) (userId : Uuid) (key : String) (body : CreatePayoutBody) :
    Option Result :=
  match s.task tid with
  | some ⟨.createPayout u k b, _, .ret r⟩ =>
      if u = userId ∧ k = key ∧ b = body then some r else none
  | _ => none

/-- The payout an answer names. -/
def paidWith : Result → Option Uuid
  | .ok (.payout id _) => some id
  | _ => none

lemma answered_of_payoutAnswer {s : State} {tid : ℕ} {userId : Uuid} {key : String}
    {body : CreatePayoutBody} {r : Result} (h : payoutAnswer s tid userId key body = some r) :
    AnsweredPayout s tid userId key body r := by
  unfold payoutAnswer at h
  split at h
  · rename_i u k b born r' ht
    split at h
    · rename_i heq
      obtain ⟨rfl, rfl, rfl⟩ := heq
      cases h
      exact ⟨born, ht⟩
    · cases h
  · cases h

/-- A schedule that answers the request, and one that repeats it, run to their ends. -/
lemma exists_repeated (cfg : Config) (before as : List (Act Oracle PayingMove Request))
    (first later : ℕ) (userId : Uuid) (key : String) (body : CreatePayoutBody) (payout : Uuid)
    (T : State → Result → Prop) [∀ s r, Decidable (T s r)]
    (h : ((payingBackend cfg).run (fun _ _ => true) (initial 0 []) before).any (fun s =>
      (payoutAnswer s first userId key body).bind paidWith = some payout &&
        (s.task later).isNone && ((payingBackend cfg).run (fun _ _ => true) s as).any fun s' =>
          (payoutAnswer s' later userId key body).any fun r => T s r) = true) :
    ∃ s r, Repeated cfg s as later userId key body payout r ∧ T s r := by
  obtain ⟨s, hs, h⟩ := (Option.any_eq_true _ _).mp h
  simp only [Bool.and_eq_true, decide_eq_true_eq, Option.isNone_iff_eq_none, Option.any_eq_true,
    Option.bind_eq_some_iff] at h
  obtain ⟨⟨⟨a, hfirst, ha⟩, hidle⟩, s', hs', r, hr, hT⟩ := h
  have hpaid : ∃ p, a = .ok (.payout payout p) := by
    unfold paidWith at ha
    split at ha
    · cases ha
      exact ⟨_, rfl⟩
    · cases ha
  obtain ⟨p, rfl⟩ := hpaid
  refine ⟨s, r, ⟨⟨0, [], reachable_of_run (fun _ _ _ => trivial) .init hs⟩,
    ⟨first, p, answered_of_payoutAnswer hfirst⟩, hidle, s', hs', answered_of_payoutAnswer hr⟩, hT⟩

/-- A schedule of the backend, with the job that sends payouts at rest. -/
def atRest (as : List Move) : List (Act Oracle PayingMove Request) :=
  as.map fun
    | .env e => .env (.env e)
    | .spawn tid req => .spawn tid req
    | .resume tid ω => .resume tid ω
    | .drop tid => .drop tid

/-- A user who topped up ₦5 000 withdraws under a key. -/
def withdraws (amount : ℚ) : List (Act Oracle PayingMove Request) :=
  .env (.env (.setTier 7 .tier1)) :: atRest (topUp 0 7 100 101 102 5000 ++
    serve 2 (.createPayout 7 "once" ⟨amount, 0, 9⟩)
      [{}, {}, { destination := .ok 9 }, { fresh := [200, 201, 202] }])

/-- The payout is sent; then the request comes again. -/
def withdrawsAgain (amount : ℚ) : List (Act Oracle PayingMove Request) :=
  .env (.moved 200 .settled) :: atRest (serve 3 (.createPayout 7 "once" ⟨amount, 0, 9⟩)
    [{}, {}, { destination := .ok 9 }, { fresh := [300, 301, 302] }])

theorem payout_replay_stable_settled :
    ∃ s r, Repeated stubConfig s (withdrawsAgain 1000) 3 7 "once" ⟨1000, 0, 9⟩ 200 r ∧
      SameAgain 200 r (repeatMoments stubConfig s (withdrawsAgain 1000) 3) := by
  obtain ⟨s, r, h, hpass⟩ := exists_repeated stubConfig (withdraws 1000) (withdrawsAgain 1000) 2 3 7
    "once" ⟨1000, 0, 9⟩ 200
    (fun s _ => ChecksPass 7 ⟨1000, 0, 9⟩ (repeatMoments stubConfig s (withdrawsAgain 1000) 3))
    (by decide +kernel)
  exact ⟨s, r, h, (payout_replay_stable_iff h).mpr hpass⟩

/-- A user who withdrew all they had asks again and is told that the balance does not suffice. -/
theorem payout_replay_refused :
    ¬ ∀ (s : State) (as : List (Act Oracle PayingMove Request)) (later : ℕ) (userId : Uuid)
      (key : String) (body : CreatePayoutBody) (payout : Uuid) (r : Result),
      Repeated stubConfig s as later userId key body payout r →
        SameAgain payout r (repeatMoments stubConfig s as later) := by
  intro h
  obtain ⟨s, r, hrep, hr⟩ := exists_repeated stubConfig (withdraws 5000) (withdrawsAgain 5000) 2 3 7
    "once" ⟨5000, 0, 9⟩ 200 (fun _ r => paidWith r = none) (by decide +kernel)
  obtain ⟨⟨p, rfl⟩, -⟩ := h s _ 3 7 "once" _ 200 r hrep
  cases hr

end Naivolt
