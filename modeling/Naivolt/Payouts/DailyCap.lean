import Naivolt.System.Contracted

/-!
# The daily payout cap

`create_payout` reads what its user withdrew in the last twenty-four hours, compares it with the
cap of the user's tier, and only then locks the user's account and inserts the row.  Two requests
can both read before either inserts, and together pass the cap.

`PayoutWithinCap` is the check once more, made under the lock.  `daily_cap` shows that in every
run in which a payout about to get its row still passes it, no window of twenty-four hours holds
more than the cap of the tier its last payout was accepted under.  `daily_cap_exceeded` runs two
requests through the gap.
-/

namespace Naivolt

open Foundation Foundation.Machine

/-! ## Windows -/

/-- The payouts accepted so far, each with its user's tier at the time, newest first. -/
def acceptedPayouts (log : Log) : List (Uuid × KycTier) :=
  log.filterMap fun e => match e with
    | .accepted payout tier => some (payout, tier)
    | _ => none

/-- The row was created in the twenty-four hours from `start`, and has not failed or been
reversed. -/
def Payout.countsIn (p : Payout) (userId : Uuid) (start : Time) : Bool :=
  p.userId = userId && start ≤ p.createdAt && p.createdAt < start + hours 24 &&
    p.status ≠ .failed && p.status ≠ .reversed

/-- The user's rows that count in the window. -/
def payoutsIn (w : World) (userId : Uuid) (start : Time) : List (Uuid × Payout) :=
  w.payouts.rows.filter fun r => r.2.countsIn userId start

/-- The tier under which the last of them was accepted. -/
def lastTierIn (w : World) (userId : Uuid) (start : Time) : Option KycTier :=
  ((acceptedPayouts w.log).find? fun a =>
    (w.payouts.get? a.1).any (·.countsIn userId start)).map Prod.snd

/-- What they come to. -/
def withdrawnIn (w : World) (userId : Uuid) (start : Time) : ℚ :=
  ((payoutsIn w userId start).map (fun r => r.2.amountNgn)).sum

/-- The window holds no more than the cap of the tier its last payout was accepted under. -/
def WindowCapped (w : World) (userId : Uuid) (start : Time) : Prop :=
  payoutsIn w userId start = [] ∨ ∃ tier cap, lastTierIn w userId start = some tier ∧
    tier.dailyPayoutCap = some cap ∧ withdrawnIn w userId start ≤ cap

/-- No window of twenty-four hours exceeds the daily cap. -/
def DailyCapHeld (w : World) : Prop :=
  ∀ userId start, WindowCapped w userId start

/-- A payout about to get its row passes the check of tier and cap at that moment. -/
def PayoutWithinCap (op : Op) (w : World) : Prop :=
  match op with
  | .payouts (.reserve userId key amount _) =>
      w.ledger.affords userId amount = true →
        (∀ q ∈ w.ledger.findKey key, findByJournal w.payouts q.id = none) →
          checkPayout (w.tiers userId) amount (usedToday w.now w.payouts userId) = .ok ()
  | _ => True

instance (op : Op) (w : World) : Decidable (PayoutWithinCap op w) :=
  match op with
  | .payouts (.reserve ..) => inferInstanceAs (Decidable (_ → _ → _))
  | .payouts (.readUser _) | .payouts (.usedToday _) | .payouts (.resolveDestination ..)
  | .numbers _ | .supplier _ | .funding _ | .watcher _ | .clock | .auditReplay _ => .isTrue trivial

/-! ## Sums over windows -/

lemma acceptedPayouts_append {es : Log} (log : Log) (h : ∀ id tier, Event.accepted id tier ∉ es) :
    acceptedPayouts (es ++ log) = acceptedPayouts log := by
  unfold acceptedPayouts
  rw [List.filterMap_append, List.filterMap_eq_nil_iff.mpr, List.nil_append]
  intro e he
  cases e with
  | accepted id tier => exact absurd he (h id tier)
  | _ => rfl

/-- A payout of a window that reaches the present is still within the rolling day. -/
lemma Payout.countsIn.recent {p : Payout} {userId : Uuid} {start now : Time}
    (h : p.countsIn userId start = true) (hnow : now < start + hours 24) :
    p.userId = userId ∧ now < p.createdAt + hours 24 ∧
      (p.status = .reserved ∨ p.status = .processing ∨ p.status = .settled) := by
  simp only [Payout.countsIn, Bool.and_eq_true, decide_eq_true_eq] at h
  obtain ⟨⟨⟨⟨huser, hstart⟩, -⟩, hfailed⟩, hreversed⟩ := h
  refine ⟨huser, hnow.trans_le (Nat.add_le_add_right hstart _), ?_⟩
  cases hstatus : p.status with
  | failed => exact absurd hstatus hfailed
  | reversed => exact absurd hstatus hreversed
  | _ => simp

/-- Such a window has drawn no more than the rolling day. -/
lemma withdrawnIn_le_usedToday (userId : Uuid) {w : World} {start : Time}
    (hpos : ∀ r ∈ w.payouts.rows, 0 < r.2.amountNgn) (hnow : w.now < start + hours 24) :
    withdrawnIn w userId start ≤ usedToday w.now w.payouts userId := by
  unfold withdrawnIn payoutsIn usedToday
  refine List.Sublist.sum_le_sum (List.Sublist.map _ ?_) fun a ha => ?_
  · refine List.monotone_filter_right _ fun r hr => ?_
    obtain ⟨huser, hrecent, hstatus⟩ := Payout.countsIn.recent hr hnow
    simpa [huser, hrecent, or_assoc] using hstatus
  · obtain ⟨r, hr, rfl⟩ := List.mem_map.mp ha
    exact (hpos r (List.mem_of_mem_filter hr)).le

/-- What the check of tier and cap says. -/
lemma checkPayout_eq_ok {tier : KycTier} {amount used : ℚ}
    (h : checkPayout tier amount used = .ok ()) :
    ∃ cap, tier.dailyPayoutCap = some cap ∧ used + amount ≤ cap := by
  unfold checkPayout at h
  split at h
  · cases h
  · rename_i cap hcap
    simp only at h
    split at h
    · cases h
    · rename_i hle
      exact ⟨cap, hcap, by linarith⟩

/-! ## The invariant -/

/-- The windows are capped and the amounts positive. -/
structure CapBooks (w : World) : Prop where
  positive : ∀ r ∈ w.payouts.rows, 0 < r.2.amountNgn
  capped : DailyCapHeld w

/-- Steps that accept nothing. -/
lemma CapBooks.frame {w w' : World} {es : Log} (hI : CapBooks w) (hpayouts : w'.payouts = w.payouts)
    (hlog : w'.log = es ++ w.log) (hnone : ∀ id tier, Event.accepted id tier ∉ es) :
    CapBooks w' := by
  refine ⟨hpayouts ▸ hI.positive, fun userId start => ?_⟩
  have h := hI.capped userId start
  unfold WindowCapped lastTierIn withdrawnIn payoutsIn at h ⊢
  rwa [hpayouts, hlog, acceptedPayouts_append _ hnone]

/-- A payout that fits is accepted. -/
lemma CapBooks.accept {w w' : World} (hI : CapBooks w) {id : Uuid} {p : Payout} {tier : KycTier}
    (es : Log) (hinsert : w.payouts.insert id p = some w'.payouts)
    (hlog : w'.log = .accepted id tier :: es ++ w.log)
    (hnone : ∀ id tier, Event.accepted id tier ∉ es) (hpos : 0 < p.amountNgn)
    (hcreated : p.createdAt = w.now)
    (hcheck : checkPayout tier p.amountNgn (usedToday w.now w.payouts p.userId) = .ok ()) :
    CapBooks w' := by
  obtain ⟨hfree, hrows⟩ := Table.insert_eq_some hinsert
  have haccepted : acceptedPayouts w'.log = (id, tier) :: acceptedPayouts w.log := by
    rw [hlog, List.cons_append, ← acceptedPayouts_append w.log hnone]
    rfl
  refine ⟨fun r hr => ?_, fun userId start => ?_⟩
  · rw [hrows] at hr
    rcases List.mem_cons.mp hr with rfl | hr
    · exact hpos
    · exact hI.positive r hr
  · by_cases hcounts : p.countsIn userId start = true
    · -- The window holds the new payout, which is its last.
      obtain ⟨cap, hcap, hle⟩ := checkPayout_eq_ok hcheck
      refine .inr ⟨tier, cap, ?_, hcap, ?_⟩
      · simp [lastTierIn, haccepted, Table.get?_insert hinsert, hcounts]
      · have hin := hcounts
        simp only [Payout.countsIn, Bool.and_eq_true, decide_eq_true_eq] at hin
        obtain ⟨⟨⟨⟨rfl, -⟩, hend⟩, -⟩, -⟩ := hin
        have hold := withdrawnIn_le_usedToday p.userId hI.positive (hcreated ▸ hend)
        have hnew : withdrawnIn w' p.userId start = p.amountNgn + withdrawnIn w p.userId start := by
          simp [withdrawnIn, payoutsIn, hrows, hcounts]
        rw [hnew]
        linarith
    · -- The window is as it was.
      have hsame : payoutsIn w' userId start = payoutsIn w userId start := by
        simp [payoutsIn, hrows, hcounts]
      have htier : lastTierIn w' userId start = lastTierIn w userId start := by
        have hcount : (fun a : Uuid × KycTier =>
            (w'.payouts.get? a.1).any (·.countsIn userId start)) =
            fun a => (w.payouts.get? a.1).any (·.countsIn userId start) := by
          funext a
          rw [Table.get?_insert hinsert]
          split
          · rename_i ha
            simp [ha, hfree, hcounts]
          · rfl
        simp only [lastTierIn, haccepted, hcount]
        rw [List.find?_cons_of_neg (by simp [hfree])]
      have h := hI.capped userId start
      unfold WindowCapped withdrawnIn at h ⊢
      rwa [hsame, htier]

/-- Only a payout is accepted. -/
lemma NewEvent.not_accepted {cfg : Config} {tid : ℕ} {ω : Oracle} {w : World} {op : Op} {e : Event}
    {id : Uuid} {tier : KycTier} (h : NewEvent cfg tid ω w op e) (hop : ∀ pop, op ≠ .payouts pop) :
    e ≠ .accepted id tier := by
  rintro rfl
  cases h with
  | numbers hmove he => cases hmove.ofOrders he
  | supplier hevent => exact nomatch hevent
  | accepted => exact absurd rfl (hop _)

/-- Every step under its contract, a payout within its cap, keeps the windows capped. -/
lemma CapBooks.step {cfg : Config} {tid : ℕ} {req : Request} {born : Time} {ω : Oracle}
    {w w' : World} {op : Op} (h : WorldMove cfg tid ω w op w') (hC : Contract cfg tid req born op w)
    (hcap : PayoutWithinCap op w) (hI : CapBooks w) : CapBooks w' := by
  obtain ⟨es, hes, hnew⟩ := h.events
  have hother : (∀ pop, op ≠ .payouts pop) → w'.payouts = w.payouts → CapBooks w' :=
    fun hop hpayouts => hI.frame hpayouts hes fun id tier he => (hnew _ he).not_accepted hop rfl
  cases h with
  | @payouts pop r db es hexec =>
      cases pop with
      | reserve userId key amount bank =>
          rcases reservePayout_cases hexec with ⟨rfl, rfl⟩ |
            ⟨payoutId, journalId, referenceId, journal, posted, ledger, -, hbuild, hafford, hpost,
              -, ⟨existing, -, hpayouts, rfl⟩ | ⟨hfound, hinsert, rfl⟩⟩
          · exact hI.frame rfl rfl (by simp)
          · exact hI.frame hpayouts rfl (by simp)
          · refine hI.accept [.posted journal posted] hinsert rfl (by simp) hC rfl
              (hcap hafford fun q hq => ?_)
            have hkey : journal.idempotencyKey = key := (JournalBuilder.build_eq_ok hbuild).2.2.1
            obtain ⟨hmem, hqkey⟩ := Ledger.findKey_eq_some_iff.mp hq
            rcases Ledger.post_cases hpost with ⟨-, -, hfree⟩ | ⟨p, hp, hpkey, rfl, -⟩
            · exact absurd (hqkey.trans hkey.symm) (hfree q hmem)
            · have heq := List.inj_on_of_nodup_map w.ledger.keysUnique hp hmem
                (hpkey.trans (hkey.trans hqkey.symm))
              exact heq ▸ hfound
      | _ =>
          cases hexec
          exact hI.frame rfl rfl (by simp)
  | look hop =>
      refine hother (fun pop heq => ?_) rfl
      subst heq
      rcases hop with hop | ⟨id, hop⟩ <;> cases hop
  | _ => exact hother (fun _ => Op.noConfusion) rfl

/-! ## The two results -/

/-- **The daily cap holds over every window** of every run in which a payout about to get its row
still passes the check of tier and cap. -/
theorem daily_cap {cfg : Config} {now : Time} {wallets : List Wallet} {s : State}
    (h : (backend cfg).Reachable (onOps fun _ _ _ op _ w => PayoutWithinCap op w)
      (initial now wallets) s) : DailyCapHeld s.world := by
  have hbooks : CapBooks s.world := by
    refine Reachable.guarded_inv (I := CapBooks) ?_ (fun e w w' he hI => ?_)
      (fun tid req b op ω r w w' hP he hI => ?_) (contracted h)
    · exact ⟨fun r hr => absurd hr List.not_mem_nil, fun _ _ => .inl rfl⟩
    · obtain ⟨now, wallets, tiers, -, rfl⟩ := execEnv_eq he
      exact ⟨hI.positive, hI.capped⟩
    · exact hI.step (exec_move he).2 hP.2.2 hP.1
  exact hbooks.capped

/-- Two withdrawals of one user, each under its own key.  Both have read what was used before
either locks the account. -/
def twoWithdrawals (first second : ℚ) : List Move :=
  .env (.setTier 7 .tier1) :: topUp 0 7 100 101 102 60000 ++
  serve 2 (.createPayout 7 "first" ⟨first, 0, 9⟩) [{}, {}, { destination := .ok 9 }] ++
  serve 3 (.createPayout 7 "second" ⟨second, 0, 9⟩) [{}, {}, { destination := .ok 9 }] ++
  [.resume 2 { fresh := [200, 201, 202] }, .resume 3 { fresh := [300, 301, 302] }]

theorem daily_cap_twoWithdrawals :
    ∃ s : State, withdrawnIn s.world 7 0 = 50000 ∧ DailyCapHeld s.world := by
  obtain ⟨s, hs, hsum⟩ := exists_reachable_of_run (backend stubConfig)
    (onOps fun _ _ _ op _ w => PayoutWithinCap op w) (initial 0 []) (twoWithdrawals 30000 20000)
    (fun s => withdrawnIn s.world 7 0 = 50000) (by decide +kernel)
  exact ⟨s, hsum, daily_cap hs⟩

/-- Two requests that both read before either reserves withdraw ₦60 000 in a day under a cap of
₦50 000. -/
theorem daily_cap_exceeded :
    ¬ ∀ s : State, (backend stubConfig).Reachable unguarded (initial 0 []) s →
      DailyCapHeld s.world := by
  intro h
  obtain ⟨s, hs, htier, hsum⟩ := exists_reachable_of_run (backend stubConfig) unguarded
    (initial 0 []) (twoWithdrawals 30000 30000)
    (fun s => lastTierIn s.world 7 0 = some .tier1 ∧ withdrawnIn s.world 7 0 = 60000)
    (by decide +kernel)
  rcases h s hs 7 0 with hnil | ⟨tier, cap, htier', hcap, hle⟩
  · rw [withdrawnIn, hnil] at hsum
    norm_num at hsum
  · cases htier.symm.trans htier'
    cases hcap
    rw [hsum] at hle
    norm_num at hle

end Naivolt
