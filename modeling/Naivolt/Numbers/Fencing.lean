import Naivolt.System.Guarantee

/-!
# Claims fence the writes made under them

A claim on an order is a token with a lease of sixty seconds.  Its holder may call a supplier
for longer than that, so every statement that writes under a token compares the token, and all
but the reconciler's recovery the lease, against the row in the same statement.

`claim_fencing` says what this comes to over whole runs, whatever the delays: the claim on a row
is always the latest one granted, a claim is granted only when the previous one was given back
or had run out, a write under a token happens while the token's grant is the latest, and every
change of status, journals or activation is such a recorded write.
-/

namespace Naivolt

open Foundation Foundation.Machine

/-! ## What the history says of claims -/

/-- The latest claim granted on the order. -/
def latestGrant (log : Log) (order : Uuid) : Option Grant :=
  log.findSome? fun e => match e with
    | .granted g => if g.order = order then some g else none
    | _ => none

/-- The claim on a row is the latest granted. -/
def ClaimsCurrent (w : World) : Prop :=
  ∀ id o c, w.orders.get? id = some o → o.claim = some c →
    ∃ g, latestGrant w.log id = some g ∧ g.claim = c

/-- A claim is granted once the one before it was given back or had run out. -/
def GrantsApart (log : Log) : Prop :=
  ∀ g past, Recorded log (.granted g) past → ∀ g', latestGrant past g.order = some g' →
    g.before.claim = none ∨ g'.claim.claimedUntil < g.time

/-- A write under a token happens while that token's claim is the latest, and on the paths that
check the lease before it runs out. -/
def WritesFenced (log : Log) : Prop :=
  ∀ r past token, Recorded log (.wrote r) past → r.token = some token →
    ∃ g, latestGrant past r.order = some g ∧ g.claim.token = token ∧
      (r.path.checksLease = true → r.time < g.claim.claimedUntil)

/-- The rows agree on what only a claimed write may change. -/
def Order.SameOutcome (o o' : Order) : Prop :=
  o'.status = o.status ∧ o.SameJournals o' ∧ o'.providerOrderId = o.providerOrderId

/-- The invariant behind the three. -/
structure Fenced (w : World) : Prop where
  current : ClaimsCurrent w
  apart : GrantsApart w.log
  writes : WritesFenced w.log

lemma latestGrant_append {es log : Log} (h : ∀ g, Event.granted g ∉ es) (order : Uuid) :
    latestGrant (es ++ log) order = latestGrant log order := by
  induction es with
  | nil => rfl
  | cons e es ih =>
      have hes := ih fun g hg => h g (List.mem_cons_of_mem _ hg)
      cases e with
      | granted g => exact absurd List.mem_cons_self (h g)
      | _ => exact hes

lemma latestGrant_granted (g : Grant) (log : Log) (order : Uuid) :
    latestGrant (.granted g :: log) order =
      if g.order = order then some g else latestGrant log order := by
  by_cases h : g.order = order <;> simp [latestGrant, h]

/-! ## One step -/

section Step

variable {w w' : World} {es : Log}

/-- Nothing about claims changes. -/
lemma Fenced.frame (hI : Fenced w) (horders : w'.orders = w.orders) (hlog : w'.log = es ++ w.log)
    (hgrants : ∀ g, Event.granted g ∉ es) (hwrites : ∀ r, Event.wrote r ∉ es) : Fenced w' := by
  refine ⟨fun id o c ho hc => ?_, fun g past hg => ?_, fun r past token hr htoken => ?_⟩
  · rw [horders] at ho
    rw [hlog, latestGrant_append hgrants]
    exact hI.current id o c ho hc
  · rw [hlog, recorded_append_iff] at hg
    rcases hg with ⟨p, hp, -⟩ | hg
    · exact absurd hp.mem (hgrants g)
    · exact hI.apart g past hg
  · rw [hlog, recorded_append_iff] at hr
    rcases hr with ⟨p, hp, -⟩ | hr
    · exact absurd hp.mem (hwrites r)
    · exact hI.writes r past token hr htoken

/-- A claim is taken. -/
lemma Fenced.granted (hI : Fenced w) {g : Grant} (hlog : w'.log = .granted g :: w.log)
    (hbefore : w.orders.get? g.order = some g.before) (hfree : g.before.claimable g.time = true)
    (hafter : ∀ o, w'.orders.get? g.order = some o → o.claim = some g.claim)
    (hothers : ∀ id, id ≠ g.order → w'.orders.get? id = w.orders.get? id) : Fenced w' := by
  refine ⟨fun id o c ho hc => ?_, fun g' past hg => ?_, fun r past token hr htoken => ?_⟩
  · rw [hlog, latestGrant_granted]
    by_cases hid : id = g.order
    · subst hid
      rw [hafter o ho, Option.some.injEq] at hc
      exact ⟨g, if_pos rfl, hc⟩
    · rw [if_neg fun h => hid h.symm]
      exact hI.current id o c (hothers id hid ▸ ho) hc
  · rw [hlog, recorded_cons_iff] at hg
    rcases hg with ⟨heq, rfl⟩ | hg
    · cases heq
      intro g' hg'
      refine Classical.or_iff_not_imp_left.mpr fun hheld => ?_
      obtain ⟨c, hc⟩ := Option.ne_none_iff_exists'.mp hheld
      obtain ⟨g'', hg'', rfl⟩ := hI.current g.order g.before c hbefore hc
      cases hg''.symm.trans hg'
      exact Order.claimable_iff.mp hfree _ hc
    · exact hI.apart g' past hg
  · rw [hlog, recorded_cons_iff] at hr
    rcases hr with ⟨heq, -⟩ | hr
    · cases heq
    · exact hI.writes r past token hr htoken

/-- A row is written under its own claim, which the write gives back or keeps. -/
lemma Fenced.rewritten (hI : Fenced w) {id : Uuid} {row row' : Order}
    (hrow : w.orders.get? id = some row)
    (hrow' : w'.orders.get? id = some row') (hclaim : row'.claim = none ∨ row'.claim = row.claim)
    (hothers : ∀ i, i ≠ id → w'.orders.get? i = w.orders.get? i) (hlog : w'.log = es ++ w.log)
    (hgrants : ∀ g, Event.granted g ∉ es)
    (hwrites : ∀ r, Event.wrote r ∈ es → r.order = id ∧ ∀ token, r.token = some token →
      ∃ c, row.claim = some c ∧ c.token = token ∧
        (r.path.checksLease = true → r.time < c.claimedUntil)) : Fenced w' := by
  refine ⟨fun i o c ho hc => ?_, fun g past hg => ?_, fun r past token hr htoken => ?_⟩
  · rw [hlog, latestGrant_append hgrants]
    by_cases hi : i = id
    · subst hi
      cases hrow'.symm.trans ho
      rcases hclaim with hnone | hsame
      · cases hnone.symm.trans hc
      · exact hI.current i row c hrow (hsame ▸ hc)
    · exact hI.current i o c (hothers i hi ▸ ho) hc
  · rw [hlog, recorded_append_iff] at hg
    rcases hg with ⟨p, hp, -⟩ | hg
    · exact absurd hp.mem (hgrants g)
    · exact hI.apart g past hg
  · rw [hlog, recorded_append_iff] at hr
    rcases hr with ⟨p, hp, rfl⟩ | hr
    · obtain ⟨rfl, hfence⟩ := hwrites r hp.mem
      obtain ⟨c, hc, ht, hlease⟩ := hfence token htoken
      obtain ⟨g, hg, rfl⟩ := hI.current r.order row c hrow hc
      refine ⟨g, ?_, ht, hlease⟩
      -- What the same step recorded before the write holds no grant.
      have hp' : ∀ g, Event.granted g ∉ p := fun g hg =>
        hgrants g (hp.subset (List.mem_cons_of_mem _ hg))
      rw [latestGrant_append hp', hg]
    · exact hI.writes r past token hr htoken

end Step

lemma staleClaim_eq_false {row : Order} {token : Uuid} {now : Time}
    (h : staleClaim row (some token) now = false) :
    ∃ c, row.claim = some c ∧ c.token = token ∧ now < c.claimedUntil := by
  refine Order.liveClaim_iff.mp ?_
  simpa [staleClaim] using h

/-- What a row step records under which claim. -/
lemma RowStep.fence {now : Time} {tid : ℕ} {fresh : List Uuid} {id : Uuid} {row row' : Order}
    {op : NumberOp} {es : Log} (h : RowStep now tid fresh id row op row' es) :
    (∃ g, es = [.granted g] ∧ g.order = id ∧ g.before = row ∧ g.time = now ∧
      row.claimable now = true ∧ row'.claim = some g.claim) ∨
    ((row'.claim = none ∨ row'.claim = row.claim) ∧ (∀ g, Event.granted g ∉ es) ∧
      ∀ r, Event.wrote r ∈ es → r.order = id ∧ ∀ token, r.token = some token →
        ∃ c, row.claim = some c ∧ c.token = token ∧
          (r.path.checksLease = true → r.time < c.claimedUntil)) := by
  -- A write whose guard is the live claim, and the reconciler's, whose guard is the token.
  have live : ∀ {token} {path : WritePath} {after : Order}, row.liveClaim token now = true →
      ∀ r, Event.wrote r ∈ [Event.wrote ⟨id, path, some token, now, row, after⟩] →
        r.order = id ∧ ∀ token, r.token = some token → ∃ c, row.claim = some c ∧
          c.token = token ∧ (r.path.checksLease = true → r.time < c.claimedUntil) := by
    intro token path after hlive r hr
    cases List.mem_singleton.mp hr
    refine ⟨rfl, fun t ht => ?_⟩
    cases ht
    obtain ⟨c, hc, hct, huntil⟩ := Order.liveClaim_iff.mp hlive
    exact ⟨c, hc, hct, fun _ => huntil⟩
  cases h with
  | granted hop hfree htoken =>
      refine .inl ⟨_, rfl, rfl, rfl, rfl, hfree, ?_⟩
      cases hop <;> rfl
  | released hop hheld hsame hjournals hstatus hclaim =>
      exact .inr ⟨.inl hclaim, by simp, by simp⟩
  | markedForReview hstatus hlive => exact .inr ⟨.inl rfl, by simp, live hlive⟩
  | assigned hstatus hlive => exact .inr ⟨.inl rfl, by simp, live hlive⟩
  | pinned => exact .inr ⟨.inr rfl, by simp, by simp⟩
  | recovered hstatus hheld =>
      refine .inr ⟨.inl rfl, by simp, fun r hr => ?_⟩
      have hr' := (List.mem_pair.mp hr).resolve_right nofun
      cases hr'
      refine ⟨rfl, fun t ht => ?_⟩
      cases ht
      obtain ⟨c, hc, hct⟩ := Order.claimedBy_iff.mp hheld
      exact ⟨c, hc, hct, nofun⟩
  | kept hfenced hopen hsame hjournals hstatus hclaim =>
      exact .inr ⟨.inl hclaim, by simp, by simp⟩
  | checkedForReview hfenced hopen hsame hstatus hclaim =>
      refine .inr ⟨.inl hclaim, by simp, fun r hr => ?_⟩
      cases List.mem_singleton.mp hr
      refine ⟨rfl, fun t ht => ?_⟩
      cases ht
      obtain ⟨c, hc, hct, huntil⟩ := staleClaim_eq_false hfenced
      exact ⟨c, hc, hct, fun _ => huntil⟩

/-- **Every operation keeps the fences.** -/
lemma Fenced.step {cfg : Config} {tid : ℕ} {ω : Oracle} {w w' : World} {op : Op}
    (h : WorldMove cfg tid ω w op w') (hI : Fenced w) : Fenced w' := by
  obtain ⟨es, hes, hnew⟩ := h.events
  cases h with
  | @numbers nop db es hmove =>
      have others : ∀ {id row'}, w.numbers.orders.update id (fun _ => row') = some db.orders →
          ∀ i, i ≠ id → db.orders.get? i = w.orders.get? i :=
        fun hupdate i hi => OrderTable.get?_update_ne hupdate hi
      cases hmove with
      | idle hledger horders => exact hI.frame horders rfl (by simp) (by simp)
      | read hrow => exact hI.frame rfl rfl (by simp) (by simp)
      | placed hids hkey hafford hbuild hpost hinsert =>
          -- The new row has no claim, and the others are as they were.
          refine ⟨fun id o c ho hc => ?_, fun g past hg => ?_, fun r past token hr htoken => ?_⟩
          · have ho' := ho
            simp only [World.putNumbers] at ho'
            rw [OrderTable.get?_insert hinsert] at ho'
            split at ho'
            · cases ho'
              cases hc
            · exact hI.current id o c ho' hc
          · rcases recorded_cons_iff.mp hg with ⟨heq, -⟩ | hg
            · cases heq
            · exact hI.apart g past hg
          · rcases recorded_cons_iff.mp hr with ⟨heq, -⟩ | hr
            · cases heq
            · exact hI.writes r past token hr htoken
      | row hrow hstep hupdate hledger =>
          have hrow' := OrderTable.get?_update_self hupdate hrow
          rcases hstep.fence with ⟨g, rfl, rfl, rfl, htime, hfree, hclaim⟩ |
            ⟨hclaim, hgrants, hwrites⟩
          · refine hI.granted rfl hrow (htime ▸ hfree) (fun o ho => ?_) (others hupdate)
            cases hrow'.symm.trans ho
            exact hclaim
          · exact hI.rewritten hrow hrow' hclaim (others hupdate) rfl hgrants hwrites
      | ended hop hrow hfenced hopen hstep hbuild hpost hupdate =>
          have hrow' := OrderTable.get?_update_self hupdate hrow
          refine hI.rewritten hrow hrow' (.inl hstep.claim_none) (others hupdate) rfl (by simp)
            fun r hr => ?_
          cases (List.mem_pair.mp hr).resolve_right nofun
          refine ⟨rfl, fun t ht => ?_⟩
          subst ht
          obtain ⟨c, hc, hct, huntil⟩ := staleClaim_eq_false hfenced
          exact ⟨c, hc, hct, fun _ => huntil⟩
  | supplier => exact hI.frame rfl hes (fun g hg => nomatch hnew _ hg) fun r hr => nomatch hnew _ hr
  | payouts => exact hI.frame rfl hes (fun g hg => nomatch hnew _ hg) fun r hr => nomatch hnew _ hr
  | funding => exact hI.frame rfl hes (fun g hg => nomatch hnew _ hg) fun r hr => nomatch hnew _ hr
  | watcher => exact hI.frame rfl hes (fun g hg => nomatch hnew _ hg) fun r hr => nomatch hnew _ hr
  | look => exact hI.frame rfl (List.nil_append _).symm (by simp) (by simp)

/-- Whatever changes a row's outcome is recorded with the row before and after. -/
lemma RowChange.recorded {now : Time} {tid : ℕ} {fresh : List Uuid} {id : Uuid}
    {row row' : Order} {op : NumberOp} {es : Log}
    (h : RowChange now tid fresh id row op row' es) (hdiff : ¬ row.SameOutcome row') :
    ∃ r, Event.wrote r ∈ es ∧ r.order = id ∧ r.before = row ∧ r.after = row' := by
  cases h with
  | kept hsame =>
      subst hsame
      exact absurd ⟨rfl, ⟨rfl, rfl⟩, rfl⟩ hdiff
  | step hstep =>
      cases hstep with
      | granted hop hfree htoken =>
          cases hop <;> exact absurd ⟨rfl, ⟨rfl, rfl⟩, rfl⟩ hdiff
      | released hop hheld hsame hjournals hstatus hclaim =>
          exact absurd ⟨hstatus, hjournals, hsame.providerOrderId⟩ hdiff
      | pinned => exact absurd ⟨rfl, ⟨rfl, rfl⟩, rfl⟩ hdiff
      | kept hfenced hopen hsame hjournals hstatus hclaim =>
          exact absurd ⟨hstatus, hjournals, hsame.providerOrderId⟩ hdiff
      | _ => exact ⟨_, List.mem_cons_self, rfl, rfl, rfl⟩
  | ended hop hfenced hopen hstep hes =>
      subst hes
      exact ⟨_, List.mem_cons_self, rfl, rfl, rfl⟩

/-! ## Runs -/

lemma fenced_of_reachable {cfg : Config} {now : Time} {wallets : List Wallet} {s : State}
    (h : (backend cfg).Reachable unguarded (initial now wallets) s) : Fenced s.world := by
  refine Reachable.world_inv (I := Fenced) ?_ (fun w w' hstep hI => ?_) h
  · refine ⟨fun id o c ho => ?_, fun g past hg => ?_, fun r past token hr => ?_⟩
    · simp [World.fresh, initial, Sys.idle] at ho
    · exact absurd hg.mem List.not_mem_nil
    · exact absurd hr.mem List.not_mem_nil
  · cases hstep with
    | env he =>
        obtain ⟨now, wallets, tiers, -, rfl⟩ := execEnv_eq he
        exact hI.frame rfl (List.nil_append _).symm (by simp) (by simp)
    | exec he => exact hI.step (exec_move he).2

/-- **Claim fencing.**  In every run the claim on a row is the latest granted, two claims never
overlap, writes under a token are made while it is the latest and, where the path checks the
lease, still live; and no other write changes an order's status, journals or activation. -/
theorem claim_fencing {cfg : Config} {now : Time} {wallets : List Wallet} {s : State}
    (h : (backend cfg).Reachable unguarded (initial now wallets) s) :
    ClaimsCurrent s.world ∧ GrantsApart s.world.log ∧ WritesFenced s.world.log ∧
      ∀ a s', (backend cfg).step s a = some s' → ∀ id o o', s.world.orders.get? id = some o →
        s'.world.orders.get? id = some o' → ¬ o.SameOutcome o' →
        ∃ es r, s'.world.log = es ++ s.world.log ∧ Event.wrote r ∈ es ∧ r.order = id ∧
          r.before = o ∧ r.after = o' := by
  have hI := fenced_of_reachable h
  refine ⟨hI.current, hI.apart, hI.writes, fun a s' hs id o o' ho ho' hdiff => ?_⟩
  have same : s'.world.orders = s.world.orders → False := by
    intro heq
    rw [heq] at ho'
    cases ho.symm.trans ho'
    exact hdiff ⟨rfl, ⟨rfl, rfl⟩, rfl⟩
  rcases step_world hs with heq | hstep
  · exact (same (by rw [heq])).elim
  · cases hstep with
    | env he =>
        obtain ⟨now, wallets, tiers, -, hw⟩ := execEnv_eq he
        exact (same (by rw [hw])).elim
    | exec he =>
        rcases (exec_move he).2.change ho with hsame | ⟨nop, o'', es, -, ho'', hes, hchange⟩
        · cases hsame.symm.trans ho'
          exact absurd ⟨rfl, ⟨rfl, rfl⟩, rfl⟩ hdiff
        · cases ho''.symm.trans ho'
          obtain ⟨r, hr⟩ := hchange.recorded hdiff
          exact ⟨es, r, hes, hr⟩

/-- A purchase outlives its lease: a reconciler takes the order over and moves it to review, and
the late answer is not stored. -/
def lateAnswer : List Move :=
  topUp 0 7 100 101 102 5000 ++
  serve 2 (.createOrder 7 50 stubOrder)
    [{ fresh := [200, 201, 2 <<< 100], catalogue := stubCatalogue 1500 }, { fresh := [203] },
      {}] ++
  wait (seconds 61) :: serve 3 (.reconcile 200) [{ fresh := [204] }, {}] ++
  [.resume 2 { buy := .bought ⟨"a1", "+2341", none, none, none, .primary⟩ }, .resume 2 {}]

theorem claim_fencing_lateAnswer :
    ∃ s : State, (writesOf s.world.log).map (fun r => (r.path, r.token)) =
        [(.markReview, some 204)] ∧
      ClaimsCurrent s.world ∧ GrantsApart s.world.log ∧ WritesFenced s.world.log := by
  obtain ⟨s, hs, hwrites⟩ := exists_reachable_of_run (backend stubConfig) unguarded
    (initial 0 []) lateAnswer
    (fun s => (writesOf s.world.log).map (fun r => (r.path, r.token)) = [(.markReview, some 204)])
    (by decide +kernel)
  obtain ⟨hcurrent, hapart, hfenced, -⟩ := claim_fencing hs
  exact ⟨s, hwrites, hcurrent, hapart, hfenced⟩

end Naivolt
