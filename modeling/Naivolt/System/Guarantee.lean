import Naivolt.System.Contracts

/-!
# Operations that keep their contracts

`sound_of_move`: such an operation keeps `Sound`.  `rely_of_move`: it respects what every other
task relies on.  Both are case analyses over `WorldMove`; the cases that matter are the
rewrites of one order's row (`RowChange`), where the claim under which the row is written, or
the activation it already has, keeps the writer off the orders other tasks hold.
-/

namespace Naivolt

open Foundation Foundation.Machine

/-! ## Grants -/

section Events

variable {now : Time} {tid : ℕ} {fresh : List Uuid} {db db' : NumbersDb} {op : NumberOp}
  {es : Log}

/-- What a recorded grant says of the operation that made it. -/
structure GrantOf (now : Time) (tid : ℕ) (fresh : List Uuid) (db db' : NumbersDb)
    (op : NumberOp) (g : Grant) : Prop where
  tid_eq : g.tid = tid
  time_eq : g.time = now
  token : g.claim.token ∈ fresh
  claimedUntil : g.claim.claimedUntil = now + leaseLength
  before : db.orders.get? g.order = some g.before
  free : g.before.claimable now = true
  grants : Grants now g.order g.before op g.purpose
  after : db'.orders.get? g.order = some (g.before.granted g.purpose g.claim now)

lemma NumbersMove.grant (h : NumbersMove now tid fresh db op db' es) {g : Grant}
    (hg : Event.granted g ∈ es) : GrantOf now tid fresh db db' op g ∧ es = [.granted g] := by
  cases h with
  | row hrow hstep hupdate hledger =>
      cases hstep with
      | granted hop hfree htoken =>
          cases List.mem_singleton.mp hg
          exact ⟨⟨rfl, rfl, htoken, rfl, hrow, hfree, hop,
            OrderTable.get?_update_self hupdate hrow⟩, rfl⟩
      | _ => simp at hg
  | _ => simp at hg

lemma NumbersMove.no_call (h : NumbersMove now tid fresh db op db' es) (c : PurchaseCall) :
    Event.purchaseStarted c ∉ es := by
  cases h with
  | row hrow hstep hupdate hledger => cases hstep <;> simp
  | _ => simp

/-- A row that was not there is a new order. -/
lemma NumbersMove.new_order (h : NumbersMove now tid fresh db op db' es) {id : Uuid}
    {o' : Order} (ho' : db'.orders.get? id = some o') (hnone : db.orders.get? id = none) :
    o'.status = .reserved ∧ o'.providerOrderId = none ∧ o'.claim = none ∧
      o'.purchaseStartedAt = none := by
  have not_rewritten : ∀ {i row row'}, db.orders.get? i = some row →
      db.orders.update i (fun _ => row') = some db'.orders → False := by
    intro i row row' hrow hupdate
    rw [OrderTable.get?_update hupdate, hnone] at ho'
    split at ho' <;> cases ho'
  cases h with
  | idle hledger horders =>
      rw [horders, hnone] at ho'
      cases ho'
  | read => cases hnone.symm.trans ho'
  | placed hids hkey hafford hbuild hpost hinsert =>
      rw [OrderTable.get?_insert hinsert, hnone] at ho'
      split at ho'
      · cases ho'
        exact ⟨rfl, rfl, rfl, rfl⟩
      · cases ho'
  | row hrow hstep hupdate hledger => exact (not_rewritten hrow hupdate).elim
  | ended hop hrow hfenced hopen hstep hbuild hpost hupdate =>
      exact (not_rewritten hrow hupdate).elim

/-- What a recorded refund says of the operation that made it. -/
structure RefundOf (now : Time) (db : NumbersDb) (op : NumberOp) (r : OrderWrite) : Prop where
  ends : Ends r.order op r.path r.token
  before : db.orders.get? r.order = some r.before
  fenced : staleClaim r.before r.token now = false
  moneyOpen : r.before.status.moneyOpen = true
  time_eq : r.time = now

/-- A refund is recorded right after its posting. -/
lemma NumbersMove.refund (h : NumbersMove now tid fresh db op db' es) {r : OrderWrite}
    {past : Log} (hr : Recorded es (.wrote r) past)
    (hrefund : r.after.status.isRefunded = true) :
    RefundOf now db op r ∧ ∃ j out, past = [.posted j out] := by
  have hmem := hr.mem
  cases h with
  | row hrow hstep hupdate hledger =>
      cases hstep with
      | checkedForReview hfenced hopen hsame hstatus hclaim =>
          cases List.mem_singleton.mp hmem
          rw [hstatus] at hrefund
          cases hrefund
      | recovered hstatus hheld =>
          rcases List.mem_pair.mp hmem with heq | heq
          · cases heq
            cases hrefund
          · cases heq
      | markedForReview hstatus hlive =>
          cases List.mem_singleton.mp hmem
          cases hrefund
      | assigned hstatus hlive =>
          cases List.mem_singleton.mp hmem
          cases hrefund
      | _ => simp at hmem
  | ended hop hrow hfenced hopen hstep hbuild hpost hupdate =>
      rcases recorded_cons_iff.mp hr with ⟨heq, rfl⟩ | hr
      · cases heq
        exact ⟨⟨hop, hrow, hfenced, hopen, rfl⟩, _, _, rfl⟩
      · cases List.mem_singleton.mp hr.mem
  | _ => simp at hmem

end Events

section Exec

variable {cfg : Config} {tid : ℕ} {ω : Oracle} {w w' : World} {op : Op}

/-- A grant in the history was there before, or this step made it. -/
lemma WorldMove.new_grant (h : WorldMove cfg tid ω w op w') {g : Grant}
    (hg : Event.granted g ∈ w'.log) : Event.granted g ∈ w.log ∨
      ∃ nop db, op = .numbers nop ∧ GrantOf w.now tid ω.fresh w.numbers db nop g ∧
        w'.orders = db.orders ∧ w'.log = .granted g :: w.log := by
  refine Classical.or_iff_not_imp_left.mpr fun hold => ?_
  have hnew := (h.new_event hg).resolve_left hold
  cases h with
  | numbers hmove =>
      obtain ⟨hgrant, rfl⟩ := hmove.grant ((List.mem_append.mp hg).resolve_right hold)
      exact ⟨_, _, rfl, hgrant, rfl, rfl⟩
  | supplier hexec =>
      cases hnew with
      | supplier hevent => exact nomatch hevent
  | look hop => exact absurd hg hold
  | _ => exact nomatch hnew

/-- A purchase call in the history was there before, or this step started it. -/
lemma WorldMove.new_call (h : WorldMove cfg tid ω w op w') {c : PurchaseCall}
    (hc : Event.purchaseStarted c ∈ w'.log) : Event.purchaseStarted c ∈ w.log ∨
      ∃ order token label, op = .supplier (.buyStart order token label) ∧
        c = ⟨w.log.length, order, token, label, tid, w.now, w.orders.get? order⟩ := by
  refine (h.new_event hc).imp_right fun hnew => ?_
  cases hnew with
  | numbers hmove he => exact absurd he (hmove.no_call c)
  | supplier hevent =>
      cases hevent
      exact ⟨_, _, _, rfl, rfl⟩

/-- A row in the history was seen before, or is the row the step found. -/
lemma WorldMove.new_seen (h : WorldMove cfg tid ω w op w') {id : Uuid} {o : Order}
    (ho : Seen w'.log id o) : Seen w.log id o ∨ w.orders.get? id = some o := by
  rcases ho with hr | ⟨g, hg, rfl, rfl⟩
  · refine (h.new_event hr).imp .inl fun hnew => ?_
    cases hnew with
    | numbers hmove he =>
        cases hmove with
        | read hrow =>
            cases List.mem_singleton.mp he
            exact hrow
        | row hrow hstep hupdate hledger => cases hstep <;> simp at he
        | _ => simp at he
    | supplier hevent => exact nomatch hevent
  · rcases h.new_grant hg with hg | ⟨nop, db, -, hgrant, -, -⟩
    · exact .inl (.inr ⟨g, hg, rfl, rfl⟩)
    · exact .inr hgrant.before

/-- A refund in the history was there before, or this step made it. -/
lemma WorldMove.new_refund (h : WorldMove cfg tid ω w op w') {r : OrderWrite} {past : Log}
    (hr : Recorded w'.log (.wrote r) past) (hrefund : r.after.status.isRefunded = true) :
    Recorded w.log (.wrote r) past ∨
    ∃ nop j out, op = .numbers nop ∧ RefundOf w.now w.numbers nop r ∧
      past = .posted j out :: w.log := by
  have hnew := h.new_recorded hr
  cases h with
  | numbers hmove =>
      refine (recorded_append_iff.mp hr).symm.imp_right ?_
      rintro ⟨p, hp, rfl⟩
      obtain ⟨hrefunded, j, out, rfl⟩ := hmove.refund hp hrefund
      exact ⟨_, j, out, rfl, hrefunded, rfl⟩
  | supplier hexec =>
      refine .inl (hnew.resolve_right fun hnew => ?_)
      cases hnew with
      | supplier hevent => exact nomatch hevent
  | look hop => exact .inl hr
  | _ => exact .inl (hnew.resolve_right nofun)

/-- Where a row of the new table comes from. -/
inductive OrderOrigin (tid : ℕ) (ω : Oracle) (w w' : World) (op : Op) (id : Uuid)
    (o' : Order) : Prop where
  | same (ho : w.orders.get? id = some o')
  | changed {nop : NumberOp} {o : Order} {es : Log} (hop : op = .numbers nop)
      (ho : w.orders.get? id = some o) (hlog : w'.log = es ++ w.log)
      (hchange : RowChange w.now tid ω.fresh id o nop o' es)
  | placed (hnone : w.orders.get? id = none) (hstatus : o'.status = .reserved)
      (hactivation : o'.providerOrderId = none) (hclaim : o'.claim = none)
      (hstarted : o'.purchaseStartedAt = none)

lemma WorldMove.origin (h : WorldMove cfg tid ω w op w') {id : Uuid} {o' : Order}
    (ho' : w'.orders.get? id = some o') : OrderOrigin tid ω w w' op id o' := by
  cases h with
  | @numbers nop db es hmove =>
      cases ho : w.orders.get? id with
      | none =>
          obtain ⟨hs, ha, hc, hp⟩ := hmove.new_order ho' ho
          exact .placed ho hs ha hc hp
      | some o =>
          obtain ⟨o'', ho'', hchange⟩ := hmove.change ho
          cases ho''.symm.trans ho'
          exact .changed rfl ho rfl hchange
  | _ => exact .same ho'

end Exec

/-! ## The invariant is kept -/

section Sound

variable {cfg : Config} {tid : ℕ} {ω : Oracle} {w w' : World} {op : Op}

/-- An order leaves `reserved` when it gets its activation. -/
lemma RowChange.unassigned {now : Time} {fresh : List Uuid} {id : Uuid} {row row' : Order}
    {nop : NumberOp} {es : Log} (h : RowChange now tid fresh id row nop row' es)
    (hrow : row.status = .reserved → row.providerOrderId = none)
    (hs : row'.status = .reserved) : row'.providerOrderId = none := by
  cases h with
  | kept hsame =>
      subst hsame
      exact hrow hs
  | step hstep =>
      cases hstep with
      | granted hop hfree htoken => cases hop <;> exact hrow hs
      | released hop hheld hsame hjournals hstatus hclaim =>
          exact hsame.providerOrderId.trans (hrow (hstatus.symm.trans hs))
      | kept hfenced hopen hsame hjournals hstatus hclaim =>
          exact hsame.providerOrderId.trans (hrow (hstatus.symm.trans hs))
      | checkedForReview hfenced hopen hsame hstatus hclaim => cases hstatus.symm.trans hs
      | pinned => exact hrow hs
      | _ => cases hs
  | ended hop hfenced hopen hstep hes =>
      have hended := OrderStatus.moneyOpen_eq_false hstep.status
      rw [hs] at hended
      cases hended

/-- A claim on a row was there before, or has just been granted. -/
lemma RowChange.claim {now : Time} {fresh : List Uuid} {id : Uuid} {row row' : Order}
    {nop : NumberOp} {es : Log} (h : RowChange now tid fresh id row nop row' es) {c : Claim}
    (hc : row'.claim = some c) : row.claim = some c ∨
      ∃ g, es = [.granted g] ∧ g.order = id ∧ g.claim = c ∧ g.tid = tid ∧
        c.token ∈ fresh := by
  cases h with
  | kept hsame => exact .inl (hsame ▸ hc)
  | step hstep =>
      cases hstep with
      | @granted _ _ token hop hfree htoken =>
          have hclaim : (⟨token, now + leaseLength⟩ : Claim) = c := by
            cases hop <;> exact Option.some.inj hc
          exact .inr ⟨_, rfl, rfl, hclaim, rfl, hclaim ▸ htoken⟩
      | pinned => exact .inl hc
      | released hop hheld hsame hjournals hstatus hclaim => cases hclaim.symm.trans hc
      | kept hfenced hopen hsame hjournals hstatus hclaim => cases hclaim.symm.trans hc
      | checkedForReview hfenced hopen hsame hstatus hclaim => cases hclaim.symm.trans hc
      | _ => cases hc
  | ended hop hfenced hopen hstep hes => cases hstep.claim_none.symm.trans hc

/-- **An operation that keeps its contract keeps the invariant.** -/
theorem sound_of_move {req : Request} {born : Time} (hI : Sound w) (hfresh : Fresh ω w)
    (hC : Contract cfg tid req born op w) (h : WorldMove cfg tid ω w op w') : Sound w' := by
  have hlog : w.log <:+ w'.log := by
    obtain ⟨es, hes⟩ := h.log_eq
    exact ⟨es, hes.symm⟩
  have hused : ∀ u ∈ w.used, u ∈ w'.used := fun u hu => by
    rw [h.used_eq]
    exact List.mem_append_right _ hu
  -- A grant made by this step is alone, under a token nobody has seen.
  have hnew_token : ∀ {g nop db}, GrantOf w.now tid ω.fresh w.numbers db nop g →
      ∀ g', Event.granted g' ∈ w.log → g'.claim.token ≠ g.claim.token :=
    fun hg g' hg' heq => hfresh.2 _ hg.token (heq ▸ hI.drawn g' hg')
  refine ⟨fun id o' ho' hs => ?_, fun id o' c ho' hc => ?_, fun g hg => ?_,
    fun g g' hg hg' heq => ?_, fun tid' id ⟨g, hg, hid, hpurpose, htid⟩ => ?_,
    fun tid₁ tid₂ id h₁ h₂ => ?_, fun c hc => ?_,
    fun id o ho => ?_, fun id d hd => ?_⟩
  · rcases h.origin ho' with ho | ⟨hop, ho, hlog, hchange⟩ | ⟨-, -, hactivation, -, -⟩
    · exact hI.unassigned id o' ho hs
    · exact hchange.unassigned (hI.unassigned id _ ho) hs
    · exact hactivation
  · rcases h.origin ho' with ho | ⟨hop, ho, hes, hchange⟩ | ⟨-, -, -, hclaim, -⟩
    · obtain ⟨tid', hgrant⟩ := hI.claims id o' c ho hc
      exact ⟨tid', hgrant.mono hlog⟩
    · rcases hchange.claim hc with hc | ⟨g, rfl, hgo, hgc, hgt, -⟩
      · obtain ⟨tid', hgrant⟩ := hI.claims id _ c ho hc
        exact ⟨tid', hgrant.mono hlog⟩
      · exact ⟨tid, g, by simp [hes], hgo, hgc, hgt⟩
    · cases hclaim.symm.trans hc
  · rcases h.new_grant hg with hg | ⟨nop, db, rfl, hgrant, -, -⟩
    · exact hused _ (hI.drawn g hg)
    · rw [h.used_eq]
      exact List.mem_append_left _ hgrant.token
  · rcases h.new_grant hg with hg₀ | ⟨nop, db, hop, hgrant, -, hl⟩ <;>
      rcases h.new_grant hg' with hg₀' | ⟨nop', db', hop', hgrant', -, hl'⟩
    · exact hI.tokens g g' hg₀ hg₀' heq
    · exact absurd heq (hnew_token hgrant' g hg₀)
    · exact absurd heq.symm (hnew_token hgrant g' hg₀')
    · exact Event.granted.inj (List.cons.inj (hl.symm.trans hl')).1
  · rcases h.new_grant hg with hg | ⟨nop, db, rfl, hgrant, horders, -⟩
    · obtain ⟨o, ho, hs⟩ := hI.started tid' id ⟨g, hg, hid, hpurpose, htid⟩
      obtain ⟨o', ho', hlater⟩ := h.later ho
      exact ⟨o', ho', by rw [hlater.started hs]; exact hs⟩
    · have hafter := hgrant.after
      rw [hpurpose, hid] at hafter
      exact ⟨_, horders ▸ hafter, Option.some_ne_none _⟩
  · obtain ⟨g₁, hg₁, hid₁, hp₁, rfl⟩ := h₁
    obtain ⟨g₂, hg₂, hid₂, hp₂, rfl⟩ := h₂
    -- A second purchase is never granted: the first marked the row.
    have not_twice : ∀ {g g' nop db}, Event.granted g ∈ w.log → g.order = id →
        g.purpose = .purchase → GrantOf w.now tid ω.fresh w.numbers db nop g' →
        g'.order = id → g'.purpose = .purchase → False := by
      intro g g' nop db hg hid hp hgrant hid' hp'
      obtain ⟨o, ho, hs⟩ := hI.started g.tid id ⟨g, hg, hid, hp, rfl⟩
      have hbefore : w.orders.get? id = some g'.before := hid' ▸ hgrant.before
      cases ho.symm.trans hbefore
      have hgrants := hgrant.grants
      rw [hp'] at hgrants
      cases hgrants with
      | purchase hstatus hnone => exact hs hnone
    rcases h.new_grant hg₁ with hg₁ | ⟨nop, db, hop, hgrant, -, hl⟩ <;>
      rcases h.new_grant hg₂ with hg₂ | ⟨nop', db', hop', hgrant', -, hl'⟩
    · exact hI.buyer _ _ id ⟨g₁, hg₁, hid₁, hp₁, rfl⟩ ⟨g₂, hg₂, hid₂, hp₂, rfl⟩
    · exact (not_twice hg₁ hid₁ hp₁ hgrant' hid₂ hp₂).elim
    · exact (not_twice hg₂ hid₂ hp₂ hgrant hid₁ hp₁).elim
    · rw [Event.granted.inj (List.cons.inj (hl.symm.trans hl')).1]
  · rcases h.new_call hc with hc | ⟨order, token, label, rfl, rfl⟩
    · obtain ⟨tid', hb⟩ := hI.calls c hc
      exact ⟨tid', hb.mono hlog⟩
    · exact ⟨tid, hC.1.buys.mono hlog⟩
  · rcases h.new_seen ho with ho | ho
    · obtain ⟨o₁, ho₁, hl₁⟩ := hI.seen id o ho
      obtain ⟨o₂, ho₂, hl₂⟩ := h.later ho₁
      exact ⟨o₂, ho₂, hl₁.trans hl₂⟩
    · exact h.later ho
  · cases h with
    | watcher hexec =>
        rcases (execWatcher_move hexec).origin hd with ⟨d₀, hd₀, hs⟩ |
          ⟨t, userId, walletId, confirmations, status, -, rfl⟩
        · have hchain : d.chain = d₀.chain := congrArg Prod.fst hs.naturalKey
          rw [hchain, hs.network]
          exact hI.chains id d₀ hd₀
        · rfl
    | _ => exact hI.chains id d hd

end Sound

/-! ## The other tasks are respected -/

section Respect

variable {cfg : Config} {tid tid' : ℕ} {ω : Oracle} {w w' : World} {op : Op}

/-- What happens to a row that was there. -/
lemma WorldMove.change (h : WorldMove cfg tid ω w op w') {id : Uuid} {o : Order}
    (ho : w.orders.get? id = some o) : w'.orders.get? id = some o ∨
      ∃ nop o' es, op = .numbers nop ∧ w'.orders.get? id = some o' ∧ w'.log = es ++ w.log ∧
        RowChange w.now tid ω.fresh id o nop o' es := by
  cases h with
  | numbers hmove =>
      obtain ⟨o', ho', hchange⟩ := hmove.change ho
      exact .inr ⟨_, o', _, rfl, ho', rfl, hchange⟩
  | _ => exact .inl ho

/-- A row under another task's live claim, without an activation, keeps what that task knows
of it. -/
lemma RowChange.held {fresh : List Uuid} {id : Uuid} {row row' : Order} {nop : NumberOp}
    {req : Request} {born : Time} {es : Log} (h : RowChange w.now tid fresh id row nop row' es)
    (hI : Sound w) (hC : NumberContract cfg w tid req born nop) (hne : tid' ≠ tid)
    (hrow : w.orders.get? id = some row) {c : Claim} (hc : row.claim = some c)
    (hgrant : Granted w tid' id c) (hnone : row.providerOrderId = none)
    (hlive : w.now < c.claimedUntil) :
    row'.claim = some c ∧ row'.status = row.status ∧ row'.providerOrderId = none ∧
      row'.purchaseStartedAt = row.purchaseStartedAt := by
  -- No token of the writer is in the claim, and the writer knows of no activation.
  have foreign : ∀ {token}, HoldsToken w tid id token → row.claimedBy token = true → False := by
    intro token htoken hheld
    obtain ⟨c', hc', ht⟩ := Order.claimedBy_iff.mp hheld
    cases hc.symm.trans hc'
    exact hne (hI.tid_eq htoken hgrant ht).symm
  have foreign_live : ∀ {token}, HoldsToken w tid id token →
      row.liveClaim token w.now = true → False := by
    intro token htoken hlive'
    obtain ⟨c', hc', ht, -⟩ := Order.liveClaim_iff.mp hlive'
    exact foreign htoken (Order.claimedBy_iff.mpr ⟨c', hc', ht⟩)
  have no_check : ∀ {token check}, nop = .applyCheck id token check → False := by
    rintro token check rfl
    obtain ⟨-, o, ho, hactivated⟩ := hC
    cases hrow.symm.trans ho
    exact hactivated hnone
  cases h with
  | kept hsame =>
      subst hsame
      exact ⟨hc, rfl, hnone, rfl⟩
  | step hstep =>
      cases hstep with
      | granted hop hfree htoken =>
          have := Order.claimable_iff.mp hfree c hc
          exact absurd hlive (Nat.lt_asymm this)
      | released hop hheld =>
          rcases hop with rfl | ⟨delay, e, rfl⟩ <;> exact (foreign hC hheld).elim
      | markedForReview hstatus hl => exact (foreign_live hC hl).elim
      | assigned hstatus hl => exact (foreign_live hC.1 hl).elim
      | pinned => exact ⟨hc, rfl, hnone, rfl⟩
      | recovered hstatus hheld => exact (foreign hC.1 hheld).elim
      | kept => exact (no_check rfl).elim
      | checkedForReview => exact (no_check rfl).elim
  | ended hop hfenced hopen hstep hes =>
      cases hop with
      | check => exact (no_check rfl).elim
      | claimed =>
          refine (foreign_live hC.1 ?_).elim
          simpa [staleClaim] using hfenced

/-- The label changes only when the buyer pins a source. -/
lemma RowChange.provider {now : Time} {fresh : List Uuid} {id : Uuid} {row row' : Order}
    {nop : NumberOp} {es : Log} (h : RowChange now tid fresh id row nop row' es) :
    row'.provider = row.provider ∨
      ∃ s, nop = .pin id s ∧ row'.provider = s.provider ∧
        row'.purchaseStartedAt = row.purchaseStartedAt := by
  cases h with
  | kept hsame => exact .inl (hsame ▸ rfl)
  | step hstep =>
      cases hstep with
      | granted hop hfree htoken => cases hop <;> exact .inl rfl
      | pinned => exact .inr ⟨_, rfl, rfl, rfl⟩
      | released hop hheld hsame => exact .inl hsame.provider
      | kept hfenced hopen hsame => exact .inl hsame.provider
      | checkedForReview hfenced hopen hsame => exact .inl hsame.provider
      | _ => exact .inl rfl
  | ended hop hfenced hopen hstep hes => exact .inl hstep.same.provider

/-- Deposits keep the transfer they record. -/
lemma WatcherMove.same_transfer {db db' : WatcherDb} {op : WatcherOp} {es : Log}
    (h : WatcherMove db op db' es) {id : Uuid} {d : Deposit}
    (hd : db.deposits.get? id = some d) :
    ∃ d', db'.deposits.get? id = some d' ∧ d.SameTransfer d' := by
  cases h with
  | idle => exact ⟨d, hd, .refl d⟩
  | @observed t userId walletId i confirmations status deposits hnew hinsert =>
      refine ⟨d, ?_, .refl d⟩
      have hnone := DepositTable.get?_of_insert hinsert
      show deposits.get? id = some d
      rw [DepositTable.get?_insert hinsert, if_neg (fun heq => by simp [heq, hnone] at hd), hd]
  | @touched op i f deposits htouch hupdate =>
      by_cases hi : id = i
      · subst hi
        exact ⟨f d, by simp [DepositTable.get?_update hupdate, hd], (htouch d).same⟩
      · exact ⟨d, by simp [DepositTable.get?_update hupdate, hi, hd], .refl d⟩
  | @posted op i journalId row row' builder journal out ledger deposits hrow hpost hbuild
      hledger hupdate =>
      by_cases hi : id = i
      · subst hi
        cases hrow.symm.trans hd
        refine ⟨row', by simp [DepositTable.get?_update hupdate, hd], ?_⟩
        cases hpost <;> exact ⟨rfl, rfl, rfl, rfl, rfl⟩
      · exact ⟨d, by simp [DepositTable.get?_update hupdate, hi, hd], .refl d⟩

/-- Intents keep whose they are and their reference, and with the stub their amount. -/
lemma FundingMove.same_charge {db db' : FundingDb} {op : FundingOp} {es : Log}
    {now : Time} (h : FundingMove cfg now ω db op db' es)
    (hC : ∀ id userId reference amount, op = .credit id userId reference amount →
      ∃ i, db.intents.get? id = some i ∧ (cfg.fundingLive = false → i.amountNgn = amount))
    {id : Uuid} {i : Intent} (hi : db.intents.get? id = some i) :
    ∃ i', db'.intents.get? id = some i' ∧ i'.userId = i.userId ∧ i'.reference = i.reference ∧
      (cfg.fundingLive = false → i'.amountNgn = i.amountNgn) := by
  cases h with
  | idle => exact ⟨i, hi, rfl, rfl, fun _ => rfl⟩
  | verified => exact ⟨i, hi, rfl, rfl, fun _ => rfl⟩
  | @inserted userId id' amount intents u hinsert =>
      refine ⟨i, ?_, rfl, rfl, fun _ => rfl⟩
      have hnone := (Table.insert_eq_some hinsert).1
      show intents.table.get? id = some i
      rw [Table.get?_insert hinsert, if_neg (fun heq => ?_)]
      · exact hi
      · rw [← heq] at hnone
        cases hnone.symm.trans hi
  | @failed id' reason intents hintents =>
      have hs := i.sameCharge_failed reason
      have hget : intents.get? id = _ := IntentTable.get?_of_modify hintents id
      rw [hi, Option.map_some] at hget
      split at hget
      · exact ⟨_, hget, hs.userId, hs.reference, fun _ => hs.amountNgn⟩
      · exact ⟨_, hget, rfl, rfl, fun _ => rfl⟩
  | @abandoned intents hintents =>
      have hs := i.sameCharge_abandoned now
      have hget : intents.get? id = _ := IntentTable.get?_of_map hintents id
      rw [hi, Option.map_some] at hget
      exact ⟨_, hget, hs.userId, hs.reference, fun _ => hs.amountNgn⟩
  | @credited id' userId journalId reference amount journal out ledger intents hdb hbuild hledger
      hintents =>
      have hget : intents.get? id = _ := IntentTable.get?_of_modify hintents id
      rw [hi, Option.map_some] at hget
      split at hget
      · rename_i hid
        subst hid
        obtain ⟨i₀, hi₀, hamount⟩ := hC _ _ _ _ rfl
        cases hi.symm.trans hi₀
        refine ⟨_, hget, ?_⟩
        unfold intentSucceeded
        split
        · exact ⟨rfl, rfl, fun hf => (hamount hf).symm⟩
        · exact ⟨rfl, rfl, fun _ => rfl⟩
      · exact ⟨_, hget, rfl, rfl, fun _ => rfl⟩

/-- Under its contract, an operation keeps every intent's charge. -/
lemma WorldMove.intents {req : Request} {born : Time} (h : WorldMove cfg tid ω w op w')
    (hC : Contract cfg tid req born op w) (id : Uuid) (i : Intent)
    (hi : w.intents.get? id = some i) :
    ∃ i', w'.intents.get? id = some i' ∧ i'.userId = i.userId ∧ i'.reference = i.reference ∧
      (cfg.fundingLive = false → i'.amountNgn = i.amountNgn) := by
  cases h with
  | @funding fop r db es hexec =>
      refine (execFunding_move hexec).same_charge (fun id userId reference amount hop => ?_) hi
      subst hop
      obtain ⟨i, hi, -, -, hamount, -⟩ := hC
      exact ⟨i, hi, hamount⟩
  | _ => exact ⟨i, hi, rfl, rfl, fun _ => rfl⟩

/-- Every operation keeps the transfer of every deposit. -/
lemma WorldMove.deposits (h : WorldMove cfg tid ω w op w') (id : Uuid) (d : Deposit)
    (hd : w.deposits.get? id = some d) :
    ∃ d', w'.deposits.get? id = some d' ∧ d.SameTransfer d' := by
  cases h with
  | watcher hexec => exact (execWatcher_move hexec).same_transfer hd
  | _ => exact ⟨d, hd, .refl d⟩

/-- **An operation that keeps its contract respects what the other tasks rely on.** -/
theorem rely_of_move {req : Request} {born : Time} (hI : Sound w)
    (hC : Contract cfg tid req born op w) (h : WorldMove cfg tid ω w op w')
    (hne : tid' ≠ tid) : Rely cfg tid' w w' where
  now_le := h.now_eq.symm.le
  log := by
    obtain ⟨es, hes⟩ := h.log_eq
    exact ⟨es, hes.symm⟩
  later id o ho := h.later ho
  grants g hg htid := by
    rcases h.new_grant hg with hg | ⟨nop, db, hop, hgrant, -, -⟩
    · exact hg
    · exact absurd (htid.symm.trans hgrant.tid_eq) hne
  held id o c ho hc hgrant hnone hlive := by
    rw [h.now_eq] at hlive
    rcases h.change ho with ho' | ⟨nop, o', es, rfl, ho', -, hchange⟩
    · exact ⟨o, ho', hc, rfl, hnone, rfl⟩
    · exact ⟨o', ho', hchange.held hI hC hne ho hc hgrant hnone hlive⟩
  calls id hb c hc hid := by
    rcases h.new_call hc with hc | ⟨order, token, label, rfl, rfl⟩
    · exact hc
    · cases hid
      exact absurd (hI.buyer _ _ _ hb hC.1.buys) hne
  label id o o' ho ho' hcond := by
    rcases h.change ho with ho'' | ⟨nop, o'', es, rfl, ho'', hlog, hchange⟩
    · cases ho'.symm.trans ho''
      rfl
    · cases ho'.symm.trans ho''
      rcases hchange.provider with heq | ⟨s, rfl, -, hstarted⟩
      · exact heq
      · obtain ⟨o₁, ho₁, hs⟩ := hI.started tid id hC.1
        cases ho.symm.trans ho₁
        rcases hcond with hnone | ⟨g, hg, hid, hpurpose, htid⟩
        · exact absurd (hstarted.symm.trans hnone) hs
        · rcases h.new_grant hg with hg | ⟨nop, db, hop, hgrant, -, -⟩
          · exact absurd (hI.buyer _ _ _ ⟨g, hg, hid, hpurpose, htid⟩ hC.1) hne
          · exact absurd (htid.symm.trans hgrant.tid_eq) hne
  intents id i hi := h.intents hC id i hi
  deposits id d hd := by
    obtain ⟨d', hd', hs⟩ := h.deposits id d hd
    exact ⟨d', hd', hs.userId, hs.naturalKey, hs.network, hs.asset, hs.amount⟩

end Respect

/-- The environment respects everyone. -/
lemma rely_of_env {cfg : Config} {tid : ℕ} {e : EnvMove} {w w' : World}
    (h : execEnv e w = some w') : Rely cfg tid w w' := by
  obtain ⟨now, wallets, tiers, hnow, rfl⟩ := execEnv_eq h
  exact .of_same hnow List.suffix_rfl rfl (fun _ hg => hg) (fun _ hc => hc)
    (fun id i hi => ⟨i, hi, rfl, rfl, fun _ => rfl⟩)
    (fun id d hd => ⟨d, hd, rfl, rfl, rfl, rfl, rfl⟩)

lemma sound_of_env {e : EnvMove} {w w' : World} (h : execEnv e w = some w') (hI : Sound w) :
    Sound w' := by
  obtain ⟨now, wallets, tiers, -, rfl⟩ := execEnv_eq h
  exact ⟨hI.unassigned, hI.claims, hI.drawn, hI.tokens, hI.started, hI.buyer, hI.calls, hI.seen,
    hI.chains⟩

lemma sound_fresh (now : Time) (wallets : List Wallet) : Sound (World.fresh now wallets) where
  unassigned id o ho := by simp [World.fresh] at ho
  claims id o c ho := by simp [World.fresh] at ho
  drawn g hg := by simp [World.fresh] at hg
  tokens g g' hg := by simp [World.fresh] at hg
  started tid id h := by simp [Buys, World.fresh] at h
  buyer tid tid' id h := by simp [Buys, World.fresh] at h
  calls c hc := by simp [World.fresh] at hc
  seen id o ho := by simp [Seen, World.fresh] at ho
  chains id d hd := by simp [World.fresh, DepositTable.empty, DepositTable.get?] at hd

end Naivolt
