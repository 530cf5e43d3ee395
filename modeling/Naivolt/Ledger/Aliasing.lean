import Naivolt.Numbers.Conservation
import Naivolt.Watcher.Crediting

/-!
# Keys that stand for one journal

A posting that finds its key in use answers `AlreadyPosted`, and its caller goes on as if its own
journal were there.  That is right as long as the journal under the key is the one it would have
posted.  The producers' key shapes see to it among themselves; a payout, posted under any text its
client sends, can sit under all of them.

`KeysUnaliased` says that no such answer is ever about another journal, and what it means for
orders: each names a reservation that took exactly its price.  `keys_unaliased` shows it for the
runs in which no payout holds a key another producer is about to use and the provider never
confirms one charge at two amounts.  `order_reserved_for_less` is a run in which an order of
₦1 500 names a payout of ₦1.
-/

namespace Naivolt

open Foundation Foundation.Machine

/-! ## What is required -/

/-- The posting is the journal that was being posted. -/
def Posting.IsOf (q : Posting) (j : Journal) : Prop :=
  q.journal.idempotencyKey = j.idempotencyKey ∧ q.journal.kind = j.kind ∧
    q.journal.entries = j.entries

/-- A journal that was already there is the one its producer was posting, payouts apart, and
every order names a reservation that debited its user by its price. -/
structure KeysUnaliased (w : World) : Prop where
  same : ∀ j id, Event.posted j (.alreadyPosted id) ∈ w.log → j.kind ≠ .payoutReserve →
    ∃ q ∈ w.ledger.postings, q.id = id ∧ q.IsOf j
  reserved : ∀ id o, w.orders.get? id = some o → ∃ q ∈ w.ledger.postings,
    q.id = o.reservedJournalId ∧ q.journal.kind = .numberReserve ∧
      q.journal.entries = [⟨.userNgn o.userId, o.priceNgn⟩, ⟨pendingAccount, -o.priceNgn⟩]

/-! ## Conditions on the steps -/

/-- An order about to be placed, settled or refunded finds no payout under its keys. -/
def OrderKeyOwn (op : Op) (w : World) : Prop :=
  match op with
  | .numbers (.reserve userId key _) => findByKey w.orders userId key = none →
      NoPayoutUnder w.ledger (reservationKey userId key)
  | .numbers (.applyCheck id _ _) | .numbers (.applyClaimed id _ _ _) =>
      ∀ o ∈ w.orders.get? id, o.status.moneyOpen = true →
        NoPayoutUnder w.ledger (settleKey o.reference) ∧
          NoPayoutUnder w.ledger (refundKey o.reference)
  | _ => True

instance (op : Op) (w : World) : Decidable (OrderKeyOwn op w) := by
  unfold OrderKeyOwn
  split <;> infer_instance

/-- A top-up about to be credited finds no payout under its key. -/
def CreditKeyOwn (op : Op) (w : World) : Prop :=
  match op with
  | .funding (.credit _ _ reference _) => NoPayoutUnder w.ledger (creditKey reference)
  | _ => True

instance (op : Op) (w : World) : Decidable (CreditKeyOwn op w) :=
  match op with
  | .funding (.credit _ _ reference _) =>
      inferInstanceAs (Decidable (NoPayoutUnder w.ledger (creditKey reference)))
  | .funding (.insertIntent ..) | .funding (.initCharge ..) | .funding (.readIntent _)
  | .funding (.verify ..) | .funding (.fail ..) | .funding .pending | .funding .abandon
  | .numbers _ | .supplier _ | .payouts _ | .watcher _ | .clock | .auditReplay _ => .isTrue trivial

/-- The amounts the provider has confirmed for a reference. -/
def confirmedAmounts (log : Log) (reference : String) : List ℚ :=
  log.filterMap fun e => match e with
    | .verified asked (.succeeded amount) => if asked = reference then some amount else none
    | _ => none

/-- The provider confirms a charge at the amount it confirmed before. -/
def ConfirmsAlike (cfg : Config) (op : Op) (ω : Oracle) (w : World) : Prop :=
  match op with
  | .funding (.verify reference amount) =>
      ∀ a ∈ confirmedAmounts [.verified reference (chargeAnswer cfg ω amount)] reference,
        ∀ a' ∈ confirmedAmounts w.log reference, a' = a
  | _ => True

instance (cfg : Config) (op : Op) (ω : Oracle) (w : World) :
    Decidable (ConfirmsAlike cfg op ω w) := by
  unfold ConfirmsAlike
  split <;> infer_instance

/-- No payout holds a key that another producer is about to use. -/
structure KeysApart (cfg : Config) (op : Op) (ω : Oracle) (w : World) : Prop where
  orders : OrderKeyOwn op w
  credits : CreditKeyOwn op w
  deposits : DepositKeyOwn op w
  charges : ConfirmsAlike cfg op ω w

instance (cfg : Config) (op : Op) (ω : Oracle) (w : World) : Decidable (KeysApart cfg op ω w) :=
  decidable_of_iff (OrderKeyOwn op w ∧ CreditKeyOwn op w ∧ DepositKeyOwn op w ∧
    ConfirmsAlike cfg op ω w) ⟨fun ⟨h, h', h'', h'''⟩ => ⟨h, h', h'', h'''⟩,
      fun ⟨h, h', h'', h'''⟩ => ⟨h, h', h'', h'''⟩⟩

/-! ## The invariant -/

/-- Every credited top-up is an intent's, at an amount the provider confirmed for it. -/
def CreditsConfirmed (w : World) : Prop :=
  ∀ q ∈ w.ledger.postings, q.journal.kind = .ngnDeposit → ∃ id i amount,
    w.intents.get? id = some i ∧
    q.journal.builder = creditJournalNgn i.userId i.reference amount ∧
    Event.verified i.reference (.succeeded amount) ∈ w.log

/-- No charge was confirmed at two amounts. -/
def ConfirmedOnce (log : Log) : Prop :=
  ∀ reference a a', Event.verified reference (.succeeded a) ∈ log →
    Event.verified reference (.succeeded a') ∈ log → a = a'

/-- The books of every producer, and the answers given so far. -/
structure AllBooks (w : World) : Prop where
  orders : Books w.ledger w.orders
  deposits : DepositBooks w.ledger w.deposits
  credits : CreditsConfirmed w
  charges : ConfirmedOnce w.log
  same : ∀ j id, Event.posted j (.alreadyPosted id) ∈ w.log → j.kind ≠ .payoutReserve →
    ∃ q ∈ w.ledger.postings, q.id = id ∧ q.IsOf j

lemma mem_confirmedAmounts {log : Log} {reference : String} {amount : ℚ} :
    amount ∈ confirmedAmounts log reference ↔
      Event.verified reference (.succeeded amount) ∈ log := by
  simp only [confirmedAmounts, List.mem_filterMap]
  constructor
  · rintro ⟨e, he, ha⟩
    split at ha
    · split at ha
      · rename_i href
        cases ha
        exact href ▸ he
      · cases ha
    · cases ha
  · exact fun h => ⟨_, h, by simp⟩

section Step

variable {cfg : Config} {tid : ℕ} {req : Request} {born : Time} {ω : Oracle} {w w' : World}
  {op : Op}

lemma OrderKeyOwn.orderKeys (hspace : KeySpace w) (hown : OrderKeyOwn op w) :
    OrderKeys w w' op where
  placed hop _ _ _ hfree p hp hkey := by
    subst hop
    exact hspace.kind_eq hp (hown hfree p hp hkey) (.reserve _ _) hkey
  ended {_ _ _ _ o} hop hends ho hopen p hp := by
    subst hop
    obtain ⟨u, hu⟩ := hspace.orders _ _ ho
    have hkeys : NoPayoutUnder w.ledger (settleKey o.reference) ∧
        NoPayoutUnder w.ledger (refundKey o.reference) := by
      cases hends <;> exact hown _ ho hopen
    exact ⟨fun hkey => hspace.kind_eq hp (hkeys.1 p hp hkey) (hu ▸ .settle u) hkey,
      fun hkey => hspace.kind_eq hp (hkeys.2 p hp hkey) (hu ▸ .refund u) hkey⟩

/-- A charge confirmed in the history was confirmed before, or is confirmed now. -/
lemma ConfirmedOnce.step (h : WorldMove cfg tid ω w op w') (halike : ConfirmsAlike cfg op ω w)
    (hI : ConfirmedOnce w.log) : ConfirmedOnce w'.log := by
  have hnew : ∀ {reference a}, Event.verified reference (.succeeded a) ∈ w'.log →
      Event.verified reference (.succeeded a) ∈ w.log ∨ ∃ amount,
        op = .funding (.verify reference amount) ∧ chargeAnswer cfg ω amount = .succeeded a := by
    intro reference a ha
    refine (h.new_event ha).imp_right fun hnew => ?_
    generalize ChargeState.succeeded a = answer at hnew
    cases hnew with
    | numbers hmove he => cases hmove.ofOrders he
    | supplier hevent => exact nomatch hevent
    | @verified reference amount => exact ⟨amount, rfl, rfl⟩
  have hagree : ∀ {reference a a' amount}, op = .funding (.verify reference amount) →
      chargeAnswer cfg ω amount = .succeeded a →
      Event.verified reference (.succeeded a') ∈ w.log → a' = a := by
    intro reference a a' amount hop hcharge ha'
    subst hop
    exact halike a (mem_confirmedAmounts.mpr (by simp [hcharge])) a'
      (mem_confirmedAmounts.mpr ha')
  intro reference a a' ha ha'
  rcases hnew ha with ha | ⟨amount, hop, hcharge⟩ <;>
    rcases hnew ha' with ha' | ⟨amount', hop', hcharge'⟩
  · exact hI reference a a' ha ha'
  · exact hagree hop' hcharge' ha
  · exact (hagree hop hcharge ha').symm
  · cases hop.symm.trans hop'
    exact ChargeState.succeeded.inj (hcharge.symm.trans hcharge')

/-- Credits stay confirmed. -/
lemma CreditsConfirmed.step {r : op.Res} (he : exec cfg tid op ω w = some (r, w'))
    (hC : Contract cfg tid req born op w) (hI : CreditsConfirmed w) : CreditsConfirmed w' := by
  have hintents := (exec_move he).2.intents hC
  have hold : ∀ q ∈ w.ledger.postings, q.journal.kind = .ngnDeposit → ∃ id i amount,
      w'.intents.get? id = some i ∧
      q.journal.builder = creditJournalNgn i.userId i.reference amount ∧
      Event.verified i.reference (.succeeded amount) ∈ w'.log := by
    intro q hq hk
    obtain ⟨id, i, amount, hi, hb, hverified⟩ := hI q hq hk
    obtain ⟨i', hi', hu, hr, -⟩ := hintents id i hi
    exact ⟨id, i', amount, hi', by rw [hb, hu, hr], hr ▸ (log_of_exec he).subset hverified⟩
  intro q hq hk
  cases exec_ledger he with
  | same hledger hlog => exact hold q (hledger ▸ hq) hk
  | posted hposts hbuild hpost hlog =>
      rcases Ledger.post_cases hpost with ⟨-, hp, -⟩ | ⟨p, -, -, -, hl⟩
      · rw [hp] at hq
        rcases List.mem_cons.mp hq with rfl | hq
        · have hb := Journal.builder_of_build hbuild
          rw [(JournalBuilder.build_eq_ok hbuild).1] at hk
          cases hposts with
          | fund =>
              obtain ⟨i, hi, rfl, rfl, -, hverified⟩ := hC
              obtain ⟨i', hi', hu, hr, -⟩ := hintents _ i hi
              exact ⟨_, i', _, hi', by rw [hb, hu, hr], hr ▸ (log_of_exec he).subset hverified⟩
          | _ => cases hk
        · exact hold q hq hk
      · exact hold q (hl ▸ hq) hk

/-- A journal already there when an order, a top-up or a deposit posts is its own. -/
lemma AllBooks.already_own (hC : Contract cfg tid req born op w) (hspace : KeySpace w)
    (hown : KeysApart cfg op ω w) (hI : AllBooks w) {b : JournalBuilder} {j : Journal}
    {p : Posting} (hposts : Posts w op b) (hbuild : b.build = .ok j)
    (hp : p ∈ w.ledger.postings) (hkey : p.journal.idempotencyKey = j.idempotencyKey)
    (hkind : j.kind ≠ .payoutReserve) : p.IsOf j := by
  have hb := Journal.builder_of_build hbuild
  obtain ⟨hjkind, -, hjkey, -⟩ := JournalBuilder.build_eq_ok hbuild
  rw [hjkey] at hkey
  cases hposts with
  | reserve u price hfree =>
      refine absurd hkey (hI.orders.reserve_key_fresh hfree (fun p hp hkey => ?_) p hp)
      exact hspace.kind_eq hp (hown.orders hfree p hp hkey) (.reserve _ _) hkey
  | settle hop hrow hopen =>
      have hkeys : OrderKeys w w _ := hown.orders.orderKeys hspace
      exact absurd hkey ((hI.orders.ending_key_fresh hrow hopen hp).1
        ((hkeys.ended rfl hop hrow hopen p hp).1 hkey))
  | refund hop hrow hopen =>
      have hkeys : OrderKeys w w _ := hown.orders.orderKeys hspace
      exact absurd hkey ((hI.orders.ending_key_fresh hrow hopen hp).2
        ((hkeys.ended rfl hop hrow hopen p hp).2 hkey))
  | payout u => exact absurd hjkind hkind
  | @fund id userId reference amount =>
      -- The same reference is the same intent, and was confirmed at the same amount.
      obtain ⟨i, hi, rfl, rfl, -, hverified⟩ := hC
      obtain ⟨u, hu⟩ := hspace.intents _ i hi
      have hpkind : p.journal.kind = .ngnDeposit :=
        hspace.kind_eq hp (hown.credits p hp hkey) (hu ▸ .credit u) hkey
      obtain ⟨id', i', amount', hi', hpb, hverified'⟩ := hI.credits p hp hpkind
      have hpkey : p.journal.idempotencyKey = creditKey i'.reference :=
        congrArg JournalBuilder.idempotencyKey hpb
      have href := creditKey_injective (hpkey.symm.trans hkey)
      obtain rfl := w.intents.eq_of_reference hi' hi href
      cases hi.symm.trans hi'
      obtain rfl := hI.charges _ _ _ hverified hverified'
      have hsame : p.journal.builder = j.builder := hpb.trans hb.symm
      exact ⟨congrArg JournalBuilder.idempotencyKey hsame, congrArg JournalBuilder.kind hsame,
        congrArg JournalBuilder.entries hsame⟩
  | deposit hrow hopen =>
      obtain ⟨d, hd, htr⟩ := hC
      cases hrow.symm.trans hd
      exact absurd hkey (hI.deposits.credit_key_free hspace hrow
        (by simpa [Deposit.WasCredited] using hopen) htr
        (hown.deposits _ hrow hopen.1 hopen.2) p hp)
  | reversal hrow hconfirmed =>
      obtain ⟨d, hd, htr, -, -⟩ := hC
      cases hrow.symm.trans hd
      exact absurd hkey (hI.deposits.reversal_key_free hspace hrow hconfirmed htr
        (hown.deposits _ hrow hconfirmed) p hp)

/-- Every step under its contract, the keys apart, keeps the books. -/
lemma AllBooks.step {r : op.Res} (he : exec cfg tid op ω w = some (r, w'))
    (hC : Contract cfg tid req born op w) (hspace : KeySpace w) (hown : KeysApart cfg op ω w)
    (hI : AllBooks w) : AllBooks w' where
  orders := hI.orders.step he (hown.orders.orderKeys hspace)
  deposits := hI.deposits.step (hI.deposits.step_cases he hC hspace hown.deposits)
  credits := hI.credits.step he hC
  charges := hI.charges.step (exec_move he).2 hown.charges
  same j id hj hkind := by
    cases exec_ledger he with
    | same hledger hlog => exact hledger ▸ hI.same j id (hlog j _ hj) hkind
    | posted hposts hbuild hpost hlog =>
        rcases hlog j _ hj with ⟨rfl, hout⟩ | hj
        · rcases Ledger.post_cases hpost with ⟨rfl, -, -⟩ | ⟨p, hp, hkey, rfl, hl⟩
          · cases hout
          · cases hout
            exact ⟨p, hl ▸ hp, rfl, hI.already_own hC hspace hown hposts hbuild hp hkey hkind⟩
        · obtain ⟨q, hq, hrest⟩ := hI.same j id hj hkind
          exact ⟨q, (Ledger.postings_suffix_of_post hpost).subset hq, hrest⟩

/-- An order's reservation, as its books have it. -/
lemma Books.reserved {l : Ledger} {t : OrderTable} (h : Books l t) {id : Uuid} {o : Order}
    (ho : t.get? id = some o) : ∃ q ∈ l.postings, q.id = o.reservedJournalId ∧
      q.journal.kind = .numberReserve ∧
      q.journal.entries = [⟨.userNgn o.userId, o.priceNgn⟩, ⟨pendingAccount, -o.priceNgn⟩] := by
  obtain ⟨q, hq, hline⟩ := h.posted id o ho _ List.mem_cons_self
  exact ⟨q, hq, congrArg Prod.fst hline, congrArg (fun b => b.2.kind) hline,
    congrArg (fun b => b.2.entries) hline⟩

end Step

/-! ## The two results -/

/-- **Ledger keys never alias** in the runs in which no payout holds a key that another producer is
about to use, and the provider confirms a charge at one amount only. -/
theorem keys_unaliased {cfg : Config} {now : Time} {wallets : List Wallet} {s : State}
    (h : (backend cfg).Reachable (onOps fun _ _ _ op ω w => KeysApart cfg op ω w)
      (initial now wallets) s) : KeysUnaliased s.world := by
  have hbooks : AllBooks s.world := by
    refine Reachable.guarded_inv (I := AllBooks) ?_ (fun e w w' he hI => ?_)
      (fun tid req b op ω r w w' hP he hI => hI.step he hP.1.2.2 hP.2 hP.1.1)
      (contracted_keySpace h)
    · exact ⟨.empty, .empty, fun q hq => absurd hq List.not_mem_nil,
        fun _ _ _ ha => absurd ha List.not_mem_nil, fun _ _ hj => absurd hj List.not_mem_nil⟩
    · obtain ⟨now, wallets, tiers, -, rfl⟩ := execEnv_eq he
      exact ⟨hI.orders, hI.deposits, hI.credits, hI.charges, hI.same⟩
  exact ⟨hbooks.same, fun id o ho => hbooks.orders.reserved ho⟩

/-- A user who topped up withdraws ₦1 under the given key, then orders a number. -/
def withdrawThenOrder (key : String) : List Move :=
  .env (.setTier 7 .tier1) :: topUp 0 7 100 101 102 5000 ++
  serve 2 (.createPayout 7 key ⟨1, 0, 9⟩)
    [{}, {}, { destination := .ok 9 }, { fresh := [200, 201, 202] }] ++
  serve 3 (.createOrder 7 50 stubOrder)
    [{ fresh := [300, 301, 2 <<< 100], catalogue := stubCatalogue 1500 }]

theorem keys_unaliased_withdrawal :
    ∃ s : State, s.world.ledger.postings.length = 3 ∧ KeysUnaliased s.world := by
  obtain ⟨s, hs, hposted⟩ := exists_reachable_of_run (backend stubConfig)
    (onOps fun _ _ _ op ω w => KeysApart stubConfig op ω w) (initial 0 [])
    (withdrawThenOrder "once") (fun s => s.world.ledger.postings.length = 3) (by decide +kernel)
  exact ⟨s, hposted, keys_unaliased hs⟩

/-- An order of ₦1 500 whose reservation is a payout of ₦1 that its user made under the order's
own key. -/
theorem order_reserved_for_less :
    ¬ ∀ s : State, (backend stubConfig).Reachable unguarded (initial 0 []) s →
      KeysUnaliased s.world := by
  intro h
  obtain ⟨s, hs, hnone⟩ := exists_reachable_of_run (backend stubConfig) unguarded (initial 0 [])
    (withdrawThenOrder (reservationKey 7 50))
    (fun s => ∃ o ∈ s.world.orders.get? 300, ∀ q ∈ s.world.ledger.postings,
      q.id = o.reservedJournalId → q.journal.kind ≠ .numberReserve) (by decide +kernel)
  obtain ⟨o, ho, hnone⟩ := hnone
  obtain ⟨q, hq, hid, hkind, -⟩ := (h s hs).reserved 300 o ho
  exact hnone q hq hid hkind

end Naivolt
