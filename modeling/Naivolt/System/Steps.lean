import Naivolt.System.Moves

/-!
# What one step of the backend can do

`exec` inverted at the level of the world.  `exec_numbers` and its siblings peel one family of
operations off `exec`; `WorldMove` collects them, `exec_move` says that nothing else happens,
and `Posts` lists every journal the backend ever posts with what held when it did.

The frame facts at the end say which tables an operation leaves alone.
-/

namespace Naivolt

open Foundation

/-! ## Peeling `exec` -/

section Exec

variable {cfg : Config} {tid : ℕ} {ω : Oracle} {w w' : World}

/-- The world with the oracle's identifiers handed out. -/
def World.draw (w : World) (ω : Oracle) : World := { w with used := ω.fresh ++ w.used }

lemma exec_eq_some {op : Op} {r : op.Res} (h : exec cfg tid op ω w = some (r, w')) :
    Fresh ω w ∧ execOp cfg tid ω (w.draw ω) op = some (r, w') := by
  unfold exec at h
  split at h
  · rename_i hf
    exact ⟨hf, h⟩
  · cases h

lemma exec_numbers {op : NumberOp} {r : op.Res}
    (h : exec cfg tid (.numbers op) ω w = some (r, w')) :
    Fresh ω w ∧ ∃ db es, execNumbers cfg tid w.now ω w.numbers op = some (r, db, es) ∧
      w' = (w.draw ω).putNumbers db es := by
  obtain ⟨hf, h⟩ := exec_eq_some h
  obtain ⟨⟨r', db, es⟩, he, hres⟩ := Option.map_eq_some_iff.mp h
  cases hres
  exact ⟨hf, db, es, he, rfl⟩

lemma exec_supplier {op : SupplierOp} {r : op.Res}
    (h : exec cfg tid (.supplier op) ω w = some (r, w')) :
    ∃ es, execSupplier cfg tid ω (w.draw ω) op = some (r, es) ∧ w' = (w.draw ω).record es := by
  obtain ⟨-, h⟩ := exec_eq_some h
  obtain ⟨⟨r', es⟩, he, hres⟩ := Option.map_eq_some_iff.mp h
  cases hres
  exact ⟨es, he, rfl⟩

lemma exec_payouts {op : PayoutOp} {r : op.Res}
    (h : exec cfg tid (.payouts op) ω w = some (r, w')) :
    ∃ db es, execPayouts w.now ω w.payoutsDb op = some (r, db, es) ∧
      w' = (w.draw ω).putPayouts db es := by
  obtain ⟨-, h⟩ := exec_eq_some h
  obtain ⟨⟨r', db, es⟩, he, hres⟩ := Option.map_eq_some_iff.mp h
  cases hres
  exact ⟨db, es, he, rfl⟩

lemma exec_funding {op : FundingOp} {r : op.Res}
    (h : exec cfg tid (.funding op) ω w = some (r, w')) :
    ∃ db es, execFunding cfg w.now ω w.fundingDb op = some (r, db, es) ∧
      w' = (w.draw ω).putFunding db es := by
  obtain ⟨-, h⟩ := exec_eq_some h
  obtain ⟨⟨r', db, es⟩, he, hres⟩ := Option.map_eq_some_iff.mp h
  cases hres
  exact ⟨db, es, he, rfl⟩

lemma exec_watcher {op : WatcherOp} {r : op.Res}
    (h : exec cfg tid (.watcher op) ω w = some (r, w')) :
    ∃ db es, execWatcher ω w.watcherDb op = some (r, db, es) ∧
      w' = (w.draw ω).putWatcher db es := by
  obtain ⟨-, h⟩ := exec_eq_some h
  obtain ⟨⟨r', db, es⟩, he, hres⟩ := Option.map_eq_some_iff.mp h
  cases hres
  exact ⟨db, es, he, rfl⟩

/-- Every step of the backend, by the family of its operation. -/
inductive WorldMove (cfg : Config) (tid : ℕ) (ω : Oracle) (w : World) : Op → World → Prop where
  | numbers {op : NumberOp} {db : NumbersDb} {es : Log}
      (hmove : NumbersMove w.now tid ω.fresh w.numbers op db es) :
      WorldMove cfg tid ω w (.numbers op) ((w.draw ω).putNumbers db es)
  | supplier {op : SupplierOp} {r : op.Res} {es : Log}
      (hexec : execSupplier cfg tid ω (w.draw ω) op = some (r, es)) :
      WorldMove cfg tid ω w (.supplier op) ((w.draw ω).record es)
  | payouts {op : PayoutOp} {r : op.Res} {db : PayoutsDb} {es : Log}
      (hexec : execPayouts w.now ω w.payoutsDb op = some (r, db, es)) :
      WorldMove cfg tid ω w (.payouts op) ((w.draw ω).putPayouts db es)
  | funding {op : FundingOp} {r : op.Res} {db : FundingDb} {es : Log}
      (hexec : execFunding cfg w.now ω w.fundingDb op = some (r, db, es)) :
      WorldMove cfg tid ω w (.funding op) ((w.draw ω).putFunding db es)
  | watcher {op : WatcherOp} {r : op.Res} {db : WatcherDb} {es : Log}
      (hexec : execWatcher ω w.watcherDb op = some (r, db, es)) :
      WorldMove cfg tid ω w (.watcher op) ((w.draw ω).putWatcher db es)
  | look {op : Op} (hop : op = .clock ∨ ∃ id, op = .auditReplay id) :
      WorldMove cfg tid ω w op (w.draw ω)

/-- **Nothing else happens.** -/
theorem exec_move {op : Op} {r : op.Res} (h : exec cfg tid op ω w = some (r, w')) :
    Fresh ω w ∧ WorldMove cfg tid ω w op w' := by
  refine ⟨(exec_eq_some h).1, ?_⟩
  cases op with
  | numbers op =>
      obtain ⟨-, db, es, he, rfl⟩ := exec_numbers h
      exact .numbers (execNumbers_move he)
  | supplier op =>
      obtain ⟨es, he, rfl⟩ := exec_supplier h
      exact .supplier he
  | payouts op =>
      obtain ⟨db, es, he, rfl⟩ := exec_payouts h
      exact .payouts he
  | funding op =>
      obtain ⟨db, es, he, rfl⟩ := exec_funding h
      exact .funding he
  | watcher op =>
      obtain ⟨db, es, he, rfl⟩ := exec_watcher h
      exact .watcher he
  | clock =>
      cases (exec_eq_some h).2
      exact .look (.inl rfl)
  | auditReplay id =>
      cases (exec_eq_some h).2
      exact .look (.inr ⟨id, rfl⟩)

end Exec

/-! ## Who posts what -/

/-- The journals the backend posts, with what held of the world when it did. -/
inductive Posts (w : World) : Op → JournalBuilder → Prop where
  | reserve {userId key : Uuid} {body : CreateOrderBody} (u : Uuid) (price : ℚ)
      (hkey : findByKey w.orders userId key = none) :
      Posts w (.numbers (.reserve userId key body))
        (reserveJournal userId key (orderReference u) price)
  | settle {op : NumberOp} {id : Uuid} {path : WritePath} {token : Option Uuid} {row : Order}
      (hop : Ends id op path token) (hrow : w.orders.get? id = some row)
      (hopen : row.status.moneyOpen = true) :
      Posts w (.numbers op) (settleJournal row.reference row.priceNgn)
  | refund {op : NumberOp} {id : Uuid} {path : WritePath} {token : Option Uuid} {row : Order}
      (hop : Ends id op path token) (hrow : w.orders.get? id = some row)
      (hopen : row.status.moneyOpen = true) :
      Posts w (.numbers op) (refundJournal row.userId row.reference row.priceNgn)
  | payout {userId : Uuid} {key : String} {amount : ℚ} {bank : Uuid} (u : Uuid) :
      Posts w (.payouts (.reserve userId key amount bank))
        (payoutJournal userId key (payoutReference u) amount)
  | fund {id userId : Uuid} {reference : String} {amount : ℚ} :
      Posts w (.funding (.credit id userId reference amount))
        (creditJournalNgn userId reference amount)
  | deposit {id : Uuid} {t : ObservedTransfer} {row : Deposit}
      (hrow : w.deposits.get? id = some row)
      (hopen : row.status ≠ .confirmed ∧ row.status ≠ .reversed) :
      Posts w (.watcher (.credit id t)) (creditJournal id row.userId t.asset row.amount t)
  | reversal {id : Uuid} {t : ObservedTransfer} {row : Deposit}
      (hrow : w.deposits.get? id = some row) (hconfirmed : row.status = .confirmed) :
      Posts w (.watcher (.reverse id t)) (reversalJournal id row.userId t.asset row.amount t)

/-- What an operation does to the ledger: nothing, or one posting, which is recorded. -/
inductive LedgerMove (w : World) (op : Op) (w' : World) : Prop where
  | same (hledger : w'.ledger = w.ledger)
      (hlog : ∀ j out, .posted j out ∈ w'.log → .posted j out ∈ w.log)
  | posted {builder : JournalBuilder} {journal : Journal} {id : Uuid} {out : PostOutcome}
      (hposts : Posts w op builder) (hbuild : builder.build = .ok journal)
      (hpost : w.ledger.post journal id = some (out, w'.ledger))
      (hlog : ∀ j o, .posted j o ∈ w'.log → (j = journal ∧ o = out) ∨ .posted j o ∈ w.log)

/-- What a call to a supplier can record. -/
inductive SupplierEvent (cfg : Config) (tid : ℕ) (ω : Oracle) (w : World) :
    SupplierOp → Event → Prop where
  | started {order token : Uuid} {label : SupplierLabel} :
      SupplierEvent cfg tid ω w (.buyStart order token label) (.purchaseStarted
        ⟨w.log.length, order, token, label, tid, w.now, w.orders.get? order⟩)
  | answered {call : ℕ} {order : Uuid} {label : SupplierLabel} {supplier : Supplier}
      {answer : BuyAnswer} (hanswer : purchaseAnswer cfg supplier ω.buy = some answer) :
      SupplierEvent cfg tid ω w (.buyAnswer call order label supplier)
        (.purchaseAnswered call order answer)
  | bought {call : ℕ} {order : Uuid} {label : SupplierLabel} {supplier : Supplier}
      {a : Activation} (hanswer : purchaseAnswer cfg supplier ω.buy = some (.bought a)) :
      SupplierEvent cfg tid ω w (.buyAnswer call order label supplier) (.handed order label a)
  | recovered {order : Uuid} {label : SupplierLabel} {country product : String} {a : Activation}
      (hfound : ω.recent.bind (recoverRecentBuy cfg.fivesimCurrency country product) = some a) :
      SupplierEvent cfg tid ω w (.recentInPurchase order label country product)
        (.handed order label a)
  | found {order : Uuid} {country product : String} {a : Activation}
      (hfound : ω.recent.bind (recoverRecentBuy cfg.fivesimCurrency country product) = some a) :
      SupplierEvent cfg tid ω w (.recentForRecovery order country product) (.found order a)
  | checked {order : Uuid} {supplier : Supplier} {id : String} :
      SupplierEvent cfg tid ω w (.check order supplier id) (.asked order supplier id)
  | cancelled {order : Uuid} {supplier : Supplier} {id : String} :
      SupplierEvent cfg tid ω w (.cancel order supplier id) (.asked order supplier id)

lemma execSupplier_event {cfg : Config} {tid : ℕ} {ω : Oracle} {w : World} {op : SupplierOp}
    {r : op.Res} {es : Log} (h : execSupplier cfg tid ω w op = some (r, es)) {e : Event}
    (he : e ∈ es) : SupplierEvent cfg tid ω w op e := by
  cases op with
  | buyStart order token label =>
      cases h
      rw [List.mem_singleton.mp he]
      exact .started
  | buyAnswer call order label supplier =>
      obtain ⟨answer, hanswer, hres⟩ := Option.map_eq_some_iff.mp h
      cases hres
      rcases List.mem_append.mp he with he | he
      · cases r with
        | bought a =>
            rw [List.mem_singleton.mp he]
            exact .bought hanswer
        | _ => exact absurd he List.not_mem_nil
      · rw [List.mem_singleton.mp he]
        exact .answered hanswer
  | recentInPurchase order label country product =>
      cases h
      obtain ⟨a, ha, rfl⟩ := Option.map_eq_some_iff.mp (Option.mem_toList.mp he)
      exact .recovered ha
  | recentForRecovery order country product =>
      cases h
      obtain ⟨a, ha, rfl⟩ := Option.map_eq_some_iff.mp (Option.mem_toList.mp he)
      exact .found ha
  | check order supplier id =>
      cases h
      rw [List.mem_singleton.mp he]
      exact .checked
  | cancel order supplier id =>
      cases h
      rw [List.mem_singleton.mp he]
      exact .cancelled

lemma FundingMove.event {cfg : Config} {now : Time} {ω : Oracle} {db db' : FundingDb}
    {op : FundingOp} {es : Log} (h : FundingMove cfg now ω db op db' es) {e : Event}
    (he : e ∈ es) :
    (∃ j out, e = .posted j out) ∨
    (∃ reference amount, op = .verify reference amount ∧
      e = .verified reference (chargeAnswer cfg ω amount)) ∨
    (op = .abandon ∧ ∃ id i, db.intents.get? id = some i ∧ dueForAbandon now i = true ∧
      e = .abandoned i.reference) := by
  cases h with
  | verified => exact .inr (.inl ⟨_, _, rfl, List.mem_singleton.mp he⟩)
  | credited => exact .inl ⟨_, _, List.mem_singleton.mp he⟩
  | abandoned =>
      obtain ⟨r, hr, rfl⟩ := List.mem_map.mp he
      obtain ⟨hmem, hdue⟩ := List.mem_filter.mp hr
      exact .inr (.inr ⟨rfl, r.1, r.2, Table.get?_eq_some_iff.mpr hmem, hdue, rfl⟩)
  | _ => exact absurd he List.not_mem_nil

/-! ## One posting at most -/

/-- No row step records a posting. -/
lemma RowStep.no_posting {now : Time} {tid : ℕ} {fresh : List Uuid} {id : Uuid}
    {row row' : Order} {op : NumberOp} {es : Log} (h : RowStep now tid fresh id row op row' es)
    (j : Journal) (out : PostOutcome) : Event.posted j out ∉ es := by
  cases h <;> simp

lemma execSupplier_no_posting {cfg : Config} {tid : ℕ} {ω : Oracle} {w : World}
    {op : SupplierOp} {r : op.Res} {es : Log}
    (h : execSupplier cfg tid ω w op = some (r, es)) (j : Journal) (out : PostOutcome) :
    Event.posted j out ∉ es := fun hm => nomatch execSupplier_event h hm

section Ledger

variable {cfg : Config} {tid : ℕ} {ω : Oracle} {w : World}

lemma LedgerMove.of_events {op : Op} {w' : World} {builder : JournalBuilder}
    {journal : Journal} {id : Uuid} {out : PostOutcome} {es : Log}
    (hposts : Posts w op builder) (hbuild : builder.build = .ok journal)
    (hpost : w.ledger.post journal id = some (out, w'.ledger)) (hlog : w'.log = es ++ w.log)
    (hnew : ∀ j o, Event.posted j o ∈ es → j = journal ∧ o = out) : LedgerMove w op w' := by
  refine .posted hposts hbuild hpost fun j o hm => ?_
  rw [hlog, List.mem_append] at hm
  exact hm.imp_left (hnew j o)

/-- Nothing posted, nothing recorded as posted. -/
lemma LedgerMove.of_no_events {op : Op} {w' : World} {es : Log} (hledger : w'.ledger = w.ledger)
    (hlog : w'.log = es ++ w.log) (hnew : ∀ j o, Event.posted j o ∉ es) :
    LedgerMove w op w' := by
  refine .same hledger fun j o hm => ?_
  rw [hlog, List.mem_append] at hm
  exact hm.resolve_left (hnew j o)

lemma NumbersMove.ledger {op : NumberOp} {db : NumbersDb} {es : Log}
    (h : NumbersMove w.now tid ω.fresh w.numbers op db es) :
    LedgerMove w (.numbers op) ((w.draw ω).putNumbers db es) := by
  cases h with
  | idle hledger horders => exact .same hledger fun _ _ hm => hm
  | read => exact .of_no_events rfl rfl (by simp)
  | @placed userId key body orderId journalId referenceId journal posted ledger orders q hids
      hkey hafford hbuild hpost hinsert =>
      exact .of_events (.reserve referenceId q.priceNgn hkey) hbuild hpost rfl (by simp)
  | row hrow hstep hupdate hledger => exact .of_no_events hledger rfl hstep.no_posting
  | ended hop hrow hfenced hopen hstep hbuild hpost hupdate =>
      cases hstep with
      | settle => exact .of_events (.settle hop hrow hopen) hbuild hpost rfl (by simp)
      | refund => exact .of_events (.refund hop hrow hopen) hbuild hpost rfl (by simp)

lemma WatcherMove.ledger {op : WatcherOp} {db : WatcherDb} {es : Log}
    (h : WatcherMove w.watcherDb op db es) :
    LedgerMove w (.watcher op) ((w.draw ω).putWatcher db es) := by
  cases h with
  | posted hrow hpost hbuild hledger hupdate =>
      cases hpost with
      | credit hopen => exact .of_events (.deposit hrow hopen) hbuild hledger rfl (by simp)
      | reverse hconfirmed =>
          exact .of_events (.reversal hrow hconfirmed) hbuild hledger rfl (by simp)
  | _ => exact .same rfl fun _ _ hm => hm

lemma FundingMove.ledger {op : FundingOp} {db : FundingDb} {es : Log}
    (h : FundingMove cfg w.now ω w.fundingDb op db es) :
    LedgerMove w (.funding op) ((w.draw ω).putFunding db es) := by
  cases h with
  | verified => exact .of_no_events rfl rfl (by simp)
  | abandoned => exact .of_no_events rfl rfl (by simp [abandonedBy])
  | credited hdb hbuild hledger hintents => exact .of_events .fund hbuild hledger rfl (by simp)
  | _ => exact .same rfl fun _ _ hm => hm

lemma execPayouts_ledger {op : PayoutOp} {r : op.Res} {db : PayoutsDb} {es : Log}
    (h : execPayouts w.now ω w.payoutsDb op = some (r, db, es)) :
    LedgerMove w (.payouts op) ((w.draw ω).putPayouts db es) := by
  cases op with
  | reserve userId key amount bank =>
      rcases reservePayout_cases h with ⟨rfl, rfl⟩ | ⟨payoutId, journalId, referenceId, journal,
        posted, ledger, -, hbuild, -, hpost, hledger, ⟨_, -, -, rfl⟩ | ⟨-, -, rfl⟩⟩
      · exact .of_no_events rfl rfl (by simp)
      · rw [← hledger] at hpost
        exact .of_events (.payout referenceId) hbuild hpost rfl (by simp)
      · rw [← hledger] at hpost
        exact .of_events (.payout referenceId) hbuild hpost rfl (by simp)
  | _ =>
      cases h
      exact .of_no_events rfl rfl (by simp)

/-- **At most one posting.** -/
theorem exec_ledger {op : Op} {r : op.Res} {w' : World}
    (h : exec cfg tid op ω w = some (r, w')) : LedgerMove w op w' := by
  cases (exec_move h).2 with
  | numbers hmove => exact hmove.ledger
  | supplier hexec => exact .of_no_events rfl rfl (execSupplier_no_posting hexec)
  | payouts hexec => exact execPayouts_ledger hexec
  | funding hexec => exact (execFunding_move hexec).ledger
  | watcher hexec => exact (execWatcher_move hexec).ledger
  | look hop => exact .same rfl fun _ _ hm => hm

end Ledger

/-! ## How an order ages -/

/-- What every later version of an order keeps. -/
structure Order.Later (o o' : Order) : Prop where
  terms : o'.terms = o.terms
  started : o.purchaseStartedAt ≠ none → o'.purchaseStartedAt = o.purchaseStartedAt
  activated : o.providerOrderId ≠ none → o'.providerOrderId ≠ none
  left : o.status ≠ .reserved → o'.status ≠ .reserved

lemma Order.Later.refl (o : Order) : o.Later o := ⟨rfl, fun _ => rfl, id, id⟩

lemma Order.Later.trans {o o' o'' : Order} (h : o.Later o') (h' : o'.Later o'') : o.Later o'' :=
  ⟨h'.terms.trans h.terms,
    fun hs => (h'.started (by rw [h.started hs]; exact hs)).trans (h.started hs),
    fun ha => h'.activated (h.activated ha), fun hl => h'.left (h.left hl)⟩

lemma Order.SameIdentity.later {o o' : Order} (h : o.SameIdentity o')
    (hstatus : o.status ≠ .reserved → o'.status ≠ .reserved) : o.Later o' :=
  ⟨h.terms, fun _ => h.purchaseStartedAt, fun ha => by rwa [h.providerOrderId], hstatus⟩

lemma RowStep.later {now : Time} {tid : ℕ} {fresh : List Uuid} {order : Uuid}
    {row row' : Order} {op : NumberOp} {es : Log}
    (h : RowStep now tid fresh order row op row' es) : row.Later row' := by
  cases h with
  | granted hop hfree htoken =>
      cases hop with
      | purchase hs hn => exact ⟨rfl, fun hs' => absurd hn hs', id, id⟩
      | _ => exact ⟨rfl, fun _ => rfl, id, id⟩
  | released hop hheld hsame hjournals hstatus hclaim =>
      exact hsame.later fun hl => by rwa [hstatus]
  | kept hfenced hopen hsame hjournals hstatus hclaim =>
      exact hsame.later fun hl => by rwa [hstatus]
  | checkedForReview hfenced hopen hsame hstatus hclaim =>
      exact hsame.later fun _ => by rw [hstatus]; decide
  | markedForReview hstatus hlive => exact ⟨rfl, fun _ => rfl, id, fun _ => OrderStatus.noConfusion⟩
  | assigned hstatus hlive =>
      exact ⟨rfl, fun _ => rfl, fun _ => Option.some_ne_none _, fun _ => OrderStatus.noConfusion⟩
  | recovered hstatus hheld =>
      exact ⟨rfl, fun _ => rfl, fun _ => Option.some_ne_none _, fun _ => OrderStatus.noConfusion⟩
  | pinned => exact ⟨rfl, fun _ => rfl, id, id⟩

lemma EndStep.later {row row' : Order} {posted : Uuid} {b : JournalBuilder}
    (h : EndStep row posted b row') : row.Later row' := by
  refine h.same.later fun _ hs => ?_
  have hended := OrderStatus.moneyOpen_eq_false h.status
  rw [hs] at hended
  cases hended

/-- What one operation on number orders can do to a row that is there. -/
inductive RowChange (now : Time) (tid : ℕ) (fresh : List Uuid) (id : Uuid) (row : Order)
    (op : NumberOp) (row' : Order) (es : Log) : Prop where
  | kept (hsame : row' = row)
  | step (hstep : RowStep now tid fresh id row op row' es)
  | ended {path : WritePath} {token : Option Uuid} {builder : JournalBuilder} {journal : Journal}
      {out : PostOutcome} (hop : Ends id op path token)
      (hfenced : staleClaim row token now = false) (hopen : row.status.moneyOpen = true)
      (hstep : EndStep row out.journalId builder row')
      (hes : es = [.wrote ⟨id, path, token, now, row, row'⟩, .posted journal out])

lemma RowChange.later {now : Time} {tid : ℕ} {fresh : List Uuid} {order : Uuid}
    {row row' : Order} {op : NumberOp} {es : Log}
    (h : RowChange now tid fresh order row op row' es) : row.Later row' := by
  cases h with
  | kept hsame => exact hsame ▸ .refl row
  | step hstep => exact hstep.later
  | ended hop hfenced hopen hstep hes => exact hstep.later

/-- No order disappears. -/
lemma NumbersMove.change {now : Time} {tid : ℕ} {fresh : List Uuid} {db db' : NumbersDb}
    {op : NumberOp} {es : Log} (h : NumbersMove now tid fresh db op db' es) {id : Uuid}
    {o : Order} (ho : db.orders.get? id = some o) :
    ∃ o', db'.orders.get? id = some o' ∧ RowChange now tid fresh id o op o' es := by
  have rewritten : ∀ {i row row'}, db.orders.get? i = some row →
      RowChange now tid fresh i row op row' es →
      db.orders.update i (fun _ => row') = some db'.orders →
      ∃ o', db'.orders.get? id = some o' ∧ RowChange now tid fresh id o op o' es := by
    intro i row row' hrow hchange hupdate
    by_cases hi : id = i
    · subst hi
      cases hrow.symm.trans ho
      exact ⟨row', OrderTable.get?_update_self hupdate hrow, hchange⟩
    · exact ⟨o, by rw [OrderTable.get?_update_ne hupdate hi, ho], .kept rfl⟩
  cases h with
  | idle hledger horders => exact ⟨o, by rw [horders, ho], .kept rfl⟩
  | read => exact ⟨o, ho, .kept rfl⟩
  | placed hids hkey hafford hbuild hpost hinsert =>
      refine ⟨o, ?_, .kept rfl⟩
      have hnone := OrderTable.get?_of_insert hinsert
      rw [OrderTable.get?_insert hinsert, if_neg (fun heq => by simp [heq, hnone] at ho), ho]
  | row hrow hstep hupdate hledger => exact rewritten hrow (.step hstep) hupdate
  | ended hop hrow hfenced hopen hstep hbuild hpost hupdate =>
      exact rewritten hrow (.ended hop hfenced hopen hstep rfl) hupdate

/-! ## Frames -/

section Frames

variable {cfg : Config} {tid : ℕ} {ω : Oracle} {w w' : World} {op : Op}

@[simp] lemma World.draw_log : (w.draw ω).log = w.log := rfl
@[simp] lemma World.draw_orders : (w.draw ω).orders = w.orders := rfl
@[simp] lemma World.draw_now : (w.draw ω).now = w.now := rfl

/-- The history only grows. -/
lemma WorldMove.log_eq (h : WorldMove cfg tid ω w op w') : ∃ es, w'.log = es ++ w.log := by
  cases h with
  | look => exact ⟨[], rfl⟩
  | _ => exact ⟨_, rfl⟩

lemma log_of_exec {r : op.Res} (h : exec cfg tid op ω w = some (r, w')) : w.log <:+ w'.log := by
  obtain ⟨es, hes⟩ := (exec_move h).2.log_eq
  exact ⟨es, hes.symm⟩

/-- Operations take no time. -/
lemma WorldMove.now_eq (h : WorldMove cfg tid ω w op w') : w'.now = w.now := by
  cases h <;> rfl

lemma WorldMove.used_eq (h : WorldMove cfg tid ω w op w') : w'.used = ω.fresh ++ w.used := by
  cases h <;> rfl

/-- Only an operation on number orders touches their table. -/
lemma WorldMove.orders_eq (h : WorldMove cfg tid ω w op w') (hop : ∀ nop, op ≠ .numbers nop) :
    w'.orders = w.orders := by
  cases h with
  | numbers => exact absurd rfl (hop _)
  | _ => rfl

/-- No order disappears. -/
lemma WorldMove.later (h : WorldMove cfg tid ω w op w') {id : Uuid} {o : Order}
    (ho : w.orders.get? id = some o) : ∃ o', w'.orders.get? id = some o' ∧ o.Later o' := by
  cases h with
  | numbers hmove =>
      obtain ⟨o', ho', hchange⟩ := hmove.change ho
      exact ⟨o', ho', hchange.later⟩
  | _ => exact ⟨o, ho, .refl o⟩

/-- No posting disappears. -/
lemma LedgerMove.subset (h : LedgerMove w op w') : w.ledger.postings ⊆ w'.ledger.postings := by
  cases h with
  | same hledger hlog => exact fun p hp => hledger ▸ hp
  | posted hposts hbuild hpost hlog => exact (Ledger.postings_suffix_of_post hpost).subset

/-- What can be added to the history in one step. -/
inductive NewEvent (cfg : Config) (tid : ℕ) (ω : Oracle) (w : World) : Op → Event → Prop where
  | numbers {op : NumberOp} {db : NumbersDb} {es : Log} {e : Event}
      (hmove : NumbersMove w.now tid ω.fresh w.numbers op db es) (he : e ∈ es) :
      NewEvent cfg tid ω w (.numbers op) e
  | supplier {op : SupplierOp} {e : Event}
      (hevent : SupplierEvent cfg tid ω (w.draw ω) op e) :
      NewEvent cfg tid ω w (.supplier op) e
  | verified {reference : String} {amount : ℚ} :
      NewEvent cfg tid ω w (.funding (.verify reference amount))
        (.verified reference (chargeAnswer cfg ω amount))
  | abandoned {id : Uuid} {i : Intent} (hi : w.intents.get? id = some i)
      (hdue : dueForAbandon w.now i = true) :
      NewEvent cfg tid ω w (.funding .abandon) (.abandoned i.reference)
  | accepted {userId id : Uuid} {key : String} {amount : ℚ} {bank : Uuid} :
      NewEvent cfg tid ω w (.payouts (.reserve userId key amount bank))
        (.accepted id (w.tiers userId))
  | posted {op : Op} {j : Journal} {out : PostOutcome} : NewEvent cfg tid ω w op (.posted j out)

/-- **What a step adds to the history.** -/
theorem WorldMove.events (h : WorldMove cfg tid ω w op w') :
    ∃ es, w'.log = es ++ w.log ∧ ∀ e ∈ es, NewEvent cfg tid ω w op e := by
  cases h with
  | numbers hmove => exact ⟨_, rfl, fun e he => .numbers hmove he⟩
  | supplier hexec => exact ⟨_, rfl, fun e he => .supplier (execSupplier_event hexec he)⟩
  | @payouts op r db es hexec =>
      refine ⟨es, rfl, fun e he => ?_⟩
      cases op with
      | reserve userId key amount bank =>
          rcases reservePayout_cases hexec with ⟨-, rfl⟩ |
            ⟨payoutId, _, _, _, _, _, -, -, -, -, -, ⟨_, -, -, rfl⟩ | ⟨-, -, rfl⟩⟩
          · exact absurd he List.not_mem_nil
          · rw [List.mem_singleton.mp he]
            exact .posted
          · rcases List.mem_pair.mp he with rfl | rfl
            · exact .accepted
            · exact .posted
      | _ =>
          cases hexec
          exact absurd he List.not_mem_nil
  | funding hexec =>
      refine ⟨_, rfl, fun e he => ?_⟩
      rcases (execFunding_move hexec).event he with ⟨j, out, rfl⟩ | ⟨reference, amount, rfl, rfl⟩ |
        ⟨rfl, id, i, hi, hdue, rfl⟩
      · exact .posted
      · exact .verified
      · exact .abandoned hi hdue
  | @watcher op r db es hexec =>
      refine ⟨es, rfl, fun e he => ?_⟩
      cases execWatcher_move hexec with
      | posted =>
          rw [List.mem_singleton.mp he]
          exact .posted
      | _ => exact absurd he List.not_mem_nil
  | look hop => exact ⟨[], rfl, fun e he => absurd he List.not_mem_nil⟩

/-- Every entry of the history was there before or is of this step. -/
lemma WorldMove.new_event (h : WorldMove cfg tid ω w op w') {e : Event} (he : e ∈ w'.log) :
    e ∈ w.log ∨ NewEvent cfg tid ω w op e := by
  obtain ⟨es, hes, hnew⟩ := h.events
  rw [hes, List.mem_append] at he
  exact he.symm.imp_right (hnew e)

/-- The same, with the history the entry was added to. -/
lemma WorldMove.new_recorded (h : WorldMove cfg tid ω w op w') {e : Event} {past : Log}
    (hr : Recorded w'.log e past) : Recorded w.log e past ∨ NewEvent cfg tid ω w op e := by
  obtain ⟨es, hes, hnew⟩ := h.events
  rw [hes, recorded_append_iff] at hr
  exact hr.symm.imp_right fun ⟨p, hp, _⟩ => hnew e hp.mem

/-- The environment moves the clock, the wallets and the tiers. -/
lemma execEnv_eq {e : EnvMove} (h : execEnv e w = some w') :
    ∃ now wallets tiers, w.now ≤ now ∧
      w' = { w with now := now, wallets := wallets, tiers := tiers } := by
  cases e <;> cases h
  · exact ⟨_, w.wallets, w.tiers, Nat.le_add_right _ _, rfl⟩
  · exact ⟨w.now, _, w.tiers, le_rfl, rfl⟩
  · exact ⟨w.now, w.wallets, _, le_rfl, rfl⟩

end Frames

end Naivolt
