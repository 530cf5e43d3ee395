import Naivolt.System.Steps

/-!
# Conservation of the money in number orders

Every number order keeps its own books: the reservation, and once it has ended the journal
that ended it (`Order.books`).  The invariant `Books` says that the journals of the number
kinds in the ledger are exactly the books of the orders in the table, and that what the
platform owes for orders is what the open ones were priced at.

`number_order_conservation` reads the three laws off it: the pending balance, one settlement
or one refund for exactly the price, and what an order costs its user.  The one thing the
backend cannot see to is a journal of another producer under an order's key, because a
posting that finds its key in use succeeds silently; `KeysOwn` is the assumption that there
is none.
-/

namespace Naivolt

open Foundation Foundation.Machine

/-! ## Books -/

/-- A journal under the identifier it is filed under. -/
def Posting.line (p : Posting) : Uuid × JournalBuilder := (p.id, p.journal.builder)

namespace Order

def reservation (o : Order) : JournalBuilder :=
  reserveJournal o.userId o.idempotencyKey o.reference o.priceNgn
def settlement (o : Order) : JournalBuilder := settleJournal o.reference o.priceNgn
def refund (o : Order) : JournalBuilder := refundJournal o.userId o.reference o.priceNgn

@[simp] lemma reservation_kind (o : Order) : o.reservation.kind = .numberReserve := rfl
@[simp] lemma settlement_kind (o : Order) : o.settlement.kind = .numberSettle := rfl
@[simp] lemma refund_kind (o : Order) : o.refund.kind = .numberRefund := rfl

/-- The journals of an order, as its row has them. -/
def books (o : Order) : List (Uuid × JournalBuilder) :=
  (o.reservedJournalId, o.reservation) ::
    match o.status with
    | .delivered => o.settledJournalId.toList.map (·, o.settlement)
    | .expired | .cancelled | .failed => o.refundedJournalId.toList.map (·, o.refund)
    | .reserved | .awaitingCode | .reviewRequired => []

/-- What is owed for the order while it is open. -/
def held (o : Order) : ℚ := if o.status.moneyOpen then o.priceNgn else 0

lemma mem_books {o : Order} {b : Uuid × JournalBuilder} (h : b ∈ o.books) :
    b = (o.reservedJournalId, o.reservation) ∨
      (o.status = .delivered ∧ b.2 = o.settlement) ∨
      (o.status.isRefunded = true ∧ b.2 = o.refund) := by
  rcases List.mem_cons.mp h with h | h
  · exact .inl h
  · cases hs : o.status <;> simp only [hs, List.not_mem_nil, List.mem_map] at h
    all_goals obtain ⟨id, -, rfl⟩ := h
    · exact .inr (.inl ⟨rfl, rfl⟩)
    all_goals exact .inr (.inr ⟨rfl, rfl⟩)

/-- The books of an open order hold its reservation alone. -/
lemma books_open {o : Order} (h : o.status.moneyOpen = true) :
    o.books = [(o.reservedJournalId, o.reservation)] := by
  unfold books
  cases hs : o.status <;> simp_all [OrderStatus.moneyOpen]

lemma books_delivered {o : Order} (h : o.status = .delivered) :
    o.books = (o.reservedJournalId, o.reservation) ::
      o.settledJournalId.toList.map (·, o.settlement) := by
  rw [books, h]

lemma books_refunded {o : Order} (h : o.status.isRefunded = true) :
    o.books = (o.reservedJournalId, o.reservation) ::
      o.refundedJournalId.toList.map (·, o.refund) := by
  unfold books
  cases hs : o.status <;> simp_all [OrderStatus.isRefunded]

lemma held_ended {o : Order} (h : o.status = .delivered ∨ o.status.isRefunded = true) :
    o.held = 0 := by
  rw [held, OrderStatus.moneyOpen_eq_false h, if_neg Bool.false_ne_true]

/-- Versions of a row with the same terms, status and journals have the same books. -/
lemma books_eq {o o' : Order} (hterms : o'.terms = o.terms) (hstatus : o'.status = o.status)
    (hjournals : o.SameJournals o') : o'.books = o.books := by
  simp only [terms, Terms.mk.injEq] at hterms
  obtain ⟨hu, hp, hr, hk, hj, -⟩ := hterms
  simp only [books, reservation, settlement, refund, hu, hp, hr, hk, hj, hstatus, hjournals.1,
    hjournals.2]

lemma held_eq {o o' : Order} (hterms : o'.terms = o.terms)
    (hopen : o'.status.moneyOpen = o.status.moneyOpen) : o'.held = o.held := by
  have hp : o'.priceNgn = o.priceNgn := congrArg Terms.priceNgn hterms
  rw [held, held, hopen, hp]

end Order

/-- The journals of the number kinds are the books of the orders, and what is owed for open
orders is what they were priced at. -/
structure Books (l : Ledger) (t : OrderTable) : Prop where
  owned : ∀ p ∈ l.postings, p.journal.kind.isNumber = true →
    ∃ id o, t.get? id = some o ∧ p.line ∈ o.books
  posted : ∀ id o, t.get? id = some o → ∀ b ∈ o.books, ∃ p ∈ l.postings, p.line = b
  pending : l.balance pendingAccount = -t.table.sumBy (fun _ o => o.held)

/-- No journal of another producer sits under an order's reservation, settlement or refund
key. -/
def KeysOwn (w : World) : Prop :=
  ∀ r ∈ w.orders.table.rows, ∀ p ∈ w.ledger.postings,
    (p.journal.idempotencyKey = reservationKey r.2.userId r.2.idempotencyKey →
      p.journal.kind = .numberReserve) ∧
    (p.journal.idempotencyKey = settleKey r.2.reference → p.journal.kind = .numberSettle) ∧
    (p.journal.idempotencyKey = refundKey r.2.reference → p.journal.kind = .numberRefund)

instance (w : World) : Decidable (KeysOwn w) := by
  unfold KeysOwn
  infer_instance

namespace Books

variable {l l' : Ledger} {t t' : OrderTable}

/-- A journal of a number kind says, by its kind and key, whose it is. -/
lemma owner_reserve (h : Books l t) {p : Posting} (hp : p ∈ l.postings)
    (hkind : p.journal.kind = .numberReserve) {user key : Uuid}
    (hkey : p.journal.idempotencyKey = reservationKey user key) :
    ∃ id o, t.get? id = some o ∧ o.userId = user ∧ o.idempotencyKey = key := by
  obtain ⟨id, o, ho, hb⟩ := h.owned p hp (by rw [hkind]; rfl)
  refine ⟨id, o, ho, ?_⟩
  have hk : p.line.2.kind = .numberReserve := hkind
  rcases Order.mem_books hb with hb | ⟨-, hb⟩ | ⟨-, hb⟩
  · have hkey' : p.journal.idempotencyKey = reservationKey o.userId o.idempotencyKey :=
      congrArg (fun b => b.2.idempotencyKey) hb
    exact reservationKey_injective (hkey'.symm.trans hkey)
  · rw [hb] at hk
    cases hk
  · rw [hb] at hk
    cases hk

lemma owner_settle (h : Books l t) {p : Posting} (hp : p ∈ l.postings)
    (hkind : p.journal.kind = .numberSettle) {reference : String}
    (hkey : p.journal.idempotencyKey = settleKey reference) :
    ∃ id o, t.get? id = some o ∧ o.reference = reference ∧ o.status = .delivered := by
  obtain ⟨id, o, ho, hb⟩ := h.owned p hp (by rw [hkind]; rfl)
  have hk : p.line.2.kind = .numberSettle := hkind
  rcases Order.mem_books hb with hb | ⟨hstatus, hb⟩ | ⟨-, hb⟩
  · rw [hb] at hk
    cases hk
  · have hkey' : p.journal.idempotencyKey = settleKey o.reference :=
      congrArg (fun b => b.idempotencyKey) hb
    exact ⟨id, o, ho, settleKey_injective (hkey'.symm.trans hkey), hstatus⟩
  · rw [hb] at hk
    cases hk

lemma owner_refund (h : Books l t) {p : Posting} (hp : p ∈ l.postings)
    (hkind : p.journal.kind = .numberRefund) {reference : String}
    (hkey : p.journal.idempotencyKey = refundKey reference) :
    ∃ id o, t.get? id = some o ∧ o.reference = reference ∧ o.status.isRefunded = true := by
  obtain ⟨id, o, ho, hb⟩ := h.owned p hp (by rw [hkind]; rfl)
  have hk : p.line.2.kind = .numberRefund := hkind
  rcases Order.mem_books hb with hb | ⟨-, hb⟩ | ⟨hstatus, hb⟩
  · rw [hb] at hk
    cases hk
  · rw [hb] at hk
    cases hk
  · have hkey' : p.journal.idempotencyKey = refundKey o.reference :=
      congrArg (fun b => b.idempotencyKey) hb
    exact ⟨id, o, ho, refundKey_injective (hkey'.symm.trans hkey), hstatus⟩

/-- Nothing sold, nothing owed. -/
lemma empty : Books .empty .empty :=
  ⟨fun p hp => absurd hp List.not_mem_nil, fun id o ho => by simp at ho, rfl⟩

/-- A posting of another kind that leaves the pending account alone. -/
lemma post_other (h : Books l t) {j : Journal} {id : Uuid} {out : PostOutcome}
    (hpost : l.post j id = some (out, l')) (hkind : j.kind.isNumber = false)
    (hpending : j.amountOn pendingAccount = 0) : Books l' t := by
  rcases Ledger.post_cases hpost with ⟨rfl, hp, -⟩ | ⟨p, -, -, -, rfl⟩
  · refine ⟨fun p hmem hk => ?_, fun i o ho b hb => ?_, ?_⟩
    · rw [hp] at hmem
      rcases List.mem_cons.mp hmem with rfl | hmem
      · rw [hkind] at hk
        cases hk
      · exact h.owned p hmem hk
    · obtain ⟨p, hmem, hline⟩ := h.posted i o ho b hb
      exact ⟨p, hp ▸ List.mem_cons_of_mem _ hmem, hline⟩
    · rw [Ledger.balance_of_post hpost, hpending, zero_add, h.pending]
  · exact h

/-- Placing an order posts its reservation. -/
lemma place (h : Books l t) {j : Journal} {jid id : Uuid} {o : Order}
    (hpost : l.post j jid = some (.posted jid, l')) (hinsert : t.insert id o = some t')
    (hopen : o.status.moneyOpen = true) (hjournal : o.reservedJournalId = jid)
    (hbuild : j.builder = o.reservation) : Books l' t' := by
  have hp := (Ledger.of_posted hpost).2.1
  have hnone := OrderTable.get?_of_insert hinsert
  have hline : (jid, j.builder) = (o.reservedJournalId, o.reservation) := by
    rw [hjournal, hbuild]
  refine ⟨fun p hmem hk => ?_, fun i o' ho b hb => ?_, ?_⟩
  · rw [hp] at hmem
    rcases List.mem_cons.mp hmem with rfl | hmem
    · refine ⟨id, o, OrderTable.get?_insert_self hinsert, ?_⟩
      rw [Order.books_open hopen]
      exact List.mem_singleton.mpr hline
    · obtain ⟨i, o', ho, hb⟩ := h.owned p hmem hk
      refine ⟨i, o', ?_, hb⟩
      rw [OrderTable.get?_insert hinsert, if_neg (fun heq => by simp [heq, hnone] at ho), ho]
  · rw [OrderTable.get?_insert hinsert] at ho
    split at ho
    · cases ho
      rw [Order.books_open hopen, List.mem_singleton] at hb
      exact ⟨⟨jid, j⟩, by simp [hp], hline.trans hb.symm⟩
    · obtain ⟨p, hmem, hpl⟩ := h.posted i o' ho b hb
      exact ⟨p, hp ▸ List.mem_cons_of_mem _ hmem, hpl⟩
  · have hamount : j.amountOn pendingAccount = -o.priceNgn := by
      simp [Journal.amountOn, hbuild, Order.reservation, reserveJournal, pendingAccount,
        Account.userNgn, Account.platform]
    rw [Ledger.balance_of_post hpost, hamount, h.pending,
      Table.sumBy_insert _ (OrderTable.insert_eq_some hinsert), Order.held, if_pos hopen]
    ring

/-- A rewrite of a row that keeps its books and what is owed for it. -/
lemma rewrite (h : Books l t) {id : Uuid} {row row' : Order} (hrow : t.get? id = some row)
    (hupdate : t.update id (fun _ => row') = some t') (hbooks : row'.books = row.books)
    (hheld : row'.held = row.held) : Books l t' := by
  refine ⟨fun p hmem hk => ?_, fun i o ho b hb => ?_, ?_⟩
  · obtain ⟨i, o, ho, hb⟩ := h.owned p hmem hk
    by_cases hi : i = id
    · subst hi
      cases hrow.symm.trans ho
      exact ⟨i, row', OrderTable.get?_update_self hupdate hrow, hbooks ▸ hb⟩
    · exact ⟨i, o, by rw [OrderTable.get?_update_ne hupdate hi, ho], hb⟩
  · by_cases hi : i = id
    · subst hi
      cases (OrderTable.get?_update_self hupdate hrow).symm.trans ho
      exact h.posted i row hrow b (hbooks ▸ hb)
    · rw [OrderTable.get?_update_ne hupdate hi] at ho
      exact h.posted i o ho b hb
  · rw [h.pending, OrderTable.update_eq_some hupdate]
    refine congrArg Neg.neg (Table.sumBy_modify_eq _ _ _ _ fun o ho => ?_).symm
    cases hrow.symm.trans ho
    exact hheld

/-- Ending an order posts the journal that ends it. -/
lemma finish (h : Books l t) {j : Journal} {jid id : Uuid} {row row' : Order}
    (hrow : t.get? id = some row) (hopen : row.status.moneyOpen = true)
    (hpost : l.post j jid = some (.posted jid, l'))
    (hupdate : t.update id (fun _ => row') = some t')
    (hbooks : row'.books = row.books ++ [(jid, j.builder)]) (hheld : row'.held = 0)
    (hamount : j.amountOn pendingAccount = row.priceNgn) : Books l' t' := by
  have hp := (Ledger.of_posted hpost).2.1
  have hrow' := OrderTable.get?_update_self hupdate hrow
  refine ⟨fun p hmem hk => ?_, fun i o ho b hb => ?_, ?_⟩
  · rw [hp] at hmem
    rcases List.mem_cons.mp hmem with rfl | hmem
    · exact ⟨id, row', hrow', hbooks ▸ List.mem_append_right _ (List.mem_singleton_self _)⟩
    · obtain ⟨i, o, ho, hb⟩ := h.owned p hmem hk
      by_cases hi : i = id
      · subst hi
        cases hrow.symm.trans ho
        exact ⟨i, row', hrow', hbooks ▸ List.mem_append_left _ hb⟩
      · exact ⟨i, o, by rw [OrderTable.get?_update_ne hupdate hi, ho], hb⟩
  · have hold : ∀ b, (∃ p ∈ l.postings, p.line = b) → ∃ p ∈ l'.postings, p.line = b :=
      fun b ⟨p, hmem, hline⟩ => ⟨p, hp ▸ List.mem_cons_of_mem _ hmem, hline⟩
    by_cases hi : i = id
    · subst hi
      cases hrow'.symm.trans ho
      rw [hbooks] at hb
      rcases List.mem_append.mp hb with hb | hb
      · exact hold b (h.posted i row hrow b hb)
      · exact ⟨⟨jid, j⟩, by simp [hp], (List.mem_singleton.mp hb).symm⟩
    · rw [OrderTable.get?_update_ne hupdate hi] at ho
      exact hold b (h.posted i o ho b hb)
  · rw [Ledger.balance_of_post hpost, hamount, h.pending, OrderTable.update_eq_some hupdate,
      Table.sumBy_modify _ _ hrow, hheld, Order.held, if_pos hopen]
    ring

end Books

/-! ## Every step keeps the books -/

/-- An open order that stays open keeps its books. -/
lemma Order.books_eq_of_open {o o' : Order} (hterms : o'.terms = o.terms)
    (hopen : o.status.moneyOpen = true) (hopen' : o'.status.moneyOpen = true) :
    o'.books = o.books ∧ o'.held = o.held := by
  refine ⟨?_, Order.held_eq hterms (hopen'.trans hopen.symm)⟩
  rw [Order.books_open hopen, Order.books_open hopen']
  simp only [Order.terms, Order.Terms.mk.injEq] at hterms
  obtain ⟨hu, hp, hr, hk, hj, -⟩ := hterms
  simp only [Order.reservation, hu, hp, hr, hk, hj]

/-- Rewriting a row without ending the order keeps its books. -/
lemma RowStep.books_eq {now : Time} {tid : ℕ} {fresh : List Uuid} {id : Uuid}
    {row row' : Order} {op : NumberOp} {es : Log}
    (h : RowStep now tid fresh id row op row' es) :
    row'.books = row.books ∧ row'.held = row.held := by
  cases h with
  | granted hop hfree htoken => cases hop <;> exact ⟨rfl, rfl⟩
  | released hop hheld hsame hjournals hstatus hclaim =>
      exact ⟨Order.books_eq hsame.terms hstatus hjournals,
        Order.held_eq hsame.terms (by rw [hstatus])⟩
  | kept hfenced hopen hsame hjournals hstatus hclaim =>
      exact ⟨Order.books_eq hsame.terms hstatus hjournals,
        Order.held_eq hsame.terms (by rw [hstatus])⟩
  | checkedForReview hfenced hopen hsame hstatus hclaim =>
      exact Order.books_eq_of_open hsame.terms hopen (by rw [hstatus]; rfl)
  | markedForReview hstatus hlive =>
      exact Order.books_eq_of_open rfl (by rcases hstatus with h | h <;> rw [h] <;> rfl) rfl
  | assigned hstatus hlive => exact Order.books_eq_of_open rfl (by rw [hstatus]; rfl) rfl
  | recovered hstatus hheld => exact Order.books_eq_of_open rfl (by rw [hstatus]; rfl) rfl
  | pinned => exact ⟨rfl, rfl⟩

/-- The journal that ends an order is entered in its books. -/
lemma EndStep.books_eq {row row' : Order} {jid : Uuid} {b : JournalBuilder}
    (h : EndStep row jid b row') (hopen : row.status.moneyOpen = true) :
    row'.books = row.books ++ [(jid, b)] ∧ row'.held = 0 ∧
      b.amountOn pendingAccount = row.priceNgn := by
  have hterms := h.same.terms
  simp only [Order.terms, Order.Terms.mk.injEq] at hterms
  obtain ⟨hu, hp, hr, hk, hj, -⟩ := hterms
  rw [Order.books_open hopen]
  cases h with
  | settle hsame hstatus hjournal hclaim =>
      refine ⟨?_, Order.held_ended (.inl hstatus), ?_⟩
      · simp [Order.books_delivered hstatus, Order.reservation, Order.settlement, hjournal, hu,
          hp, hr, hk, hj]
      · simp [settleJournal, pendingAccount, Account.platform]
  | refund hsame hstatus hjournal hclaim =>
      refine ⟨?_, Order.held_ended (.inr hstatus), ?_⟩
      · simp [Order.books_refunded hstatus, Order.reservation, Order.refund, hjournal, hu, hp, hr,
          hk, hj]
      · simp [refundJournal, pendingAccount, Account.platform, Account.userNgn]

/-- The producers other than the number orders post no number journal and leave the pending
account alone. -/
lemma Posts.not_number {w : World} {op : Op} {b : JournalBuilder} (h : Posts w op b)
    (hop : ∀ nop, op ≠ .numbers nop) :
    b.kind.isNumber = false ∧ b.amountOn pendingAccount = 0 := by
  cases h with
  | payout u =>
      exact ⟨rfl, by simp [payoutJournal, pendingAccount, Account.platform, Account.userNgn]⟩
  | fund =>
      exact ⟨rfl, by simp [creditJournalNgn, pendingAccount, Account.platform, Account.userNgn]⟩
  | deposit hrow hopen =>
      exact ⟨rfl, by
        simp [creditJournal, pendingAccount, Account.platform, Account.custody,
          Account.userCrypto]⟩
  | reversal hrow hconfirmed =>
      exact ⟨rfl, by
        simp [reversalJournal, pendingAccount, Account.platform, Account.custody,
          Account.userCrypto]⟩
  | _ => exact absurd rfl (hop _)

section Steps

variable {cfg : Config} {tid : ℕ} {ω : Oracle} {w w' : World} {op : Op} {r : op.Res}

/-- The assumption on the keys can only be lost as a run goes on. -/
lemma KeysOwn.of_later (h : exec cfg tid op ω w = some (r, w')) (hown : KeysOwn w') :
    KeysOwn w := by
  intro row hrow p hp
  obtain ⟨o', ho', hlater⟩ := (exec_move h).2.later (Table.get?_eq_some_iff.mpr hrow)
  have hterms := hlater.terms
  simp only [Order.terms, Order.Terms.mk.injEq] at hterms
  obtain ⟨hu, -, hr, hk, -, -⟩ := hterms
  have := hown (row.1, o') (Table.get?_eq_some_iff.mp ho') p ((exec_ledger h).subset hp)
  simpa only [hu, hr, hk] using this

/-- What the statements of one operation may rely on: no other producer holds the key of the
journal they post. -/
structure OrderKeys (w w' : World) (op : Op) : Prop where
  placed : ∀ {userId key : Uuid} {body : CreateOrderBody} {id : Uuid} {o' : Order},
    op = .numbers (.reserve userId key body) → w'.orders.get? id = some o' →
    o'.userId = userId → o'.idempotencyKey = key → findByKey w.orders userId key = none →
    ∀ p ∈ w.ledger.postings, p.journal.idempotencyKey = reservationKey userId key →
      p.journal.kind = .numberReserve
  ended : ∀ {nop : NumberOp} {id : Uuid} {path : WritePath} {token : Option Uuid} {o : Order},
    op = .numbers nop → Ends id nop path token → w.orders.get? id = some o →
    o.status.moneyOpen = true → ∀ p ∈ w.ledger.postings,
      (p.journal.idempotencyKey = settleKey o.reference → p.journal.kind = .numberSettle) ∧
      (p.journal.idempotencyKey = refundKey o.reference → p.journal.kind = .numberRefund)

lemma KeysOwn.orderKeys (h : exec cfg tid op ω w = some (r, w')) (hown : KeysOwn w') :
    OrderKeys w w' op where
  placed _ ho' hu hk _ p hp hkey := by
    subst hu hk
    exact (hown _ (Table.get?_eq_some_iff.mp ho') p ((exec_ledger h).subset hp)).1 hkey
  ended _ _ ho _ p hp := (hown.of_later h _ (Table.get?_eq_some_iff.mp ho) p hp).2

/-- The key of an order that is not there is free. -/
lemma Books.reserve_key_fresh {l : Ledger} {t : OrderTable} (h : Books l t) {user key : Uuid}
    (hkey : findByKey t user key = none) (hown : ∀ p ∈ l.postings,
      p.journal.idempotencyKey = reservationKey user key → p.journal.kind = .numberReserve) :
    ∀ p ∈ l.postings, p.journal.idempotencyKey ≠ reservationKey user key := by
  intro p hp heq
  obtain ⟨id, o, ho, hu, hk⟩ := h.owner_reserve hp (hown p hp heq) heq
  exact findByKey_eq_none hkey ho ⟨hu, hk⟩

/-- The key of the journal that would end an open order is free. -/
lemma Books.ending_key_fresh {l : Ledger} {t : OrderTable} (h : Books l t) {id : Uuid}
    {row : Order} (hrow : t.get? id = some row) (hopen : row.status.moneyOpen = true)
    {p : Posting} (hp : p ∈ l.postings) :
    (p.journal.kind = .numberSettle → p.journal.idempotencyKey ≠ settleKey row.reference) ∧
      (p.journal.kind = .numberRefund → p.journal.idempotencyKey ≠ refundKey row.reference) := by
  constructor <;> intro hkind hkey
  · obtain ⟨id', o, ho, href, hstatus⟩ := h.owner_settle hp hkind hkey
    cases t.eq_of_reference ho hrow href
    cases hrow.symm.trans ho
    rw [OrderStatus.moneyOpen_eq_false (.inl hstatus)] at hopen
    cases hopen
  · obtain ⟨id', o, ho, href, hstatus⟩ := h.owner_refund hp hkind hkey
    cases t.eq_of_reference ho hrow href
    cases hrow.symm.trans ho
    rw [OrderStatus.moneyOpen_eq_false (.inr hstatus)] at hopen
    cases hopen

/-- Ending an order keeps the books. -/
lemma Books.end_order {l l' : Ledger} {t t' : OrderTable} (h : Books l t) {id jid : Uuid}
    {row row' : Order} {builder : JournalBuilder} {journal : Journal} {out : PostOutcome}
    (hown : ∀ p ∈ l.postings,
      (p.journal.idempotencyKey = settleKey row.reference → p.journal.kind = .numberSettle) ∧
      (p.journal.idempotencyKey = refundKey row.reference → p.journal.kind = .numberRefund))
    (hrow : t.get? id = some row) (hopen : row.status.moneyOpen = true)
    (hstep : EndStep row out.journalId builder row') (hbuild : builder.build = .ok journal)
    (hpost : l.post journal jid = some (out, l'))
    (hupdate : t.update id (fun _ => row') = some t') : Books l' t' := by
  have hb := Journal.builder_of_build hbuild
  have hkey : journal.idempotencyKey = builder.idempotencyKey :=
    congrArg JournalBuilder.idempotencyKey hb
  have hfresh : ∀ p ∈ l.postings, p.journal.idempotencyKey ≠ journal.idempotencyKey := by
    intro p hp heq
    rw [hkey] at heq
    have hends := h.ending_key_fresh hrow hopen hp
    cases hstep with
    | settle => exact hends.1 ((hown p hp).1 heq) heq
    | refund => exact hends.2 ((hown p hp).2 heq) heq
  obtain ⟨rfl, -⟩ := Ledger.post_of_fresh hpost hfresh
  obtain ⟨hbooks, hheld, hamount⟩ := hstep.books_eq hopen
  refine h.finish hrow hopen hpost hupdate ?_ hheld ?_
  · rw [hb]
    exact hbooks
  · rw [Journal.amountOn, hb, hamount]

/-- **Every step keeps the books**, as long as no other producer holds an order's key. -/
theorem Books.step (h : exec cfg tid op ω w = some (r, w')) (hown : OrderKeys w w' op)
    (hI : Books w.ledger w.orders) : Books w'.ledger w'.orders := by
  have hother : (∀ nop, op ≠ .numbers nop) → Books w'.ledger w'.orders := by
    intro hop
    rw [(exec_move h).2.orders_eq hop]
    cases exec_ledger h with
    | same hledger hlog => rwa [hledger]
    | posted hposts hbuild hpost hlog =>
        obtain ⟨hkind, hamount⟩ := hposts.not_number hop
        have hb := Journal.builder_of_build hbuild
        refine hI.post_other hpost ?_ (by rw [Journal.amountOn, hb, hamount])
        rw [← hkind, ← hb, Journal.builder]
  cases (exec_move h).2 with
  | numbers hmove =>
      cases hmove with
      | idle hledger horders =>
          simpa only [World.putNumbers, World.numbers, hledger, horders] using hI
      | read => exact hI
      | @placed userId key body orderId journalId referenceId journal posted ledger orders q
          hids hkey hafford hbuild hpost hinsert =>
          have hb := Journal.builder_of_build hbuild
          have hjkey : journal.idempotencyKey = reservationKey userId key :=
            congrArg JournalBuilder.idempotencyKey hb
          have hfresh := hI.reserve_key_fresh hkey fun p hp => hown.placed rfl
            (OrderTable.get?_insert_self hinsert) rfl rfl hkey p hp
          rw [← hjkey] at hfresh
          obtain ⟨rfl, -⟩ := Ledger.post_of_fresh hpost hfresh
          exact hI.place hpost hinsert rfl rfl hb
      | row hrow hstep hupdate hledger =>
          obtain ⟨hbooks, hheld⟩ := hstep.books_eq
          have := hI.rewrite hrow hupdate hbooks hheld
          simpa only [World.putNumbers, World.numbers, hledger] using this
      | ended hop hrow hfenced hopen hstep hbuild hpost hupdate =>
          exact hI.end_order (hown.ended rfl hop hrow hopen) hrow hopen hstep hbuild hpost
            hupdate
  | supplier => exact hother fun _ => Op.noConfusion
  | payouts => exact hother fun _ => Op.noConfusion
  | funding => exact hother fun _ => Op.noConfusion
  | watcher => exact hother fun _ => Op.noConfusion
  | look hop =>
      refine hother fun nop heq => ?_
      subst heq
      rcases hop with hop | ⟨id, hop⟩ <;> cases hop

end Steps

/-- The books are kept in every reachable state. -/
theorem books_of_reachable {cfg : Config} {now : Time} {wallets : List Wallet} {s : State}
    (h : (backend cfg).Reachable unguarded (initial now wallets) s) (hown : KeysOwn s.world) :
    Books s.world.ledger s.world.orders := by
  refine Reachable.world_inv_of (H := KeysOwn) (I := fun w => Books w.ledger w.orders)
    (fun _ => .empty) (fun w w' hstep hown => ?_) (fun w w' hstep hown hI => ?_) h hown
  · cases hstep with
    | env he =>
        obtain ⟨now, wallets, tiers, -, rfl⟩ := execEnv_eq he
        exact hown
    | exec he => exact KeysOwn.of_later he hown
  · cases hstep with
    | env he =>
        obtain ⟨now, wallets, tiers, -, rfl⟩ := execEnv_eq he
        exact hI
    | exec he => exact hI.step he (hown.orderKeys he)

/-! ## The three laws -/

/-- What is owed for the open orders. -/
def heldTotal (t : OrderTable) : ℚ := t.table.sumBy (fun _ o => o.held)

/-- The number journals in the ledger that carry the order's reference. -/
def numberJournals (l : Ledger) (o : Order) : List Posting :=
  l.postings.filter (fun p => p.journal.kind.isNumber && p.journal.reference = o.reference)

/-- Those of one kind. -/
def journalsOf (l : Ledger) (o : Order) (kind : JournalKind) : List Posting :=
  (numberJournals l o).filter (fun p => p.journal.kind = kind)

/-- What the order's journals do to its user's naira balance. -/
def userEffect (l : Ledger) (o : Order) : ℚ :=
  AccountKind.userNgn.userFacingBalance
    (((numberJournals l o).map (fun p => p.journal.amountOn (.userNgn o.userId))).sum)

/-- The journals of an order come to its status: none but the reservation while it is open, one
settlement once delivered, one refund once refunded, each for exactly the price. -/
structure OrderConserved (l : Ledger) (o : Order) : Prop where
  openOrder : o.status.moneyOpen = true →
    journalsOf l o .numberSettle = [] ∧ journalsOf l o .numberRefund = []
  delivered : o.status = .delivered →
    (∃ p, journalsOf l o .numberSettle = [p] ∧ o.settledJournalId = some p.id ∧
      p.journal.entries = [⟨pendingAccount, o.priceNgn⟩,
        ⟨.platform .numberRevenue, -o.priceNgn⟩]) ∧
    journalsOf l o .numberRefund = []
  refunded : o.status.isRefunded = true →
    (∃ p, journalsOf l o .numberRefund = [p] ∧ o.refundedJournalId = some p.id ∧
      p.journal.entries = [⟨pendingAccount, o.priceNgn⟩, ⟨.userNgn o.userId, -o.priceNgn⟩]) ∧
    journalsOf l o .numberSettle = []
  effect : userEffect l o = if o.status.isRefunded then 0 else -o.priceNgn

namespace Books

variable {l : Ledger} {t : OrderTable}

/-- Every journal of an order is of a number kind and carries its reference. -/
lemma mem_books_number {o : Order} {b : Uuid × JournalBuilder} (h : b ∈ o.books) :
    b.2.kind.isNumber = true ∧ b.2.reference = o.reference := by
  rcases Order.mem_books h with rfl | ⟨-, hb⟩ | ⟨-, hb⟩
  · exact ⟨rfl, rfl⟩
  · rw [hb]
    exact ⟨rfl, rfl⟩
  · rw [hb]
    exact ⟨rfl, rfl⟩

/-- An order enters no journal twice. -/
lemma nodup_books (o : Order) : o.books.Nodup := by
  refine List.Nodup.of_map (fun b => b.2.kind) ?_
  unfold Order.books
  cases o.status <;> cases o.settledJournalId <;> cases o.refundedJournalId <;> simp

/-- **The journals of an order are its books.** -/
lemma lines_perm (h : Books l t) {id : Uuid} {o : Order} (ho : t.get? id = some o) :
    ((numberJournals l o).map Posting.line).Perm o.books := by
  have hinj : ∀ p ∈ l.postings, ∀ q ∈ l.postings, p.line = q.line → p = q :=
    fun p hp q hq heq => List.inj_on_of_nodup_map l.idsUnique hp hq (congrArg Prod.fst heq)
  have hnodup : ((numberJournals l o).map Posting.line).Nodup := by
    refine List.Nodup.map_on (fun p hp q hq => hinj p ?_ q ?_)
      ((List.Nodup.of_map _ l.idsUnique).filter _)
    · exact List.mem_of_mem_filter hp
    · exact List.mem_of_mem_filter hq
  refine (List.perm_ext_iff_of_nodup hnodup (nodup_books o)).mpr fun b => ?_
  simp only [numberJournals, List.mem_map, List.mem_filter, Bool.and_eq_true, decide_eq_true_eq]
  constructor
  · rintro ⟨p, ⟨hp, hkind, href⟩, rfl⟩
    obtain ⟨id', o', ho', hb⟩ := h.owned p hp hkind
    cases t.eq_of_reference ho' ho ((mem_books_number hb).2.symm.trans href)
    cases ho.symm.trans ho'
    exact hb
  · intro hb
    obtain ⟨p, hp, rfl⟩ := h.posted id o ho b hb
    exact ⟨p, ⟨hp, mem_books_number hb⟩, rfl⟩

/-- The same for one kind. -/
lemma lines_of_perm (h : Books l t) {id : Uuid} {o : Order} (ho : t.get? id = some o)
    (kind : JournalKind) : ((journalsOf l o kind).map Posting.line).Perm
      (o.books.filter (fun b => b.2.kind = kind)) := by
  have := (h.lines_perm ho).filter (fun b => b.2.kind = kind)
  rwa [List.filter_map] at this

lemma effect_eq (h : Books l t) {id : Uuid} {o : Order} (ho : t.get? id = some o) :
    userEffect l o = -((o.books.map (fun b => b.2.amountOn (.userNgn o.userId))).sum) := by
  have := ((h.lines_perm ho).map (fun b => b.2.amountOn (.userNgn o.userId))).sum_eq
  rw [List.map_map] at this
  rw [userEffect, AccountKind.userFacingBalance_userNgn, ← this]
  rfl

/-- **One order's money.** -/
theorem conserved (h : Books l t) {id : Uuid} {o : Order} (ho : t.get? id = some o) :
    OrderConserved l o := by
  have hfinancial := t.financial ho
  have none_of : ∀ kind, o.books.filter (fun b => b.2.kind = kind) = [] →
      journalsOf l o kind = [] := by
    intro kind hk
    have := h.lines_of_perm ho kind
    rw [hk] at this
    exact List.map_eq_nil_iff.mp this.eq_nil
  have one_of : ∀ kind b, o.books.filter (fun b => b.2.kind = kind) = [b] →
      ∃ p, journalsOf l o kind = [p] ∧ p.line = b := by
    intro kind b hk
    have := h.lines_of_perm ho kind
    rw [hk] at this
    obtain ⟨p, hp, hline⟩ := List.map_eq_singleton_iff.mp (List.perm_singleton.mp this)
    exact ⟨p, hp, hline⟩
  have hrefunds : o.status.isRefunded = true →
      ∃ p, journalsOf l o .numberRefund = [p] ∧ o.refundedJournalId = some p.id ∧
        p.journal.entries = [⟨pendingAccount, o.priceNgn⟩, ⟨.userNgn o.userId, -o.priceNgn⟩] := by
    intro hstatus
    obtain ⟨jid, hjid⟩ := Option.ne_none_iff_exists'.mp (hfinancial.refunded hstatus)
    have hb := Order.books_refunded hstatus
    rw [hjid] at hb
    obtain ⟨p, hp, hline⟩ := one_of .numberRefund (jid, o.refund) (by rw [hb]; simp)
    have hpid : p.id = jid := congrArg Prod.fst hline
    exact ⟨p, hp, by rw [hjid, hpid], congrArg (fun b => b.2.entries) hline⟩
  refine ⟨fun hopen => ?_, fun hstatus => ?_, fun hstatus => ⟨hrefunds hstatus, ?_⟩, ?_⟩
  · have hb := Order.books_open hopen
    exact ⟨none_of _ (by rw [hb]; simp), none_of _ (by rw [hb]; simp)⟩
  · have hb := Order.books_delivered hstatus
    obtain ⟨jid, hjid⟩ := Option.ne_none_iff_exists'.mp (hfinancial.settled hstatus)
    rw [hjid] at hb
    obtain ⟨p, hp, hline⟩ := one_of .numberSettle (jid, o.settlement) (by rw [hb]; simp)
    have hpid : p.id = jid := congrArg Prod.fst hline
    exact ⟨⟨p, hp, by rw [hjid, hpid], congrArg (fun b => b.2.entries) hline⟩,
      none_of _ (by rw [hb]; simp)⟩
  · rw [none_of]
    rw [Order.books_refunded hstatus]
    cases o.refundedJournalId <;> simp
  · rw [h.effect_eq ho]
    have hreserved : o.reservation.amountOn (.userNgn o.userId) = o.priceNgn := by
      simp [Order.reservation, reserveJournal, pendingAccount, Account.userNgn, Account.platform]
    have hsettled : o.settlement.amountOn (.userNgn o.userId) = 0 := by
      simp [Order.settlement, settleJournal, pendingAccount, Account.userNgn, Account.platform]
    have hrefunded : o.refund.amountOn (.userNgn o.userId) = -o.priceNgn := by
      simp [Order.refund, refundJournal, pendingAccount, Account.userNgn, Account.platform]
    rcases o.status.open_delivered_or_refunded with hopen | hstatus | hstatus
    · rw [Order.books_open hopen, if_neg (by simp [OrderStatus.isRefunded_eq_false (.inl hopen)])]
      simp [hreserved]
    · rw [Order.books_delivered hstatus,
        if_neg (by simp [OrderStatus.isRefunded_eq_false (.inr hstatus)])]
      cases o.settledJournalId <;> simp [hreserved, hsettled]
    · obtain ⟨p, -, hjid, -⟩ := hrefunds hstatus
      rw [Order.books_refunded hstatus, if_pos hstatus, hjid]
      simp [hreserved, hrefunded]

end Books

/-- **Conservation of the money in number orders.**  In every reachable state in which no
other producer holds an order's key, the platform owes the prices of the open orders and no
more, and every order's journals come to its status. -/
theorem number_order_conservation {cfg : Config} {now : Time} {wallets : List Wallet} {s : State}
    (h : (backend cfg).Reachable unguarded (initial now wallets) s) (hown : KeysOwn s.world) :
    s.world.ledger.balance pendingAccount = -heldTotal s.world.orders ∧
      ∀ id o, s.world.orders.get? id = some o → OrderConserved s.world.ledger o := by
  have hbooks := books_of_reachable h hown
  exact ⟨hbooks.pending, fun id o ho => hbooks.conserved ho⟩

/-- A delivered, a cancelled and an open order of one user. -/
def threeOrders : List Move :=
  topUp 0 7 100 101 102 5000 ++
  serve 2 (.createOrder 7 50 stubOrder)
    [{ fresh := [200, 201, 2 <<< 100], catalogue := stubCatalogue 1500 }, { fresh := [203] }, {},
      { buy := .bought ⟨"a1", "+2341", none, none, none, .primary⟩ }, {}, {}] ++
  serve 3 (.createOrder 7 51 stubOrder)
    [{ fresh := [300, 301, 3 <<< 100], catalogue := stubCatalogue 1000 }, { fresh := [303] }, {},
      { buy := .bought ⟨"a2", "+2342", none, none, none, .primary⟩ }, {}, {}] ++
  serve 4 (.createOrder 7 52 stubOrder)
    [{ fresh := [400, 401, 4 <<< 100], catalogue := stubCatalogue 700 }] ++
  wait (seconds 11) ::
  serve 5 (.reconcile 200)
    [{ fresh := [500] }, {}, { slot := some 1 },
      { check := .ok ⟨[⟨none, "code 1234", some "1234", none, some "m1"⟩], .open, none⟩ }, {},
      { fresh := [501, 502] }] ++
  serve 6 (.cancelOrder 7 300)
    [{}, { fresh := [600] }, { check := .ok ⟨[], .open, none⟩ }, { fresh := [601] }, {}]

theorem number_order_conservation_threeOrders :
    ∃ s : State, s.world.orders.table.rows.map (fun r => r.2.status) =
        [.reserved, .cancelled, .delivered] ∧
      s.world.ledger.balance pendingAccount = -heldTotal s.world.orders ∧
      ∀ id o, s.world.orders.get? id = some o → OrderConserved s.world.ledger o := by
  obtain ⟨s, hs, hstatus, hown⟩ := exists_reachable_of_run (backend stubConfig) unguarded
    (initial 0 []) threeOrders (fun s => s.world.orders.table.rows.map (fun r => r.2.status) =
      [.reserved, .cancelled, .delivered] ∧ KeysOwn s.world) (by decide +kernel)
  exact ⟨s, hstatus, number_order_conservation hs hown⟩

end Naivolt
