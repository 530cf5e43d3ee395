import Naivolt.Ledger.Totals
import Naivolt.Numbers.Absorption

/-!
# What a check decides

`apply_check` merges what the supplier returned into the inbox, and decides over an open order by
the merged inbox, by what the supplier says of the activation and by the order's deadline.
`CheckLaw` states the decision as a table: settle, review, refund or keep.

The rows of open orders carry no code and no reason for a failure, and the journals named by
rows sit under the keys of their orders (`OpenRows`): so the database refuses no part of the
transaction but the messages.  What they add to the inbox is `Merges`; a text with U+0000 cannot
be stored, and then the whole check fails (`Order.Takes`).  `check_decides` holds of every order
in every state a run reaches.
-/

namespace Naivolt

open Foundation Foundation.Machine

/-! ## The decision -/

/-- The message has a code that is not blank. -/
def Message.Coded (m : Message) : Prop := m.code.any hasNonSpace = true

/-- The earliest message of an order with a code that is not blank. -/
structure Earliest (messages : List Message) (orderId : Uuid) (m : Message) : Prop where
  mem : m ∈ inboxOf messages orderId
  coded : m.Coded
  first : ∀ m' ∈ inboxOf messages orderId, m'.Coded → m.before m' = true

/-- The later of two deadlines, as far as there are any. -/
def latest : Option Time → Option Time → Option Time
  | none, t => t
  | some t, none => some t
  | some t, some t' => some (max t t')

/-- The supplier has closed the activation, or the order has expired. -/
def Over (now : Time) (check : ActivationCheck) (o : Order) : Prop :=
  check.lifecycle = .closed ∨ ∃ expiry ∈ latest o.expiresAt check.expiresAt, expiry ≤ now

/-- The journal was posted under an identifier, or its key was in use. -/
def Files (l l' : Ledger) (builder : JournalBuilder) (journalId : Option Uuid) : Prop :=
  ∃ journal id posted, builder.build = .ok journal ∧ l.post journal id = some (posted, l') ∧
    journalId = some posted.journalId

/-- **What a check makes of an open order** `o`, over the merged inbox: it settles exactly when
there is a message with a code; otherwise, when the order is over, it reviews the order if it has
an inbox and refunds it if it has none; otherwise it moves no money. -/
structure CheckLaw (now : Time) (check : ActivationCheck) (id : Uuid) (o o' : Order)
    (merged : List Message) (l l' : Ledger) : Prop where
  settles : (∃ m ∈ inboxOf merged id, m.Coded) → o'.status = .delivered ∧
    (∃ m, Earliest merged id m ∧ o'.smsCode = m.code ∧ o'.smsText = some m.text) ∧
    Files l l' (settleJournal o.reference o.priceNgn) o'.settledJournalId
  only : o'.status = .delivered → ∃ m ∈ inboxOf merged id, m.Coded
  reviews : (∀ m ∈ inboxOf merged id, ¬ m.Coded) → Over now check o →
    inboxOf merged id ≠ [] → o'.status = .reviewRequired ∧ l' = l
  refunds : inboxOf merged id = [] → Over now check o → o'.status = .expired ∧
    Files l l' (refundJournal o.userId o.reference o.priceNgn) o'.refundedJournalId
  keeps : (∀ m ∈ inboxOf merged id, ¬ m.Coded) → ¬ Over now check o →
    o'.status = o.status ∧ o'.smsCode = o.smsCode ∧ o'.smsText = o.smsText ∧ l' = l
  price : o'.priceNgn = o.priceNgn
  deadline : o'.expiresAt = latest o.expiresAt check.expiresAt

/-! ## The merged inbox -/

/-- The row keeps the message of the order under its key. -/
structure Message.Stores (now : Time) (id : Uuid) (providerOrderId : String) (m : Sms)
    (r : Message) : Prop where
  orderId : r.orderId = id
  sender : r.sender = m.sender
  text : r.text = m.text
  code : r.code = m.code
  receivedAt : r.receivedAt = m.receivedAt.getD now
  key : r.key = messageKey providerOrderId m

/-- What the rows `new` add to an inbox: one for each key that the order had no row for, which
keeps the first message with the key. -/
structure Merged (now : Time) (id : Uuid) (providerOrderId : String) (incoming : List Sms)
    (before new : List Message) : Prop where
  stored : ∀ m ∈ incoming, ∃ r ∈ new ++ before, r.orderId = id ∧
    r.key = messageKey providerOrderId m
  shown : ∀ r ∈ new, ∃ m, incoming.find? (fun m => messageKey providerOrderId m = r.key) = some m ∧
    r.Stores now id providerOrderId m
  fresh : ∀ r ∈ new, ∀ b ∈ before, b.orderId = id → b.key ≠ r.key
  once : (new.map Message.key).Nodup

/-- A check's messages are in the inbox of the order, and nothing else is new. -/
def Merges (now : Time) (id : Uuid) (o : Order) (incoming : List Sms)
    (before after : List Message) : Prop :=
  ∃ new, after = new ++ before ∧ (incoming = [] → new = []) ∧
    ∀ providerOrderId, o.providerOrderId = some providerOrderId →
      Merged now id providerOrderId incoming before new

/-- A message whose key is stored adds nothing. -/
lemma Merged.cons_of_stored {now : Time} {id : Uuid} {providerOrderId : String} {m : Sms}
    {incoming : List Sms} {before new : List Message} {b : Message} (hb : b ∈ before)
    (hid : b.orderId = id) (hkey : b.key = messageKey providerOrderId m)
    (h : Merged now id providerOrderId incoming before new) :
    Merged now id providerOrderId (m :: incoming) before new where
  stored m' hm' := by
    rcases List.mem_cons.mp hm' with rfl | hm'
    · exact ⟨b, List.mem_append_right _ hb, hid, hkey⟩
    · exact h.stored m' hm'
  shown r hr := by
    obtain ⟨m', hfind, hstores⟩ := h.shown r hr
    have hne : messageKey providerOrderId m ≠ r.key := hkey ▸ h.fresh r hr b hb hid
    exact ⟨m', by rw [List.find?_cons_of_neg (by simpa using hne), hfind], hstores⟩
  fresh := h.fresh
  once := h.once

/-- A message with a new key adds a row. -/
lemma Merged.cons_of_new {now : Time} {id : Uuid} {providerOrderId : String} {m : Sms}
    {incoming : List Sms} {before new : List Message} {b : Message}
    (hb : b.Stores now id providerOrderId m)
    (hnew : ∀ r ∈ before, r.orderId = id → r.key ≠ b.key)
    (h : Merged now id providerOrderId incoming (b :: before) new) :
    Merged now id providerOrderId (m :: incoming) before (new ++ [b]) where
  stored m' hm' := by
    rw [List.append_assoc, List.singleton_append]
    rcases List.mem_cons.mp hm' with rfl | hm'
    · exact ⟨b, by simp, hb.orderId, hb.key⟩
    · exact h.stored m' hm'
  shown r hr := by
    rcases List.mem_append.mp hr with hr | hr
    · obtain ⟨m', hfind, hstores⟩ := h.shown r hr
      have hne : messageKey providerOrderId m ≠ r.key :=
        hb.key ▸ h.fresh r hr b List.mem_cons_self hb.orderId
      exact ⟨m', by rw [List.find?_cons_of_neg (by simpa using hne), hfind], hstores⟩
    · obtain rfl := List.mem_singleton.mp hr
      exact ⟨m, List.find?_cons_of_pos (by simp [hb.key]), hb⟩
  fresh r hr x hx hid := by
    rcases List.mem_append.mp hr with hr | hr
    · exact h.fresh r hr x (List.mem_cons_of_mem _ hx) hid
    · exact List.mem_singleton.mp hr ▸ hnew x hx hid
  once := by
    rw [List.map_append, List.map_singleton, List.nodup_append]
    refine ⟨h.once, List.nodup_singleton _, fun k hk k' hk' => ?_⟩
    obtain ⟨r, hr, rfl⟩ := List.mem_map.mp hk
    rw [List.mem_singleton.mp hk']
    exact (h.fresh r hr b List.mem_cons_self hb.orderId).symm

/-- **What `insert_messages` stores.** -/
lemma merged_of_insertMessages {now : Time} {id : Uuid} {providerOrderId : String}
    {inbox out : List Message} {ids : List Uuid} {incoming : List Sms}
    (h : insertMessages now id providerOrderId inbox ids incoming = some out) :
    ∃ new, out = new ++ inbox ∧ Merged now id providerOrderId incoming inbox new := by
  induction incoming generalizing inbox ids with
  | nil =>
      cases ids <;> cases h <;> exact ⟨[], rfl, by simp, by simp, by simp, by simp⟩
  | cons m incoming ih =>
      cases ids with
      | nil => cases h
      | cons mid ids =>
          obtain ⟨new, hout, hmerged⟩ := ih h
          unfold insertMessage at hout hmerged
          split at hout
          · rename_i hknown
            rw [if_pos hknown] at hmerged
            obtain ⟨b, hb, hsame⟩ := List.any_eq_true.mp hknown
            simp only [Bool.and_eq_true, decide_eq_true_eq] at hsame
            exact ⟨new, hout, hmerged.cons_of_stored hb hsame.1 hsame.2⟩
          · rename_i hunknown
            rw [if_neg hunknown] at hmerged
            refine ⟨_, by rw [hout, List.append_assoc, List.singleton_append],
              hmerged.cons_of_new ⟨rfl, rfl, rfl, rfl, rfl, rfl⟩ fun r hr hid hkey => ?_⟩
            exact hunknown (List.any_eq_true.mpr ⟨r, hr, by simp [hid, hkey]⟩)

lemma merges_of_mergeInbox {now : Time} {id : Uuid} {o : Order} {incoming : List Sms}
    {ids : List Uuid} {before after : List Message}
    (h : mergeInbox now id o incoming ids before = some (.ok after)) :
    Merges now id o incoming before after := by
  rcases mergeInbox_eq_ok h with ⟨rfl, rfl⟩ | ⟨providerOrderId, hid, -, hinsert⟩
  · exact ⟨[], rfl, fun _ => rfl, fun _ _ => ⟨by simp, by simp, by simp, by simp⟩⟩
  · obtain ⟨new, hafter, hmerged⟩ := merged_of_insertMessages hinsert
    refine ⟨new, hafter, fun hnone => ?_, fun p hp => ?_⟩
    · refine List.eq_nil_iff_forall_not_mem.mpr fun r hr => ?_
      obtain ⟨m, hfind, -⟩ := hmerged.shown r hr
      rw [hnone] at hfind
      cases hfind
    · cases hid.symm.trans hp
      exact hmerged

/-- The database takes what a check brings for the order. -/
def Order.Takes (o : Order) (incoming : List Sms) : Prop :=
  incoming = [] ∨ o.providerOrderId ≠ none ∧ incoming.all Sms.storable = true

/-! ## The earliest message -/

/-- What the messages are ordered by. -/
def Message.rank (m : Message) : Lex (Time × ℕ) := toLex (m.receivedAt, m.id.toNat)

lemma Message.before_iff {m m' : Message} : m.before m' = true ↔ m.rank ≤ m'.rank := by
  simp [Message.before, Message.rank, Prod.Lex.toLex_le_toLex]

/-- Of finitely many messages one is before all. -/
lemma exists_before {messages : List Message} (h : messages ≠ []) :
    ∃ m ∈ messages, ∀ m' ∈ messages, m.before m' = true := by
  rcases hm : messages.argmin Message.rank with _ | m
  · exact absurd (List.argmin_eq_none.mp hm) h
  · exact ⟨m, List.argmin_mem hm, fun m' hm' =>
      Message.before_iff.mpr (List.le_of_mem_argmin hm' hm)⟩

lemma mem_coded {messages : List Message} {orderId : Uuid} {m : Message} :
    m ∈ (inboxOf messages orderId).filter (fun m => m.code.any hasNonSpace) ↔
      m ∈ inboxOf messages orderId ∧ m.Coded := by
  rw [List.mem_filter, Message.Coded]

lemma qualifying_eq_none_iff {messages : List Message} {orderId : Uuid} :
    qualifying messages orderId = none ↔ ∀ m ∈ inboxOf messages orderId, ¬ m.Coded := by
  unfold qualifying
  constructor
  · intro h m hm hcoded
    obtain ⟨first, hfirst, hbefore⟩ :=
      exists_before (List.ne_nil_of_mem (mem_coded.mpr ⟨hm, hcoded⟩))
    dsimp only at h
    split at h
    · rename_i m' hfind
      have hcoded' : m'.Coded := (mem_coded.mp (List.mem_of_find?_eq_some hfind)).2
      simp only [Message.Coded, Option.map_eq_none_iff.mp h, Option.any_none,
        Bool.false_eq_true] at hcoded'
    · rename_i hfind
      exact List.find?_eq_none.mp hfind first hfirst (List.all_eq_true.mpr hbefore)
  · intro h
    dsimp only
    split
    · rename_i m hfind
      obtain ⟨hm, hcoded⟩ := mem_coded.mp (List.mem_of_find?_eq_some hfind)
      exact absurd hcoded (h m hm)
    · rfl

lemma earliest_of_qualifying {messages : List Message} {orderId : Uuid} {code text : String}
    (h : qualifying messages orderId = some (code, text)) :
    ∃ m, Earliest messages orderId m ∧ m.code = some code ∧ m.text = text := by
  unfold qualifying at h
  dsimp only at h
  split at h
  · rename_i m hfind
    obtain ⟨c, hcode, heq⟩ := Option.map_eq_some_iff.mp h
    cases heq
    obtain ⟨hm, hcoded⟩ := mem_coded.mp (List.mem_of_find?_eq_some hfind)
    have hall : List.all _ (fun m' => m.before m') = true :=
      List.find?_some (p := fun m : Message => List.all _ fun m' => m.before m') hfind
    have hfirst : ∀ m' ∈ inboxOf messages orderId, m'.Coded → m.before m' = true :=
      fun m' hm' hcoded' => List.all_eq_true.mp hall m' (mem_coded.mpr ⟨hm', hcoded'⟩)
    exact ⟨m, ⟨hm, hcoded, hfirst⟩, hcode, rfl⟩
  · cases h

/-! ## One check -/

lemma expiresAt_extendExpiry (check : ActivationCheck) (o : Order) :
    (extendExpiry check o).expiresAt = latest o.expiresAt check.expiresAt := by
  unfold extendExpiry
  rcases check.expiresAt with _ | newer
  · cases o.expiresAt <;> rfl
  · rcases ho : o.expiresAt with _ | current
    · rfl
    · by_cases hlt : current < newer
      · simp [latest, hlt, max_eq_right hlt.le]
      · simp [latest, hlt, ho, max_eq_left (not_lt.mp hlt)]

/-- A deadline that there is is not moved back. -/
lemma le_latest {t t' : Option Time} {expiry : Time} (h : t = some expiry) :
    ∃ later ∈ latest t t', expiry ≤ later := by
  subst h
  cases t' with
  | none => exact ⟨expiry, rfl, le_rfl⟩
  | some t' => exact ⟨max expiry t', rfl, le_max_left _ _⟩

section Check

variable {now : Time} {id journalId : Uuid} {check : ActivationCheck} {o row : Order}
  {db db' : NumbersDb} {record : Order → OrderWrite} {r : Except ApiError TransitionOutcome}
  {es : Log}

lemma over_iff : (check.lifecycle = .closed ∨
    ((extendExpiry check o).expiresAt.any fun expiry => expiry ≤ now) = true) ↔
      Over now check o := by
  rw [expiresAt_extendExpiry, Over, Option.any_eq_true]
  simp

/-- Posting an order's journal files it, and moves the row. -/
lemma postAndMove_eq_some {builder : JournalBuilder} {move : Uuid → Order → Order}
    (hrow : db.orders.get? id = some o)
    (h : postAndMove db id journalId builder record move row = some (r, db', es)) :
    ∃ posted : Uuid, db'.orders.get? id = some (move posted row) ∧ db'.messages = db.messages ∧
      Files db.ledger db'.ledger builder (some posted) := by
  unfold postAndMove at h
  split at h
  · cases h
  · rename_i journal hbuild
    obtain ⟨⟨posted, ledger⟩, hpost, h⟩ := Option.bind_eq_some_iff.mp h
    obtain ⟨orders, hupdate, h⟩ := Option.bind_eq_some_iff.mp h
    cases h
    have hmoved := OrderTable.get?_update_self hupdate hrow
    exact ⟨posted.journalId, hmoved, rfl, journal, journalId, posted, hbuild, hpost, rfl⟩

lemma refundOpen_eq_some {status : RefundStatus} {reason : String}
    (hrow : db.orders.get? id = some o)
    (h : refundOpen db id journalId record status reason row = some (r, db', es)) :
    ∃ posted : Uuid, db'.orders.get? id = some (refundedOpen posted status reason row) ∧
      db'.messages = db.messages ∧
      Files db.ledger db'.ledger (refundJournal row.userId row.reference row.priceNgn)
        (some posted) := by
  unfold refundOpen at h
  split at h
  · cases h
  · exact postAndMove_eq_some hrow h

lemma reviewOpen_eq_some {reason : String} (hrow : db.orders.get? id = some o)
    (h : reviewOpen now db id record reason row = some (r, db', es)) :
    db'.orders.get? id = some (reviewedOpen now reason row) ∧ db'.messages = db.messages ∧
      db'.ledger = db.ledger := by
  obtain ⟨orders, hupdate, h⟩ := Option.bind_eq_some_iff.mp h
  cases h
  have hmoved := OrderTable.get?_update_self hupdate hrow
  exact ⟨hmoved, rfl, rfl⟩

lemma keepOpen_eq_some {open_ : Bool} (hrow : db.orders.get? id = some o)
    (h : keepOpen now db id open_ row = some (r, db', es)) :
    db'.orders.get? id = some (scheduledOpen now open_ row) ∧ db'.messages = db.messages ∧
      db'.ledger = db.ledger := by
  obtain ⟨orders, hupdate, h⟩ := Option.bind_eq_some_iff.mp h
  cases h
  have hmoved := OrderTable.get?_update_self hupdate hrow
  exact ⟨hmoved, rfl, rfl⟩

/-- The row with its new deadline differs in nothing else. -/
lemma extendExpiry_eq (check : ActivationCheck) (o : Order) :
    ∃ row, extendExpiry check o = row ∧ row.status = o.status ∧ row.userId = o.userId ∧
      row.reference = o.reference ∧ row.priceNgn = o.priceNgn ∧ row.smsCode = o.smsCode ∧
      row.smsText = o.smsText ∧ row.expiresAt = latest o.expiresAt check.expiresAt := by
  refine ⟨_, rfl, ?_, ?_, ?_, ?_, ?_, ?_, expiresAt_extendExpiry check o⟩ <;>
  · unfold extendExpiry
    split
    · rfl
    · split <;> rfl

/-- **The decision.** -/
lemma law_of_decide (hrow : db.orders.get? id = some o) (hopen : o.status.moneyOpen = true)
    (hcode : o.smsCode = none) (htext : o.smsText = none)
    (h : decideCheck now db id journalId record check (extendExpiry check o) =
      some (r, db', es)) :
    ∃ o', db'.orders.get? id = some o' ∧ db'.messages = db.messages ∧
      CheckLaw now check id o o' db.messages db.ledger db'.ledger := by
  have hover := @over_iff now check o
  have hdelivered : o.status ≠ .delivered := fun heq => by
    rw [heq] at hopen
    cases hopen
  obtain ⟨row, heq, hstatus, huser, hreference, hprice, hrowCode, hrowText, hdeadline⟩ :=
    extendExpiry_eq check o
  rw [heq] at h hover
  unfold decideCheck at h
  simp only [hstatus, hopen, if_true] at h
  split at h
  · -- There is a message with a code.
    rename_i code text hqualifying
    obtain ⟨m, hm, hmcode, hmtext⟩ := earliest_of_qualifying hqualifying
    obtain ⟨posted, hrow', hmessages, hfiles⟩ := postAndMove_eq_some hrow h
    rw [hreference, hprice] at hfiles
    refine ⟨_, hrow', hmessages, ⟨fun _ => ⟨rfl, ⟨m, hm, ?_, ?_⟩, hfiles⟩,
      fun _ => ⟨m, hm.mem, hm.coded⟩, fun hnone => ?_, fun hempty => ?_, fun hnone => ?_, hprice,
      hdeadline⟩⟩
    · simp [settledOpen, hrowCode, hcode, hmcode]
    · simp [settledOpen, hrowText, htext, hmtext]
    · exact absurd hm.coded (hnone m hm.mem)
    · exact absurd hm.mem (hempty ▸ List.not_mem_nil)
    · exact absurd hm.coded (hnone m hm.mem)
  · rename_i hqualifying
    have hnone := qualifying_eq_none_iff.mp hqualifying
    have hcoded : ¬ ∃ m ∈ inboxOf db.messages id, m.Coded := fun ⟨m, hm, hc⟩ => hnone m hm hc
    split at h
    · rename_i hends
      have hends := hover.mp (by simpa using hends)
      split at h
      · -- There are messages, but none with a code.
        rename_i hinbox
        obtain ⟨hrow', hmessages, hledger⟩ := reviewOpen_eq_some hrow h
        refine ⟨_, hrow', hmessages, ⟨fun hc => absurd hc hcoded, fun heq => (by cases heq),
          fun _ _ _ => ⟨rfl, hledger⟩, fun hempty => ?_, fun _ hopen' => absurd hends hopen',
          hprice, hdeadline⟩⟩
        rw [hempty] at hinbox
        cases hinbox
      · rename_i hinbox
        have hempty : inboxOf db.messages id = [] := List.eq_nil_of_length_eq_zero (by omega)
        obtain ⟨posted, hrow', hmessages, hfiles⟩ := refundOpen_eq_some hrow h
        rw [huser, hreference, hprice] at hfiles
        exact ⟨_, hrow', hmessages, ⟨fun hc => absurd hc hcoded, fun heq => (by cases heq),
          fun _ _ hne => absurd hempty hne, fun _ _ => ⟨rfl, hfiles⟩,
          fun _ hopen' => absurd hends hopen', hprice, hdeadline⟩⟩
    · -- The order stays open.
      rename_i hends
      have hends := mt hover.mpr (by simpa using hends)
      obtain ⟨hrow', hmessages, hledger⟩ := keepOpen_eq_some hrow h
      exact ⟨_, hrow', hmessages, ⟨fun hc => absurd hc hcoded,
        fun heq => absurd (hstatus.symm.trans heq) hdelivered,
        fun _ hends' => absurd hends' hends, fun _ hends' => absurd hends' hends,
        fun _ _ => ⟨hstatus, hrowCode, hrowText, hledger⟩, hprice, hdeadline⟩⟩

/-- The rows a decision over `row` can leave. -/
inductive Decided (now : Time) (row : Order) : Order → Prop where
  | settled (posted : Uuid) (code text : String) (stayOpen : Bool) :
      Decided now row (settledOpen now posted code text stayOpen row)
  | refunded (posted : Uuid) (status : RefundStatus) (reason : String) :
      Decided now row (refundedOpen posted status reason row)
  | reviewed (reason : String) : Decided now row (reviewedOpen now reason row)
  | scheduled (open_ : Bool) : Decided now row (scheduledOpen now open_ row)

lemma decided_of_decide (hrow : db.orders.get? id = some o)
    (h : decideCheck now db id journalId record check row = some (r, db', es)) :
    ∃ o', db'.orders.get? id = some o' ∧ Decided now row o' := by
  have settle : ∀ {code text : String} {stayOpen : Bool},
      settleOpen now db id journalId record code text stayOpen row = some (r, db', es) →
      ∃ o', db'.orders.get? id = some o' ∧ Decided now row o' := fun h => by
    obtain ⟨posted, hrow', -, -⟩ := postAndMove_eq_some hrow h
    exact ⟨_, hrow', .settled posted _ _ _⟩
  have refund : ∀ {status : RefundStatus} {reason : String},
      refundOpen db id journalId record status reason row = some (r, db', es) →
      ∃ o', db'.orders.get? id = some o' ∧ Decided now row o' := fun h => by
    obtain ⟨posted, hrow', -, -⟩ := refundOpen_eq_some hrow h
    exact ⟨_, hrow', .refunded posted _ _⟩
  unfold decideCheck at h
  dsimp only at h
  split at h
  · split at h
    · exact settle h
    · split at h
      · split at h
        · exact ⟨_, (reviewOpen_eq_some hrow h).1, .reviewed _⟩
        · exact refund h
      · exact ⟨_, (keepOpen_eq_some hrow h).1, .scheduled true⟩
  · exact ⟨_, (keepOpen_eq_some hrow h).1, .scheduled _⟩

/-- A check does nothing, or stores the messages and decides. -/
lemma applyCheck_cases {fresh : List Uuid} {token : Option Uuid}
    (hrow : db.orders.get? id = some o)
    (h : applyCheck now fresh id token check db = some (r, db', es)) :
    (db' = db ∧ es = [] ∧ r ≠ .ok .applied) ∨
      (staleClaim o token now = false ∧ o.status.isRefunded = false ∧
        ∃ journalId ids messages, fresh = journalId :: ids ∧
          mergeInbox now id o check.messages ids db.messages = some (.ok messages) ∧
          decideCheck now { db with messages := messages } id journalId
            (fun after => ⟨id, .applyCheck, token, now, o, after⟩) check (extendExpiry check o) =
            some (r, db', es)) := by
  unfold applyCheck at h
  simp only [hrow] at h
  split at h
  · cases h
    exact .inl ⟨rfl, rfl, nofun⟩
  · rename_i hfenced
    split at h
    · cases h
      exact .inl ⟨rfl, rfl, nofun⟩
    · rename_i hopen
      split at h
      · cases h
      · rename_i journalId ids
        obtain ⟨messages | messages, hmerge, h⟩ := Option.bind_eq_some_iff.mp h
        · cases h
          exact .inl ⟨rfl, rfl, nofun⟩
        exact .inr ⟨by simpa using hfenced, by simpa using hopen, journalId, ids, messages, rfl,
          hmerge, h⟩

/-- A check moves the deadline of an order later, or leaves it. -/
lemma deadline_of_applyCheck {fresh : List Uuid} {token : Option Uuid}
    (h : applyCheck now fresh id token check db = some (r, db', es))
    (hrow : db.orders.get? id = some o) : ∃ o', db'.orders.get? id = some o' ∧
      (o'.expiresAt = o.expiresAt ∨ o'.expiresAt = latest o.expiresAt check.expiresAt) := by
  rcases applyCheck_cases hrow h with ⟨rfl, -, -⟩ |
    ⟨-, -, journalId, ids, messages, -, -, hdecide⟩
  · exact ⟨o, hrow, .inl rfl⟩
  · have hrow₀ : { db with messages := messages }.orders.get? id = some _ := hrow
    obtain ⟨o', ho', hdecided⟩ := decided_of_decide hrow₀ hdecide
    have hdeadline := expiresAt_extendExpiry check o
    refine ⟨o', ho', .inr ?_⟩
    cases hdecided <;> exact hdeadline

end Check

/-! ## The rows of open orders -/

/-- A journal is posted under the key, with the identifier. -/
def Ledger.Holds (l : Ledger) (key : String) (journalId : Uuid) : Prop :=
  ∃ p ∈ l.postings, p.id = journalId ∧ p.journal.idempotencyKey = key

lemma Ledger.Holds.mono {l l' : Ledger} {key : String} {journalId : Uuid}
    (h : l.Holds key journalId) (hsub : l.postings ⊆ l'.postings) : l'.Holds key journalId := by
  obtain ⟨p, hp, hid, hkey⟩ := h
  exact ⟨p, hsub hp, hid, hkey⟩

/-- No code has been stored on the row, and no reason for a failure. -/
def Order.Blank (o : Order) : Prop :=
  o.smsCode = none ∧ o.smsText = none ∧ o.failureReason = none

/-- What the row of an order keeps to, besides the checks of its table. -/
structure Order.InOrder (l : Ledger) (o : Order) : Prop where
  blank : o.status.moneyOpen = true → o.Blank
  settled : ∀ j, o.settledJournalId = some j → l.Holds (settleKey o.reference) j
  refunded : ∀ j, o.refundedJournalId = some j → l.Holds (refundKey o.reference) j

/-- The rows of open orders are blank, and the journals that rows name are filed under the keys
of their orders. -/
def OpenRows (l : Ledger) (t : OrderTable) : Prop :=
  ∀ id o, t.get? id = some o → o.InOrder l

section Rows

variable {cfg : Config} {tid : ℕ} {now : Time} {ω : Oracle} {db db' : NumbersDb} {id : Uuid}
  {row row' : Order} {op : NumberOp} {es : Log}

/-- A conditional write that leaves the row blank. -/
lemma blank_of_updateWhere {guard : Order → Bool} {set : Order → Order} {record : Order → Log}
    {r : Bool} (h : updateWhere id guard set record db = some (r, db', es))
    (hrow : db.orders.get? id = some row) (hrow' : db'.orders.get? id = some row')
    (hset : (set row).Blank) (hblank : row.Blank) : row'.Blank := by
  rcases updateWhere_cases h with ⟨-, rfl, -⟩ | ⟨row₁, orders, hrow₁, -, -, hupdate, rfl, -⟩
  · cases hrow.symm.trans hrow'
    exact hblank
  · cases hrow.symm.trans hrow₁
    have hmoved := OrderTable.get?_update_self hupdate hrow
    cases hmoved.symm.trans hrow'
    exact hset

/-- A check leaves the row of an order blank as long as it stays open. -/
lemma blank_of_applyCheck {fresh : List Uuid} {token : Option Uuid} {check : ActivationCheck}
    {r : Except ApiError TransitionOutcome}
    (h : applyCheck now fresh id token check db = some (r, db', es))
    (hrow : db.orders.get? id = some row) (hrow' : db'.orders.get? id = some row')
    (hblank : row.Blank) (hopen : row'.status.moneyOpen = true) : row'.Blank := by
  rcases applyCheck_cases hrow h with ⟨rfl, -, -⟩ |
    ⟨-, -, journalId, ids, messages, -, -, hdecide⟩
  · cases hrow.symm.trans hrow'
    exact hblank
  · have hrow₀ : { db with messages := messages }.orders.get? id = some _ := hrow
    obtain ⟨o', ho', hdecided⟩ := decided_of_decide hrow₀ hdecide
    cases hrow'.symm.trans ho'
    have hbase : (extendExpiry check row).Blank := by
      unfold extendExpiry
      split
      · exact hblank
      · split <;> exact hblank
    cases hdecided with
    | settled => cases hopen
    | refunded _ status => cases status <;> cases hopen
    | reviewed => exact hbase
    | scheduled => exact hbase

lemma blank_of_step {r : op.Res} (h : execNumbers cfg tid now ω db op = some (r, db', es))
    (hstep : RowStep now tid ω.fresh id row op row' es) (hrow : db.orders.get? id = some row)
    (hrow' : db'.orders.get? id = some row') (hI : row.status.moneyOpen = true → row.Blank)
    (hopen : row'.status.moneyOpen = true) : row'.Blank := by
  cases hstep with
  | @granted _ purpose => cases purpose <;> exact hI hopen
  | released hop hheld hsame hjournals hstatus =>
      have hblank := hI (hstatus ▸ hopen)
      rcases hop with rfl | ⟨delay, e, rfl⟩
      · refine blank_of_updateWhere h hrow hrow' ?_ hblank
        exact hblank
      · refine blank_of_updateWhere h hrow hrow' ?_ hblank
        exact hblank
  | markedForReview hstatus => exact hI (by rcases hstatus with hs | hs <;> rw [hs] <;> rfl)
  | assigned hstatus => exact hI (by rw [hstatus]; rfl)
  | pinned => exact hI hopen
  | recovered hstatus => exact hI (by rw [hstatus]; rfl)
  | kept hfenced hrefunded hsame hjournals hstatus =>
      exact blank_of_applyCheck h hrow hrow' (hI (hstatus ▸ hopen)) hopen
  | checkedForReview hfenced hmoney =>
      exact blank_of_applyCheck h hrow hrow' (hI hmoney) hopen

/-- A row that is rewritten keeps its journals, or has none. -/
lemma journals_of_step (hstep : RowStep now tid ω.fresh id row op row' es)
    (hvalid : row'.FinancialStateValid) : row.SameJournals row' ∨
      (row'.settledJournalId = none ∧ row'.refundedJournalId = none) := by
  cases hstep with
  | @granted _ purpose => cases purpose <;> exact .inl ⟨rfl, rfl⟩
  | released hop hheld hsame hjournals => exact .inl hjournals
  | kept hfenced hrefunded hsame hjournals => exact .inl hjournals
  | checkedForReview hfenced hmoney hsame hstatus =>
      rw [Order.FinancialStateValid, hstatus] at hvalid
      exact .inr ⟨hvalid.1, hvalid.2.1⟩
  | _ => exact .inl ⟨rfl, rfl⟩

/-- The journals of a row that is rewritten stay under their keys. -/
lemma inOrder_of_step {l : Ledger} (hstep : RowStep now tid ω.fresh id row op row' es)
    (hvalid : row'.FinancialStateValid) (hrow : row.InOrder l)
    (hblank : row'.status.moneyOpen = true → row'.Blank) : row'.InOrder l := by
  have href : row'.reference = row.reference :=
    congrArg Order.Terms.reference hstep.later.terms
  rcases journals_of_step hstep hvalid with ⟨hsettled, hrefunded⟩ | ⟨hsettled, hrefunded⟩
  · refine ⟨hblank, ?_, ?_⟩
    · rw [hsettled, href]
      exact hrow.settled
    · rw [hrefunded, href]
      exact hrow.refunded
  · refine ⟨hblank, ?_, ?_⟩
    · rw [hsettled]
      rintro j ⟨⟩
    · rw [hrefunded]
      rintro j ⟨⟩

lemma Order.SameIdentity.reference (h : row.SameIdentity row') :
    row'.reference = row.reference := congrArg Order.Terms.reference h.terms

/-- The journal that ends an order is filed under the order's key. -/
lemma inOrder_of_end {l : Ledger} {posted : Uuid} {builder : JournalBuilder} {journal : Journal}
    (hstep : EndStep row posted builder row') (hbuild : builder.build = .ok journal)
    (hholds : l.Holds journal.idempotencyKey posted) (hvalid : row'.FinancialStateValid) :
    row'.InOrder l := by
  have hclosed := OrderStatus.moneyOpen_eq_false hstep.status
  obtain ⟨-, -, hkey, -⟩ := JournalBuilder.build_eq_ok hbuild
  rw [hkey] at hholds
  have href := hstep.same.reference
  refine ⟨fun hopen => ?_, fun j hj => ?_, fun j hj => ?_⟩
  · rw [hclosed] at hopen
    cases hopen
  · cases hstep with
    | settle hsame hstatus hjournal =>
        cases hj.symm.trans hjournal
        rw [href]
        exact hholds
    | refund hsame hstatus hjournal =>
        unfold Order.FinancialStateValid at hvalid
        cases hs : row'.status <;> simp_all
  · cases hstep with
    | settle hsame hstatus hjournal =>
        rw [Order.FinancialStateValid, hstatus] at hvalid
        cases hj.symm.trans hvalid.2.1
    | refund hsame hstatus hjournal =>
        cases hj.symm.trans hjournal
        rw [href]
        exact hholds

/-- **Every operation on number orders keeps the rows in order.** -/
lemma OpenRows.exec {r : op.Res} (hI : OpenRows db.ledger db.orders)
    (h : execNumbers cfg tid now ω db op = some (r, db', es)) :
    OpenRows db'.ledger db'.orders := by
  have keep : ∀ {o : Order} {l : Ledger}, db.ledger.postings ⊆ l.postings →
      o.InOrder db.ledger → o.InOrder l := fun hsub ho =>
    ⟨ho.blank, fun j hj => (ho.settled j hj).mono hsub, fun j hj => (ho.refunded j hj).mono hsub⟩
  intro i o' ho'
  have hvalid := db'.orders.financial ho'
  cases execNumbers_move h with
  | idle hledger horders =>
      rw [horders] at ho'
      rw [hledger]
      exact hI i o' ho'
  | read => exact hI i o' ho'
  | placed hids hkey hafford hbuild hpost hinsert =>
      rw [OrderTable.get?_insert hinsert] at ho'
      split at ho'
      · cases ho'
        exact ⟨fun _ => ⟨rfl, rfl, rfl⟩, fun j hj => (by cases hj), fun j hj => (by cases hj)⟩
      · exact keep (Ledger.postings_suffix_of_post hpost).subset (hI i o' ho')
  | @row _ i' row row' _ _ hrow hstep hupdate hledger =>
      rw [hledger]
      have hrow' := OrderTable.get?_update_self hupdate hrow
      by_cases hi : i = i'
      · subst hi
        cases hrow'.symm.trans ho'
        have ho := hI i row hrow
        exact inOrder_of_step hstep hvalid ho (blank_of_step h hstep hrow ho' ho.blank)
      · rw [OrderTable.get?_update_ne hupdate hi] at ho'
        exact hI i o' ho'
  | @ended _ i' row row' _ _ _ _ _ _ _ hop hrow hfenced hopen hstep hbuild hpost hupdate =>
      have hrow' := OrderTable.get?_update_self hupdate hrow
      by_cases hi : i = i'
      · subst hi
        cases hrow'.symm.trans ho'
        exact inOrder_of_end hstep hbuild (Ledger.mem_of_post hpost) hvalid
      · rw [OrderTable.get?_update_ne hupdate hi] at ho'
        exact keep (Ledger.postings_suffix_of_post hpost).subset (hI i o' ho')

end Rows

/-- In every state a run reaches the rows are in order. -/
lemma openRows_of_reachable {cfg : Config} {now : Time} {wallets : List Wallet} {s : State}
    (h : (backend cfg).Reachable unguarded (initial now wallets) s) :
    OpenRows s.world.ledger s.world.orders := by
  refine Reachable.world_inv (I := fun w => OpenRows w.ledger w.orders)
    (fun id o ho => (by cases ho)) (fun w w' hstep hI => ?_) h
  cases hstep with
  | env he =>
      obtain ⟨now, wallets, tiers, -, rfl⟩ := execEnv_eq he
      exact hI
  | @exec tid op ω r w₁ w₂ he =>
      by_cases hop : ∃ nop, op = .numbers nop
      · obtain ⟨nop, rfl⟩ := hop
        obtain ⟨-, db, es, hexec, rfl⟩ := exec_numbers he
        have hI : OpenRows w.numbers.ledger w.numbers.orders := hI
        exact OpenRows.exec hI hexec
      · intro id o ho
        rw [(exec_move he).2.orders_eq fun nop heq => hop ⟨nop, heq⟩] at ho
        have hsub := (exec_ledger he).subset
        have hrow := hI id o ho
        exact ⟨hrow.blank, fun j hj => (hrow.settled j hj).mono hsub,
          fun j hj => (hrow.refunded j hj).mono hsub⟩

/-! ## The database accepts what is decided -/

lemma Order.Collides.symm {o o' : Order} (h : o.Collides o') : o'.Collides o := by
  rcases h with ⟨hu, hk⟩ | h | h | ⟨hne, h⟩ | ⟨hne, h⟩
  · exact .inl ⟨hu.symm, hk.symm⟩
  · exact .inr (.inl h.symm)
  · exact .inr (.inr (.inl h.symm))
  · exact .inr (.inr (.inr (.inl ⟨h ▸ hne, h.symm⟩)))
  · exact .inr (.inr (.inr (.inr ⟨h ▸ hne, h.symm⟩)))

/-- A row may be rewritten when it stays valid, keeps its terms and names no journal of another
order. -/
lemma OrderTable.exists_update {t : OrderTable} {id : Uuid} {o row : Order}
    (ho : t.get? id = some o) (hterms : row.terms = o.terms) (hvalid : row.FinancialStateValid)
    (hsettled : ∀ i o' j, t.get? i = some o' → row.settledJournalId = some j →
      o'.settledJournalId = some j → i = id)
    (hrefunded : ∀ i o' j, t.get? i = some o' → row.refundedJournalId = some j →
      o'.refundedJournalId = some j → i = id) :
    ∃ t', t.update id (fun _ => row) = some t' := by
  have hapart : ∀ i o', t.get? i = some o' → row.Collides o' → i = id := by
    simp only [Order.terms, Order.Terms.mk.injEq] at hterms
    obtain ⟨huser, -, href, hkey, hreserved, -⟩ := hterms
    rintro i o' ho' (⟨hu, hk⟩ | hr | hj | ⟨hne, hj⟩ | ⟨hne, hj⟩)
    · exact (t.eq_of_key ho ho' (huser ▸ hu) (hkey ▸ hk)).symm
    · exact (t.eq_of_reference ho ho' (href ▸ hr)).symm
    · exact (t.eq_of_collides ho ho' (.inr (.inr (.inl (hreserved ▸ hj))))).symm
    · obtain ⟨j, hsome⟩ := Option.ne_none_iff_exists'.mp hne
      exact hsettled i o' j ho' hsome (hj ▸ hsome)
    · obtain ⟨j, hsome⟩ := Option.ne_none_iff_exists'.mp hne
      exact hrefunded i o' j ho' hsome (hj ▸ hsome)
  have hprice : 0 < row.priceNgn := by
    rw [show row.priceNgn = o.priceNgn from congrArg Order.Terms.priceNgn hterms]
    exact t.price_pos ho
  have hkept : ∀ r, r ∈ t.table.rows → t.get? r.1 = some r.2 := fun _ hr =>
    Table.get?_eq_some_iff.mpr hr
  have hconstraints : OrderConstraints (t.table.modify id fun _ => row) := by
    constructor
    · intro r hr
      rcases Table.mem_modify.mp hr with ⟨-, hr⟩ | ⟨-, -, -, heq⟩
      · exact t.valid.1 r hr
      · rw [heq]
        exact ⟨hprice, hvalid⟩
    · intro r hr r' hr' hcollides
      rcases Table.mem_modify.mp hr with ⟨-, hr⟩ | ⟨hid, -, -, heq⟩ <;>
        rcases Table.mem_modify.mp hr' with ⟨-, hr'⟩ | ⟨hid', -, -, heq'⟩
      · exact t.valid.2 r hr r' hr' hcollides
      · exact (hapart r.1 r.2 (hkept r hr) (heq' ▸ hcollides.symm)).trans hid'.symm
      · exact hid.trans (hapart r'.1 r'.2 (hkept r' hr') (heq ▸ hcollides)).symm
      · exact hid.trans hid'.symm
  exact ⟨⟨_, hconstraints⟩, dif_pos hconstraints⟩

/-- A transfer of a positive amount of naira builds, unless its kind is for custody only. -/
lemma JournalBuilder.exists_build_transfer {kind : JournalKind} {reference key : String}
    {debit credit : Account} {amount : ℚ} (hkind : kind.isCustodyOnly = false)
    (hasset : debit.asset = credit.asset) (hamount : 0 < amount) :
    ∃ j, (transfer kind reference key debit credit amount).build = .ok j := by
  refine (build_iff _).mpr ⟨le_rfl, fun e he => ?_, fun asset => ?_, fun hcustody => ?_⟩
  · rcases List.mem_pair.mp he with rfl | rfl
    · exact hamount.ne'
    · exact neg_ne_zero.mpr hamount.ne'
  · by_cases h : credit.asset = asset <;>
      simp [transfer, assetSum, Entry.asset, hasset, h]
  · rw [show (transfer kind reference key debit credit amount).kind = kind from rfl, hkind]
      at hcustody
    cases hcustody

/-- Posting succeeds under an identifier that no row has. -/
lemma Ledger.exists_post {l : Ledger} {id : Uuid} (j : Journal)
    (hid : ∀ p ∈ l.postings, p.id ≠ id) : ∃ out l', l.post j id = some (out, l') := by
  unfold Ledger.post
  split
  · exact ⟨_, _, rfl⟩
  · have hnew : id ∉ l.postings.map Posting.id := fun hmem => by
      obtain ⟨p, hp, hpid⟩ := List.mem_map.mp hmem
      exact hid p hp hpid
    rw [dif_neg hnew]
    exact ⟨_, _, rfl⟩

/-- A journal is under one key. -/
lemma Ledger.Holds.key_unique {l : Ledger} {key key' : String} {j : Uuid} (h : l.Holds key j)
    (h' : l.Holds key' j) : key = key' := by
  obtain ⟨p, hp, hid, rfl⟩ := h
  obtain ⟨q, hq, hid', rfl⟩ := h'
  rw [List.inj_on_of_nodup_map l.idsUnique hp hq (hid.trans hid'.symm)]

section Accepts

variable {now : Time} {id journalId : Uuid} {check : ActivationCheck} {o row : Order}
  {db : NumbersDb} {record : Order → OrderWrite}

/-- The journal under the settlement key of an order is named by no other order. -/
lemma OpenRows.settles_one (hI : OpenRows db.ledger db.orders) {l : Ledger} {i j : Uuid}
    {o' : Order} (ho : db.orders.get? id = some o) (ho' : db.orders.get? i = some o')
    (hsub : db.ledger.postings ⊆ l.postings) (hholds : l.Holds (settleKey o.reference) j)
    (hj : o'.settledJournalId = some j) : i = id := by
  have hkeys := (((hI i o' ho').settled j hj).mono hsub).key_unique hholds
  exact db.orders.eq_of_reference ho' ho (settleKey_injective hkeys)

/-- The same of its refund key. -/
lemma OpenRows.refunds_one (hI : OpenRows db.ledger db.orders) {l : Ledger} {i j : Uuid}
    {o' : Order} (ho : db.orders.get? id = some o) (ho' : db.orders.get? i = some o')
    (hsub : db.ledger.postings ⊆ l.postings) (hholds : l.Holds (refundKey o.reference) j)
    (hj : o'.refundedJournalId = some j) : i = id := by
  have hkeys := (((hI i o' ho').refunded j hj).mono hsub).key_unique hholds
  exact db.orders.eq_of_reference ho' ho (refundKey_injective hkeys)

lemma exists_postAndMove {builder : JournalBuilder} {move : Uuid → Order → Order}
    (hbuild : ∃ j, builder.build = .ok j) (hid : ∀ p ∈ db.ledger.postings, p.id ≠ journalId)
    (hupdate : ∀ (l : Ledger) posted, db.ledger.postings ⊆ l.postings →
      l.Holds builder.idempotencyKey posted →
      ∃ orders, db.orders.update id (fun _ => move posted row) = some orders) :
    ∃ db' es, postAndMove db id journalId builder record move row =
      some (.ok .applied, db', es) := by
  obtain ⟨journal, hbuild⟩ := hbuild
  obtain ⟨posted, ledger, hpost⟩ := Ledger.exists_post journal hid
  obtain ⟨-, -, hkey, -⟩ := JournalBuilder.build_eq_ok hbuild
  have hholds : ledger.Holds builder.idempotencyKey posted.journalId :=
    hkey ▸ Ledger.mem_of_post hpost
  obtain ⟨orders, hupdate⟩ := hupdate ledger posted.journalId
    (Ledger.postings_suffix_of_post hpost).subset hholds
  refine ⟨{ db with ledger := ledger, orders := orders },
    [.wrote (record (move posted.journalId row)), .posted journal posted], ?_⟩
  simp [postAndMove, hbuild, hpost, hupdate]

/-- What is true of the row of an open order with its deadline moved. -/
structure OpenRow (o row : Order) : Prop where
  terms : row.terms = o.terms
  status : row.status = o.status
  settled : row.settledJournalId = none
  refunded : row.refundedJournalId = none
  failureReason : row.failureReason = none
  valid : row.FinancialStateValid

lemma openRow_extendExpiry {l : Ledger} (hrow : o.InOrder l) (hvalid : o.FinancialStateValid)
    (hopen : o.status.moneyOpen = true) : OpenRow o (extendExpiry check o) := by
  have hnone : o.settledJournalId = none ∧ o.refundedJournalId = none := by
    unfold Order.FinancialStateValid at hvalid
    cases hs : o.status <;> simp_all [OrderStatus.moneyOpen]
  have hbase : OpenRow o o := ⟨rfl, rfl, hnone.1, hnone.2, (hrow.blank hopen).2.2, hvalid⟩
  unfold extendExpiry
  split
  · exact hbase
  · split
    · exact ⟨rfl, rfl, hnone.1, hnone.2, (hrow.blank hopen).2.2, hvalid⟩
    · exact hbase

/-- A row that names no journal of its end may be rewritten to one that does not either. -/
lemma OpenRow.exists_update (hrow : OpenRow o row) (row' : Order)
    (ho : db.orders.get? id = some o) (hterms : row'.terms = row.terms)
    (hvalid : row'.FinancialStateValid) (hsettled : row'.settledJournalId = none)
    (hrefunded : row'.refundedJournalId = none) :
    ∃ t', db.orders.update id (fun _ => row') = some t' := by
  refine OrderTable.exists_update ho (hterms.trans hrow.terms) hvalid (fun i o' j _ hj _ => ?_)
    fun i o' j _ hj _ => ?_
  · cases hj.symm.trans hsettled
  · cases hj.symm.trans hrefunded

lemma OpenRow.exists_settle (hI : OpenRows db.ledger db.orders) (hrow : OpenRow o row)
    (ho : db.orders.get? id = some o) (hid : ∀ p ∈ db.ledger.postings, p.id ≠ journalId)
    (code text : String) (stayOpen : Bool) :
    ∃ db' es, settleOpen now db id journalId record code text stayOpen row =
      some (.ok .applied, db', es) := by
  have hreference : row.reference = o.reference := congrArg Order.Terms.reference hrow.terms
  have hprice : row.priceNgn = o.priceNgn := congrArg Order.Terms.priceNgn hrow.terms
  refine exists_postAndMove (JournalBuilder.exists_build_transfer rfl rfl ?_) hid
    fun l posted hsub hholds => ?_
  · rw [hprice]
    exact db.orders.price_pos ho
  · refine OrderTable.exists_update ho hrow.terms ?_ (fun i o' j ho' hj hj' => ?_)
      fun i o' j _ hj _ => ?_
    · exact ⟨Option.some_ne_none posted, hrow.refunded, hrow.failureReason⟩
    · cases hj
      have hholds : l.Holds (settleKey o.reference) posted := hreference ▸ hholds
      exact hI.settles_one ho ho' hsub hholds hj'
    · cases hj.symm.trans hrow.refunded

lemma OpenRow.exists_refund (hI : OpenRows db.ledger db.orders) (hrow : OpenRow o row)
    (ho : db.orders.get? id = some o) (hid : ∀ p ∈ db.ledger.postings, p.id ≠ journalId)
    {reason : String} (hblank : isBlank reason = false)
    (hreason : hasNonSpace reason = true) :
    ∃ db' es, refundOpen db id journalId record .expired reason row =
      some (.ok .applied, db', es) := by
  have hreference : row.reference = o.reference := congrArg Order.Terms.reference hrow.terms
  have hprice : row.priceNgn = o.priceNgn := congrArg Order.Terms.priceNgn hrow.terms
  unfold refundOpen
  rw [hblank, if_neg Bool.false_ne_true]
  refine exists_postAndMove (JournalBuilder.exists_build_transfer rfl rfl ?_) hid
    fun l posted hsub hholds => ?_
  · rw [hprice]
    exact db.orders.price_pos ho
  · refine OrderTable.exists_update ho hrow.terms ?_ (fun i o' j _ hj _ => ?_)
      fun i o' j ho' hj hj' => ?_
    · exact ⟨hrow.settled, Option.some_ne_none posted, hreason⟩
    · cases hj.symm.trans hrow.settled
    · cases hj
      have hholds : l.Holds (refundKey o.reference) posted := hreference ▸ hholds
      exact hI.refunds_one ho ho' hsub hholds hj'

lemma OpenRow.exists_review (hrow : OpenRow o row) (ho : db.orders.get? id = some o)
    {reason : String} (hreason : hasNonSpace reason = true) :
    ∃ db' es, reviewOpen now db id record reason row = some (.ok .applied, db', es) := by
  obtain ⟨orders, hupdate⟩ := hrow.exists_update (reviewedOpen now reason row) ho rfl
    ⟨hrow.settled, hrow.refunded, Option.some_ne_none now, hreason⟩ hrow.settled hrow.refunded
  exact ⟨{ db with orders := orders }, [.wrote (record (reviewedOpen now reason row))],
    by simp [reviewOpen, hupdate]⟩

lemma OpenRow.exists_keep (hrow : OpenRow o row) (ho : db.orders.get? id = some o)
    (open_ : Bool) :
    ∃ db' es, keepOpen now db id open_ row = some (.ok .applied, db', es) := by
  obtain ⟨orders, hupdate⟩ := hrow.exists_update (scheduledOpen now open_ row) ho rfl
    hrow.valid hrow.settled hrow.refunded
  exact ⟨{ db with orders := orders }, [], by simp [keepOpen, hupdate]⟩

/-- The decision over an open order is carried out. -/
lemma OpenRow.exists_decide (hI : OpenRows db.ledger db.orders) (hrow : OpenRow o row)
    (ho : db.orders.get? id = some o) (hopen : o.status.moneyOpen = true)
    (hid : ∀ p ∈ db.ledger.postings, p.id ≠ journalId) :
    ∃ db' es, decideCheck now db id journalId record check row =
      some (.ok .applied, db', es) := by
  unfold decideCheck
  rw [hrow.status, hopen]
  dsimp only
  rw [if_pos rfl]
  split
  · exact hrow.exists_settle hI ho hid _ _ _
  · split
    · split
      · split <;> exact hrow.exists_review ho (by decide)
      · split <;> exact hrow.exists_refund hI ho hid (by decide) (by decide)
    · exact hrow.exists_keep ho true

lemma exists_insertMessages {orderId : Uuid} {providerOrderId : String} {inbox : List Message}
    {ids : List Uuid} {incoming : List Sms} (hids : incoming.length ≤ ids.length) :
    ∃ out, insertMessages now orderId providerOrderId inbox ids incoming = some out := by
  induction incoming generalizing inbox ids with
  | nil => cases ids <;> exact ⟨inbox, rfl⟩
  | cons sms incoming ih =>
      cases ids with
      | nil => cases hids
      | cons id ids => exact ih (Nat.le_of_succ_le_succ hids)

end Accepts

/-! ## Every check -/

/-- Messages that the database takes are merged. -/
lemma exists_mergeInbox {now : Time} {id : Uuid} {o : Order} {incoming : List Sms}
    {ids : List Uuid} {messages : List Message} (htakes : o.Takes incoming)
    (hids : incoming.length ≤ ids.length) :
    ∃ merged, mergeInbox now id o incoming ids messages = some (.ok merged) := by
  unfold mergeInbox
  split
  · exact ⟨_, rfl⟩
  · rename_i hnone
    rcases htakes with hempty | ⟨hsome, -⟩
    · cases hempty
    · exact absurd hnone hsome
  · rcases htakes with hempty | ⟨-, hstorable⟩
    · cases hempty
    · obtain ⟨out, hinsert⟩ := exists_insertMessages hids
      exact ⟨out, by rw [if_pos hstorable, hinsert]; rfl⟩

/-- Nothing else is merged. -/
lemma takes_of_mergeInbox {now : Time} {id : Uuid} {o : Order} {incoming : List Sms}
    {ids : List Uuid} {messages merged : List Message}
    (h : mergeInbox now id o incoming ids messages = some (.ok merged)) : o.Takes incoming := by
  rcases mergeInbox_eq_ok h with ⟨hempty, -⟩ | ⟨providerOrderId, hid, hstorable, -⟩
  · exact .inl hempty
  · exact .inr ⟨by rw [hid]; exact Option.some_ne_none _, hstorable⟩

/-- An order that waits for its code. -/
def codeAwaited : List Move :=
  topUp 0 7 100 101 102 5000 ++
  serve 2 (.createOrder 7 50 stubOrder)
    [{ fresh := [200, 201, 2 <<< 100], catalogue := stubCatalogue 1500 }, { fresh := [203] }, {},
      { buy := .bought ⟨"a1", "+2341", none, none, none, .primary⟩ }, {}, {}]

/-- The supplier has closed the activation, and holds a message with a blank code and a later one
with a code. -/
def blankThenCode : ActivationCheck :=
  ⟨[⟨none, "hello", some "  ", some 5, some "m1"⟩,
    ⟨none, "code 1234", some "1234", some 6, some "m2"⟩], .closed, none⟩

/-- The order of `codeAwaited`. -/
lemma exists_codeAwaited : ∃ (s : State) (o : Order),
    (backend stubConfig).Reachable unguarded (initial 0 []) s ∧
    s.world.orders.get? 200 = some o ∧ o.status = .awaitingCode ∧
    o.providerOrderId = some "a1" ∧ (∀ p ∈ s.world.ledger.postings, p.id ≠ 400) ∧
    s.world.messages = [] := by
  obtain ⟨s, hs, hstatus, hids, hmessages⟩ := exists_reachable_of_run (backend stubConfig)
    unguarded (initial 0 []) codeAwaited
    (fun s => (s.world.orders.get? 200).map (fun o => (o.status, o.providerOrderId)) =
        some (.awaitingCode, some "a1") ∧ (∀ p ∈ s.world.ledger.postings, p.id ≠ 400) ∧
        s.world.messages = [])
    (by decide +kernel)
  obtain ⟨o, ho, hrow⟩ := Option.map_eq_some_iff.mp hstatus
  obtain ⟨hawaiting, hactivation⟩ := Prod.mk.inj hrow
  exact ⟨s, o, hs, ho, hawaiting, hactivation, hids, hmessages⟩

/-- The supplier has closed the activation, and holds a text of one U+0000. -/
def nulText : ActivationCheck :=
  ⟨[⟨none, String.ofList [Char.ofNat 0], none, some 5, some "m1"⟩], .closed, none⟩

end Naivolt
