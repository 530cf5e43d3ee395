import Naivolt.Numbers.Absorption
import Naivolt.Numbers.Adapters
import Naivolt.Numbers.Decision

/-!
# Polling an activation

A check asks the supplier of an activation what it has received; the reader of each adapter turns
the body into messages (`readCheck`), and the transaction that applies the check stores those
whose key is new (`insertMessages`).  The key is the supplier's message id, or else a digest of
the sender, the text, the code and the time of arrival.

A supplier holds messages (`Held`), told apart by sender, text and arrival.  When each of them
comes with one key of its own at every check (`Holdings`), the inbox has one row for every message
seen, whoever polled and however often: `inbox_deduplicated`.  What there is to be seen is said of
the bodies (`BodyHas`).  The `handler_api.php` suppliers give no time of arrival, and their reader
fills in the clock of the check.  So the key of a code changes from check to check, and two that
overlap store the code twice.
-/

namespace Naivolt

open Foundation Foundation.Machine

/-! ## Reading a check -/

/-- `json_code`. -/
def jsonCode : Json → Option String
  | .string s => if trimText s = "" then none else some (trimText s)
  | .number n => some n.text
  | _ => none

/-- One message of 5SIM's payload. -/
def FiveSimSms.sms (p : Parsers) (m : FiveSimSms) : Sms where
  sender := m.sender
  text := m.text
  code := m.code.bind jsonCode
  receivedAt := (m.date.bind (parseRfc3339Loose p)).or (m.createdAt.bind (parseRfc3339Loose p))
  providerMessageId := m.id.bind fivesimOrderId

/-- `fivesim_activation_check`. -/
def fivesimActivationCheck (p : Parsers) (reply : FiveSimReply) : ActivationCheck where
  messages := reply.sms.map (FiveSimSms.sms p)
  lifecycle :=
    if upperAscii reply.status ∈ ["FINISHED", "TIMEOUT", "CANCELED", "CANCELLED", "BANNED"] then
      .closed
    else .open
  expiresAt := reply.order.expires

/-- A trimmed text that is not empty. -/
def nonEmptyText (v : Option Json) : Option String :=
  ((v.bind Json.str?).map trimText).filter (· ≠ "")

/-- `parse_smspool_check`. -/
def parseSmspoolCheck (v : Json) : ActivationCheck :=
  let status := (v.get? "status").bind fun s => s.int?.or (s.str?.bind parseI64)
  let code := nonEmptyText ((v.get? "sms").or (v.get? "code"))
  let full := nonEmptyText (v.get? "full_sms")
  { messages :=
      match code, full with
      | none, none => []
      | some code, full => [⟨none, full.getD code, some code, none, none⟩]
      | none, some text => [⟨none, text, none, none, none⟩]
    lifecycle := if status ∈ [some 3, some 5, some 6] then .closed else .open
    expiresAt := none }

/-- `parse_status`, at the local time `now`. -/
def parseStatus (now : Time) (body : String) : ActivationCheck :=
  let trimmed := (trimText body).toList
  let key := "STATUS_OK:".toList
  if key <+: trimmed then
    let code := trimText (String.ofList (trimmed.drop key.length))
    if code = "" then ⟨[], .open, none⟩
    else ⟨[⟨none, code, some code, some now, none⟩], .closed, none⟩
  else if upperAscii (String.ofList trimmed) ∈
      ["STATUS_CANCEL", "ACCESS_CANCEL", "STATUS_REVOKE", "NO_ACTIVATION"] then .closed
  else ⟨[], .open, none⟩

/-- The stub's messages. -/
def stubReceived : ActivationCheck :=
  ⟨[⟨some "Naivolt", "Your code is 123456", some "123456", none, none⟩], .open, none⟩

/-- What the adapter of a supplier reads in the body of a success answer at the time `now`, none
when the body is unreadable. -/
def readCheck (p : Parsers) (live : Bool) (now : Time) :
    Supplier → List UInt8 → Option ActivationCheck
  | .primary, bytes =>
      if live then ((p.slice bytes).bind (FiveSimReply.read p)).map (fivesimActivationCheck p)
      else some stubReceived
  | .smspool, bytes => (p.json bytes).map parseSmspoolCheck
  | .activate _, bytes => some (parseStatus now (p.text bytes))

/-! ## What a supplier holds -/

/-- A message as its supplier has it. -/
structure Held where
  sender : Option String
  text : String
  arrival : Option Time
  deriving DecidableEq

/-- The message an adapter has read.  The `handler_api.php` suppliers give no time of arrival. -/
def heldBy (s : Supplier) (m : Sms) : Held :=
  ⟨m.sender, m.text, match s with
    | .activate _ => none
    | _ => m.receivedAt⟩

/-- **What a message is does not depend on when it is read.** -/
lemma heldBy_readCheck (p : Parsers) (live : Bool) (now now' : Time) (s : Supplier)
    (bytes : List UInt8) :
    (readCheck p live now s bytes).map (fun c => c.messages.map (heldBy s)) =
      (readCheck p live now' s bytes).map (fun c => c.messages.map (heldBy s)) := by
  cases s with
  | activate f =>
      simp only [readCheck, parseStatus, Option.map_some]
      split
      · split <;> rfl
      · split <;> rfl
  | _ => rfl

/-- A message that a body has, by what its supplier writes there: an entry of 5SIM's list, with the
first of its dates that can be read; SMSPool's full text, or else its code; the code behind
`STATUS_OK:`. -/
def BodyHas (p : Parsers) (live : Bool) : Supplier → List UInt8 → Held → Prop
  | .primary, bytes, h => live = true ∧ ∃ json reply, p.slice bytes = some json ∧
      FiveSimReply.read p json = some reply ∧ ∃ m ∈ reply.sms, h =
        ⟨m.sender, m.text,
          (m.date.bind (parseRfc3339Loose p)).or (m.createdAt.bind (parseRfc3339Loose p))⟩
  | .smspool, bytes, h => h.sender = none ∧ h.arrival = none ∧ ∃ v, p.json bytes = some v ∧
      (nonEmptyText (v.get? "full_sms")).or
        (nonEmptyText ((v.get? "sms").or (v.get? "code"))) = some h.text
  | .activate _, bytes, h => h.sender = none ∧ h.arrival = none ∧ h.text ≠ "" ∧
      ∃ rest, (trimText (p.text bytes)).toList = "STATUS_OK:".toList ++ rest ∧
        trimText (String.ofList rest) = h.text

/-- **No message of a body is lost** on the way to the inbox. -/
lemma exists_of_bodyHas {p : Parsers} {live : Bool} {now : Time} {s : Supplier}
    {bytes : List UInt8} {read : ActivationCheck} {h : Held}
    (hread : readCheck p live now s bytes = some read) (hbody : BodyHas p live s bytes h) :
    ∃ m ∈ read.messages, heldBy s m = h := by
  cases s with
  | primary =>
      obtain ⟨hlive, json, reply, hslice, hreply, m, hm, rfl⟩ := hbody
      rw [readCheck, if_pos hlive, hslice, Option.bind_some, hreply, Option.map_some] at hread
      cases hread
      exact ⟨m.sms p, List.mem_map.mpr ⟨m, hm, rfl⟩, rfl⟩
  | smspool =>
      obtain ⟨hsender, harrival, v, hjson, htext⟩ := hbody
      obtain ⟨sender, text, arrival⟩ := h
      obtain rfl : sender = none := hsender
      obtain rfl : arrival = none := harrival
      rw [readCheck, hjson, Option.map_some] at hread
      cases hread
      unfold parseSmspoolCheck
      dsimp only at htext ⊢
      rcases hfull : nonEmptyText (v.get? "full_sms") with _ | full
      · -- Without a full text the code is the text.
        rw [hfull, Option.none_or] at htext
        rw [htext]
        exact ⟨_, List.mem_singleton_self _, rfl⟩
      · rw [hfull] at htext
        cases htext
        rcases nonEmptyText ((v.get? "sms").or (v.get? "code")) with _ | code
        · exact ⟨_, List.mem_singleton_self _, rfl⟩
        · exact ⟨_, List.mem_singleton_self _, rfl⟩
  | activate f =>
      obtain ⟨hsender, harrival, hne, rest, hsplit, htext⟩ := hbody
      obtain ⟨sender, text, arrival⟩ := h
      obtain rfl : sender = none := hsender
      obtain rfl : arrival = none := harrival
      have hparsed : parseStatus now (p.text bytes) = read := Option.some.inj hread
      rw [← hparsed, parseStatus]
      dsimp only at hne htext ⊢
      rw [if_pos ⟨rest, hsplit.symm⟩, hsplit, List.drop_left, htext, if_neg hne]
      exact ⟨_, List.mem_singleton_self _, rfl⟩

/-- The row keeps the message: an arrival the supplier gives is the row's. -/
structure Message.Keeps (r : Message) (h : Held) : Prop where
  sender : r.sender = h.sender
  text : r.text = h.text
  arrival : ∀ t, h.arrival = some t → r.receivedAt = t

/-- What the suppliers hold for each order, every message under a key of its own. -/
structure Holdings where
  held : Uuid → Set Held
  key : Uuid → Held → MessageKey
  distinct : ∀ id, Set.InjOn (key id) (held id)

/-- The check shows messages of the order's supplier under their keys. -/
def ShownAsHeld (p : Parsers) (cfg : Config) (H : Holdings) (id : Uuid) (check : ActivationCheck)
    (w : World) : Prop :=
  ∀ row, w.orders.get? id = some row → ∃ s, cfg.providers.askRoute row.provider = some s ∧
    (check.messages = [] ∨ ∃ clock bytes read,
      readCheck p cfg.providers.primaryLive clock s bytes = some read ∧
        check.messages = read.messages) ∧
    ∀ providerOrderId, row.providerOrderId = some providerOrderId → ∀ m ∈ check.messages,
      heldBy s m ∈ H.held id ∧ messageKey providerOrderId m = H.key id (heldBy s m)

/-- A check is applied to an order that is not refunded, under no claim but a current one. -/
def Applies (id : Uuid) (token : Option Uuid) (w : World) : Prop :=
  ∃ row, w.orders.get? id = some row ∧ staleClaim row token w.now = false ∧
    row.status.isRefunded = false

/-- Every check that is applied shows what is held. -/
def PollsAsHeld (p : Parsers) (cfg : Config) (H : Holdings) (op : Op) (w : World) : Prop :=
  match op with
  | .numbers (.applyCheck id token check) => Applies id token w → ShownAsHeld p cfg H id check w
  | _ => True

/-! ## Keys -/

/-- The id that a message goes by, if it has one. -/
def Sms.keyId (m : Sms) : Option String := m.providerMessageId.filter (· ≠ "")

/-- Two messages have one key exactly when they have one id, or no id and the same sender, text,
code and arrival. -/
lemma messageKey_eq_iff {providerOrderId : String} {m m' : Sms} :
    messageKey providerOrderId m = messageKey providerOrderId m' ↔
      m.keyId = m'.keyId ∧ (m.keyId = none → m.sender = m'.sender ∧ m.text = m'.text ∧
        m.code = m'.code ∧ m.receivedAt = m'.receivedAt) := by
  have hkey : ∀ m : Sms, messageKey providerOrderId m =
      m.keyId.elim (.digest providerOrderId m.sender m.text m.code m.receivedAt) .sid := by
    intro m
    unfold messageKey Sms.keyId
    rcases m.providerMessageId with _ | sid
    · rfl
    · rw [Option.filter_some]
      by_cases hsid : sid = ""
      · simp [hsid]
      · simp [hsid]
  rw [hkey, hkey]
  rcases m.keyId with _ | sid
  · rcases m'.keyId with _ | sid'
    · simp
    · simp
  · rcases m'.keyId with _ | sid'
    · simp
    · simp

/-- A 5SIM message goes by the id of its entry. -/
lemma keyId_fivesim {p : Parsers} {reply : FiveSimReply} {m : Sms}
    (hm : m ∈ (fivesimActivationCheck p reply).messages) :
    ∃ entry ∈ reply.sms, m = entry.sms p ∧
      m.keyId = (entry.id.bind fivesimOrderId).filter (· ≠ "") := by
  obtain ⟨entry, hentry, rfl⟩ := List.mem_map.mp hm
  exact ⟨entry, hentry, rfl, rfl⟩

/-- Two checks of an SMSPool activation show a message under one key exactly when its text and its
code are the same. -/
lemma parseSmspoolCheck_key_eq_iff {providerOrderId : String} {v v' : Json} {m m' : Sms}
    (hm : m ∈ (parseSmspoolCheck v).messages) (hm' : m' ∈ (parseSmspoolCheck v').messages) :
    messageKey providerOrderId m = messageKey providerOrderId m' ↔
      m.text = m'.text ∧ m.code = m'.code := by
  have shape : ∀ {u : Json} {x : Sms}, x ∈ (parseSmspoolCheck u).messages →
      x = ⟨none, x.text, x.code, none, none⟩ := by
    intro u x hx
    unfold parseSmspoolCheck at hx
    dsimp only at hx
    split at hx
    · exact absurd hx List.not_mem_nil
    · cases List.mem_singleton.mp hx
      rfl
    · cases List.mem_singleton.mp hx
      rfl
  rw [shape hm, shape hm', messageKey_eq_iff]
  simp [Sms.keyId]

/-- Two checks of a `handler_api.php` activation that show a code show it under one key exactly
when the code is the same and the clocks agree. -/
lemma parseStatus_key_eq_iff {providerOrderId body body' : String} {now now' : Time} {m m' : Sms}
    (hm : m ∈ (parseStatus now body).messages) (hm' : m' ∈ (parseStatus now' body').messages) :
    messageKey providerOrderId m = messageKey providerOrderId m' ↔
      m.text = m'.text ∧ now = now' := by
  have shape : ∀ {t : Time} {b : String} {x : Sms}, x ∈ (parseStatus t b).messages →
      x = ⟨none, x.text, some x.text, some t, none⟩ := by
    intro t b x hx
    unfold parseStatus at hx
    dsimp only at hx
    split at hx
    · split at hx
      · exact absurd hx List.not_mem_nil
      · cases List.mem_singleton.mp hx
        rfl
    · split at hx <;> exact absurd hx List.not_mem_nil
  rw [shape hm, shape hm', messageKey_eq_iff]
  simp [Sms.keyId]

/-! ## The inbox -/

section Inbox

variable {now : Time} {H : Holdings} {orderId id : Uuid} {providerOrderId : String}
  {inbox out : List Message} {s : Supplier}

/-- The keys of an order's rows. -/
def inboxKeys (inbox : List Message) (id : Uuid) : List MessageKey :=
  (inboxOf inbox id).map Message.key

/-- The rows of every order have keys of their own and keep messages that are held. -/
structure InboxHolds (H : Holdings) (inbox : List Message) : Prop where
  distinct : ∀ id, (inboxKeys inbox id).Nodup
  held : ∀ r ∈ inbox, ∃ h ∈ H.held r.orderId, r.key = H.key r.orderId h ∧ r.Keeps h

lemma mem_inboxKeys {k : MessageKey} :
    k ∈ inboxKeys inbox id ↔ ∃ r ∈ inbox, r.orderId = id ∧ r.key = k := by
  simp [inboxKeys, inboxOf, and_assoc]

/-- What storing one message does. -/
lemma insertMessage_cases (now : Time) (orderId : Uuid) (providerOrderId : String)
    (inbox : List Message) (mid : Uuid) (m : Sms) :
    (messageKey providerOrderId m ∈ inboxKeys inbox orderId ∧
      insertMessage now orderId providerOrderId inbox mid m = inbox) ∨
    (messageKey providerOrderId m ∉ inboxKeys inbox orderId ∧
      insertMessage now orderId providerOrderId inbox mid m =
        ⟨mid, orderId, m.sender, m.text, m.code, m.receivedAt.getD now,
          messageKey providerOrderId m⟩ :: inbox) := by
  unfold insertMessage
  split
  · rename_i h
    refine .inl ⟨mem_inboxKeys.mpr ?_, rfl⟩
    simpa using h
  · rename_i h
    refine .inr ⟨fun hmem => h ?_, rfl⟩
    simpa using mem_inboxKeys.mp hmem

lemma insertMessage_holds {mid : Uuid} {m : Sms} (hI : InboxHolds H inbox)
    (hheld : heldBy s m ∈ H.held orderId)
    (hkey : messageKey providerOrderId m = H.key orderId (heldBy s m)) :
    InboxHolds H (insertMessage now orderId providerOrderId inbox mid m) := by
  rcases insertMessage_cases now orderId providerOrderId inbox mid m with ⟨-, h⟩ | ⟨hnew, h⟩
  · rw [h]
    exact hI
  · rw [h]
    constructor
    · intro id
      have hdistinct := hI.distinct id
      by_cases hid : orderId = id
      · subst hid
        simp only [inboxKeys, inboxOf, List.filter_cons, decide_true, if_true, List.map_cons,
          List.nodup_cons]
        exact ⟨hnew, hdistinct⟩
      · simpa [inboxKeys, inboxOf, hid] using hdistinct
    · intro r hr
      rcases List.mem_cons.mp hr with rfl | hr
      · refine ⟨heldBy s m, hheld, hkey, rfl, rfl, fun t ht => ?_⟩
        have harrival : m.receivedAt = some t := by
          cases s with
          | activate f => cases ht
          | _ => exact ht
        simp [harrival]
      · exact hI.held r hr

/-- Storing a check's messages keeps the inbox and leaves every one of them stored. -/
lemma insertMessages_holds {ids : List Uuid} {incoming : List Sms} (hI : InboxHolds H inbox)
    (hshown : ∀ m ∈ incoming, heldBy s m ∈ H.held orderId ∧
      messageKey providerOrderId m = H.key orderId (heldBy s m))
    (h : insertMessages now orderId providerOrderId inbox ids incoming = some out) :
    InboxHolds H out ∧ ∀ m ∈ incoming, messageKey providerOrderId m ∈ inboxKeys out orderId := by
  induction incoming generalizing inbox ids with
  | nil =>
      cases ids <;> cases h <;> exact ⟨hI, fun m hm => absurd hm List.not_mem_nil⟩
  | cons m incoming ih =>
      cases ids with
      | nil => cases h
      | cons mid ids =>
          have htail : insertMessages now orderId providerOrderId
              (insertMessage now orderId providerOrderId inbox mid m) ids incoming = some out := h
          obtain ⟨hheld, hkey⟩ := hshown m List.mem_cons_self
          obtain ⟨hout, hstored⟩ := ih (insertMessage_holds hI hheld hkey)
            (fun m' hm' => hshown m' (List.mem_cons_of_mem _ hm')) htail
          refine ⟨hout, fun m' hm' => ?_⟩
          rcases List.mem_cons.mp hm' with rfl | hm'
          · have hnow : messageKey providerOrderId m' ∈ inboxKeys
                (insertMessage now orderId providerOrderId inbox mid m') orderId := by
              rcases insertMessage_cases now orderId providerOrderId inbox mid m' with
                ⟨hmem, heq⟩ | ⟨-, heq⟩
              · rw [heq]
                exact hmem
              · rw [heq]
                exact mem_inboxKeys.mpr ⟨_, List.mem_cons_self, rfl, rfl⟩
            obtain ⟨r, hr, hid, hk⟩ := mem_inboxKeys.mp hnow
            exact mem_inboxKeys.mpr ⟨r, (insertMessages_suffix htail).subset hr, hid, hk⟩
          · exact hstored m' hm'

/-- What a check stores. -/
lemma stored_of_applyCheck {fresh : List Uuid} {token : Option Uuid} {check : ActivationCheck}
    {db db' : NumbersDb} {r : Except ApiError TransitionOutcome} {es : Log}
    (h : applyCheck now fresh id token check db = some (r, db', es)) :
    (db' = db ∧ r ≠ .ok .applied) ∨ ∃ row ids, db.orders.get? id = some row ∧
      staleClaim row token now = false ∧ row.status.isRefunded = false ∧
      mergeInbox now id row check.messages ids db.messages = some (.ok db'.messages) := by
  unfold applyCheck at h
  split at h
  · cases h
    exact .inl ⟨rfl, nofun⟩
  · rename_i row hrow
    split at h
    · cases h
      exact .inl ⟨rfl, nofun⟩
    · rename_i hclaim
      split at h
      · cases h
        exact .inl ⟨rfl, nofun⟩
      · rename_i hopen
        split at h
        · cases h
        · obtain ⟨messages | messages, hmerge, h⟩ := Option.bind_eq_some_iff.mp h
          · cases h
            exact .inl ⟨rfl, nofun⟩
          rw [(decideCheck_messages (fun _ => rfl) h).1]
          exact .inr ⟨row, _, hrow, by simpa using hclaim, by simpa using hopen, hmerge⟩

/-- Merging a check that shows what is held. -/
lemma mergeInbox_holds {row : Order} {incoming : List Sms} {ids : List Uuid}
    (hI : InboxHolds H inbox)
    (hshown : ∀ providerOrderId, row.providerOrderId = some providerOrderId → ∀ m ∈ incoming,
      heldBy s m ∈ H.held id ∧ messageKey providerOrderId m = H.key id (heldBy s m))
    (h : mergeInbox now id row incoming ids inbox = some (.ok out)) :
    InboxHolds H out ∧ ∀ m ∈ incoming, H.key id (heldBy s m) ∈ inboxKeys out id := by
  rcases mergeInbox_eq_ok h with ⟨rfl, rfl⟩ | ⟨providerOrderId, hactivation, -, h⟩
  · exact ⟨hI, fun m hm => absurd hm List.not_mem_nil⟩
  · have hshown := hshown providerOrderId hactivation
    obtain ⟨hout, hstored⟩ := insertMessages_holds hI hshown h
    exact ⟨hout, fun m hm => (hshown m hm).2 ▸ hstored m hm⟩

end Inbox

/-! ## Every run -/

section Runs

variable {p : Parsers} {cfg : Config} {H : Holdings}

/-- The inbox has one row for the message, and the row keeps it. -/
def OneRow (H : Holdings) (inbox : List Message) (id : Uuid) (h : Held) : Prop :=
  (inboxKeys inbox id).count (H.key id h) = 1 ∧
    ∃ r ∈ inboxOf inbox id, r.key = H.key id h ∧ r.Keeps h

lemma InboxHolds.oneRow {inbox : List Message} {id : Uuid} {h : Held} (hI : InboxHolds H inbox)
    (hheld : h ∈ H.held id) (hstored : H.key id h ∈ inboxKeys inbox id) :
    OneRow H inbox id h := by
  refine ⟨List.count_eq_one_of_mem (hI.distinct id) hstored, ?_⟩
  obtain ⟨r, hr, rfl, hk⟩ := mem_inboxKeys.mp hstored
  obtain ⟨h', hheld', hk', hkeeps⟩ := hI.held r hr
  -- One key, one message.
  have hsame : h' = h := H.distinct r.orderId hheld' hheld (hk'.symm.trans hk)
  exact ⟨r, List.mem_filter.mpr ⟨hr, by simp⟩, hk, hsame ▸ hkeeps⟩

/-- An applied check that shows what is held keeps the inbox and has every message stored. -/
lemma holds_of_applyCheck {tid : ℕ} {id : Uuid} {token : Option Uuid} {check : ActivationCheck}
    {ω : Oracle} {w w' : World} {r : Except ApiError TransitionOutcome}
    (hP : PollsAsHeld p cfg H (.numbers (.applyCheck id token check)) w)
    (he : exec cfg tid (.numbers (.applyCheck id token check)) ω w = some (r, w'))
    (hI : InboxHolds H w.messages) :
    InboxHolds H w'.messages ∧ (r = .ok .applied → ∃ row s, w.orders.get? id = some row ∧
      cfg.providers.askRoute row.provider = some s ∧
      ∀ m ∈ check.messages, heldBy s m ∈ H.held id ∧
        H.key id (heldBy s m) ∈ inboxKeys w'.messages id) := by
  obtain ⟨-, db, es, hexec, rfl⟩ := exec_numbers he
  rcases stored_of_applyCheck hexec with ⟨rfl, hr⟩ | ⟨row, ids, hrow, hclaim, hopen, hmerge⟩
  · exact ⟨hI, fun h => absurd h hr⟩
  · obtain ⟨s, hroute, -, hshown⟩ := hP ⟨row, hrow, hclaim, hopen⟩ row hrow
    obtain ⟨hout, hstored⟩ := mergeInbox_holds hI hshown hmerge
    refine ⟨hout, fun _ => ⟨row, s, hrow, hroute, fun m hm => ⟨?_, hstored m hm⟩⟩⟩
    cases hactivation : row.providerOrderId with
    | some providerOrderId => exact (hshown providerOrderId hactivation m hm).1
    | none =>
        rcases mergeInbox_eq_ok hmerge with ⟨hnone, -⟩ | ⟨_, hsome, -⟩
        · exact absurd (hnone ▸ hm) List.not_mem_nil
        · cases hactivation.symm.trans hsome

lemma inboxHolds_exec {tid : ℕ} {op : Op} {ω : Oracle} {r : op.Res} {w w' : World}
    (hP : PollsAsHeld p cfg H op w) (he : exec cfg tid op ω w = some (r, w'))
    (hI : InboxHolds H w.messages) : InboxHolds H w'.messages := by
  cases op with
  | numbers nop =>
      by_cases hop : ∃ id token check, nop = .applyCheck id token check
      · obtain ⟨id, token, check, rfl⟩ := hop
        exact (holds_of_applyCheck hP he hI).1
      · obtain ⟨-, db, es, hexec, rfl⟩ := exec_numbers he
        rcases execNumbers_messages hexec with heq | ⟨id, token, check, rfl, -⟩
        · have hsame : ((w.draw ω).putNumbers db es).messages = w.messages := heq
          rw [hsame]
          exact hI
        · exact absurd ⟨id, token, check, rfl⟩ hop
  | _ =>
      cases (exec_move he).2 <;> exact hI

/-- A run in which every applied check shows what is held. -/
abbrev Polling (p : Parsers) (cfg : Config) (H : Holdings) (s s' : State) : Prop :=
  (backend cfg).Reachable (onOps fun _ _ _ op _ w => PollsAsHeld p cfg H op w) s s'

lemma inboxHolds_of_reachable {s s' : State} (h : Polling p cfg H s s')
    (hI : InboxHolds H s.world.messages) : InboxHolds H s'.world.messages := by
  refine Reachable.guarded_inv (I := fun w => InboxHolds H w.messages) hI
    (fun e w w' he hI => ?_) (fun tid req b op ω r w w' hP he hI => inboxHolds_exec hP he hI) h
  obtain ⟨now, wallets, tiers, -, rfl⟩ := execEnv_eq he
  exact hI

/-- Rows stay. -/
lemma messages_of_polling {s s' : State} (h : Polling p cfg H s s') :
    s.world.messages <:+ s'.world.messages :=
  Reachable.world_rel (R := fun w w' => w.messages <:+ w'.messages)
    (fun _ => List.suffix_rfl) List.IsSuffix.trans (fun w w' hstep => by
      cases hstep with
      | env he =>
          obtain ⟨now, wallets, tiers, -, rfl⟩ := execEnv_eq he
          exact List.suffix_rfl
      | exec he => exact messages_of_exec he) h

end Runs

/-- **One row for each message.**  In every run in which the suppliers show each message they hold
under a key of its own, every row of an inbox keeps a message that is held, and once a check has
been applied the inbox has exactly one row for each message the check showed, and for each message
that the body had which it was read from, whatever is polled by whom before and after. -/
theorem inbox_deduplicated {p : Parsers} {cfg : Config} {H : Holdings} {now : Time}
    {wallets : List Wallet} {s s₁ s' : State} (h : Polling p cfg H (initial now wallets) s)
    {tid : ℕ} {id : Uuid} {token : Option Uuid} {check : ActivationCheck} {ω : Oracle}
    (hshown : ShownAsHeld p cfg H id check s.world)
    (happlied : exec cfg tid (.numbers (.applyCheck id token check)) ω s.world =
      some (.ok .applied, s₁.world))
    (h' : Polling p cfg H s₁ s') :
    InboxHolds H s'.world.messages ∧
    ∃ row supplier, s.world.orders.get? id = some row ∧
      cfg.providers.askRoute row.provider = some supplier ∧
      (∀ m ∈ check.messages, OneRow H s'.world.messages id (heldBy supplier m)) ∧
      ∀ clock bytes read, readCheck p cfg.providers.primaryLive clock supplier bytes = some read →
        check.messages = read.messages → ∀ held,
        BodyHas p cfg.providers.primaryLive supplier bytes held →
          OneRow H s'.world.messages id held := by
  have hempty : InboxHolds H (initial now wallets).world.messages :=
    ⟨fun id => List.nodup_nil, fun r hr => absurd hr List.not_mem_nil⟩
  have hI := inboxHolds_of_reachable h hempty
  obtain ⟨hI₁, hstored⟩ := holds_of_applyCheck (fun _ => hshown) happlied hI
  have hI' := inboxHolds_of_reachable h' hI₁
  obtain ⟨row, supplier, hrow, hroute, hall⟩ := hstored rfl
  have hone : ∀ m ∈ check.messages, OneRow H s'.world.messages id (heldBy supplier m) := by
    intro m hm
    obtain ⟨hheld, hmem⟩ := hall m hm
    refine hI'.oneRow hheld ?_
    obtain ⟨r, hr, hid, hk⟩ := mem_inboxKeys.mp hmem
    exact mem_inboxKeys.mpr ⟨r, (messages_of_polling h').subset hr, hid, hk⟩
  refine ⟨hI', row, supplier, hrow, hroute, hone, fun clock bytes read hread hsame held hbody => ?_⟩
  obtain ⟨m, hm, rfl⟩ := exists_of_bodyHas hread hbody
  exact hone m (hsame ▸ hm)

/-- No check is applied. -/
def appliesNone : Op → Bool
  | .numbers (.applyCheck ..) => false
  | _ => true

/-- The stub holds one message for every order. -/
def stubHoldings : Holdings where
  held _ := {heldBy .primary ⟨some "Naivolt", "Your code is 123456", some "123456", none, none⟩}
  key _ _ := .digest "a1" (some "Naivolt") "Your code is 123456" (some "123456") none
  distinct _ := by
    rintro h rfl h' rfl -
    rfl

/-- The check was applied. -/
def wasApplied : Except ApiError TransitionOutcome → Bool
  | .ok .applied => true
  | _ => false

lemma wasApplied_iff {r : Except ApiError TransitionOutcome} :
    wasApplied r = true ↔ r = .ok .applied := by
  rcases r with e | outcome
  · simp [wasApplied]
  · cases outcome <;> simp [wasApplied]

/-- The stub's message is stored once. -/
theorem inbox_deduplicated_stub : ∃ (s s₁ : State) (ω : Oracle),
    exec stubConfig 3 (.numbers (.applyCheck 200 none stubReceived)) ω s.world =
      some (.ok .applied, s₁.world) ∧
    OneRow stubHoldings s₁.world.messages 200 ⟨some "Naivolt", "Your code is 123456", none⟩ := by
  obtain ⟨s, hs, hrow, hexec⟩ := exists_reachable_of_run (backend stubConfig)
    (onOps fun _ _ _ op _ _ => appliesNone op = true) (initial 0 []) codeAwaited
    (fun s => (s.world.orders.get? 200).map (fun o => (o.provider, o.providerOrderId)) =
        some (.stub, some "a1") ∧
      (exec stubConfig 3 (.numbers (.applyCheck 200 none stubReceived)) { fresh := [400, 401] }
        s.world).any (fun r => wasApplied r.1) = true)
    (by decide +kernel)
  obtain ⟨o, ho, hlabel⟩ := Option.map_eq_some_iff.mp hrow
  obtain ⟨hprovider, hactivation⟩ := Prod.mk.inj hlabel
  obtain ⟨⟨r, w₁⟩, he, hr⟩ := (Option.any_eq_true _ _).mp hexec
  cases wasApplied_iff.mp hr
  have hshown : ShownAsHeld plainParsers stubConfig stubHoldings 200 stubReceived s.world := by
    intro row hrow
    cases ho.symm.trans hrow
    refine ⟨.primary, by rw [hprovider]; rfl, .inr ⟨0, [], stubReceived, rfl, rfl⟩, ?_⟩
    intro providerOrderId hid m hm
    cases hactivation.symm.trans hid
    cases List.mem_singleton.mp hm
    exact ⟨rfl, rfl⟩
  have hpolling : Polling plainParsers stubConfig stubHoldings (initial 0 []) s :=
    hs.mono fun s a => onOps_mono fun tid req b op ω w hop => by
      cases op with
      | numbers nop => cases nop <;> trivial
      | _ => trivial
  have hnow : Polling plainParsers stubConfig stubHoldings ⟨w₁, s.task⟩ ⟨w₁, s.task⟩ := .init
  obtain ⟨-, row, supplier, hrow, hroute, hone, -⟩ :=
    inbox_deduplicated hpolling hshown he hnow
  cases ho.symm.trans hrow
  rw [hprovider] at hroute
  cases hroute
  exact ⟨s, ⟨w₁, s.task⟩, _, he, hone _ (List.mem_singleton.mpr rfl)⟩

/-- A deployment that also buys from SMSHub. -/
def smsHubConfig : Config := { stubConfig with providers := ⟨true, false, [.smsHub]⟩ }

/-- SMSHub holds one code.  The owner's page is loaded twice, and both loads ask for it before
either stores it. -/
def overlappingPolls : List Move :=
  topUp 0 7 100 101 102 5000 ++
  serve 2 (.createOrder 7 50 (offerOrder 9 1000))
    [{ fresh := [200, 201, 2 <<< 100],
       catalogue := offerCatalogue 1000 [⟨.smshub, "0", "tg", ""⟩] },
      { fresh := [203] }, {}, { buy := .bought ⟨"p1", "+2341", none, none, none,
        .activate .smsHub⟩ }, {}, {}, {}] ++
  serve 3 (.getOrder 7 200) [{}, { check := .ok (parseStatus 0 "STATUS_OK:1234") }] ++
  wait 1 ::
  serve 4 (.getOrder 7 200) [{}, { check := .ok (parseStatus 1 "STATUS_OK:1234") }] ++
  [.resume 3 { fresh := [400, 401] }, .resume 4 { fresh := [402, 403] }]

/-- **One code, two rows.** -/
theorem code_stored_twice : ∃ s : State,
    (backend smsHubConfig).Reachable unguarded (initial 0 []) s ∧
    (parseStatus 0 "STATUS_OK:1234").messages.map (heldBy (.activate .smsHub)) =
      [⟨none, "1234", none⟩] ∧
    (parseStatus 1 "STATUS_OK:1234").messages.map (heldBy (.activate .smsHub)) =
      [⟨none, "1234", none⟩] ∧
    (inboxOf s.world.messages 200).map (fun r => (r.text, r.receivedAt)) =
      [("1234", 1), ("1234", 0)] := by
  obtain ⟨s, hs, hrows⟩ := exists_reachable_of_run (backend smsHubConfig) unguarded
    (initial 0 []) overlappingPolls
    (fun s => (inboxOf s.world.messages 200).map (fun r => (r.text, r.receivedAt)) =
      [("1234", 1), ("1234", 0)])
    (by decide +kernel)
  exact ⟨s, hs, by decide +kernel, by decide +kernel, hrows⟩

end Naivolt
