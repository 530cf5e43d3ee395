import Naivolt.Foundation.Delimited
import Naivolt.Foundation.HashChain
import Naivolt.Operators.Snapshot

/-!
# The audit log

The table `audit_log`, `audit_hash` of `operator.rs` and the two statements of `insert_audit`.
A row carries the hash of the row that was the last one when its action read the log, and its own
hash, taken over that and over what it says.

`Verifies` is what can be checked of a log that is presented: every row follows the one before
it and has the hash its columns give.  That alone shows little.  A log whose newest rows are gone
passes, and so does one where a letter has gone from one column of a row to the next, as the hash
is taken over the columns one after the other.

It takes the last hash, remembered, and rows of the form the operator actions write
(`AuditRow.WellFormed`).  Then, as long as SHA-256 shows no collision among the texts concerned, a
log that verifies is all there was up to its last hash (`Verifies.unique`): a row is missing, in
another place or changed in none.  For of the fields that are hashed in that form there is one way
to cut the text (`AuditFields.Written.eq_of_text`).
-/

namespace Naivolt

open Foundation

/-! ## Rows -/

/-- A row of `audit_log`. -/
structure AuditRow where
  id : ℕ
  actorType : String
  actorId : Uuid
  action : String
  target : String
  before : Jsonb
  after : Jsonb
  prevHash : Option String
  hash : String
  deriving DecidableEq

/-- What `audit_hash` hashes: its arguments one after the other. -/
def auditText (prev : Option String) (actorType actorId action target : String)
    (before after : List Char) : List Char :=
  (prev.getD "").toList ++ (actorType.toList ++ (actorId.toList ++ (action.toList ++
    (target.toList ++ (before ++ after)))))

/-- `audit_hash`, given hexadecimal SHA-256. -/
def auditHash (sha256 : List Char → String) (prev : Option String)
    (actorType actorId action target : String) (before after : List Char) : String :=
  sha256 (auditText prev actorType actorId action target before after)

/-- The arguments of `audit_hash`. -/
structure AuditFields where
  prev : Option String
  actorType : String
  actorId : String
  action : String
  target : String
  before : String
  after : String
  deriving DecidableEq

namespace AuditFields

/-- The hashed text. -/
def text (f : AuditFields) : List Char :=
  auditText f.prev f.actorType f.actorId f.action f.target f.before.toList f.after.toList

/-- `audit_hash`, given hexadecimal SHA-256. -/
def hash (sha256 : List Char → String) (f : AuditFields) : String :=
  auditHash sha256 f.prev f.actorType f.actorId f.action f.target f.before.toList f.after.toList

end AuditFields

namespace AuditRow

/-- The hashed text, from the stored columns. -/
def text (r : AuditRow) : List Char :=
  auditText r.prevHash r.actorType r.actorId.hyphenated r.action r.target
    (jsonText (readBack r.before)) (jsonText (readBack r.after))

/-- The fields it is the text of. -/
def hashed (r : AuditRow) : AuditFields :=
  ⟨r.prevHash, r.actorType, r.actorId.hyphenated, r.action, r.target,
    String.ofList (jsonText (readBack r.before)), String.ofList (jsonText (readBack r.after))⟩

lemma text_hashed (r : AuditRow) : r.hashed.text = r.text := by
  simp only [AuditFields.text, hashed, text, String.toList_ofList]

/-- What the row says: the columns its hash is taken over. -/
def columns (r : AuditRow) : String × Uuid × String × String × List Char × List Char :=
  (r.actorType, r.actorId, r.action, r.target, jsonText (readBack r.before),
    jsonText (readBack r.after))

/-- The columns are such as the operator actions write: by an admin, about an identifier, the
action not a piece of JSON. -/
structure WellFormed (r : AuditRow) : Prop where
  actorType : r.actorType = "admin"
  target : ∃ u : Uuid, r.target = u.hyphenated
  action : openBrace ∉ r.action.toList

end AuditRow

/-- How audit rows are linked. -/
def auditLinking : Linking AuditRow String
    (String × Uuid × String × String × List Char × List Char) where
  hash := AuditRow.hash
  prev := AuditRow.prevHash
  content := AuditRow.columns

/-- What can be checked of a log, newest row first. -/
structure Verifies (sha256 : List Char → String) (log : List AuditRow) : Prop where
  linked : auditLinking.Linked log
  hashes : ∀ r ∈ log, r.hash = sha256 r.text

/-! ## What a text determines -/

/-- Hexadecimal SHA-256 is sixty-four digits. -/
def IsDigest (s : String) : Prop :=
  s.toList.length = 64 ∧ ∀ c ∈ s.toList, ∃ d < 16, c = hexDigit d

/-- No two rows of the logs have texts that SHA-256 confuses. -/
def NoCollision (sha256 : List Char → String) (log log' : List AuditRow) : Prop :=
  ∀ r ∈ log, ∀ r' ∈ log', sha256 r.text = sha256 r'.text → r.text = r'.text

lemma length_hyphenated (u : Uuid) : u.hyphenated.toList.length = 36 := by
  simp [Uuid.hyphenated]

lemma brace_notMem_hyphenated (u : Uuid) : openBrace ∉ u.hyphenated.toList := by
  have hdigit : ∀ n < 16, openBrace ≠ hexDigit n := by decide
  have hdigits : ∀ l : List Char, l ⊆ u.digits → openBrace ∉ l := fun l hl hmem => by
    obtain ⟨d, hd, hc⟩ := mem_hexDigits (hl hmem)
    exact hdigit d hd hc
  have hdash : openBrace ≠ '-' := by decide
  have hdrop : ∀ n, u.digits.drop n ⊆ u.digits := fun n => List.drop_subset n _
  have htake : ∀ n m, (u.digits.drop n).take m ⊆ u.digits := fun n m =>
    fun _ hc => hdrop n (List.take_subset m _ hc)
  simp only [Uuid.hyphenated, String.toList_ofList, List.mem_append, List.mem_cons, hdash, false_or,
    not_or]
  exact ⟨hdigits _ (List.take_subset _ _), hdigits _ (htake _ _), hdigits _ (htake _ _),
    hdigits _ (htake _ _), hdigits _ (hdrop _)⟩

lemma jsonText_cons (f : List (String × AuditValue)) :
    jsonText f = openBrace :: (membersText AuditValue.toText f ++ [closeBrace]) := rfl

namespace AuditFields

variable {a b : AuditFields}

/-- The form of what the operator actions write: after the hash of a predecessor, if there is one,
by an admin about an identifier, the action not a piece of JSON, with two objects. -/
structure Written (f : AuditFields) : Prop where
  prev : ∀ p ∈ f.prev, IsDigest p
  actorType : f.actorType = "admin"
  actorId : ∃ u : Uuid, f.actorId = u.hyphenated
  action : openBrace ∉ f.action.toList
  target : ∃ u : Uuid, f.target = u.hyphenated
  before : ∃ fields, f.before = String.ofList (jsonText fields)
  after : ∃ fields, f.after = String.ofList (jsonText fields)

/-- What follows the hash of the predecessor determines the rest. -/
lemma Written.eq_of_rest (ha : a.Written) (hb : b.Written) (hprev : a.prev = b.prev)
    (h : auditText none a.actorType a.actorId a.action a.target a.before.toList a.after.toList =
      auditText none b.actorType b.actorId b.action b.target b.before.toList b.after.toList) :
    a = b := by
  obtain ⟨prev, actorType, actorId, action, target, before, after⟩ := a
  obtain ⟨prev', actorType', actorId', action', target', before', after'⟩ := b
  obtain ⟨-, rfl, ⟨u, rfl⟩, haction, ⟨v, rfl⟩, ⟨f, rfl⟩, g, rfl⟩ := ha
  obtain ⟨-, rfl, ⟨u', rfl⟩, haction', ⟨v', rfl⟩, ⟨f', rfl⟩, g', rfl⟩ := hb
  replace hprev : prev = prev' := hprev
  simp only [auditText, Option.getD_none, String.toList_ofList] at h
  have h := List.append_cancel_left (List.append_cancel_left h)
  obtain ⟨hactor, h⟩ := List.append_inj h (by rw [length_hyphenated, length_hyphenated])
  -- The first brace is where `before` begins.
  have hbrace : ∀ (x : String) (v : Uuid), openBrace ∉ x.toList →
      openBrace ∉ x.toList ++ v.hyphenated.toList := fun x v hx hmem =>
    (List.mem_append.mp hmem).elim hx (brace_notMem_hyphenated v)
  have hsplit : (action.toList ++ v.hyphenated.toList) ++ openBrace ::
        (membersText AuditValue.toText f ++ [closeBrace] ++ jsonText g) =
      (action'.toList ++ v'.hyphenated.toList) ++ openBrace ::
        (membersText AuditValue.toText f' ++ [closeBrace] ++ jsonText g') := by
    simpa [jsonText_cons, List.append_assoc] using h
  obtain ⟨hhead, htail⟩ := Delimited.split_first (hbrace _ _ haction) (hbrace _ _ haction') hsplit
  obtain ⟨hact, htarget⟩ := List.append_inj' hhead
    (by rw [length_hyphenated, length_hyphenated])
  have htail : jsonText f ++ jsonText g = jsonText f' ++ jsonText g' :=
    congrArg (openBrace :: ·) htail
  obtain ⟨hbefore, hafter⟩ := jsonText_append_inj htail
  have haction : action = action' := String.toList_injective hact
  rw [hprev, String.toList_injective hactor, haction, String.toList_injective htarget, hbefore,
    hafter]

/-- **A text is cut in one way** into fields of the written form. -/
theorem Written.eq_of_text (ha : a.Written) (hb : b.Written) (h : a.text = b.text) : a = b := by
  -- No digest begins like the actor's type.
  have hadmin : ∀ (p : String) (x y : List Char), IsDigest p →
      p.toList ++ x ≠ "admin".toList ++ y := by
    rintro p x y ⟨hlen, hhex⟩ heq
    have htake := congrArg (List.take 5) heq
    rw [List.take_append_of_le_length (by omega), List.take_append_of_le_length (by decide)]
      at htake
    have hm : 'm' ∈ p.toList.take 5 := htake ▸ (by decide)
    obtain ⟨d, hd, hc⟩ := hhex _ (List.mem_of_mem_take hm)
    exact absurd hc ((by decide : ∀ d < 16, 'm' ≠ hexDigit d) d hd)
  unfold text at h
  rcases hprev : a.prev with _ | p <;> rcases hprev' : b.prev with _ | p' <;>
    simp only [hprev, hprev'] at h
  · exact ha.eq_of_rest hb (hprev.trans hprev'.symm) h
  · rw [ha.actorType] at h
    exact absurd h.symm (hadmin p' _ _ (hb.prev p' hprev'))
  · rw [hb.actorType] at h
    exact absurd h (hadmin p _ _ (ha.prev p hprev))
  · obtain ⟨hpp, h⟩ := List.append_inj h
      (by simp only [Option.getD_some, (ha.prev p hprev).1, (hb.prev p' hprev').1])
    have hpp : p = p' := String.toList_injective hpp
    exact ha.eq_of_rest hb (by rw [hprev, hprev', hpp]) (congrArg (("" : String).toList ++ ·) h)

end AuditFields

lemma AuditRow.WellFormed.written {r : AuditRow} (h : r.WellFormed)
    (hprev : ∀ p ∈ r.prevHash, IsDigest p) : r.hashed.Written :=
  ⟨hprev, h.actorType, ⟨_, rfl⟩, h.action, h.target, ⟨_, rfl⟩, ⟨_, rfl⟩⟩

/-- **A text determines its row**, as far as that is under the hash. -/
lemma prev_columns_of_text {r r' : AuditRow} (hr : r.WellFormed) (hr' : r'.WellFormed)
    (hp : ∀ p ∈ r.prevHash, IsDigest p) (hp' : ∀ p ∈ r'.prevHash, IsDigest p)
    (h : r.text = r'.text) : r.prevHash = r'.prevHash ∧ r.columns = r'.columns := by
  have hhashed : r.hashed = r'.hashed := by
    refine (hr.written hp).eq_of_text (hr'.written hp') ?_
    rw [r.text_hashed, r'.text_hashed, h]
  simp only [AuditRow.hashed, AuditFields.mk.injEq, String.ofList_inj] at hhashed
  obtain ⟨hprev, htype, hactor, haction, htarget, hbefore, hafter⟩ := hhashed
  refine ⟨hprev, ?_⟩
  simp only [AuditRow.columns, htype, Uuid.hyphenated_injective hactor, haction, htarget, hbefore,
    hafter]

section Verifying

variable {sha256 : List Char → String} {log log' : List AuditRow}

/-- In a log that verifies every hash is a digest, also those that are carried. -/
lemma Verifies.prev_digest (h : Verifies sha256 log) (hsha : ∀ t, IsDigest (sha256 t))
    {r : AuditRow} (hr : r ∈ log) : ∀ p ∈ r.prevHash, IsDigest p := by
  intro p hp
  obtain ⟨newer, older, rfl⟩ := List.append_of_mem hr
  have hprev := h.linked.prev_eq
  rw [show auditLinking.prev r = some p from hp] at hprev
  obtain ⟨t, ht, rfl⟩ := Option.map_eq_some_iff.mp hprev.symm
  have hmem : t ∈ newer ++ r :: older :=
    List.mem_append_right _ (List.mem_cons_of_mem _ (List.mem_of_head? ht))
  have hdigest := hsha t.text
  rw [← h.hashes t hmem] at hdigest
  exact hdigest

/-- Rows of logs that verify agree if their hashes do. -/
lemma Verifies.faithful (h : Verifies sha256 log) (h' : Verifies sha256 log')
    (hwell : ∀ r ∈ log, r.WellFormed) (hwell' : ∀ r ∈ log', r.WellFormed)
    (hsha : ∀ t, IsDigest (sha256 t)) (hcoll : NoCollision sha256 log log') :
    auditLinking.Faithful log log' := by
  intro r hr r' hr' heq
  have htext : r.text = r'.text := by
    refine hcoll r hr r' hr' ?_
    rw [← h.hashes r hr, ← h'.hashes r' hr']
    exact heq
  exact prev_columns_of_text (hwell r hr) (hwell' r' hr') (h.prev_digest hsha hr)
    (h'.prev_digest hsha hr') htext

/-- **Tampering shows.**  Logs that verify, of well-formed rows, and end in one hash say the same,
row by row. -/
theorem Verifies.unique (h : Verifies sha256 log) (h' : Verifies sha256 log')
    (hwell : ∀ r ∈ log, r.WellFormed) (hwell' : ∀ r ∈ log', r.WellFormed)
    (hsha : ∀ t, IsDigest (sha256 t)) (hcoll : NoCollision sha256 log log')
    (hlast : log.head?.map AuditRow.hash = log'.head?.map AuditRow.hash) :
    log.map AuditRow.columns = log'.map AuditRow.columns :=
  h.linked.unique h'.linked (h.faithful h' hwell hwell' hsha hcoll) hlast

/-- What is older verifies by itself. -/
lemma Verifies.of_append {newer older : List AuditRow} (h : Verifies sha256 (newer ++ older)) :
    Verifies sha256 older := by
  refine ⟨?_, fun r hr => h.hashes r (List.mem_append_right _ hr)⟩
  have hlinked := h.linked
  clear h
  induction newer with
  | nil => exact hlinked
  | cons r newer ih => exact ih hlinked.2

end Verifying

/-! ## Statements -/

/-- The table as it is ordered by identifier, the greatest first, with one more row. -/
def insertRow (r : AuditRow) (log : List AuditRow) : List AuditRow :=
  log.orderedInsert (fun a b => b.id ≤ a.id) r

/-- `SELECT hash FROM audit_log ORDER BY id DESC LIMIT 1`. -/
def lastHash (log : List AuditRow) : Option String := log.head?.map AuditRow.hash

/-- `fields->>key = value`, for a value that is the text of no flag and no object. -/
def hasField (fields : Jsonb) (key value : String) : Bool :=
  fields.any fun f => f.1 = key && f.2 = .text value

/-- `SELECT id FROM audit_log WHERE action = … AND target = … AND after->>'idempotencyKey' = …
ORDER BY id ASC LIMIT 1`. -/
def findReplay (log : List AuditRow) (action target key : String) : Option ℕ :=
  (log.reverse.find? fun r =>
    r.action = action && r.target = target && hasField r.after "idempotencyKey" key).map (·.id)

/-- The row `insert_audit` inserts. -/
def newRow (sha256 : List Char → String) (id : ℕ) (operator : Uuid) (action target : String)
    (before after : Snapshot) (prev : Option String) : AuditRow where
  id := id
  actorType := "admin"
  actorId := operator
  action := action
  target := target
  before := before.jsonb
  after := after.jsonb
  prevHash := prev
  hash := auditHash sha256 prev "admin" operator.hyphenated action target (jsonText before.fields)
    (jsonText after.fields)

/-- **The stored columns give the stored hash.** -/
lemma newRow_hash (sha256 : List Char → String) (id : ℕ) (operator : Uuid)
    (action target : String) (before after : Snapshot) (prev : Option String) :
    (newRow sha256 id operator action target before after prev).hash =
      sha256 (newRow sha256 id operator action target before after prev).text := by
  simp only [newRow, AuditRow.text, auditHash, readBack_jsonb]

lemma mem_insertRow {r t : AuditRow} {log : List AuditRow} :
    t ∈ insertRow r log ↔ t = r ∨ t ∈ log := List.mem_orderedInsert _

/-- A row with the greatest identifier becomes the last. -/
lemma insertRow_last {r : AuditRow} {log : List AuditRow} (h : ∀ t ∈ log, t.id < r.id) :
    insertRow r log = r :: log := by
  cases log with
  | nil => rfl
  | cons t log =>
      have hle : t.id ≤ r.id := le_of_lt (h t List.mem_cons_self)
      simp only [insertRow, List.orderedInsert_cons, hle, if_true]

end Naivolt
