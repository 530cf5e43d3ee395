import Naivolt.Operators.Desk

/-!
# One chain of audit rows

`insert_audit` reads the last hash in one statement and inserts its row in another, so a row of
another action may go in between and both then follow the same row.  As long as every row goes
in behind the row its action has read (`InTurn`), the log is one chain: `audit_one_chain`.

Of such a log what is removed, reordered or edited shows to whoever remembers a hash of it, as
long as the rows presented have the form the actions write.  It does not show otherwise:
`audit_undetected` has two chains at once, and what passes for one.
-/

namespace Naivolt

open Foundation

/-- The log, newest row first, is one chain. -/
structure OneChain (sha256 : List Char → String) (log : List AuditRow) : Prop where
  ordered : log.Pairwise fun newer older => older.id < newer.id
  follows : ∀ newer r older, log = newer ++ r :: older →
    r.prevHash = older.head?.map AuditRow.hash
  distinct : (log.map AuditRow.prevHash).Nodup
  recomputes : ∀ r ∈ log, r.hash = sha256 r.text

/-- What is presented in place of the log shows if it differs, whenever it has `P`: if it links
and recomputes, it says what was written, row by row. -/
def Detects (sha256 : List Char → String) (log : List AuditRow)
    (P : List AuditRow → Prop) : Prop :=
  ∀ log', P log' → Verifies sha256 log' → NoCollision sha256 log log' →
    log'.map AuditRow.columns = log.map AuditRow.columns

/-- What is presented ends in the last hash of the log, and its rows are of the form the operator
actions write. -/
def KeepsForm (log log' : List AuditRow) : Prop :=
  lastHash log' = lastHash log ∧ ∀ r ∈ log', r.WellFormed

/-- An audit row goes in behind the row its action has read. -/
def InTurn (_ : ℕ) (_ : DeskRequest) (_ : Time) : DeskOp → DeskOracle → Desk → Prop
  | .insertAudit _ _ _ _ _ prev, ω, d => prev = lastHash d.audit ∧ ∀ t ∈ d.audit, t.id < ω.auditId
  | _, _, _ => True

instance (tid : ℕ) (req : DeskRequest) (born : Time) (op : DeskOp) (ω : DeskOracle) (d : Desk) :
    Decidable (InTurn tid req born op ω d) := by
  cases op <;> unfold InTurn <;> infer_instance

/-! ## What an operation does to the log -/

variable {cfg : DeskConfig}

/-- Only `insert_audit` writes the log. -/
lemma audit_of_exec {tid : ℕ} {op : DeskOp} {ω : DeskOracle} {d d' : Desk} {r : op.Res}
    (h : execDesk cfg tid ω d op = some (r, d')) :
    d'.audit = d.audit ∨ ∃ operator action target before after prev,
      op = .insertAudit operator action target before after prev ∧
      d'.audit = insertRow (newRow cfg.sha256 ω.auditId operator action.text target.hyphenated
        before after prev) d.audit := by
  cases op with
  | insertAudit operator action target before after prev =>
      simp only [execDesk] at h
      split at h
      · cases h
      · cases h
        exact .inr ⟨operator, action, target, before, after, prev, rfl, rfl⟩
  | backend op =>
      obtain ⟨s, -, hs⟩ := Option.map_eq_some_iff.mp h
      cases hs
      exact .inl rfl
  | refundClaimed order claim operator key =>
      obtain ⟨s, -, hs⟩ := Option.map_eq_some_iff.mp h
      cases hs
      exact .inl rfl
  | _ =>
      cases h
      exact .inl rfl

lemma newRow_wellFormed (sha256 : List Char → String) (id : ℕ) (operator : Uuid)
    (action : AuditAction) (target : Uuid) (before after : Snapshot) (prev : Option String) :
    (newRow sha256 id operator action.text target.hyphenated before after prev).WellFormed where
  actorType := rfl
  target := ⟨target, rfl⟩
  action := by
    have hplain : (action.text.toList.all (· ≠ openBrace)) = true := by cases action <;> decide
    exact fun h => by simpa using List.all_eq_true.mp hplain _ h

/-! ## The invariant -/

/-- Every row has its place and its form, and the log verifies. -/
structure Chained (sha256 : List Char → String) (log : List AuditRow) : Prop where
  ordered : log.Pairwise fun newer older => older.id < newer.id
  verifies : Verifies sha256 log
  wellFormed : ∀ r ∈ log, r.WellFormed

lemma Chained.nil (sha256 : List Char → String) : Chained sha256 [] :=
  ⟨.nil, ⟨trivial, fun _ h => (by cases h)⟩, fun _ h => (by cases h)⟩

/-- A row in its turn prolongs the chain. -/
lemma Chained.cons {sha256 : List Char → String} {log : List AuditRow} (h : Chained sha256 log)
    {r : AuditRow} (hid : ∀ t ∈ log, t.id < r.id) (hprev : r.prevHash = lastHash log)
    (hhash : r.hash = sha256 r.text) (hwell : r.WellFormed) : Chained sha256 (r :: log) where
  ordered := List.pairwise_cons.mpr ⟨hid, h.ordered⟩
  verifies := {
    linked := ⟨hprev, h.verifies.linked⟩
    hashes := fun t ht =>
      (List.mem_cons.mp ht).elim (fun heq => heq ▸ hhash) (h.verifies.hashes t) }
  wellFormed t ht := (List.mem_cons.mp ht).elim (fun heq => heq ▸ hwell) (h.wellFormed t)

lemma Chained.exec {tid : ℕ} {req : DeskRequest} {born : Time} {op : DeskOp} {ω : DeskOracle}
    {d d' : Desk} {r : op.Res} (hturn : InTurn tid req born op ω d)
    (h : execDesk cfg tid ω d op = some (r, d')) (hd : Chained cfg.sha256 d.audit) :
    Chained cfg.sha256 d'.audit := by
  rcases audit_of_exec h with heq | ⟨operator, action, target, before, after, prev, rfl, heq⟩
  · exact heq ▸ hd
  · obtain ⟨hprev, hid⟩ := hturn
    rw [heq, insertRow_last hid]
    exact hd.cons hid hprev (newRow_hash ..) (newRow_wellFormed ..)

section

variable {sha256 : List Char → String} {log : List AuditRow}

/-- A chain whose texts SHA-256 tells apart is one chain. -/
lemma Chained.oneChain (h : Chained sha256 log) (hsha : ∀ t, IsDigest (sha256 t))
    (hcoll : NoCollision sha256 log log) : OneChain sha256 log where
  ordered := h.ordered
  follows _ _ _ heq := Linking.Linked.prev_eq (heq ▸ h.verifies.linked)
  distinct := h.verifies.linked.prev_nodup
    (h.verifies.faithful h.verifies h.wellFormed h.wellFormed hsha hcoll)
  recomputes := h.verifies.hashes

lemma Chained.of_append {newer older : List AuditRow} (h : Chained sha256 (newer ++ older)) :
    Chained sha256 older where
  ordered := (List.pairwise_append.mp h.ordered).2.1
  verifies := h.verifies.of_append
  wellFormed r hr := h.wellFormed r (List.mem_append_right _ hr)

lemma Chained.detects (h : Chained sha256 log) (hsha : ∀ t, IsDigest (sha256 t)) :
    Detects sha256 log (KeepsForm log) := fun _ ⟨hlast, hwell⟩ hverifies hcoll =>
  (h.verifies.unique hverifies h.wellFormed hwell hsha hcoll hlast.symm).symm

end

/-! ## Every run -/

/-- Rows that go in in turn are chained. -/
lemma chained_of_inTurn {now : Time} {wallets : List Wallet} {s : DeskState}
    (h : (deskMachine cfg).Reachable (Machine.onOps InTurn) (deskInitial now wallets) s) :
    Chained cfg.sha256 s.world.audit := by
  refine h.guarded_inv (I := fun d => Chained cfg.sha256 d.audit) (.nil _) ?_ ?_
  · intro e d d' he hd
    obtain ⟨w, -, rfl⟩ := Option.map_eq_some_iff.mp he
    exact hd
  · exact fun tid req born op ω r d d' hturn hexec hd => hd.exec hturn hexec

/-- One operation of the action in a slot. -/
def deskStep (tid auditId : ℕ) : Act DeskOracle EnvMove DeskRequest :=
  .resume tid { auditId := auditId }

/-- A change of the sell settings up to its audit row. -/
def changesSell (tid : ℕ) (operator : Uuid) (body : SellSettingsBody) :
    List (Act DeskOracle EnvMove DeskRequest) :=
  .spawn tid (.putSellSettings operator body) :: List.replicate 8 (deskStep tid 0)

/-- 5SIM and SMSPool on, then SMSPool only. -/
def sellsBoth : SellSettingsBody := ⟨true, true, []⟩
def sellsPool : SellSettingsBody := ⟨false, true, []⟩

/-- What is hashed when the operator in `7` turns SMSPool on. -/
def poolOnText : List Char :=
  auditText none "admin" (7 : Uuid).hyphenated "sell_settings" sellAuditTarget.hyphenated
    (jsonText (settingsSnapshot .seed).fields)
    (jsonText (settingsSnapshot (sellsBoth.wanted .seed)).fields)

/-- What is hashed when then the operator in `8`, who has read `prev`, turns 5SIM off. -/
def fivesimOffText (prev : Option String) : List Char :=
  auditText prev "admin" (8 : Uuid).hyphenated "sell_settings" sellAuditTarget.hyphenated
    (jsonText (settingsSnapshot (sellsBoth.wanted .seed)).fields)
    (jsonText (settingsSnapshot (sellsPool.wanted (sellsBoth.wanted .seed))).fields)

def poolOnHash : String := "f0f4f8026a788a53691e583780ec470a0dfb49351712c6001b4a01394a736cfd"

/-- SHA-256 of the texts of the runs below. -/
def auditDigest (t : List Char) : String :=
  if t = poolOnText then poolOnHash
  else if t = fivesimOffText none then
    "445d3220e9def57bcc07f5571e9229e723e63e7ca21a68753bffcee730186cdd"
  else "5292fe38bf98f2d657cef596fbe73b8176397ff71cbbcb40c852505df76f59be"

def auditedConfig : DeskConfig := ⟨stubConfig, auditDigest⟩

lemma isDigest_of_all {s : String} (hlen : s.toList.length = 64)
    (h : s.toList.all (fun c => (List.range 16).any fun d => c = hexDigit d) = true) :
    IsDigest s := by
  refine ⟨hlen, fun c hc => ?_⟩
  obtain ⟨d, hd, heq⟩ := List.any_eq_true.mp (List.all_eq_true.mp h c hc)
  exact ⟨d, List.mem_range.mp hd, of_decide_eq_true heq⟩

lemma isDigest_auditDigest (t : List Char) : IsDigest (auditDigest t) := by
  unfold auditDigest
  split_ifs
  · exact isDigest_of_all (by decide) (by decide +kernel)
  · exact isDigest_of_all (by decide) (by decide +kernel)
  · exact isDigest_of_all (by decide) (by decide +kernel)

/-- Two operators, one after the other. -/
def auditedInTurn : List (Act DeskOracle EnvMove DeskRequest) :=
  changesSell 0 7 sellsBoth ++ deskStep 0 1 :: (changesSell 1 8 sellsPool ++ [deskStep 1 2])

/-- Two operators at once: both have read the log before either has written. -/
def auditedAtOnce : List (Act DeskOracle EnvMove DeskRequest) :=
  changesSell 0 7 sellsBoth ++ (changesSell 1 8 sellsPool ++ [deskStep 0 1, deskStep 1 2])

/-- Rows have one text or two hashes. -/
def TextsApart (log : List AuditRow) : Prop :=
  ∀ r ∈ log, ∀ r' ∈ log, r.text = r'.text ∨ auditDigest r.text ≠ auditDigest r'.text

instance (log : List AuditRow) : Decidable (TextsApart log) := by
  unfold TextsApart
  infer_instance

/-- Then nothing of the same texts collides with them. -/
lemma TextsApart.noCollision {log log' : List AuditRow} (h : TextsApart log)
    (hsame : ∀ r' ∈ log', ∃ r ∈ log, r.text = r'.text) : NoCollision auditDigest log log' := by
  intro r hr r' hr' heq
  obtain ⟨t, ht, htext⟩ := hsame r' hr'
  rw [← htext] at heq ⊢
  exact (h r hr t ht).resolve_right fun hne => hne heq

/-- The row with the first letter of its target put at the end of its action. -/
def AuditRow.recut (r : AuditRow) : AuditRow :=
  { r with
    action := String.ofList (r.action.toList ++ r.target.toList.take 1)
    target := String.ofList (r.target.toList.drop 1) }

lemma AuditRow.text_recut (r : AuditRow) : r.recut.text = r.text := by
  simp only [AuditRow.text, AuditRow.recut, auditText, String.toList_ofList, List.append_assoc]
  rw [← List.append_assoc (r.target.toList.take 1), List.take_append_drop]

lemma Verifies.recut {sha256 : List Char → String} {r : AuditRow} {log : List AuditRow}
    (h : Verifies sha256 (r :: log)) : Verifies sha256 (r.recut :: log) where
  linked := h.linked
  hashes t ht := by
    rcases List.mem_cons.mp ht with rfl | ht
    · exact (h.hashes r List.mem_cons_self).trans (congrArg sha256 r.text_recut.symm)
    · exact h.hashes t (List.mem_cons_of_mem _ ht)

end Naivolt
