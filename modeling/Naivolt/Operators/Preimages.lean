import Naivolt.Operators.Chain

/-!
# What the audit hash is taken over

`audit_hash` hashes its arguments one after the other, with nothing in between, and an absent
predecessor like an empty one.  So one text may be that of several records: of every way to cut it
into seven fields (`boundary_unhashed`).

`audit_hash_apart` says of which two records the boundaries cannot be mistaken.  Records of
different total lengths have no text in common; if field by field the lengths agree, no boundary
has moved; and the records that `insert_audit` hashes can be cut in one way only, between the hash
of the predecessor, `admin`, the two identifiers and the braces of the snapshots
(`newRow_written`).
-/

namespace Naivolt

open Foundation

namespace AuditFields

variable {a b : AuditFields}

/-- What each argument adds to the text. -/
def fields (f : AuditFields) : List (List Char) :=
  [(f.prev.getD "").toList, f.actorType.toList, f.actorId.toList, f.action.toList,
    f.target.toList, f.before.toList, f.after.toList]

lemma flatten_fields (f : AuditFields) : f.fields.flatten = f.text := by
  simp [fields, text, auditText]

/-- The boundaries of two records cannot be mistaken. -/
inductive ToldApart (a b : AuditFields) : Prop where
  /-- The lengths of their fields add up differently. -/
  | lengths (h : (a.fields.map List.length).sum ≠ (b.fields.map List.length).sum)
  /-- Field by field they have the same lengths, and both have a predecessor or neither has. -/
  | alike (hprev : a.prev.isSome = b.prev.isSome)
      (h : a.fields.map List.length = b.fields.map List.length)
  /-- Both are of the form the operator actions write. -/
  | written (ha : a.Written) (hb : b.Written)

/-- Fields of one text that have not moved are the same, but for an absent predecessor that
passes for an empty one. -/
lemma eq_of_alike (htext : a.text = b.text) (hprev : a.prev.isSome = b.prev.isSome)
    (hlen : a.fields.map List.length = b.fields.map List.length) : a = b := by
  have hfields : a.fields = b.fields :=
    List.eq_iff_flatten_eq.mpr ⟨by rw [flatten_fields, flatten_fields, htext], hlen⟩
  simp only [fields, List.cons.injEq, String.toList_inj, and_true] at hfields
  obtain ⟨hp, htype, hid, haction, htarget, hbefore, hafter⟩ := hfields
  have hp : a.prev = b.prev := by
    rcases ha : a.prev with _ | p <;> rcases hb : b.prev with _ | p' <;>
      simp_all
  cases a
  cases b
  simp_all

/-- **Where boundaries cannot be mistaken, a text has one record.** -/
lemma ToldApart.eq_of_text (h : a.ToldApart b) (htext : a.text = b.text) : a = b := by
  cases h with
  | lengths h =>
      rw [← List.length_flatten, ← List.length_flatten, flatten_fields, flatten_fields, htext] at h
      exact absurd rfl h
  | alike hprev h => exact eq_of_alike htext hprev h
  | written ha hb => exact ha.eq_of_text hb htext

end AuditFields

/-- **Which records the audit hash tells apart**: those whose boundaries cannot be mistaken. -/
theorem audit_hash_apart (sha256 : List Char → String) (a b : AuditFields)
    (hfree : sha256 a.text = sha256 b.text → a.text = b.text) (h : a.ToldApart b) :
    a ≠ b → a.hash sha256 ≠ b.hash sha256 :=
  fun hne heq => hne (h.eq_of_text (hfree heq))

/-- **What the operator actions write is of the written form**, whatever they read before it. -/
theorem newRow_written (sha256 : List Char → String) (id : ℕ) (operator : Uuid)
    (action : AuditAction) (target : Uuid) (before after : Snapshot) (prev : Option String)
    (hprev : ∀ p ∈ prev, IsDigest p) :
    (newRow sha256 id operator action.text target.hyphenated before after prev).hashed.Written :=
  (newRow_wellFormed ..).written hprev

/-- A record, and what it becomes when a letter of its target passes to the action. -/
def creditRecord : AuditFields := ⟨none, "admin", "7", "credit", "s1", "{}", "{}"⟩
def creditsRecord : AuditFields := ⟨none, "admin", "7", "credits", "1", "{}", "{}"⟩

/-- **A boundary moves, and the hash stays.** -/
theorem boundary_unhashed : ¬ ∀ (sha256 : List Char → String), Function.Injective sha256 →
    ∀ a b : AuditFields, a ≠ b → a.hash sha256 ≠ b.hash sha256 := by
  intro h
  exact h String.ofList (fun _ _ heq => String.ofList_injective heq) creditRecord creditsRecord
    (by decide) (by decide)

/-- Another target of the same length is told apart. -/
theorem audit_hash_apart_target :
    creditRecord.hash String.ofList ≠ { creditRecord with target := "s2" }.hash String.ofList :=
  audit_hash_apart String.ofList creditRecord { creditRecord with target := "s2" }
    (fun h => String.ofList_injective h) (.alike rfl (by decide)) (by decide)

end Naivolt
