import Naivolt.Numbers.Suppliers

/-!
# What a run records

`Event` is the history that run-level statements speak about: which journals were posted and
with what outcome, which claims were granted and which writes were made under them, which
purchase calls were started and how they were answered, which supplier was asked about which
activation, which rows were read, what the provider said of which charge, which top-ups were
given up, under which tier a payout was accepted.  The program never reads it.  A history is a
list, newest first, and `Recorded log e past` says that `e` was recorded when the history was
`past`.
-/

namespace Naivolt

/-- Who took a claim on an order. -/
inductive ClaimPurpose where
  | purchase | sweep | cancel | operator
  deriving DecidableEq, Repr

/-- Who asked for a claimed transition. -/
inductive Via where
  | buyer | customerCancel | reconciler | operator
  deriving DecidableEq, Repr

/-- The statements that change an order's status, its journals or its activation. -/
inductive WritePath where
  | assign | recoverAssign | markReview | applyCheck
  | applyClaimed (via : Via)
  deriving DecidableEq, Repr

/-- The paths whose guard also checks that the lease has not run out.  The reconciler's
recovery compares the token only. -/
def WritePath.checksLease : WritePath → Bool
  | .recoverAssign => false
  | _ => true

/-- A claim granted on an order. -/
structure Grant where
  order : Uuid
  claim : Claim
  purpose : ClaimPurpose
  tid : ℕ
  time : Time
  before : Order

/-- A committed change of status, journals or activation. -/
structure OrderWrite where
  order : Uuid
  path : WritePath
  token : Option Uuid
  time : Time
  before : Order
  after : Order

/-- A purchase call leaving for a supplier, with the order's row at that moment. -/
structure PurchaseCall where
  call : ℕ
  order : Uuid
  token : Uuid
  label : SupplierLabel
  tid : ℕ
  time : Time
  row : Option Order

/-- `ChargeState`, or a provider that could not be reached. -/
inductive ChargeState where
  | succeeded (amountNgn : ℚ)
  | failed (reason : String)
  | pending
  | unreachable
  deriving DecidableEq

/-- One entry of the history. -/
inductive Event where
  | posted (journal : Journal) (outcome : PostOutcome)
  | granted (g : Grant)
  | wrote (w : OrderWrite)
  | pinned (order : Uuid) (label : SupplierLabel) (before : Order)
  | purchaseStarted (c : PurchaseCall)
  | purchaseAnswered (call : ℕ) (order : Uuid) (answer : BuyAnswer)
  /-- A purchase answer, its in-purchase recovery, or the reconciler's recovery gave the
  activation to the order. -/
  | handed (order : Uuid) (label : SupplierLabel) (activation : Activation)
  /-- The reconciler read the activation from the order history. -/
  | found (order : Uuid) (activation : Activation)
  | asked (order : Uuid) (supplier : Supplier) (providerOrderId : String)
  /-- A handler read the order's row. -/
  | read (order : Uuid) (row : Order)
  /-- The funding provider was asked about a charge. -/
  | verified (reference : String) (answer : ChargeState)
  /-- A sweep closed the intent with that reference. -/
  | abandoned (reference : String)
  /-- A payout was accepted while its user had that tier. -/
  | accepted (payout : Uuid) (tier : KycTier)

/-- Entries that a statement on number orders makes. -/
def Event.ofOrders : Event → Bool
  | .posted .. | .granted .. | .wrote .. | .pinned .. | .handed .. | .read .. => true
  | _ => false

/-- A history, newest entry first. -/
abbrev Log := List Event

/-- The purchase calls of a history. -/
def purchaseCalls (log : Log) : List PurchaseCall :=
  log.filterMap fun e => match e with
    | .purchaseStarted c => some c
    | _ => none

lemma mem_purchaseCalls {log : Log} {c : PurchaseCall} :
    c ∈ purchaseCalls log ↔ Event.purchaseStarted c ∈ log := by
  simp only [purchaseCalls, List.mem_filterMap]
  constructor
  · rintro ⟨e, he, hc⟩
    split at hc
    · cases hc
      exact he
    · cases hc
  · exact fun h => ⟨_, h, rfl⟩

/-- The writes of a history. -/
def writesOf (log : Log) : List OrderWrite :=
  log.filterMap fun e => match e with
    | .wrote r => some r
    | _ => none

lemma mem_writesOf {log : Log} {r : OrderWrite} : r ∈ writesOf log ↔ Event.wrote r ∈ log := by
  simp only [writesOf, List.mem_filterMap]
  constructor
  · rintro ⟨e, he, hr⟩
    split at hr
    · cases hr
      exact he
    · cases hr
  · exact fun h => ⟨_, h, rfl⟩

/-- The entry `e` was recorded when the history was `past`. -/
def Recorded (log : Log) (e : Event) (past : Log) : Prop := e :: past <:+ log

lemma recorded_cons_iff {log past : Log} {a e : Event} :
    Recorded (a :: log) e past ↔ (e = a ∧ past = log) ∨ Recorded log e past := by
  unfold Recorded
  rw [List.suffix_cons_iff]
  simp

lemma Recorded.mem {log past : Log} {e : Event} (h : Recorded log e past) : e ∈ log :=
  h.subset List.mem_cons_self

lemma exists_recorded {log : Log} {e : Event} (h : e ∈ log) : ∃ past, Recorded log e past := by
  obtain ⟨new, past, rfl⟩ := List.append_of_mem h
  exact ⟨past, List.suffix_append _ _⟩

/-- An entry of a longer history is new, or was recorded before. -/
lemma recorded_append_iff {new log past : Log} {e : Event} :
    Recorded (new ++ log) e past ↔
      (∃ p, Recorded new e p ∧ past = p ++ log) ∨ Recorded log e past := by
  induction new with
  | nil =>
      simp only [List.nil_append, Recorded]
      constructor
      · exact .inr
      · rintro (⟨p, hp, -⟩ | h)
        · have := hp.length_le
          simp at this
        · exact h
  | cons a new ih =>
      rw [List.cons_append, recorded_cons_iff, ih]
      constructor
      · rintro (⟨rfl, rfl⟩ | ⟨p, hp, rfl⟩ | h)
        · exact .inl ⟨new, recorded_cons_iff.mpr (.inl ⟨rfl, rfl⟩), rfl⟩
        · exact .inl ⟨p, recorded_cons_iff.mpr (.inr hp), rfl⟩
        · exact .inr h
      · rintro (⟨p, hp, rfl⟩ | h)
        · rcases recorded_cons_iff.mp hp with ⟨rfl, rfl⟩ | hp
          · exact .inl ⟨rfl, rfl⟩
          · exact .inr (.inl ⟨p, hp, rfl⟩)
        · exact .inr (.inr h)

end Naivolt
