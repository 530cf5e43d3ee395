import Naivolt.Ledger.Journal
import Naivolt.Foundation.Delimited

/-!
# References and ledger keys

Every producer names its journals in one global key space.  The shapes are collected here as
the source formats them: `reservationKey`, `settleKey` and `refundKey` for a number order,
`creditKey` for a top-up, `depositKey` for an on-chain transfer.  A payout has no shape of
its own: it posts under whatever `Idempotency-Key` its client sent.

The shapes are pairwise different and each is injective in what it encodes, which is all the
separation the ledger has.
-/

namespace Naivolt

open Foundation

/-! ## References -/

/-- `Uuid::new_v4().simple().to_string()[..n].to_uppercase()`. -/
def upperDigits (n : ℕ) (u : Uuid) : String := String.ofList ((u.digits.take n).map Char.toUpper)

/-- A number order's reference. -/
def orderReference (u : Uuid) : String := "NVNO-" ++ upperDigits 10 u

/-- A top-up's reference, echoed by the funding provider. -/
def fundingReference (u : Uuid) : String := "NVFD-" ++ upperDigits 12 u

/-- A payout's reference. -/
def payoutReference (u : Uuid) : String := "NVLT-" ++ u.simple

/-! ## Keys -/

/-- The reservation key of `create_order`, scoped to the user. -/
def reservationKey (user key : Uuid) : String :=
  "number-reserve:" ++ user.hyphenated ++ ":" ++ key.hyphenated

def settleKey (reference : String) : String := reference ++ ":settle"
def refundKey (reference : String) : String := reference ++ ":refund"
def creditKey (reference : String) : String := reference ++ ":credit"

/-- `idempotency_key` of `deposit.rs`: the natural key of a transfer, namespaced by what is
done to it. -/
def depositKey (kind : String) (network : Network) (txHash : String) (outputIndex : ℤ) : String :=
  kind ++ ":" ++ network.asStr ++ ":" ++ txHash ++ ":" ++ toString outputIndex

/-! ## The shapes are injective -/

namespace Uuid

lemma length_hyphenated (u : Uuid) : u.hyphenated.toList.length = 36 := by
  simp [hyphenated]

end Uuid

lemma reservationKey_injective {u u' k k' : Uuid}
    (h : reservationKey u k = reservationKey u' k') : u = u' ∧ k = k' := by
  have hl := congrArg String.toList h
  simp only [reservationKey, String.toList_append, List.append_assoc] at hl
  have h₁ := List.append_cancel_left hl
  obtain ⟨hu, h₂⟩ := List.append_inj h₁ (by simp only [Uuid.length_hyphenated])
  have hk := List.append_cancel_left h₂
  exact ⟨Uuid.hyphenated_injective (String.toList_inj.mp hu),
    Uuid.hyphenated_injective (String.toList_inj.mp hk)⟩

lemma settleKey_injective : Function.Injective settleKey := fun r r' h => by
  have hl := congrArg String.toList h
  simp only [settleKey, String.toList_append] at hl
  exact String.toList_inj.mp (List.append_cancel_right hl)

lemma refundKey_injective : Function.Injective refundKey := fun r r' h => by
  have hl := congrArg String.toList h
  simp only [refundKey, String.toList_append] at hl
  exact String.toList_inj.mp (List.append_cancel_right hl)

lemma creditKey_injective : Function.Injective creditKey := fun r r' h => by
  have hl := congrArg String.toList h
  simp only [creditKey, String.toList_append] at hl
  exact String.toList_inj.mp (List.append_cancel_right hl)

lemma colon_notMem_natRepr (n : ℕ) : ':' ∉ n.repr.toList := by
  intro h
  have := Nat.isDigit_of_mem_toDigits (b := 10) (n := n) (by decide) (by decide)
    (by simpa [Nat.repr] using h)
  exact absurd this (by decide)

lemma colon_notMem_intToString (i : ℤ) : ':' ∉ (toString i).toList := by
  cases i with
  | ofNat n => exact colon_notMem_natRepr n
  | negSucc n =>
      intro h
      have h' : ':' ∈ ("-" ++ (n.succ).repr).toList := h
      rw [String.toList_append, List.mem_append] at h'
      rcases h' with h' | h'
      · exact absurd h' (by decide)
      · exact colon_notMem_natRepr _ h'

/-- The natural key of a transfer determines its network, hash and output index, although the
hash is text the chain chooses. -/
lemma depositKey_injective {kind : String} {n n' : Network} {t t' : String} {i i' : ℤ}
    (h : depositKey kind n t i = depositKey kind n' t' i') : n = n' ∧ t = t' ∧ i = i' := by
  have hl := congrArg String.toList h
  simp only [depositKey, String.toList_append, List.append_assoc] at hl
  have h₁ := List.append_cancel_left (List.append_cancel_left hl)
  have hcolon : (":" : String).toList = [':'] := by decide
  rw [hcolon] at h₁
  simp only [List.cons_append, List.nil_append] at h₁
  obtain ⟨hn, h₂⟩ := Delimited.split_first n.colon_notMem_asStr n'.colon_notMem_asStr h₁
  obtain ⟨ht, hi⟩ := Delimited.split_last (colon_notMem_intToString i)
    (colon_notMem_intToString i') h₂
  exact ⟨Network.asStr_injective (String.toList_inj.mp hn), String.toList_inj.mp ht,
    Int.repr_injective (String.toList_inj.mp hi)⟩

/-! ## The shapes are different -/

/-- The keys a producer other than `create_payout` posts under, by producer. -/
inductive KeyShape : JournalKind → String → Prop where
  | reserve (user key : Uuid) : KeyShape .numberReserve (reservationKey user key)
  | settle (u : Uuid) : KeyShape .numberSettle (settleKey (orderReference u))
  | refund (u : Uuid) : KeyShape .numberRefund (refundKey (orderReference u))
  | credit (u : Uuid) : KeyShape .ngnDeposit (creditKey (fundingReference u))
  | deposit (n : Network) (t : String) (i : ℤ) :
      KeyShape .depositCredit (depositKey "deposit" n t i)
  | reversal (n : Network) (t : String) (i : ℤ) :
      KeyShape .depositReversal (depositKey "reversal" n t i)

/-- What the first characters of a key already tell. -/
def keyTag : JournalKind → List Char
  | .numberReserve => "numb".toList
  | .numberSettle | .numberRefund => "NVNO".toList
  | .ngnDeposit => "NVFD".toList
  | .depositCredit => "depo".toList
  | .depositReversal => "reve".toList
  | _ => []

lemma KeyShape.take_tag {k : JournalKind} {key : String} (h : KeyShape k key) :
    key.toList.take 4 = keyTag k := by
  cases h <;>
    simp [reservationKey, settleKey, refundKey, creditKey, depositKey, orderReference,
      fundingReference, keyTag]

lemma settleKey_ne_refundKey (r r' : String) : settleKey r ≠ refundKey r' := by
  intro h
  have hl := congrArg String.toList h
  simp only [settleKey, refundKey, String.toList_append] at hl
  exact Delimited.suffix_ne (by decide) (by decide) hl

/-- **One key, one producer.**  No key has the shape of two producers. -/
theorem KeyShape.kind_unique {k k' : JournalKind} {key : String} (h : KeyShape k key)
    (h' : KeyShape k' key) : k = k' := by
  have htag : keyTag k = keyTag k' := h.take_tag.symm.trans h'.take_tag
  cases h with
  | settle u =>
      generalize hkey : settleKey (orderReference u) = key at h'
      cases h' with
      | refund u' => exact absurd hkey (settleKey_ne_refundKey _ _)
      | settle => rfl
      | _ => exact absurd htag (by decide)
  | refund u =>
      generalize hkey : refundKey (orderReference u) = key at h'
      cases h' with
      | settle u' => exact absurd hkey.symm (settleKey_ne_refundKey _ _)
      | refund => rfl
      | _ => exact absurd htag (by decide)
  | reserve u key =>
      generalize hkey : reservationKey u key = key' at h'
      cases h' with
      | reserve => rfl
      | _ => exact absurd htag (by decide)
  | credit u =>
      generalize hkey : creditKey (fundingReference u) = key at h'
      cases h' with
      | credit => rfl
      | _ => exact absurd htag (by decide)
  | deposit n t i =>
      generalize hkey : depositKey "deposit" n t i = key at h'
      cases h' with
      | deposit => rfl
      | _ => exact absurd htag (by decide)
  | reversal n t i =>
      generalize hkey : depositKey "reversal" n t i = key at h'
      cases h' with
      | reversal => rfl
      | _ => exact absurd htag (by decide)

end Naivolt
