import Naivolt.Core

/-!
# Ledger accounts

The chart of accounts and the sign convention: debits are positive, credits negative, so a
liability (money owed to a user) is a negative raw sum and `AccountKind.userFacingBalance`
flips it back.

`ledger_accounts` has one row for each kind, user and asset (two unique indexes), so an
account is named here by that triple rather than by the identifier of its row.
-/

namespace Naivolt

/-- `AccountKind`. -/
inductive AccountKind where
  | userCrypto | userNgn | ngnPayablePending | numberPayablePending
  | custodyDepositAddrs | custodyHot | custodyMaster | ngnFloat | supplierFloat
  | spreadRevenue | feeRevenue | numberRevenue
  | gasExpense | payoutFeeExpense
  deriving DecidableEq, Repr

namespace AccountKind

/-- Money owed to someone outside the company. -/
def isLiability : AccountKind → Bool
  | userCrypto | userNgn | ngnPayablePending | numberPayablePending => true
  | _ => false

/-- Belongs to an individual user. -/
def isUserScoped : AccountKind → Bool
  | userCrypto | userNgn => true
  | _ => false

/-- `user_facing_balance`: the number a human should see. -/
def userFacingBalance (k : AccountKind) (rawSum : ℚ) : ℚ :=
  if k.isLiability then -rawSum else rawSum

@[simp] lemma userFacingBalance_userNgn (x : ℚ) : userNgn.userFacingBalance x = -x := rfl

@[simp] lemma userFacingBalance_numberPayablePending (x : ℚ) :
    numberPayablePending.userFacingBalance x = -x := rfl

end AccountKind

/-- An account, named by the columns its unique index covers. -/
structure Account where
  kind : AccountKind
  userId : Option Uuid
  asset : Asset
  deriving DecidableEq, Repr

namespace Account

/-- The account `lock_user_ngn_account` locks. -/
def userNgn (user : Uuid) : Account := ⟨.userNgn, some user, .ngn⟩

/-- The account `platform_account` finds or creates. -/
def platform (kind : AccountKind) : Account := ⟨kind, none, .ngn⟩

/-- A user's balance in a crypto asset. -/
def userCrypto (user : Uuid) (asset : Asset) : Account := ⟨.userCrypto, some user, asset⟩

/-- Coins in deposit addresses. -/
def custody (asset : Asset) : Account := ⟨.custodyDepositAddrs, none, asset⟩

lemma userNgn_injective : Function.Injective userNgn := fun _ _ h => by
  simpa [userNgn] using h

end Account

end Naivolt
