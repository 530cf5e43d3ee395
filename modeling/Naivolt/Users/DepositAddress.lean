import Naivolt.Numbers.Suppliers
import Naivolt.Watcher.Deposit

/-!
# The deposit address, and the minimum it comes with

`deposit_address` of `user_routes.rs` tells a user where to send an asset and how much at least.
The watcher has a table of its own, below which it ignores a transfer.  Both say that less would
cost more to sweep than it is worth, and the tables agree but for TRX and MATIC, which the first
does not list: `advertised_creditable_iff`.
-/

namespace Naivolt

/-! ## Assets as texts -/

/-- `Asset::as_str`. -/
def Asset.asStr : Asset → String
  | ngn => "NGN"
  | btc => "BTC"
  | eth => "ETH"
  | bnb => "BNB"
  | matic => "MATIC"
  | trx => "TRX"
  | sol => "SOL"
  | usdt => "USDT"
  | usdc => "USDC"

/-- `str::parse::<Asset>`. -/
def Asset.ofStr (s : String) : Option Asset :=
  match String.ofList (s.toList.map Char.toUpper) with
  | "NGN" => some ngn
  | "BTC" => some btc
  | "ETH" => some eth
  | "BNB" => some bnb
  | "MATIC" => some matic
  | "TRX" => some trx
  | "SOL" => some sol
  | "USDT" => some usdt
  | "USDC" => some usdc
  | _ => none

lemma Asset.asStr_injective : Function.Injective Asset.asStr := by
  intro a b h
  cases a <;> cases b <;> first | rfl | exact absurd h (by decide)

/-! ## The endpoint -/

namespace UserRoutes

/-- `resolve_network`. -/
def resolveNetwork (input : String) : Except ApiError (Chain × String) :=
  match String.ofList (lowerAscii input) with
  | "tron" => .ok (.tron, "TRC-20")
  | "ethereum" => .ok (.evm, "ERC-20")
  | "bsc" => .ok (.evm, "BEP-20")
  | "polygon" => .ok (.evm, "Polygon")
  | "base" => .ok (.evm, "Base")
  | "bitcoin" => .ok (.bitcoin, "Bitcoin")
  | "solana" => .ok (.solana, "Solana")
  | other => .error (.badRequest ("unknown network " ++ other))

/-- `Chain::min_confirmations`. -/
def chainConfirmations : Chain → ℕ
  | .bitcoin => 2
  | .evm => 12
  | .tron => 20
  | .solana => 1

/-- `confirmations_for`. -/
def confirmationsFor (network : String) (chain : Chain) : ℕ :=
  match String.ofList (lowerAscii network) with
  | "ethereum" => 12
  | "bsc" | "polygon" => 20
  | "base" => 10
  | _ => chainConfirmations chain

/-- `minimum_deposit`. -/
def minimumDeposit : Asset → String
  | .usdt | .usdc => "1"
  | .btc => "0.0001"
  | .eth => "0.005"
  | .bnb => "0.01"
  | .sol => "0.05"
  | _ => "0"

end UserRoutes

/-- `DepositAddressQuery`. -/
structure DepositAddressQuery where
  asset : String
  chain : String

/-- `DepositAddressResponse`. -/
structure DepositAddressResponse where
  asset : String
  chain : String
  network : String
  address : String
  minConfirmations : ℕ
  minimumDeposit : String
  deriving DecidableEq

/-- `deposit_address`. -/
def depositAddress (wallets : List Wallet) (userId : Uuid) (query : DepositAddressQuery) :
    Except ApiError DepositAddressResponse :=
  match Asset.ofStr query.asset with
  | none => .error (.badRequest ("unknown asset " ++ query.asset))
  | some asset => do
    let (chain, network) ← UserRoutes.resolveNetwork query.chain
    match wallets.find? fun w => w.userId = userId && w.chain = chain with
    | none => .error .notFound
    | some wallet =>
      .ok
        { asset := asset.asStr, chain := query.chain, network := network,
          address := wallet.address,
          minConfirmations := UserRoutes.confirmationsFor query.chain chain,
          minimumDeposit := UserRoutes.minimumDeposit asset }

/-- What is answered is the minimum of the asset it is for. -/
lemma depositAddress_minimum {wallets : List Wallet} {userId : Uuid} {query : DepositAddressQuery}
    {answer : DepositAddressResponse} (h : depositAddress wallets userId query = .ok answer) :
    ∃ asset, answer.asset = Asset.asStr asset ∧
      answer.minimumDeposit = UserRoutes.minimumDeposit asset := by
  unfold depositAddress at h
  cases hasset : Asset.ofStr query.asset with
  | none =>
      rw [hasset] at h
      cases h
  | some asset =>
      rw [hasset] at h
      cases hnetwork : UserRoutes.resolveNetwork query.chain with
      | error e =>
          rw [hnetwork] at h
          cases h
      | ok resolved =>
          rw [hnetwork] at h
          simp only [bind, Except.bind] at h
          split at h
          · cases h
          · cases h
            exact ⟨asset, rfl, rfl⟩

/-! ## The amount a text stands for -/

/-- A decimal's digits before or after its point. -/
def digitsValue (digits : List Char) : Option ℕ :=
  if digits ≠ [] ∧ digits.all Char.isDigit then
    some (digits.foldl (fun n c => n * 10 + (c.toNat - '0'.toNat)) 0)
  else none

/-- The number a text of digits, with a point or without, stands for. -/
def decimalValue (s : String) : Option ℚ :=
  match s.toList.splitOn '.' with
  | [whole] => (digitsValue whole).map fun n => n
  | [whole, fraction] => do
    let n ← digitsValue whole
    let m ← digitsValue fraction
    some (n + m / 10 ^ fraction.length)
  | _ => none

/-- **The two tables.** -/
lemma decimalValue_minimumDeposit (asset : Asset) :
    decimalValue (UserRoutes.minimumDeposit asset) =
      some (if asset = .trx ∨ asset = .matic then 0 else minimumDeposit asset) := by
  cases asset <;> decide +kernel

/-! ## Classification -/

section Classify

variable {t : ObservedTransfer} {head : ℤ}

/-- A transfer is dust exactly below the watcher's minimum. -/
lemma classify_dust_iff :
    (∃ minimum, classify t head = .ignoreDust minimum) ↔ t.amount < minimumDeposit t.asset := by
  unfold classify
  by_cases hdust : t.amount < minimumDeposit t.asset
  · simp [hdust]
  · by_cases hdeep : t.network.minConfirmations ≤ confirmationsAt head t.blockNumber <;>
      simp [hdust, hdeep]

/-- Anything else is credited once it is confirmed. -/
lemma classify_credit (hamount : minimumDeposit t.asset ≤ t.amount)
    (hdeep : t.network.minConfirmations ≤ confirmationsAt head t.blockNumber) :
    classify t head = .credit (confirmationsAt head t.blockNumber) := by
  rw [classify, if_neg (not_lt.mpr hamount), if_pos hdeep]

end Classify

/-- **Which advertised minimums can be credited.**  Of the transfers that follow what the endpoint
answered, those are never dust, and are credited once confirmed, that are not of TRX or MATIC or
reach the watcher's own minimum for them. -/
theorem advertised_creditable_iff {wallets : List Wallet} {userId : Uuid}
    {query : DepositAddressQuery} {answer : DepositAddressResponse} {advertised : ℚ}
    {t : ObservedTransfer} (hanswer : depositAddress wallets userId query = .ok answer)
    (hread : decimalValue answer.minimumDeposit = some advertised)
    (hasset : answer.asset = t.asset.asStr) (hamount : advertised ≤ t.amount) :
    (∀ head, (∀ minimum, classify t head ≠ .ignoreDust minimum) ∧
      (t.network.minConfirmations ≤ confirmationsAt head t.blockNumber →
        classify t head = .credit (confirmationsAt head t.blockNumber))) ↔
      (t.asset = .trx → 50 ≤ t.amount) ∧ (t.asset = .matic → 5 ≤ t.amount) := by
  have henough : minimumDeposit t.asset ≤ t.amount ↔
      (t.asset = .trx → 50 ≤ t.amount) ∧ (t.asset = .matic → 5 ≤ t.amount) := by
    obtain ⟨asset, hname, hminimum⟩ := depositAddress_minimum hanswer
    have heq : asset = t.asset := Asset.asStr_injective (hname.symm.trans hasset)
    rw [hminimum, decimalValue_minimumDeposit, heq, Option.some.injEq] at hread
    by_cases htrx : t.asset = .trx
    · simp [htrx, minimumDeposit]
    · by_cases hmatic : t.asset = .matic
      · simp [hmatic, minimumDeposit]
      · rw [if_neg (by simp [htrx, hmatic])] at hread
        simp [htrx, hmatic, hread, hamount]
  rw [← henough]
  constructor
  · intro h
    by_contra hdust
    obtain ⟨minimum, hignored⟩ : ∃ minimum, classify t 0 = .ignoreDust minimum :=
      classify_dust_iff.mpr (not_le.mp hdust)
    exact (h 0).1 minimum hignored
  · intro h head
    refine ⟨fun minimum hignored => ?_, classify_credit h⟩
    exact absurd (classify_dust_iff.mp ⟨minimum, hignored⟩) (not_lt.mpr h)

/-! ## Ten TRX -/

def tronWallet : Wallet := ⟨11, 7, .tron, "TXYZ"⟩

def trxQuery : DepositAddressQuery := ⟨"trx", "tron"⟩

/-- Ten TRX sent to the address, in the block at height 100. -/
def tenTrx : ObservedTransfer := ⟨.tron, "aa", 0, "TXYZ", .trx, 10, 100, "b100"⟩

/-- The answer to a query for TRX has no minimum, and ten TRX are dust. -/
theorem ten_trx_ignored :
    ¬ ∀ (wallets : List Wallet) (userId : Uuid) (query : DepositAddressQuery)
        (answer : DepositAddressResponse) (advertised : ℚ) (t : ObservedTransfer),
      depositAddress wallets userId query = .ok answer →
      decimalValue answer.minimumDeposit = some advertised → answer.asset = t.asset.asStr →
      advertised ≤ t.amount → ∀ head minimum, classify t head ≠ .ignoreDust minimum := by
  intro h
  have hignored : classify tenTrx 100 = .ignoreDust 50 := by decide +kernel
  exact h [tronWallet] 7 trxQuery _ 0 tenTrx rfl (by decide +kernel) rfl (by decide +kernel) 100 50
    hignored

/-- Fifty TRX are credited. -/
theorem fifty_trx_credited :
    classify { tenTrx with amount := 50 } 119 = .credit 20 := by
  have hcredited := (advertised_creditable_iff (t := { tenTrx with amount := 50 })
    (show depositAddress [tronWallet] 7 trxQuery = .ok _ from rfl)
    (show decimalValue "0" = some 0 by decide +kernel) rfl (by decide +kernel)).mpr
    ⟨fun _ => le_rfl, fun hmatic => by cases hmatic⟩
  exact (hcredited 119).2 (by decide)

end Naivolt
