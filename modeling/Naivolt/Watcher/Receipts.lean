import Naivolt.Ledger.Numeric
import Naivolt.Watcher.Crediting

/-!
# The receipt of a deposit

`deposit_detail` of `activity_routes.rs` reads a row of `deposits` and draws the receipt from it.
The row's status and chain are texts: the watcher writes `confirmed` where the receipt looks for
`credited`, and the family of the chain where the receipt looks for a network.

`receipt_agrees` says which receipts are right: those of deposits that are not credited, outside
BSC, Polygon and Base.
-/

namespace Naivolt

open Foundation Machine

/-! ## The columns as texts -/

/-- `Chain::as_str`: what `upsert_deposit` stores in `deposits.chain`. -/
def Chain.asStr : Chain → String
  | bitcoin => "bitcoin"
  | evm => "evm"
  | tron => "tron"
  | solana => "solana"

/-- The words of `deposits_status_check`. -/
def DepositStatus.asStr : DepositStatus → String
  | seen => "seen"
  | confirming => "confirming"
  | confirmed => "confirmed"
  | reversed => "reversed"
  | ignored => "ignored"

/-! ## The receipt -/

/-- `TimelineStep::state`. -/
inductive StepState where
  | done | current | pending | failed
  deriving DecidableEq

/-- `TimelineStep`. -/
structure TimelineStep where
  label : String
  time : Option Time
  state : StepState
  deriving DecidableEq

/-- `ActivityItem`, as far as a deposit fills it in. -/
structure ActivityItem where
  id : Uuid
  kind : String
  asset : Asset
  amount : ℚ
  ngnValue : Option ℚ
  status : String
  createdAt : Time
  detail : Option String

/-- `ActivityDetail`, without the fields of a payout. -/
structure ActivityDetail where
  item : ActivityItem
  reference : Option String
  timeline : List TimelineStep
  txHash : Option String
  explorerUrl : Option String
  network : Option String
  confirmations : Option ℤ
  minConfirmations : Option ℤ
  failureReason : Option String

/-- `short_reference`. -/
def shortReference (id : Uuid) : String := "NV-" ++ upperDigits 8 id

/-- `min_confirmations_for`. -/
def minConfirmationsFor (network : String) : ℤ :=
  match String.ofList (lowerAscii network) with
  | "ethereum" => 12
  | "bsc" | "polygon" | "tron" => 20
  | "base" => 10
  | "bitcoin" => 2
  | "solana" => 1
  | _ => 12

/-- `explorer_url`. -/
def explorerUrl (chain txHash : String) : Option String :=
  (match String.ofList (lowerAscii chain) with
  | "tron" => some "https://tronscan.org/#/transaction/"
  | "evm" | "ethereum" => some "https://etherscan.io/tx/"
  | "bsc" => some "https://bscscan.com/tx/"
  | "polygon" => some "https://polygonscan.com/tx/"
  | "base" => some "https://basescan.org/tx/"
  | "bitcoin" => some "https://mempool.space/tx/"
  | "solana" => some "https://solscan.io/tx/"
  | _ => none).map fun base => base ++ txHash

/-- The body of `deposit_detail`, for the row it has found.  `created_at` is a column the watcher
never reads, and so an argument here; so are the naira rates. -/
def receiptOf (rates : Asset → Option ℚ) (createdAt : Time) (id : Uuid) (d : Deposit) :
    ActivityDetail :=
  let status := d.status.asStr
  let credited : Bool := status = "credited"
  let reversed : Bool := status = "reversed"
  let minConfirmations := minConfirmationsFor d.network.asStr
  { item :=
      { id := id, kind := "deposit", asset := d.asset, amount := d.amount,
        ngnValue := (rates d.asset).map fun rate => roundDp (d.amount * rate) 4,
        status := status, createdAt := createdAt,
        detail := some (d.network.asStr ++ " · " ++ toString d.confirmations ++
          " confirmations") }
    reference := some (shortReference id)
    timeline :=
      [{ label := "Seen on-chain", time := some createdAt, state := .done },
        { label := "Confirming (" ++ toString d.confirmations ++ "/" ++
            toString minConfirmations ++ ")",
          time := some createdAt,
          state := if reversed then .failed else if credited then .done else .current },
        { label := "Credited to your balance",
          time := if credited then some createdAt else none,
          state := if credited then .done else .pending }]
    txHash := some d.txHash
    explorerUrl := explorerUrl d.chain.asStr d.txHash
    network := some d.network.asStr
    confirmations := some d.confirmations
    minConfirmations := some minConfirmations
    failureReason :=
      if reversed then some "This deposit was reversed after a chain reorganisation." else none }

/-- `deposit_detail`: the caller's own deposit, if this is one. -/
def depositDetail (rates : Asset → Option ℚ) (createdAt : Uuid → Time) (deposits : DepositTable)
    (userId id : Uuid) : Option ActivityDetail :=
  ((deposits.get? id).filter fun d => d.userId = userId).map fun d =>
    receiptOf rates (createdAt id) id d

lemma depositDetail_owner (rates : Asset → Option ℚ) (createdAt : Uuid → Time)
    {deposits : DepositTable} {id : Uuid} {d : Deposit} (hd : deposits.get? id = some d) :
    depositDetail rates createdAt deposits d.userId id =
      some (receiptOf rates (createdAt id) id d) := by
  simp only [depositDetail, hd, Option.filter_some, decide_true, if_true, Option.map_some]

/-! ## What a receipt says -/

namespace ActivityDetail

/-- The receipt presents the deposit as credited. -/
def PresentsCredited (r : ActivityDetail) : Prop :=
  ∃ step ∈ r.timeline, step.label = "Credited to your balance" ∧ step.state = .done

/-- The receipt presents the deposit as reversed or failed. -/
def PresentsReversed (r : ActivityDetail) : Prop :=
  (∃ step ∈ r.timeline, step.state = .failed) ∨ r.failureReason ≠ none

end ActivityDetail

/-- The public explorer of a network. -/
def Network.explorer : Network → String
  | tron => "https://tronscan.org/#/transaction/"
  | ethereum => "https://etherscan.io/tx/"
  | bsc => "https://bscscan.com/tx/"
  | polygon => "https://polygonscan.com/tx/"
  | base => "https://basescan.org/tx/"
  | bitcoin => "https://mempool.space/tx/"
  | solana => "https://solscan.io/tx/"

/-- The receipt agrees with the deposit it is drawn from. -/
structure ReceiptAgrees (d : Deposit) (r : ActivityDetail) : Prop where
  credited : r.PresentsCredited ↔ d.status = .confirmed
  reversed : r.PresentsReversed ↔ d.status = .reversed
  explorer : ∀ url ∈ r.explorerUrl, url = d.network.explorer ++ d.txHash

/-- The table of explorers knows every network; it is asked for the family instead. -/
lemma explorerUrl_asStr (n : Network) (txHash : String) :
    explorerUrl n.asStr txHash = some (n.explorer ++ txHash) := by
  cases n <;> rfl

lemma minConfirmationsFor_asStr (n : Network) :
    minConfirmationsFor n.asStr = n.minConfirmations := by
  cases n <;> rfl

/-- The link of a receipt leads to the explorer of Ethereum for all networks of its family. -/
lemma explorerUrl_chain (n : Network) (txHash : String) :
    explorerUrl n.chain.asStr txHash =
      some ((if n.chain = .evm then Network.ethereum else n).explorer ++ txHash) := by
  cases n <;> rfl

section Receipt

variable (rates : Asset → Option ℚ) (createdAt : Time) (id : Uuid) (d : Deposit)

/-- No receipt says that its deposit is credited. -/
lemma not_presentsCredited : ¬ (receiptOf rates createdAt id d).PresentsCredited := by
  rintro ⟨step, hstep, hlabel, hdone⟩
  have hword : d.status.asStr ≠ "credited" := by cases d.status <;> decide
  simp only [receiptOf, hword, decide_false, List.mem_cons, List.not_mem_nil, or_false] at hstep
  rcases hstep with rfl | rfl | rfl
  · have hseen : "Seen on-chain" ≠ "Credited to your balance" := by decide
    exact hseen hlabel
  · dsimp only at hdone
    split at hdone <;> cases hdone
  · cases hdone

lemma presentsReversed_iff :
    (receiptOf rates createdAt id d).PresentsReversed ↔ d.status = .reversed := by
  have hword : d.status.asStr = "reversed" ↔ d.status = .reversed := by
    cases d.status <;> decide
  by_cases hreversed : d.status = .reversed
  · refine ⟨fun _ => hreversed, fun _ => .inr ?_⟩
    simp [receiptOf, hword.mpr hreversed]
  · simp only [ActivityDetail.PresentsReversed, receiptOf, hword, hreversed, decide_false,
      List.mem_cons, List.not_mem_nil, or_false, ne_eq, iff_false, not_or]
    refine ⟨?_, by simp⟩
    rintro ⟨step, rfl | rfl | rfl, hfailed⟩
    · cases hfailed
    · dsimp only at hfailed
      split at hfailed
      · contradiction
      · split at hfailed <;> cases hfailed
    · dsimp only at hfailed
      split at hfailed <;> cases hfailed

/-- The link is right if and only if the network is the one its family stands for. -/
lemma explorer_right_iff (hchain : d.chain = d.network.chain) :
    (∀ url ∈ (receiptOf rates createdAt id d).explorerUrl,
      url = d.network.explorer ++ d.txHash) ↔ d.network ∉ [.bsc, .polygon, .base] := by
  have hlink : (receiptOf rates createdAt id d).explorerUrl =
      explorerUrl d.network.chain.asStr d.txHash := by rw [← hchain]; rfl
  rw [hlink, explorerUrl_chain]
  simp only [Option.mem_some_iff, forall_eq', String.append_left_inj]
  cases d.network <;> decide

end Receipt

/-! ## The result -/

/-- The network of every row goes with its chain, in every state a run reaches. -/
lemma chain_of_reachable {cfg : Config} {now : Time} {wallets : List Wallet} {s : State}
    (h : (backend cfg).Reachable unguarded (initial now wallets) s) {id : Uuid} {d : Deposit}
    (hd : s.world.deposits.get? id = some d) : d.chain = d.network.chain := by
  have h : (backend cfg).Reachable (onOps anyOp) (initial now wallets) s :=
    h.mono fun s a _ => onOps_anyOp s a
  exact ((backend_keeps cfg).holds (sound_fresh now wallets) (fun _ => rfl) h).1.chains id d hd

/-- **A receipt agrees with its deposit** if and only if the deposit is not credited, and is not
on one of the networks that share their family with Ethereum. -/
theorem receipt_agrees {cfg : Config} {now : Time} {wallets : List Wallet} {s : State}
    (h : (backend cfg).Reachable unguarded (initial now wallets) s) (rates : Asset → Option ℚ)
    (createdAt : Uuid → Time) {userId id : Uuid} {d : Deposit} {r : ActivityDetail}
    (hd : s.world.deposits.get? id = some d)
    (hr : depositDetail rates createdAt s.world.deposits userId id = some r) :
    ReceiptAgrees d r ↔ d.status ≠ .confirmed ∧ d.network ∉ [.bsc, .polygon, .base] := by
  obtain rfl : receiptOf rates (createdAt id) id d = r := by
    simp only [depositDetail, hd, Option.map_eq_some_iff, Option.filter_eq_some_iff] at hr
    obtain ⟨d', ⟨hd', -⟩, rfl⟩ := hr
    cases hd'
    rfl
  have hlink := explorer_right_iff rates (createdAt id) id d (chain_of_reachable h hd)
  constructor
  · intro hagrees
    exact ⟨fun hconfirmed => not_presentsCredited rates _ id d (hagrees.credited.mpr hconfirmed),
      hlink.mp hagrees.explorer⟩
  · rintro ⟨hconfirmed, hnetwork⟩
    exact ⟨iff_of_false (not_presentsCredited rates _ id d) hconfirmed,
      presentsReversed_iff rates _ id d, hlink.mpr hnetwork⟩

/-- The deposit that was credited and then reversed has the receipt it should have. -/
theorem receipt_agrees_reversed : ∃ (s : State) (d : Deposit) (r : ActivityDetail),
    s.world.deposits.get? 200 = some d ∧
    depositDetail (fun _ => none) (fun _ => 0) s.world.deposits 7 200 = some r ∧
    d.status = .reversed ∧ ReceiptAgrees d r := by
  obtain ⟨s, hs, d, hd, huser, hstatus, hnetwork⟩ := exists_reachable_of_run (backend stubConfig)
    unguarded (initial 0 [evmWallet]) creditedThenReversed
    (fun s => ∃ d ∈ s.world.deposits.get? 200, d.userId = 7 ∧ d.status = .reversed ∧
      d.network = .ethereum) (by decide +kernel)
  have hr := huser ▸ depositDetail_owner (fun _ => none) (fun _ => 0) hd
  exact ⟨s, d, _, hd, hr, hstatus, (receipt_agrees hs _ _ hd hr).mpr
    ⟨by rw [hstatus]; decide, by rw [hnetwork]; decide⟩⟩

/-- A transfer on BSC is seen deep in the chain, and credited. -/
def creditedOnBsc : List Move :=
  serve 0 (.watch .bsc 2000 [evmTransfer .bsc .usdt 1000 "b1"])
    [{}, { fresh := [200] }, { fresh := [201] }]

/-- **A credited deposit has a receipt that never says so**, with a link to the explorer of
another network. -/
theorem receipt_disagrees :
    ¬ ∀ s : State, (backend stubConfig).Reachable unguarded (initial 0 [evmWallet]) s →
      ∀ rates createdAt userId id d r, s.world.deposits.get? id = some d →
        depositDetail rates createdAt s.world.deposits userId id = some r → ReceiptAgrees d r := by
  intro hagrees
  obtain ⟨s, hs, d, hd, huser, hstatus⟩ := exists_reachable_of_run (backend stubConfig)
    unguarded (initial 0 [evmWallet]) creditedOnBsc
    (fun s => ∃ d ∈ s.world.deposits.get? 200, d.userId = 7 ∧ d.status = .confirmed)
    (by decide +kernel)
  have hr := huser ▸ depositDetail_owner (fun _ => none) (fun _ => 0) hd
  exact not_presentsCredited _ _ 200 d ((hagrees s hs _ _ _ _ d _ hd hr).credited.mpr hstatus)

end Naivolt
