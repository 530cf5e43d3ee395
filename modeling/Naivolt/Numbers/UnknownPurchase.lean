import Naivolt.System.Contracted

/-!
# Unknown purchases are not refunded unresolved

A purchase call may be answered by nothing: the request dies, or the supplier does not say.
The buy loop refunds only after every call was refused, the reconciler sends the order to review
and gives recovery twenty minutes.  `cancel_order` knows neither: for an order without an
activation it refunds at once, so an order whose buyer died is refunded while the number may
have been bought.

`CancelResolved` is the condition that excludes exactly that.  Under it
`unknown_purchase_kept` holds of every refund of every run, and `unknown_purchase_cancelled` runs
the backend into a refund that breaks it.
-/

namespace Naivolt

open Foundation Foundation.Machine

/-! ## Refunds of unknown purchases -/

/-- The entry says that the call was refused. -/
def Event.refuses (call : ℕ) (order : Uuid) : Event → Bool
  | .purchaseAnswered call' order' (.refused _) => call' = call && order' = order
  | _ => false

lemma allRefused_iff {log : Log} {order : Uuid} : AllRefused log order ↔
    ∀ c ∈ purchaseCalls log, c.order = order → ∃ e ∈ log, e.refuses c.call order = true := by
  refine forall_congr' fun c => ?_
  rw [mem_purchaseCalls]
  refine imp_congr_right fun _ => imp_congr_right fun _ =>
    ⟨fun ⟨r, hr⟩ => ?_, fun ⟨e, he, hr⟩ => ?_⟩
  · exact ⟨_, hr, by simp [Event.refuses]⟩
  · unfold Event.refuses at hr
    split at hr
    · simp only [Bool.and_eq_true, decide_eq_true_eq] at hr
      obtain ⟨rfl, rfl⟩ := hr
      exact ⟨_, he⟩
    · cases hr

instance (log : Log) (order : Uuid) : Decidable (AllRefused log order) :=
  decidable_of_iff _ allRefused_iff.symm

/-- The purchase of the order was started and nothing tells how it ended. -/
def Order.PurchaseUnknown (o : Order) : Prop :=
  o.purchaseStartedAt ≠ none ∧ o.providerOrderId = none

instance (o : Order) : Decidable o.PurchaseUnknown := by
  unfold Order.PurchaseUnknown
  infer_instance

/-- A refund of such an order follows the refusal of every call, or a review of twenty
minutes. -/
def RefundResolved (r : OrderWrite) (past : Log) : Prop :=
  AllRefused past r.order ∨
    (r.before.status = .reviewRequired ∧ minutes 20 < r.time - r.before.createdAt)

/-- Every refund that no operator asked for is resolved. -/
def UnknownPurchasesKept (log : Log) : Prop :=
  ∀ r past, Recorded log (.wrote r) past → r.after.status.isRefunded = true →
    r.path ≠ .applyClaimed .operator → r.before.PurchaseUnknown → RefundResolved r past

/-- A customer's cancel that is about to refund an unknown purchase finds every call for it
refused. -/
def CancelResolved (op : Op) (w : World) : Prop :=
  match op with
  | .numbers (.applyClaimed id token .customerCancel _) =>
      ∀ o ∈ w.orders.get? id, o.liveClaim token w.now = true → o.status.moneyOpen = true →
        o.PurchaseUnknown → AllRefused w.log id
  | _ => True

instance (op : Op) (w : World) : Decidable (CancelResolved op w) := by
  unfold CancelResolved
  split <;> infer_instance

/-! ## The two results -/

/-- One more posting changes nothing about the calls. -/
lemma AllRefused.posted {log : Log} {order : Uuid} (h : AllRefused log order) (j : Journal)
    (out : PostOutcome) : AllRefused (.posted j out :: log) order := by
  intro c hc hid
  obtain ⟨r, hr⟩ := h c ((List.mem_cons.mp hc).resolve_left nofun) hid
  exact ⟨r, List.mem_cons_of_mem _ hr⟩

/-- Every step under its contract, a cancel resolved, keeps the refunds resolved. -/
lemma UnknownPurchasesKept.step {cfg : Config} {tid : ℕ} {req : Request} {born : Time}
    {ω : Oracle} {w w' : World} {op : Op} (h : WorldMove cfg tid ω w op w')
    (hC : Contract cfg tid req born op w) (hguard : CancelResolved op w)
    (hI : UnknownPurchasesKept w.log) : UnknownPurchasesKept w'.log := by
  intro r past hr hrefund hpath hunknown
  rcases h.new_refund hr hrefund with hr |
    ⟨nop, j, out, rfl, ⟨hends, hrow, hfenced, hopen, htime⟩, rfl⟩
  · exact hI r past hr hrefund hpath hunknown
  · generalize hrpath : r.path = path at hends hpath
    generalize hrtoken : r.token = token at hends hfenced
    cases hends with
    | check =>
        -- A check is applied only to an order with an activation.
        obtain ⟨-, o, ho, hactivated⟩ := hC
        cases hrow.symm.trans ho
        exact absurd hunknown.2 hactivated
    | @claimed token via transition =>
        have hlive : r.before.liveClaim token w.now = true := by
          simpa [staleClaim] using hfenced
        cases via with
        | buyer => exact .inl (hC.2.2.1.posted j out)
        | customerCancel => exact .inl ((hguard _ hrow hlive hopen hunknown).posted j out)
        | reconciler =>
            rcases (hC.2 _ hrow hlive).2 with hnone | ⟨hreview, hminutes⟩
            · exact absurd hnone hunknown.1
            · exact .inr ⟨hreview, htime ▸ hminutes⟩
        | operator => exact absurd rfl hpath

/-- **An unknown purchase is not refunded unresolved**, in every run in which customers cancel
only orders whose purchase calls, if any, were all refused. -/
theorem unknown_purchase_kept {cfg : Config} {now : Time} {wallets : List Wallet} {s : State}
    (h : (backend cfg).Reachable (onOps fun _ _ _ op _ w => CancelResolved op w)
      (initial now wallets) s) : UnknownPurchasesKept s.world.log := by
  refine Reachable.guarded_inv (I := fun w => UnknownPurchasesKept w.log) ?_
    (fun e w w' he hI => ?_) (fun tid req b op ω r w w' hP he hI => ?_) (contracted h)
  · exact fun r past hr => absurd hr.mem List.not_mem_nil
  · obtain ⟨now, wallets, tiers, -, rfl⟩ := execEnv_eq he
    exact hI
  · exact hI.step (exec_move he).2 hP.2.2 hP.1

/-- The buyer is lost after its call left; a minute later its customer cancels. -/
def cancelAfterLoss (answer : List Move) : List Move :=
  topUp 0 7 100 101 102 5000 ++
  serve 2 (.createOrder 7 50 stubOrder)
    [{ fresh := [200, 201, 2 <<< 100], catalogue := stubCatalogue 1500 }, { fresh := [203] },
      {}] ++
  answer ++ .drop 2 :: wait (seconds 61) ::
  serve 3 (.cancelOrder 7 200) [{}, { fresh := [300] }, { fresh := [301] }, {}]

theorem unknown_purchase_kept_refused :
    ∃ s : State, (writesOf s.world.log).map (fun r => (r.path, r.after.status)) =
        [(.applyClaimed .customerCancel, .cancelled)] ∧ UnknownPurchasesKept s.world.log := by
  obtain ⟨s, hs, hwrites⟩ := exists_reachable_of_run (backend liveConfig)
    (onOps fun _ _ _ op _ w => CancelResolved op w) (initial 0 [])
    (cancelAfterLoss [.resume 2 { buy := .refused .outOfStock }])
    (fun s => (writesOf s.world.log).map (fun r => (r.path, r.after.status)) =
      [(.applyClaimed .customerCancel, .cancelled)]) (by decide +kernel)
  exact ⟨s, hwrites, unknown_purchase_kept hs⟩

/-- The last write of the history breaks the rule. -/
def lastRefundUnresolved (log : Log) : Bool :=
  match log with
  | .read _ _ :: .wrote r :: past =>
      r.after.status.isRefunded && r.path ≠ .applyClaimed .operator && r.before.PurchaseUnknown &&
        !(AllRefused past r.order) && r.before.status ≠ .reviewRequired
  | _ => false

/-- A cancel after the buyer was lost refunds an order whose only purchase call was never
answered. -/
theorem unknown_purchase_cancelled :
    ¬ ∀ s : State, (backend stubConfig).Reachable unguarded (initial 0 []) s →
      UnknownPurchasesKept s.world.log := by
  intro h
  obtain ⟨s, hs, hlast⟩ := exists_reachable_of_run (backend stubConfig) unguarded (initial 0 [])
    (cancelAfterLoss []) (fun s => lastRefundUnresolved s.world.log = true) (by decide +kernel)
  unfold lastRefundUnresolved at hlast
  split at hlast
  · rename_i id o r past hlog
    simp only [Bool.and_eq_true, decide_eq_true_eq, Bool.not_eq_true',
      decide_eq_false_iff_not] at hlast
    obtain ⟨⟨⟨⟨hrefund, hpath⟩, hunknown⟩, hcalls⟩, hreview⟩ := hlast
    have hrecorded : Recorded s.world.log (.wrote r) past := by
      rw [hlog]
      exact List.suffix_cons _ _
    rcases h s hs r past hrecorded hrefund hpath hunknown with hall | ⟨hr, -⟩
    · exact hcalls hall
    · exact hreview hr
  · cases hlast

end Naivolt
