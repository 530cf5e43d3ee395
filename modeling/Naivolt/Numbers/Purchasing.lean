import Naivolt.System.Contracted

/-!
# Purchases start under a live claim

`create_order` takes a sixty-second claim once and then calls one supplier after another,
without looking at the claim again.  What keeps the purchases inside the lease is the HTTP
layer: it drops the handler thirty seconds after the request came in (`DroppedInTime`), and
while the claim is live every other actor stays off the order.
-/

namespace Naivolt

open Foundation Foundation.Machine

/-- The HTTP layer drops a handler at its timeout of thirty seconds. -/
def DroppedInTime (req : Request) (born : Time) (w : World) : Prop :=
  req.viaHttp = true → w.now < born + seconds 30

instance (req : Request) (born : Time) (w : World) : Decidable (DroppedInTime req born w) := by
  unfold DroppedInTime
  infer_instance

/-- The call left while the order was reserved and its current claim was the caller's, its
lease not run out. -/
def PurchaseCall.Covered (c : PurchaseCall) : Prop :=
  ∃ o, c.row = some o ∧ o.status = .reserved ∧ o.liveClaim c.token c.time = true

/-- **Purchases happen only under a live claim**, in every run whose handlers are dropped in
time. -/
theorem purchase_under_live_claim {cfg : Config} {now : Time} {wallets : List Wallet} {s : State}
    (h : (backend cfg).Reachable (onOps fun _ req born _ _ w => DroppedInTime req born w)
      (initial now wallets) s) : ∀ c ∈ purchaseCalls s.world.log, c.Covered := by
  refine Reachable.guarded_inv (I := fun w => ∀ c ∈ purchaseCalls w.log, c.Covered) ?_
    (fun e w w' he hI => ?_) (fun tid req b op ω r w w' hP he hI => ?_) (contracted h)
  · exact fun c hc => absurd hc List.not_mem_nil
  · obtain ⟨now, wallets, tiers, -, rfl⟩ := execEnv_eq he
    exact hI
  · intro c hc
    obtain ⟨htime, -, hC⟩ := hP
    rcases (exec_move he).2.new_call (mem_purchaseCalls.mp hc) with hc |
      ⟨order, token, label, rfl, rfl⟩
    · exact hI c (mem_purchaseCalls.mpr hc)
    · -- The contract of the call, in time because its handler is.
      obtain ⟨-, hhttp, hlive⟩ := hC
      exact hlive (htime hhttp)

/-- An offer whose first source is out of stock, also with any operator, and whose second
sells. -/
def secondSource : List Move :=
  topUp 0 7 100 101 102 5000 ++
  serve 2 (.createOrder 7 50 (offerOrder 9 1000))
    [{ fresh := [200, 201, 2 <<< 100],
       catalogue := offerCatalogue 1000 [⟨.fivesim, "nigeria", "telegram", "virtual4"⟩,
         ⟨.smspool, "NG", "telegram", ""⟩] },
      { fresh := [203] }, {}, { buy := .refused .outOfStock }, {}, { buy := .refused .outOfStock },
      {}, { buy := .bought ⟨"p1", "+2341", none, none, none, .smspool⟩ }, {}, {}, {}]

theorem purchase_under_live_claim_secondSource :
    ∃ s : State, (purchaseCalls s.world.log).map PurchaseCall.label =
        [.smspool, .fivesim, .fivesim] ∧
      ∀ c ∈ purchaseCalls s.world.log, c.Covered := by
  obtain ⟨s, hs, hcalls⟩ := exists_reachable_of_run (backend liveConfig)
    (onOps fun _ req born _ _ w => DroppedInTime req born w) (initial 0 []) secondSource
    (fun s => (purchaseCalls s.world.log).map PurchaseCall.label = [.smspool, .fivesim, .fivesim])
    (by decide +kernel)
  exact ⟨s, hcalls, purchase_under_live_claim hs⟩

end Naivolt
