import Naivolt.System.Steps

/-!
# What each operation is owed

The rely–guarantee argument of the backend.  `Sound` is the invariant of the world, `Rely tid`
what the task `tid` may count on while others run, and `Contract` what a task must know when it
performs an operation: the claim it presents was granted to it, the activation it stores was
handed to this order under the label on the row, the transfer it credits is that of the row.

`rely_of_move` and `sound_of_move` say that an operation that keeps its contract respects both.
That the handlers keep their contracts is the subject of `Naivolt.System.Obligations`.
-/

namespace Naivolt

open Foundation Foundation.Machine

/-! ## What a task holds -/

/-- The task was granted this claim on the order. -/
def Granted (w : World) (tid : ℕ) (order : Uuid) (c : Claim) : Prop :=
  ∃ g, Event.granted g ∈ w.log ∧ g.order = order ∧ g.claim = c ∧ g.tid = tid

/-- The task was granted some claim under that token. -/
def HoldsToken (w : World) (tid : ℕ) (order token : Uuid) : Prop :=
  ∃ c, Granted w tid order c ∧ c.token = token

/-- The task was granted the purchase of the order. -/
def Buys (w : World) (tid : ℕ) (order : Uuid) : Prop :=
  ∃ g, Event.granted g ∈ w.log ∧ g.order = order ∧ g.purpose = .purchase ∧ g.tid = tid

/-- The task was granted the purchase of the order under that token. -/
def BuysUnder (w : World) (tid : ℕ) (order token : Uuid) : Prop :=
  ∃ g, Event.granted g ∈ w.log ∧ g.order = order ∧ g.purpose = .purchase ∧ g.tid = tid ∧
    g.claim.token = token

/-- The order was claimed for a customer's cancel under that token. -/
def CancelsUnder (log : Log) (order token : Uuid) : Prop :=
  ∃ g, Event.granted g ∈ log ∧ g.order = order ∧ g.purpose = .cancel ∧ g.claim.token = token

/-- The row was read, or came back with a claim. -/
def Seen (log : Log) (order : Uuid) (o : Order) : Prop :=
  Event.read order o ∈ log ∨ ∃ g, Event.granted g ∈ log ∧ g.order = order ∧ g.before = o

/-- Every purchase call made for the order came back refused. -/
def AllRefused (log : Log) (order : Uuid) : Prop :=
  ∀ c, Event.purchaseStarted c ∈ log → c.order = order →
    ∃ r, Event.purchaseAnswered c.call order (.refused r) ∈ log

/-! ## The invariant -/

/-- What holds of the world between any two operations. -/
structure Sound (w : World) : Prop where
  unassigned : ∀ id o, w.orders.get? id = some o → o.status = .reserved →
    o.providerOrderId = none
  claims : ∀ id o c, w.orders.get? id = some o → o.claim = some c → ∃ tid, Granted w tid id c
  drawn : ∀ g, Event.granted g ∈ w.log → g.claim.token ∈ w.used
  tokens : ∀ g g', Event.granted g ∈ w.log → Event.granted g' ∈ w.log →
    g.claim.token = g'.claim.token → g = g'
  started : ∀ tid id, Buys w tid id →
    ∃ o, w.orders.get? id = some o ∧ o.purchaseStartedAt ≠ none
  buyer : ∀ tid tid' id, Buys w tid id → Buys w tid' id → tid = tid'
  calls : ∀ c, Event.purchaseStarted c ∈ w.log → ∃ tid, Buys w tid c.order
  seen : ∀ id o, Seen w.log id o → ∃ o', w.orders.get? id = some o' ∧ o.Later o'
  chains : ∀ id d, w.deposits.get? id = some d → d.chain = d.network.chain

/-! ## What a task relies on -/

/-- What the other tasks leave to `tid`. -/
structure Rely (cfg : Config) (tid : ℕ) (w w' : World) : Prop where
  now_le : w.now ≤ w'.now
  log : w.log <:+ w'.log
  later : ∀ id o, w.orders.get? id = some o → ∃ o', w'.orders.get? id = some o' ∧ o.Later o'
  grants : ∀ g, Event.granted g ∈ w'.log → g.tid = tid → Event.granted g ∈ w.log
  /-- A claim of ours that has not run out keeps everyone else off an order that has no
  activation. -/
  held : ∀ id o c, w.orders.get? id = some o → o.claim = some c → Granted w tid id c →
    o.providerOrderId = none → w'.now < c.claimedUntil →
    ∃ o', w'.orders.get? id = some o' ∧ o'.claim = some c ∧ o'.status = o.status ∧
      o'.providerOrderId = none ∧ o'.purchaseStartedAt = o.purchaseStartedAt
  /-- Nobody else buys for an order that is ours to buy. -/
  calls : ∀ id, Buys w tid id → ∀ c, Event.purchaseStarted c ∈ w'.log → c.order = id →
    Event.purchaseStarted c ∈ w.log
  /-- Nobody pins a source before the purchase is granted, nor to an order ours to buy. -/
  label : ∀ id o o', w.orders.get? id = some o → w'.orders.get? id = some o' →
    o'.purchaseStartedAt = none ∨ Buys w' tid id → o'.provider = o.provider
  intents : ∀ id i, w.intents.get? id = some i → ∃ i', w'.intents.get? id = some i' ∧
    i'.userId = i.userId ∧ i'.reference = i.reference ∧
    (cfg.fundingLive = false → i'.amountNgn = i.amountNgn)
  deposits : ∀ id d, w.deposits.get? id = some d → ∃ d', w'.deposits.get? id = some d' ∧
    d'.userId = d.userId ∧ d'.naturalKey = d.naturalKey ∧ d'.network = d.network ∧
    d'.asset = d.asset ∧ d'.amount = d.amount

/-! ## What an operation is owed -/

/-- A refund asked for through `apply_claimed`, by who asks. -/
def RefundContract (w : World) (tid : ℕ) (id token : Uuid) : Via → Prop
  | .buyer => Buys w tid id ∧ AllRefused w.log id ∧
      ∀ o, w.orders.get? id = some o → o.liveClaim token w.now = true → o.providerOrderId = none
  | .reconciler => ∀ o, w.orders.get? id = some o → o.liveClaim token w.now = true →
      o.providerOrderId = none ∧ (o.purchaseStartedAt = none ∨
        (o.status = .reviewRequired ∧ minutes 20 < w.now - o.createdAt))
  | .customerCancel => CancelsUnder w.log id token
  | .operator => True

/-- What an operation on number orders is owed.  A source that is pinned within thirty seconds
of its request is pinned to an order that is still reserved. -/
def NumberContract (cfg : Config) (w : World) (tid : ℕ) (req : Request) (born : Time) :
    NumberOp → Prop
  | .releaseOrder id token _ _ | .releaseClaim id token | .markReview id token _ =>
      HoldsToken w tid id token
  | .assign id token a => HoldsToken w tid id token ∧ ∀ o, w.orders.get? id = some o →
      Event.handed id o.provider a ∈ w.log ∧ cfg.providers.askRoute o.provider = some a.issuedBy
  | .pin id _ => Buys w tid id ∧ req.viaHttp = true ∧
      (w.now < born + seconds 30 → ∃ o, w.orders.get? id = some o ∧ o.status = .reserved)
  | .recoverAssign id token a => HoldsToken w tid id token ∧ a.issuedBy = .primary
  | .applyClaimed id token via _ => HoldsToken w tid id token ∧ RefundContract w tid id token via
  | .applyCheck id token _ => (∀ t, token = some t → HoldsToken w tid id t) ∧
      ∃ o, w.orders.get? id = some o ∧ o.providerOrderId ≠ none
  | _ => True

/-- Why a supplier is asked about an activation: a row of the order that was seen, the answer
to a purchase, or a recovery. -/
inductive Asks (cfg : Config) (log : Log) (order : Uuid) (s : Supplier) (id : String) : Prop where
  | seen {o : Order} (hseen : Seen log order o) (hid : o.providerOrderId = some id)
      (hroute : cfg.providers.askRoute o.provider = some s)
  | handed {label : SupplierLabel} {a : Activation} (hhanded : Event.handed order label a ∈ log)
      (hid : a.providerOrderId = id) (hroute : cfg.providers.askRoute label = some s)
  | recovered {o : Order} {r : OrderWrite} (hseen : Seen log order o)
      (hleft : o.status ≠ .reserved) (hroute : cfg.providers.askRoute o.provider = some s)
      (hwrote : Event.wrote r ∈ log) (horder : r.order = order)
      (hpath : r.path = .recoverAssign) (hid : r.after.providerOrderId = some id)

/-- What a call to a supplier is owed.  A purchase that starts within thirty seconds of its
request starts under the order's live claim. -/
def SupplierContract (cfg : Config) (w : World) (tid : ℕ) (req : Request) (born : Time) :
    SupplierOp → Prop
  | .buyStart order token _ => BuysUnder w tid order token ∧ req.viaHttp = true ∧
      (w.now < born + seconds 30 → ∃ o, w.orders.get? order = some o ∧ o.status = .reserved ∧
        o.liveClaim token w.now = true)
  | .buyAnswer _ _ label supplier => cfg.providers.askRoute label = some supplier
  | .recentInPurchase _ label _ _ => cfg.providers.askRoute label = some .primary
  | .check order supplier id | .cancel order supplier id => Asks cfg w.log order supplier id
  | _ => True

/-- What an operation on top-ups is owed. -/
def FundingContract (cfg : Config) (w : World) : FundingOp → Prop
  | .verify reference amount => ∃ id i, w.intents.get? id = some i ∧ i.reference = reference ∧
      (cfg.fundingLive = false → i.amountNgn = amount)
  | .credit id userId reference amount => ∃ i, w.intents.get? id = some i ∧
      i.userId = userId ∧ i.reference = reference ∧
      (cfg.fundingLive = false → i.amountNgn = amount) ∧
      Event.verified reference (.succeeded amount) ∈ w.log
  | _ => True

/-- What an operation on deposits is owed. -/
def WatcherContract (w : World) : WatcherOp → Prop
  | .credit id t => ∃ d, w.deposits.get? id = some d ∧ d.naturalKey = t.naturalKey
  | .reverse id t => ∃ d, w.deposits.get? id = some d ∧ d.naturalKey = t.naturalKey ∧
      d.network = t.network ∧ d.asset = t.asset
  | _ => True

/-- What an operation on payouts is owed. -/
def PayoutContract : PayoutOp → Prop
  | .reserve _ _ amount _ => 0 < amount
  | _ => True

/-- What an operation is owed. -/
def Contract (cfg : Config) (tid : ℕ) (req : Request) (born : Time) (op : Op) (w : World) :
    Prop :=
  match op with
  | .numbers op => NumberContract cfg w tid req born op
  | .supplier op => SupplierContract cfg w tid req born op
  | .payouts op => PayoutContract op
  | .funding op => FundingContract cfg w op
  | .watcher op => WatcherContract w op
  | _ => True

/-! ## Facts about holding -/

lemma Granted.mono {w w' : World} {tid : ℕ} {order : Uuid} {c : Claim}
    (h : Granted w tid order c) (hlog : w.log <:+ w'.log) : Granted w' tid order c := by
  obtain ⟨g, hg, hrest⟩ := h
  exact ⟨g, hlog.subset hg, hrest⟩

lemma HoldsToken.mono {w w' : World} {tid : ℕ} {order token : Uuid}
    (h : HoldsToken w tid order token) (hlog : w.log <:+ w'.log) :
    HoldsToken w' tid order token := by
  obtain ⟨c, hc, ht⟩ := h
  exact ⟨c, hc.mono hlog, ht⟩

lemma Buys.mono {w w' : World} {tid : ℕ} {order : Uuid} (h : Buys w tid order)
    (hlog : w.log <:+ w'.log) : Buys w' tid order := by
  obtain ⟨g, hg, hrest⟩ := h
  exact ⟨g, hlog.subset hg, hrest⟩

lemma BuysUnder.mono {w w' : World} {tid : ℕ} {order token : Uuid}
    (h : BuysUnder w tid order token) (hlog : w.log <:+ w'.log) : BuysUnder w' tid order token := by
  obtain ⟨g, hg, hrest⟩ := h
  exact ⟨g, hlog.subset hg, hrest⟩

lemma BuysUnder.buys {w : World} {tid : ℕ} {order token : Uuid}
    (h : BuysUnder w tid order token) : Buys w tid order := by
  obtain ⟨g, hg, hid, hpurpose, htid, -⟩ := h
  exact ⟨g, hg, hid, hpurpose, htid⟩

lemma CancelsUnder.mono {log log' : Log} {order token : Uuid} (h : CancelsUnder log order token)
    (hlog : log <:+ log') : CancelsUnder log' order token := by
  obtain ⟨g, hg, hrest⟩ := h
  exact ⟨g, hlog.subset hg, hrest⟩

lemma Seen.mono {log log' : Log} {order : Uuid} {o : Order} (h : Seen log order o)
    (hlog : log <:+ log') : Seen log' order o :=
  h.imp (fun hr => hlog.subset hr) fun ⟨g, hg, hrest⟩ => ⟨g, hlog.subset hg, hrest⟩

/-- The token a task holds is in no other task's claim. -/
lemma Sound.tid_eq {w : World} (hI : Sound w) {tid tid' : ℕ} {id token : Uuid} {c : Claim}
    (htoken : HoldsToken w tid id token) (hgrant : Granted w tid' id c)
    (hc : c.token = token) : tid = tid' := by
  obtain ⟨c', ⟨g, hg, -, rfl, rfl⟩, ht⟩ := htoken
  obtain ⟨g', hg', -, rfl, rfl⟩ := hgrant
  rw [hI.tokens g g' hg hg' (ht.trans hc.symm)]

/-- A task's live claim is the one it was granted. -/
lemma Sound.claim_eq {w : World} (hI : Sound w) {tid : ℕ} {id : Uuid} {o : Order} {c c' : Claim}
    (ho : w.orders.get? id = some o) (hc' : o.claim = some c') (hgrant : Granted w tid id c)
    (htoken : c'.token = c.token) : c' = c := by
  obtain ⟨tid', g', hg', -, rfl, -⟩ := hI.claims id o c' ho hc'
  obtain ⟨g, hg, -, rfl, -⟩ := hgrant
  rw [hI.tokens g' g hg' hg htoken]

namespace Rely

variable {cfg : Config} {tid : ℕ} {w w' w'' : World}

lemma refl (w : World) : Rely cfg tid w w where
  now_le := le_rfl
  log := List.suffix_rfl
  later id o ho := ⟨o, ho, .refl o⟩
  grants g hg _ := hg
  held id o c ho hc _ hnone _ := ⟨o, ho, hc, rfl, hnone, rfl⟩
  calls id _ c hc _ := hc
  label id o o' ho ho' _ := by
    cases ho.symm.trans ho'
    rfl
  intents id i hi := ⟨i, hi, rfl, rfl, fun _ => rfl⟩
  deposits id d hd := ⟨d, hd, rfl, rfl, rfl, rfl, rfl⟩

lemma trans (h : Rely cfg tid w w') (h' : Rely cfg tid w' w'') : Rely cfg tid w w'' where
  now_le := h.now_le.trans h'.now_le
  log := h.log.trans h'.log
  later id o ho := by
    obtain ⟨o', ho', hl⟩ := h.later id o ho
    obtain ⟨o'', ho'', hl'⟩ := h'.later id o' ho'
    exact ⟨o'', ho'', hl.trans hl'⟩
  grants g hg htid := h.grants g (h'.grants g hg htid) htid
  held id o c ho hc hgrant hnone huntil := by
    obtain ⟨o', ho', hc', hs', hn', hp'⟩ :=
      h.held id o c ho hc hgrant hnone (h'.now_le.trans_lt huntil)
    obtain ⟨o'', ho'', hc'', hs'', hn'', hp''⟩ :=
      h'.held id o' c ho' hc' (hgrant.mono h.log) hn' huntil
    exact ⟨o'', ho'', hc'', hs''.trans hs', hn'', hp''.trans hp'⟩
  calls id hb c hc hid := h.calls id hb c (h'.calls id (hb.mono h.log) c hc hid) hid
  label id o o'' ho ho'' hcond := by
    obtain ⟨o', ho', -⟩ := h.later id o ho
    have hlater : o'.Later o'' := by
      obtain ⟨p, hp, hl⟩ := h'.later id o' ho'
      cases hp.symm.trans ho''
      exact hl
    rw [h'.label id o' o'' ho' ho'' hcond]
    refine h.label id o o' ho ho' (hcond.imp (fun hnone => ?_) fun ⟨g, hg, hrest⟩ => ?_)
    · by_contra hs
      exact hs ((hlater.started hs).symm.trans hnone)
    · exact ⟨g, h'.grants g hg hrest.2.2, hrest⟩
  intents id i hi := by
    obtain ⟨i', hi', hu, hr, ha⟩ := h.intents id i hi
    obtain ⟨i'', hi'', hu', hr', ha'⟩ := h'.intents id i' hi'
    exact ⟨i'', hi'', hu'.trans hu, hr'.trans hr, fun hf => (ha' hf).trans (ha hf)⟩
  deposits id d hd := by
    obtain ⟨d', hd', hu, hk, hn, has, ham⟩ := h.deposits id d hd
    obtain ⟨d'', hd'', hu', hk', hn', has', ham'⟩ := h'.deposits id d' hd'
    exact ⟨d'', hd'', hu'.trans hu, hk'.trans hk, hn'.trans hn, has'.trans has,
      ham'.trans ham⟩

/-- A step that changes no row, grants no claim and starts no purchase. -/
lemma of_same (hnow : w.now ≤ w'.now) (hlog : w.log <:+ w'.log)
    (horders : w'.orders = w.orders)
    (hgrants : ∀ g, Event.granted g ∈ w'.log → Event.granted g ∈ w.log)
    (hcalls : ∀ c, Event.purchaseStarted c ∈ w'.log → Event.purchaseStarted c ∈ w.log)
    (hintents : ∀ id i, w.intents.get? id = some i → ∃ i', w'.intents.get? id = some i' ∧
      i'.userId = i.userId ∧ i'.reference = i.reference ∧
      (cfg.fundingLive = false → i'.amountNgn = i.amountNgn))
    (hdeposits : ∀ id d, w.deposits.get? id = some d → ∃ d', w'.deposits.get? id = some d' ∧
      d'.userId = d.userId ∧ d'.naturalKey = d.naturalKey ∧ d'.network = d.network ∧
      d'.asset = d.asset ∧ d'.amount = d.amount) : Rely cfg tid w w' where
  now_le := hnow
  log := hlog
  later id o ho := ⟨o, horders ▸ ho, .refl o⟩
  grants g hg _ := hgrants g hg
  held id o c ho hc _ hnone _ := ⟨o, horders ▸ ho, hc, rfl, hnone, rfl⟩
  calls id _ c hc _ := hcalls c hc
  label id o o' ho ho' _ := by
    rw [horders] at ho'
    cases ho.symm.trans ho'
    rfl
  intents := hintents
  deposits := hdeposits

end Rely

end Naivolt
