import Naivolt.Numbers.Idempotency

/-!
# One key, two requests

A request whose key already has an order is compared with the columns of that order: with the
offer if it names one, otherwise with the product and the country, and with the expected price.
It should be refused exactly when it asks for something else than the request the order was placed
for (`AsksSame`).

The columns say less than the request did.  A request without an offer is not asked whether the
order was placed through one; one with an offer is not compared by product and country; and the
expected price has been rounded to four places by its column, so a request that names more of them
is not the same as itself.  `ToldApart` lists these, and `reused_key_guarded` says that the
comparison does what it should exactly without them.
-/

namespace Naivolt

open Foundation Foundation.Machine

/-! ## What the two requests should get -/

/-- The refusal of a key that belongs to something else. -/
def keyConflict : ApiError :=
  .conflict "That Idempotency-Key belongs to a different number purchase."

/-- The requests name the same offer, service, country and price. -/
def AsksSame (cfg : Config) (b₁ b₂ : CreateOrderBody) : Prop :=
  b₂.offerId = b₁.offerId ∧
  cfg.toLowercase (trimText b₂.productSlug) = cfg.toLowercase (trimText b₁.productSlug) ∧
  cfg.toUppercase (trimText b₂.countryCode) = cfg.toUppercase (trimText b₁.countryCode) ∧
  b₂.expectedPriceNgn = b₁.expectedPriceNgn

/-- `create_order` with the body places the order. -/
structure Places (cfg : Config) (userId key : Uuid) (body : CreateOrderBody) (id : Uuid)
    (q : Quote) (w w' : World) : Prop where
  configured : refuseUnconfigured cfg body = none
  placed : ∃ tid ω, exec cfg tid (.numbers (.reserve userId key body)) ω w =
    some (.ok (.placed id q), w')

/-- The body is refused as belonging to a different purchase, and nothing changes. -/
def Conflicts (cfg : Config) (userId key : Uuid) (body : CreateOrderBody) (w : World) : Prop :=
  refuseUnconfigured cfg body = none ∧ ∀ tid ω, Fresh ω w →
    exec cfg tid (.numbers (.reserve userId key body)) ω w =
      some (.error keyConflict, w.draw ω)

/-- The body is accepted as a replay of the order, and nothing changes. -/
def Replays (cfg : Config) (userId key : Uuid) (body : CreateOrderBody) (id : Uuid) (w : World) :
    Prop :=
  refuseUnconfigured cfg body = none ∧ ∀ tid ω, Fresh ω w →
    exec cfg tid (.numbers (.reserve userId key body)) ω w =
      some (.ok (.replayed id), w.draw ω)

/-- A request that asks for something else is refused, and the same request is a replay. -/
structure KeyGuarded (cfg : Config) (userId key : Uuid) (b₁ b₂ : CreateOrderBody) (id : Uuid)
    (w : World) : Prop where
  conflict : ¬ AsksSame cfg b₁ b₂ → Conflicts cfg userId key b₂ w
  replay : b₂ = b₁ → Replays cfg userId key b₂ id w

/-! ## When they get it -/

/-- The columns of the order match the second request: its price is the first one's, rounded, and
it names the first one's offer or, with no offer, the product and the country of the order. -/
def ColumnsMatch (cfg : Config) (b₁ : CreateOrderBody) (q : Quote) (b₂ : CreateOrderBody) : Prop :=
  b₂.expectedPriceNgn = b₁.expectedPriceNgn.map storedPrice ∧
  match b₂.offerId with
  | some offer => b₁.offerId = some offer
  | none => q.productSlug = cfg.toLowercase (trimText b₂.productSlug) ∧
      q.countryCode = cfg.toUppercase (trimText b₂.countryCode)

/-- The columns tell the requests apart: one that asks for something else is on sale and does not
match them, and a repeated one names a price the column keeps. -/
structure ToldApart (cfg : Config) (b₁ : CreateOrderBody) (q : Quote) (b₂ : CreateOrderBody) :
    Prop where
  differ : ¬ AsksSame cfg b₁ b₂ → refuseUnconfigured cfg b₂ = none ∧ ¬ ColumnsMatch cfg b₁ q b₂
  equal : b₂ = b₁ → ∀ p, b₁.expectedPriceNgn = some p → storedPrice p = p

section Requests

variable {cfg : Config} {userId key id : Uuid} {b₁ b₂ : CreateOrderBody} {q : Quote}
  {w w' : World} {o : Order}

/-! ## The quote -/

/-- What a quote takes from its request. -/
lemma quote_asked {cat : Catalogue} (h : quote cfg cat b₁ = .ok q) : q.offerId = b₁.offerId ∧
    (b₁.offerId = none → q.productSlug = cfg.toLowercase (trimText b₁.productSlug) ∧
      q.countryCode = cfg.toUppercase (trimText b₁.countryCode)) := by
  obtain ⟨q₀, hq₀, hdrop⟩ := exists_of_bind_eq_ok h
  have hsame : q.offerId = q₀.offerId ∧ q.productSlug = q₀.productSlug ∧
      q.countryCode = q₀.countryCode := by
    unfold dropStub at hdrop
    dsimp only at hdrop
    split at hdrop
    · split at hdrop <;> cases hdrop
      exact ⟨rfl, rfl, rfl⟩
    · cases hdrop
      exact ⟨rfl, rfl, rfl⟩
  obtain ⟨hoffer, hproduct, hcountry⟩ := hsame
  rw [hoffer, hproduct, hcountry]
  split at hq₀
  · rename_i offer hid
    unfold quoteOffer at hq₀
    repeat' split at hq₀
    all_goals cases hq₀
    exact ⟨hid.symm, fun hnone => by rw [hid] at hnone; cases hnone⟩
  · rename_i hid
    unfold quoteCatalogue at hq₀
    repeat' split at hq₀
    all_goals cases hq₀
    exact ⟨hid.symm, fun _ => ⟨rfl, rfl⟩⟩

/-! ## The stored order -/

/-- The row keeps what its request asked for. -/
structure StoredFor (b : CreateOrderBody) (q : Quote) (userId key : Uuid) (o : Order) : Prop where
  under : o.PlacedUnder userId key
  asked : o.asked = ⟨q.productSlug, q.countryCode, b.offerId,
    b.expectedPriceNgn.map storedPrice, true⟩

lemma storedFor_of_places (h : Places cfg userId key b₁ id q w w') :
    (∃ o, w'.orders.get? id = some o ∧ StoredFor b₁ q userId key o) ∧
      (b₁.offerId = none → q.productSlug = cfg.toLowercase (trimText b₁.productSlug) ∧
        q.countryCode = cfg.toUppercase (trimText b₁.countryCode)) := by
  obtain ⟨-, tid, ω, he⟩ := h
  obtain ⟨-, db, es, hexec, rfl⟩ := exec_numbers he
  rcases reserveOrder_cases hexec with ⟨-, -, hno⟩ | ⟨orderId, journalId, referenceId, journal,
    posted, ledger, orders, q', -, -, hq, -, -, -, hinsert, hres, rfl, -⟩
  · exact absurd rfl (hno id q)
  · cases hres
    obtain ⟨hoffer, hcatalogue⟩ := quote_asked hq
    refine ⟨⟨_, OrderTable.get?_insert_self hinsert, ⟨rfl, rfl⟩, ?_⟩, hcatalogue⟩
    simp [Order.asked, newOrder, hoffer]

/-- Moves of an order leave alone what it was asked for. -/
lemma RowChange.asked {now : Time} {tid : ℕ} {fresh : List Uuid} {row row' : Order}
    {op : NumberOp} {es : Log} (h : RowChange now tid fresh id row op row' es) :
    row'.asked = row.asked := by
  cases h with
  | kept hsame => rw [hsame]
  | ended hop hfenced hopen hstep hes => exact hstep.same.asked
  | step hstep =>
      cases hstep with
      | @granted _ purpose => cases purpose <;> rfl
      | released hop hheld hsame => exact hsame.asked
      | kept hfenced hopen hsame => exact hsame.asked
      | checkedForReview hfenced hopen hsame => exact hsame.asked
      | _ => rfl

/-- No order disappears or forgets what it was asked for. -/
def AskedKept (w w' : World) : Prop :=
  ∀ id o, w.orders.get? id = some o →
    ∃ o', w'.orders.get? id = some o' ∧ o'.terms = o.terms ∧ o'.asked = o.asked

lemma askedKept_of_step (h : (backend cfg).WorldStep w w') : AskedKept w w' := by
  intro id o ho
  cases h with
  | env he =>
      obtain ⟨now, wallets, tiers, -, rfl⟩ := execEnv_eq he
      exact ⟨o, ho, rfl, rfl⟩
  | @exec tid op ω w w' r he =>
      by_cases hop : ∃ nop, op = .numbers nop
      · obtain ⟨nop, rfl⟩ := hop
        obtain ⟨-, db, es, hexec, rfl⟩ := exec_numbers he
        obtain ⟨o', ho', hchange⟩ := (execNumbers_move hexec).change ho
        exact ⟨o', ho', hchange.later.terms, hchange.asked⟩
      · have hsame := (exec_move he).2.orders_eq fun nop heq => hop ⟨nop, heq⟩
        exact ⟨o, by rw [hsame, ho], rfl, rfl⟩

lemma AskedKept.refl (w : World) : AskedKept w w := fun _ o ho => ⟨o, ho, rfl, rfl⟩

lemma AskedKept.trans {w₁ w₂ w₃ : World} (h : AskedKept w₁ w₂) (h' : AskedKept w₂ w₃) :
    AskedKept w₁ w₃ := by
  intro id o ho
  obtain ⟨o', ho', ht, ha⟩ := h id o ho
  obtain ⟨o'', ho'', ht', ha'⟩ := h' id o' ho'
  exact ⟨o'', ho'', ht'.trans ht, ha'.trans ha⟩

lemma StoredFor.kept (h : StoredFor b₁ q userId key o) (hw : AskedKept w w')
    (ho : w.orders.get? id = some o) :
    ∃ o', w'.orders.get? id = some o' ∧ StoredFor b₁ q userId key o' := by
  obtain ⟨o', ho', ht, ha⟩ := hw id o ho
  exact ⟨o', ho', h.under.later ht, ha.trans h.asked⟩

/-! ## The comparison -/

lemma findByKey_eq_some {t : OrderTable} (ho : t.get? id = some o)
    (hunder : o.PlacedUnder userId key) : findByKey t userId key = some (id, o) := by
  cases hfound : findByKey t userId key with
  | none => exact absurd hunder (findByKey_eq_none hfound ho)
  | some found =>
      obtain ⟨id', o'⟩ := found
      have hget : t.get? id' = some o' :=
        Table.get?_eq_some_iff.mpr (List.mem_of_find?_eq_some hfound)
      have hunder' : o'.userId = userId ∧ o'.idempotencyKey = key := by
        simpa using List.find?_some hfound
      cases t.eq_of_key ho hget (hunder.1.trans hunder'.1.symm) (hunder.2.trans hunder'.2.symm)
      cases ho.symm.trans hget
      rfl

/-- A request under a key that has an order is compared with it. -/
lemma exec_reserve_existing (cfg : Config) (b₂ : CreateOrderBody) (tid : ℕ) {ω : Oracle}
    (hf : Fresh ω w)
    (ho : w.orders.get? id = some o) (hunder : o.PlacedUnder userId key) :
    exec cfg tid (.numbers (.reserve userId key b₂)) ω w =
      some (if sameRequest cfg b₂ o then .ok (.replayed id) else .error keyConflict,
        w.draw ω) := by
  have hfound : findByKey w.numbers.orders userId key = some (id, o) :=
    findByKey_eq_some ho hunder
  have hres : reserveOrder cfg w.now ω.fresh ω.catalogue userId key b₂ w.numbers =
      some (if sameRequest cfg b₂ o then .ok (.replayed id) else .error keyConflict,
        w.numbers, []) := by
    unfold reserveOrder
    rw [hfound]
    dsimp only
    split <;> rfl
  rw [exec, if_pos hf]
  change ((reserveOrder cfg w.now ω.fresh ω.catalogue userId key b₂ w.numbers).map _) = _
  rw [hres]
  rfl

lemma sameRequest_iff (cfg : Config) (b₂ : CreateOrderBody) (h : StoredFor b₁ q userId key o) :
    sameRequest cfg b₂ o = true ↔ ColumnsMatch cfg b₁ q b₂ := by
  have hasked := h.asked
  simp only [Order.asked, Order.Asked.mk.injEq] at hasked
  obtain ⟨hproduct, hcountry, hoffer, hexpected, hcomplete⟩ := hasked
  unfold sameRequest ColumnsMatch
  rw [hproduct, hcountry, hoffer, hexpected, hcomplete]
  cases b₂.offerId with
  | some offer =>
      simp only [Bool.not_true, Bool.false_or, Bool.and_eq_true, decide_eq_true_eq]
      exact ⟨fun ⟨hsame, hprice⟩ => ⟨hprice.symm, hsame⟩,
        fun ⟨hprice, hsame⟩ => ⟨hsame, hprice.symm⟩⟩
  | none =>
      simp only [Bool.not_true, Bool.false_or, Bool.and_eq_true, decide_eq_true_eq]
      exact ⟨fun ⟨hsame, hprice⟩ => ⟨hprice.symm, hsame⟩,
        fun ⟨hprice, hsame⟩ => ⟨hsame, hprice.symm⟩⟩

/-- **Where the columns tell the requests apart.** -/
lemma keyGuarded_iff (hconfigured : refuseUnconfigured cfg b₁ = none)
    (hcatalogue : b₁.offerId = none → q.productSlug = cfg.toLowercase (trimText b₁.productSlug) ∧
      q.countryCode = cfg.toUppercase (trimText b₁.countryCode))
    (ho : w.orders.get? id = some o) (hstored : StoredFor b₁ q userId key o) :
    KeyGuarded cfg userId key b₁ b₂ id w ↔ ToldApart cfg b₁ q b₂ := by
  have hexec := fun (tid : ℕ) (ω : Oracle) (hf : Fresh ω w) =>
    exec_reserve_existing cfg b₂ tid hf ho hstored.under
  have hfresh : Fresh { fresh := [] } w := ⟨List.nodup_nil, fun u hu => absurd hu List.not_mem_nil⟩
  have hcolumns := sameRequest_iff cfg b₂ hstored
  have hself : ColumnsMatch cfg b₁ q b₁ ↔
      ∀ p, b₁.expectedPriceNgn = some p → storedPrice p = p := by
    have hnames : (match b₁.offerId with
        | some offer => b₁.offerId = some offer
        | none => q.productSlug = cfg.toLowercase (trimText b₁.productSlug) ∧
            q.countryCode = cfg.toUppercase (trimText b₁.countryCode)) := by
      split
      · assumption
      · exact hcatalogue (by assumption)
    unfold ColumnsMatch
    cases b₁.expectedPriceNgn with
    | none => simpa using hnames
    | some p => simpa [hnames] using eq_comm
  constructor
  · intro hguarded
    constructor
    · intro hdiffer
      obtain ⟨hsale, hconflict⟩ := hguarded.conflict hdiffer
      refine ⟨hsale, fun hmatch => ?_⟩
      have := (hexec 0 _ hfresh).symm.trans (hconflict 0 _ hfresh)
      rw [if_pos (hcolumns.mpr hmatch)] at this
      cases this
    · rintro rfl
      rw [← hself, ← hcolumns]
      have := (hexec 0 _ hfresh).symm.trans ((hguarded.replay rfl).2 0 _ hfresh)
      by_contra hno
      rw [if_neg hno] at this
      cases this
  · intro htold
    constructor
    · intro hdiffer
      obtain ⟨hsale, hno⟩ := htold.differ hdiffer
      refine ⟨hsale, fun tid ω hf => ?_⟩
      rw [hexec tid ω hf, if_neg fun hsame => hno (hcolumns.mp hsame)]
    · rintro rfl
      refine ⟨hconfigured, fun tid ω hf => ?_⟩
      rw [hexec tid ω hf, if_pos (hcolumns.mpr (hself.mpr (htold.equal rfl)))]

end Requests

/-- **A reused key is refused where the columns tell the requests apart.**  Whatever runs between
the first request, which placed the order, and the second: one that asks for something else is
refused and a repeated one is a replay, exactly if `ToldApart`. -/
theorem reused_key_guarded {cfg : Config} {userId key id : Uuid} {b₁ : CreateOrderBody}
    {q : Quote} {s s₁ s' : State} (hplaced : Places cfg userId key b₁ id q s.world s₁.world)
    (h : (backend cfg).Reachable unguarded s₁ s') (b₂ : CreateOrderBody) :
    KeyGuarded cfg userId key b₁ b₂ id s'.world ↔ ToldApart cfg b₁ q b₂ := by
  obtain ⟨⟨o, ho, hstored⟩, hcatalogue⟩ := storedFor_of_places hplaced
  have hkept : AskedKept s₁.world s'.world :=
    Reachable.world_rel AskedKept.refl AskedKept.trans (fun _ _ => askedKept_of_step) h
  obtain ⟨o', ho', hstored'⟩ := hstored.kept hkept ho
  exact keyGuarded_iff hplaced.configured hcatalogue ho' hstored'

/-- The same order at twice the price. -/
def dearerOrder : CreateOrderBody := ⟨none, "telegram", "NG", some 3000⟩

/-- The order that was placed, with its quote. -/
def placedOrder : Except ApiError Placed → Option (Uuid × Quote)
  | .ok (.placed id q) => some (id, q)
  | _ => none

lemma placedOrder_eq_some_iff {r : Except ApiError Placed} {id : Uuid} {q : Quote} :
    placedOrder r = some (id, q) ↔ r = .ok (.placed id q) := by
  rcases r with e | placed
  · simp [placedOrder]
  · cases placed <;> simp [placedOrder]

/-- A key under which an order was placed without a price refuses one with a price. -/
theorem reused_key_guarded_dearer : ∃ (s₁ : State) (id : Uuid) (q : Quote),
    KeyGuarded stubConfig 7 50 stubOrder dearerOrder id s₁.world ∧
      ToldApart stubConfig stubOrder q dearerOrder := by
  obtain ⟨s, hs, hexec⟩ := exists_reachable_of_run (backend stubConfig) unguarded (initial 0 [])
    (topUp 0 7 100 101 102 5000)
    (fun s => (exec stubConfig 2 (.numbers (.reserve 7 50 stubOrder))
      { fresh := [200, 201, 2 <<< 100], catalogue := stubCatalogue 1500 } s.world).any
        (fun r => (placedOrder r.1).isSome) = true)
    (by decide +kernel)
  obtain ⟨⟨r, w₁⟩, he, hr⟩ := (Option.any_eq_true _ _).mp hexec
  obtain ⟨⟨id, q⟩, hplaced⟩ := Option.isSome_iff_exists.mp hr
  cases placedOrder_eq_some_iff.mp hplaced
  have hplaced : Places stubConfig 7 50 stubOrder id q s.world w₁ := ⟨by decide, 2, _, he⟩
  have htold : ToldApart stubConfig stubOrder q dearerOrder := by
    refine ⟨fun _ => ⟨by decide, fun hmatch => ?_⟩, fun _ p hprice => ?_⟩
    · cases hmatch.1
    · cases hprice
  have hstays : (backend stubConfig).Reachable unguarded ⟨w₁, s.task⟩ ⟨w₁, s.task⟩ := .init
  exact ⟨⟨w₁, s.task⟩, id, q, (reused_key_guarded hplaced hstays dearerOrder).mpr htold, htold⟩

/-- An order placed through an offer, and a request under its key for the same service, country
and price without the offer. -/
def offerThenCatalogue : List Move :=
  topUp 0 7 100 101 102 5000 ++
  serve 2 (.createOrder 7 50 (offerOrder 9 1000))
    [{ fresh := [200, 201, 2 <<< 100],
       catalogue := offerCatalogue 1000 [⟨.smspool, "NG", "telegram", ""⟩] },
      { fresh := [203] }, {}, { buy := .bought ⟨"p1", "+2341", none, none, none, .smspool⟩ },
      {}, {}, {}] ++
  serve 3 (.createOrder 7 50 ⟨none, "telegram", "NG", some 1000⟩) [{}, {}]

/-- **The second request is answered with the order of the first**, although it asks for no
offer. -/
theorem offer_replayed_without : ∃ s : State,
    (backend liveConfig).Reachable unguarded (initial 0 []) s ∧
    ¬ AsksSame liveConfig (offerOrder 9 1000) ⟨none, "telegram", "NG", some 1000⟩ ∧
    answeredOrder s 2 = true ∧ answeredOrder s 3 = true := by
  obtain ⟨s, hs, h₂, h₃⟩ := exists_reachable_of_run (backend liveConfig) unguarded (initial 0 [])
    offerThenCatalogue (fun s => answeredOrder s 2 = true ∧ answeredOrder s 3 = true)
    (by decide +kernel)
  refine ⟨s, hs, ?_, h₂, h₃⟩
  rintro ⟨hoffer, -⟩
  cases hoffer

end Naivolt
