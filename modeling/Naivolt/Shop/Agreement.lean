import Naivolt.Ledger.Numeric
import Naivolt.Shop.Offers

/-!
# What is listed and what can be ordered

Both queries go by the same sources of an active offer, but they do not ask the same of the
offer.  The order reads the `quantity` column, which no out-of-stock refusal writes, and takes
its price floor from every offer in stock, also from those the listing leaves out; and only the
listing asks whether the product is active.  `Aligned` says when none of this shows, and
`listing_agrees` that this is exactly when the two agree.
-/

namespace Naivolt

open Foundation

namespace Shop

variable (shop : Shop) (cfg : Config) (settings : SellSettings)

/-! ## The two answers -/

/-- `list_offers` returns the offer for its product at the price, but for the cut. -/
def Returned (id : Uuid) (p : ℚ) : Prop :=
  ∃ o product rows r, shop.offers.get? id = some o ∧
    shop.products.get? o.productId = some product ∧
    shop.listRows cfg settings (cfg.toLowercase (trimText product.slug)) none = .ok rows ∧
    r ∈ rows ∧ r.id = id ∧ r.priceNgn = p

/-- `create_order` finds the offer available, with a source and above the floor, and charges the
price. -/
def Charges (now : Time) (orders : List Order) (body : CreateOrderBody) (id : Uuid) (p : ℚ) :
    Prop :=
  ∃ q, quote cfg (shop.catalogue cfg settings now orders id) body = .ok q ∧ q.priceNgn = p

/-! ## When they agree -/

/-- An offer for the same product and country. -/
def Beside (o d : Offer) : Prop := d.productId = o.productId ∧ d.countryId = o.countryId

/-- The offer has a source both queries go by. -/
def Sourced (id : Uuid) (o : Offer) : Prop :=
  ∃ product, shop.products.get? o.productId = some product ∧
    shop.eligibleSources (onSale cfg settings) product id ≠ []

/-- The listing of the product answers: the product is active under a name a request can have,
and no stock of its offers is too large to be written. -/
def Answers (product : ProductRow) (productId : Uuid) : Prop :=
  cfg.toLowercase (trimText product.slug) = product.slug ∧ product.slug ≠ "" ∧
    product.active = true ∧
    ∀ r ∈ shop.offers.rows, r.2.productId = productId → r.2.active = true →
      ((shop.eligibleSources (onSale cfg settings) product r.1).map (·.stock)).sum < 2 ^ 31

/-- No offer beside it, of those that satisfy `P`, puts the floor above the price. -/
def Clears (P : Uuid → Offer → Prop) (o : Offer) : Prop :=
  ∀ id d, shop.offers.get? id = some d → Beside o d → d.active = true → P id d →
    d.priceNgn * cfg.numbersMinPriceFraction ≤ o.priceNgn

/-- The condition, for an active offer with a source.  If its product's listing answers and it
clears the floor of the offers with sources, its quantity is positive and no offer that is only
in stock is too dear for it.  If the listing does not answer, its quantity is zero or some offer
in stock is too dear for it. -/
def Aligned (id : Uuid) (p : ℚ) : Prop :=
  ∀ o product, shop.offers.get? id = some o → shop.products.get? o.productId = some product →
    o.priceNgn = p → o.active = true → shop.Sourced cfg settings id o →
    (shop.Answers cfg settings product o.productId →
      shop.Clears cfg (shop.Sourced cfg settings) o →
        0 < o.quantity ∧ shop.Clears cfg (fun i d => shop.inStock i = true ∧
          ¬ shop.Sourced cfg settings i d) o) ∧
    (¬ shop.Answers cfg settings product o.productId →
      o.quantity = 0 ∨ ¬ shop.Clears cfg (fun i _ => shop.inStock i = true) o)

/-! ## The listing -/

/-- A floor over the dearest is a floor over all. -/
lemma max_all_iff {l : List ℚ} {f p : ℚ} (hf : 0 ≤ f) :
    (l.max?.all fun top => top * f ≤ p) = true ↔ ∀ x ∈ l, x * f ≤ p := by
  rcases hmax : l.max? with _ | top
  · rw [List.max?_eq_none_iff.mp hmax]
    simp
  · obtain ⟨hmem, hle⟩ := List.max?_eq_some_iff.mp hmax
    simp only [Option.all_some, decide_eq_true_eq]
    exact ⟨fun h x hx => (mul_le_mul_of_nonneg_right (hle x hx) hf).trans h, fun h => h top hmem⟩

variable {shop cfg settings}

/-- There is stock exactly if there is a source. -/
lemma stock_pos_iff {providers : List SupplierLabel} {product : ProductRow} {id : Uuid} :
    0 < ((shop.eligibleSources providers product id).map (·.stock)).sum ↔
      shop.eligibleSources providers product id ≠ [] := by
  rcases hl : shop.eligibleSources providers product id with _ | ⟨s, rest⟩
  · simp
  · have hs : s ∈ shop.eligibleSources providers product id := hl ▸ List.mem_cons_self
    have hstock : 0 < s.stock := by
      have h := (List.mem_filter.mp hs).2
      simp only [eligible, Bool.and_eq_true, decide_eq_true_eq] at h
      exact h.2.1.1.1
    simp only [List.map_cons, List.sum_cons, ne_eq, reduceCtorEq, not_false_eq_true, iff_true]
    omega

variable (shop cfg settings) in
/-- The row the listing has for an offer. -/
def listedAs (product : ProductRow) (country : CountryRow) (id : Uuid) (o : Offer) : ListedRow :=
  ⟨id, product.slug, product.name, country.code, country.name, country.dialCode, o.priceNgn,
    ((shop.eligibleSources (onSale cfg settings) product id).map (·.stock)).sum, o.successRate,
    o.successFetchedAt, o.productId, o.countryId⟩

lemma listedRow_eq_some_iff {slug : String} {id : Uuid} {o : Offer} {product : ProductRow}
    {country : CountryRow} {r : ListedRow}
    (hp : shop.products.get? o.productId = some product)
    (hc : shop.countries.get? o.countryId = some country) :
    shop.listedRow (onSale cfg settings) slug none id o = some r ↔
      product.slug = slug ∧ o.active = true ∧ 0 < o.successRate ∧
      shop.Sourced cfg settings id o ∧ r = shop.listedAs cfg settings product country id o := by
  have hsourced : shop.Sourced cfg settings id o ↔
      0 < ((shop.eligibleSources (onSale cfg settings) product id).map (·.stock)).sum := by
    rw [stock_pos_iff]
    constructor
    · rintro ⟨product', hp', hne⟩
      cases hp.symm.trans hp'
      exact hne
    · exact fun hne => ⟨product, hp, hne⟩
  simp only [listedRow, hp, hc, Option.bind_some, Option.all_none, Bool.and_true,
    Bool.and_eq_true, decide_eq_true_eq, hsourced]
  constructor
  · intro h
    split at h
    · rename_i hif
      cases h
      exact ⟨hif.1.1.1, hif.1.1.2, hif.1.2, hif.2, rfl⟩
    · cases h
  · rintro ⟨hslug, hactive, hrate, hstock, rfl⟩
    rw [if_pos ⟨⟨⟨hslug, hactive⟩, hrate⟩, hstock⟩]
    rfl

/-- What is joined to an offer is there. -/
lemma joined {id : Uuid} {o : Offer} (ho : shop.offers.get? id = some o) :
    0 < o.successRate ∧ (∃ product, shop.products.get? o.productId = some product) ∧
      ∃ country, shop.countries.get? o.countryId = some country := by
  obtain ⟨-, hrate, hp, hc⟩ := shop.offersValid (id, o) (Table.get?_eq_some_iff.mp ho)
  exact ⟨hrate, Option.isSome_iff_exists.mp hp, Option.isSome_iff_exists.mp hc⟩

/-- **What is listed of a product**: its active offers with sources. -/
lemma mem_listed_iff {product : ProductRow} {productId : Uuid} {r : ListedRow}
    (hp : shop.products.get? productId = some product) :
    r ∈ shop.listed (onSale cfg settings) product.slug none ↔
      ∃ id o country, shop.offers.get? id = some o ∧ o.productId = productId ∧
        shop.countries.get? o.countryId = some country ∧ o.active = true ∧
        shop.Sourced cfg settings id o ∧ r = shop.listedAs cfg settings product country id o := by
  unfold listed
  rw [List.mem_filterMap]
  constructor
  · rintro ⟨⟨id, o⟩, hmem, hrow⟩
    have ho := Table.get?_eq_some_iff.mpr hmem
    obtain ⟨-, ⟨product', hp'⟩, country, hc⟩ := joined ho
    obtain ⟨hslug, hactive, -, hsourced, rfl⟩ := (listedRow_eq_some_iff hp' hc).mp hrow
    have hsame := shop.slugsUnique _ (Table.get?_eq_some_iff.mp hp') _
      (Table.get?_eq_some_iff.mp hp) hslug
    obtain ⟨hid, rfl⟩ := Prod.mk.inj hsame
    exact ⟨id, o, country, ho, hid, hc, hactive, hsourced, rfl⟩
  · rintro ⟨id, o, country, ho, rfl, hc, hactive, hsourced, rfl⟩
    exact ⟨(id, o), Table.get?_eq_some_iff.mp ho,
      (listedRow_eq_some_iff hp hc).mpr ⟨rfl, hactive, (joined ho).1, hsourced, rfl⟩⟩

/-- The floor of the listing is the floor of the offers beside that have sources. -/
lemma clears_iff {product : ProductRow} {country : CountryRow} {id : Uuid} {o : Offer}
    (hf : 0 ≤ cfg.numbersMinPriceFraction)
    (hp : shop.products.get? o.productId = some product) :
    ((topListed (shop.listed (onSale cfg settings) product.slug none)
        (shop.listedAs cfg settings product country id o)).all fun top =>
      top * cfg.numbersMinPriceFraction ≤ o.priceNgn) = true ↔
      shop.Clears cfg (shop.Sourced cfg settings) o := by
  unfold topListed
  rw [max_all_iff hf]
  simp only [List.mem_map, List.mem_filter, Bool.and_eq_true, decide_eq_true_eq]
  constructor
  · rintro h id' d hd ⟨hdp, hdc⟩ hactive hsourced
    obtain ⟨-, -, country', hc⟩ := joined hd
    exact h _ ⟨_, ⟨(mem_listed_iff hp).mpr ⟨id', d, country', hd, hdp, hc, hactive, hsourced, rfl⟩,
      hdp, hdc⟩, rfl⟩
  · rintro h _ ⟨_, ⟨hmem, hdp, hdc⟩, rfl⟩
    obtain ⟨id', d, country', hd, -, hc, hactive, hsourced, rfl⟩ := (mem_listed_iff hp).mp hmem
    exact h id' d hd ⟨hdp, hdc⟩ hactive hsourced

lemma active_iff {product : ProductRow} {productId : Uuid}
    (hp : shop.products.get? productId = some product) :
    shop.products.rows.any (fun r => r.2.slug = product.slug && r.2.active) = true ↔
      product.active = true := by
  have hmem := Table.get?_eq_some_iff.mp hp
  rw [List.any_eq_true]
  constructor
  · rintro ⟨r, hr, h⟩
    obtain ⟨hslug, hactive⟩ := Bool.and_eq_true _ _ ▸ h
    obtain rfl := shop.slugsUnique r hr _ hmem (of_decide_eq_true hslug)
    exact hactive
  · exact fun h => ⟨_, hmem, by simp [h]⟩

lemma writable_iff {product : ProductRow} {productId : Uuid}
    (hp : shop.products.get? productId = some product) :
    (∀ r ∈ shop.listed (onSale cfg settings) product.slug none, r.stock < 2 ^ 31) ↔
      ∀ r ∈ shop.offers.rows, r.2.productId = productId → r.2.active = true →
        ((shop.eligibleSources (onSale cfg settings) product r.1).map (·.stock)).sum < 2 ^ 31 := by
  constructor
  · rintro h ⟨id, o⟩ hr rfl hactive
    have ho := Table.get?_eq_some_iff.mpr hr
    obtain ⟨-, -, country, hc⟩ := joined ho
    rcases hl : shop.eligibleSources (onSale cfg settings) product id with _ | ⟨s, rest⟩
    · simp
    · have hsourced : shop.Sourced cfg settings id o := ⟨product, hp, by simp [hl]⟩
      rw [← hl]
      exact h _ ((mem_listed_iff hp).mpr ⟨id, o, country, ho, rfl, hc, hactive, hsourced, rfl⟩)
  · intro h r hr
    obtain ⟨id, o, country, ho, hid, -, hactive, -, rfl⟩ := (mem_listed_iff hp).mp hr
    exact h (id, o) (Table.get?_eq_some_iff.mp ho) hid hactive

/-- The listing answers exactly when its conditions hold, and then with what clears its floor. -/
lemma listRows_eq_ok_iff {product : ProductRow} {productId : Uuid} {rows : List ListedRow}
    (hp : shop.products.get? productId = some product)
    (hslug : cfg.toLowercase (trimText product.slug) = product.slug) :
    shop.listRows cfg settings product.slug none = .ok rows ↔
      shop.Answers cfg settings product productId ∧
      rows = (tiered cfg.numbersMinPriceFraction
        (shop.listed (onSale cfg settings) product.slug none)).insertionSort
          fun r r' => r.before r' := by
  have hlarge : (shop.listed (onSale cfg settings) product.slug none).any
      (fun r => 2 ^ 31 ≤ r.stock) = true ↔
      ¬ ∀ r ∈ shop.offers.rows, r.2.productId = productId → r.2.active = true →
        ((shop.eligibleSources (onSale cfg settings) product r.1).map (·.stock)).sum < 2 ^ 31 := by
    rw [← writable_iff hp, List.any_eq_true]
    push Not
    simp only [decide_eq_true_eq]
  unfold listRows Answers
  simp only [hslug, true_and]
  constructor
  · intro h
    split at h
    · cases h
    · rename_i hne
      split at h
      · cases h
      · rename_i hany
        split at h
        · cases h
        · rename_i hfits
          rw [Bool.not_eq_true', Bool.not_eq_false] at hany
          exact ⟨⟨hne, (active_iff hp).mp hany, of_not_not (mt hlarge.mpr hfits)⟩,
            (Except.ok.inj h).symm⟩
  · rintro ⟨⟨hne, hactive, hfits⟩, rfl⟩
    rw [if_neg hne, if_neg (by rw [(active_iff hp).mpr hactive]; simp),
      if_neg (fun h => hlarge.mp h hfits)]

/-- What is listed under a name is listed of the product of that name. -/
lemma slug_of_listRows {product : ProductRow} {id : Uuid} {o : Offer} {slug : String}
    {rows : List ListedRow} {r : ListedRow} (ho : shop.offers.get? id = some o)
    (hp : shop.products.get? o.productId = some product)
    (hrows : shop.listRows cfg settings slug none = .ok rows) (hr : r ∈ rows) (hid : r.id = id) :
    product.slug = slug := by
  have hlisted : r ∈ shop.listed (onSale cfg settings) slug none := by
    unfold listRows at hrows
    split at hrows
    · cases hrows
    · split at hrows
      · cases hrows
      · dsimp only at hrows
        split at hrows
        · cases hrows
        · cases hrows
          exact (List.mem_filter.mp ((List.mem_insertionSort _).mp hr)).1
  obtain ⟨⟨id', o'⟩, hmem, hrow⟩ := List.mem_filterMap.mp hlisted
  obtain ⟨-, ⟨product', hp'⟩, country, hc⟩ := joined (Table.get?_eq_some_iff.mpr hmem)
  obtain ⟨hslug, -, -, -, rfl⟩ := (listedRow_eq_some_iff hp' hc).mp hrow
  cases hid
  cases (Table.get?_eq_some_iff.mpr hmem).symm.trans ho
  cases hp'.symm.trans hp
  exact hslug

/-- **What the listing returns**: an active offer with a source, that clears the floor of those
with sources, if the listing of its product answers. -/
theorem returned_iff {id : Uuid} {p : ℚ} (hf : 0 ≤ cfg.numbersMinPriceFraction) :
    shop.Returned cfg settings id p ↔
      ∃ o product, shop.offers.get? id = some o ∧
        shop.products.get? o.productId = some product ∧ o.priceNgn = p ∧ o.active = true ∧
        shop.Sourced cfg settings id o ∧ shop.Answers cfg settings product o.productId ∧
        shop.Clears cfg (shop.Sourced cfg settings) o := by
  constructor
  · rintro ⟨o, product, rows, r, ho, hp, hrows, hr, hid, hprice⟩
    have hslug := slug_of_listRows ho hp hrows hr hid
    rw [← hslug] at hrows
    obtain ⟨hanswers, rfl⟩ := (listRows_eq_ok_iff hp hslug.symm).mp hrows
    obtain ⟨hlisted, hfloor⟩ := List.mem_filter.mp ((List.mem_insertionSort _).mp hr)
    obtain ⟨id', o', country, ho', hid', -, hactive, hsourced, rfl⟩ :=
      (mem_listed_iff hp).mp hlisted
    cases hid
    cases ho'.symm.trans ho
    exact ⟨o, product, ho, hp, hprice, hactive, hsourced, hanswers,
      (clears_iff hf hp).mp hfloor⟩
  · rintro ⟨o, product, ho, hp, hprice, hactive, hsourced, hanswers, hclears⟩
    obtain ⟨-, -, country, hc⟩ := joined ho
    have hlisted := (mem_listed_iff hp).mpr ⟨id, o, country, ho, rfl, hc, hactive, hsourced, rfl⟩
    have htiered : shop.listedAs cfg settings product country id o ∈
        tiered cfg.numbersMinPriceFraction (shop.listed (onSale cfg settings) product.slug none) :=
      List.mem_filter.mpr ⟨hlisted, (clears_iff hf hp).mpr hclears⟩
    have hrows := (listRows_eq_ok_iff hp hanswers.1).mpr ⟨hanswers, rfl⟩
    exact ⟨o, product, _, _, ho, hp, by rw [hanswers.1]; exact hrows,
      (List.mem_insertionSort _).mpr htiered, rfl, hprice⟩

/-! ## The order -/

lemma Sourced.inStock {id : Uuid} {o : Offer} (h : shop.Sourced cfg settings id o) :
    shop.inStock id = true := by
  obtain ⟨product, -, hne⟩ := h
  obtain ⟨s, hs⟩ := List.exists_mem_of_ne_nil _ hne
  obtain ⟨hmem, hcond⟩ := List.mem_filter.mp hs
  simp only [eligible, Bool.and_eq_true, decide_eq_true_eq] at hcond
  exact List.any_eq_true.mpr ⟨s, hmem, by simp [hcond.1, hcond.2.1.1.1]⟩

/-- The order's floor is the floor of the offers beside that are in stock. -/
lemma topPrice_any_iff {o : Offer} (hf : 0 ≤ cfg.numbersMinPriceFraction) :
    (shop.topPrice o).any (fun top => o.priceNgn < top * cfg.numbersMinPriceFraction) = true ↔
      ¬ shop.Clears cfg (fun i _ => shop.inStock i = true) o := by
  have hall : ((shop.topPrice o).all fun top =>
      top * cfg.numbersMinPriceFraction ≤ o.priceNgn) = true ↔
      shop.Clears cfg (fun i _ => shop.inStock i = true) o := by
    unfold topPrice
    rw [max_all_iff hf]
    simp only [List.mem_map, List.mem_filter, Bool.and_eq_true, decide_eq_true_eq]
    constructor
    · rintro h id d hd ⟨hdp, hdc⟩ hactive hstock
      exact h _ ⟨(id, d), ⟨Table.get?_eq_some_iff.mp hd, ⟨⟨hdp, hdc⟩, hactive⟩, hstock⟩, rfl⟩
    · rintro h _ ⟨⟨id, d⟩, ⟨hmem, ⟨⟨hdp, hdc⟩, hactive⟩, hstock⟩, rfl⟩
      exact h id d (Table.get?_eq_some_iff.mpr hmem) ⟨hdp, hdc⟩ hactive hstock
  rw [← hall]
  rcases shop.topPrice o with _ | top <;> simp

/-- The order takes its floor by a product of `Decimal`s, the listing by one of `NUMERIC`s, which is
exact.  So is the order's for a fraction of at most eight decimals. -/
lemma orderFloor_exact {mul : ℚ → ℚ → Option ℚ} (hmul : rustDecimal.ExactFor (· * ·) mul) {top : ℚ}
    {units parts : ℤ} (htop : top * 10 ^ 4 = units) (hsize : |units| < 10 ^ 20)
    (hfraction : cfg.numbersMinPriceFraction * 10 ^ 8 = parts) (hparts : |parts| ≤ 10 ^ 8) :
    mul top cfg.numbersMinPriceFraction = some (top * cfg.numbersMinPriceFraction) := by
  have hproduct : top * cfg.numbersMinPriceFraction * 10 ^ 12 = ((units * parts : ℤ) : ℚ) := by
    rw [Int.cast_mul, ← htop, ← hfraction]
    ring
  have hbound : |units * parts| < rustDecimal.limit := by
    have hle : |units * parts| ≤ 10 ^ 20 * 10 ^ 8 := by
      rw [abs_mul]
      exact mul_le_mul hsize.le hparts (abs_nonneg _) (by norm_num)
    exact hle.trans_lt (by norm_num [rustDecimal])
  refine hmul _ _ (DecimalFormat.carries_of_units htop ?_ ?_)
    (DecimalFormat.carries_of_units hfraction ?_ ?_)
    (DecimalFormat.carries_of_units hproduct hbound (by norm_num [rustDecimal]))
  · exact hsize.trans_le (by norm_num [rustDecimal])
  · norm_num [rustDecimal]
  · exact hparts.trans_lt (by norm_num [rustDecimal])
  · norm_num [rustDecimal]

/-- No source of an order is the stub while funding is live. -/
lemma not_stub_of_ranked {now : Time} {orders : List Order} {product : ProductRow} {id : Uuid}
    {s : Source} (hlive : cfg.fundingLive = true)
    (hs : s ∈ shop.rankedSources (onSale cfg settings) now orders product id) :
    s.provider ≠ .stub := by
  obtain ⟨s', hs', rfl⟩ := List.mem_map.mp hs
  have hcond := (List.mem_filter.mp ((List.mem_insertionSort _).mp hs')).2
  simp only [eligible, Bool.and_eq_true, decide_eq_true_eq] at hcond
  have hsale := hcond.2.1.2
  simp only [onSale, SellSettings.sourceProviders, hlive, Bool.not_true, Bool.false_eq_true,
    ↓reduceIte, List.append_nil, List.mem_filter] at hsale
  rintro hstub
  rw [hstub] at hsale
  exact absurd hsale.1 (by decide)

lemma rankedSources_ne_nil_iff {now : Time} {orders : List Order} {product : ProductRow}
    {id : Uuid} {providers : List SupplierLabel} :
    shop.rankedSources providers now orders product id ≠ [] ↔
      shop.eligibleSources providers product id ≠ [] := by
  unfold rankedSources
  rw [not_iff_not, List.map_eq_nil_iff, ← List.length_eq_zero_iff, List.length_insertionSort,
    List.length_eq_zero_iff]

/-- The queries of an order for an offer that exists. -/
lemma catalogue_of_offer (cfg : Config) (settings : SellSettings) (now : Time)
    (orders : List Order) {id : Uuid} {o : Offer}
    {product : ProductRow} {country : CountryRow} (ho : shop.offers.get? id = some o)
    (hp : shop.products.get? o.productId = some product)
    (hc : shop.countries.get? o.countryId = some country) :
    let cat := shop.catalogue cfg settings now orders id
    cat.offer = some ⟨product.slug, country.code, country.providerCountry, o.priceNgn, o.quantity,
      o.active⟩ ∧ cat.topPrice = shop.topPrice o ∧
    cat.rankedSources = shop.rankedSources (onSale cfg settings) now orders product id := by
  simp [catalogue, ho, hp, hc]

/-- The stub is on sale only while `dropStub` leaves it. -/
lemma dropStub_of_ranked {now : Time} {orders : List Order} {product : ProductRow} {id : Uuid}
    {q : Quote} (hs : q.sources = shop.rankedSources (onSale cfg settings) now orders product id)
    (hne : q.sources ≠ []) : dropStub cfg q = .ok q := by
  unfold dropStub
  split
  · rename_i hlive
    have hall : q.sources.filter (fun s => s.provider ≠ .stub) = q.sources := by
      refine List.filter_eq_self.mpr fun s hmem => ?_
      rw [hs] at hmem
      simpa using not_stub_of_ranked hlive hmem
    have hsome : q.sources.isEmpty = false := by simpa using hne
    simp only [hall, hsome, Bool.and_false, Bool.false_eq_true, ↓reduceIte]
  · rfl

/-- When an offer gets a price. -/
lemma quoteOffer_eq_ok_iff {cat : Catalogue} (id : Uuid) {expected : ℚ} {q : Quote} :
    quoteOffer cfg cat id (some expected) = .ok q ↔
      ∃ offer first rest, cat.offer = some offer ∧ offer.active = true ∧ 0 < offer.quantity ∧
        offer.priceNgn ≤ expected ∧
        ¬ (cat.topPrice.any fun top => offer.priceNgn < top * cfg.numbersMinPriceFraction) = true ∧
        cat.rankedSources = first :: rest ∧
        q = ⟨offer.productSlug, offer.countryCode, offer.providerCountry, offer.priceNgn,
          first.product, first.country, first.provider, some id, first :: rest⟩ := by
  rcases hoffer : cat.offer with _ | offer
  · simp [quoteOffer, hoffer]
  simp only [quoteOffer, hoffer]
  constructor
  · intro h
    split at h
    · cases h
    · rename_i hsold
      split at h
      · cases h
      · rename_i hprice
        split at h
        · cases h
        · rename_i hfloor
          split at h
          · cases h
          · rename_i first rest hranked
            simp only [Bool.or_eq_true, Bool.not_eq_true', decide_eq_true_eq, not_or,
              Bool.not_eq_false, not_le] at hsold
            exact ⟨offer, first, rest, rfl, hsold.1, hsold.2, not_lt.mp hprice, hfloor, hranked,
              (Except.ok.inj h).symm⟩
  · rintro ⟨_, first, rest, heq, hactive, hquantity, hprice, hfloor, hranked, rfl⟩
    cases heq
    rw [if_neg (by simp [hactive, hquantity]), if_neg (not_lt.mpr hprice), if_neg hfloor, hranked]

/-- **What an order is charged for**: an active offer with quantity and a source, that clears the
floor of those in stock. -/
theorem charges_iff {now : Time} {orders : List Order} {body : CreateOrderBody} {id : Uuid} {p : ℚ}
    (hf : 0 ≤ cfg.numbersMinPriceFraction) (hbody : body.offerId = some id)
    (hexpected : body.expectedPriceNgn = some p) :
    shop.Charges cfg settings now orders body id p ↔
      ∃ o, shop.offers.get? id = some o ∧ o.priceNgn = p ∧ o.active = true ∧ 0 < o.quantity ∧
        shop.Sourced cfg settings id o ∧
        shop.Clears cfg (fun i _ => shop.inStock i = true) o := by
  unfold Charges quote
  simp only [hbody, hexpected]
  rcases ho : shop.offers.get? id with _ | o
  · simp [quoteOffer, catalogue, ho, Except.bind]
  obtain ⟨-, ⟨product, hp⟩, country, hc⟩ := joined ho
  obtain ⟨hoffer, htop, hranked⟩ :=
    catalogue_of_offer cfg settings now orders ho hp hc
  have hsourced : shop.Sourced cfg settings id o ↔
      shop.rankedSources (onSale cfg settings) now orders product id ≠ [] := by
    rw [rankedSources_ne_nil_iff]
    constructor
    · rintro ⟨product', hp', hne⟩
      cases hp.symm.trans hp'
      exact hne
    · exact fun hne => ⟨product, hp, hne⟩
  have hclears : shop.Clears cfg (fun i _ => shop.inStock i = true) o ↔
      ¬ ((shop.catalogue cfg settings now orders id).topPrice.any fun top =>
        o.priceNgn < top * cfg.numbersMinPriceFraction) = true := by
    rw [htop, topPrice_any_iff hf, not_not]
  simp only [Option.some.injEq, exists_eq_left', hsourced, hclears]
  constructor
  · rintro ⟨q, hq, rfl⟩
    obtain ⟨q₀, hq₀, hdrop⟩ := exists_of_bind_eq_ok hq
    obtain ⟨_, first, rest, heq, hactive, hquantity, hprice, hfloor, hsources, rfl⟩ :=
      (quoteOffer_eq_ok_iff id).mp hq₀
    cases hoffer.symm.trans heq
    rw [dropStub_of_ranked (by rw [← hranked, hsources]) (List.cons_ne_nil _ _)] at hdrop
    cases hdrop
    exact ⟨rfl, hactive, Int.natCast_pos.mp hquantity, by simp [← hranked, hsources], hfloor⟩
  · rintro ⟨rfl, hactive, hquantity, hsource, hfloor⟩
    obtain ⟨first, rest, hsources⟩ := List.exists_cons_of_ne_nil hsource
    have hquote := (quoteOffer_eq_ok_iff id).mpr ⟨_, first, rest, hoffer, hactive,
      Int.natCast_pos.mpr hquantity, le_rfl, hfloor, hranked.trans hsources, rfl⟩
    rw [hquote]
    exact ⟨_, dropStub_of_ranked hsources.symm (List.cons_ne_nil _ _), rfl⟩

/-! ## The law -/

/-- The offers in stock are those with sources and those without. -/
lemma clears_inStock_iff (settings : SellSettings) {o : Offer} :
    shop.Clears cfg (fun i _ => shop.inStock i = true) o ↔
      shop.Clears cfg (shop.Sourced cfg settings) o ∧
      shop.Clears cfg (fun i d => shop.inStock i = true ∧ ¬ shop.Sourced cfg settings i d) o := by
  constructor
  · exact fun h => ⟨fun i d hd hb ha hs => h i d hd hb ha hs.inStock,
      fun i d hd hb ha hs => h i d hd hb ha hs.1⟩
  · intro h i d hd hb ha hs
    by_cases hsourced : shop.Sourced cfg settings i d
    · exact h.1 i d hd hb ha hsourced
    · exact h.2 i d hd hb ha ⟨hs, hsourced⟩

/-- What `Aligned` says of an offer that exists. -/
lemma aligned_iff {id : Uuid} {p : ℚ} {o : Offer} {product : ProductRow}
    (ho : shop.offers.get? id = some o) (hp : shop.products.get? o.productId = some product) :
    shop.Aligned cfg settings id p ↔
      (o.priceNgn = p ∧ o.active = true ∧ shop.Sourced cfg settings id o →
        (shop.Answers cfg settings product o.productId →
          shop.Clears cfg (shop.Sourced cfg settings) o →
          0 < o.quantity ∧ shop.Clears cfg (fun i d => shop.inStock i = true ∧
            ¬ shop.Sourced cfg settings i d) o) ∧
        (¬ shop.Answers cfg settings product o.productId →
          o.quantity = 0 ∨ ¬ shop.Clears cfg (fun i _ => shop.inStock i = true) o)) := by
  constructor
  · exact fun h hof => h o product ho hp hof.1 hof.2.1 hof.2.2
  · intro h o' product' ho' hp' hprice hactive hsourced
    cases ho.symm.trans ho'
    cases hp.symm.trans hp'
    exact h ⟨hprice, hactive, hsourced⟩

/-- **Where listing and ordering agree**, after any out-of-stock refusals: an offer is listed at
a price exactly if an order for it is charged that price, if and only if `Aligned` holds. -/
theorem listing_agrees (cfg : Config) (hf : 0 ≤ cfg.numbersMinPriceFraction)
    (settings : SellSettings) (shop : Shop) (history : List (Uuid × Source)) (now : Time)
    (orders : List Order) (body : CreateOrderBody) (id : Uuid) (p : ℚ)
    (hbody : body.offerId = some id) (hexpected : body.expectedPriceNgn = some p) :
    let shop' := shop.afterRejections history
    (shop'.Returned cfg settings id p ↔ shop'.Charges cfg settings now orders body id p) ↔
      shop'.Aligned cfg settings id p := by
  intro shop'
  rw [returned_iff hf, charges_iff hf hbody hexpected]
  rcases ho : shop'.offers.get? id with _ | o
  · simp [Aligned, ho]
  obtain ⟨-, ⟨product, hp⟩, -⟩ := joined ho
  have hlisted : (∃ o' product', some o = some o' ∧
      shop'.products.get? o'.productId = some product' ∧ o'.priceNgn = p ∧ o'.active = true ∧
      shop'.Sourced cfg settings id o' ∧ shop'.Answers cfg settings product' o'.productId ∧
      shop'.Clears cfg (shop'.Sourced cfg settings) o') ↔
      (o.priceNgn = p ∧ o.active = true ∧ shop'.Sourced cfg settings id o) ∧
      shop'.Answers cfg settings product o.productId ∧
      shop'.Clears cfg (shop'.Sourced cfg settings) o := by
    constructor
    · rintro ⟨_, _, ⟨⟩, hp', hprice, hactive, hsourced, hrest⟩
      cases hp.symm.trans hp'
      exact ⟨⟨hprice, hactive, hsourced⟩, hrest⟩
    · rintro ⟨⟨hprice, hactive, hsourced⟩, hrest⟩
      exact ⟨o, product, rfl, hp, hprice, hactive, hsourced, hrest⟩
  have hcharged : (∃ o', some o = some o' ∧ o'.priceNgn = p ∧ o'.active = true ∧
      0 < o'.quantity ∧ shop'.Sourced cfg settings id o' ∧
      shop'.Clears cfg (fun i _ => shop'.inStock i = true) o') ↔
      (o.priceNgn = p ∧ o.active = true ∧ shop'.Sourced cfg settings id o) ∧
      0 < o.quantity ∧ shop'.Clears cfg (fun i _ => shop'.inStock i = true) o := by
    constructor
    · rintro ⟨_, ⟨⟩, hprice, hactive, hquantity, hsourced, hclears⟩
      exact ⟨⟨hprice, hactive, hsourced⟩, hquantity, hclears⟩
    · rintro ⟨⟨hprice, hactive, hsourced⟩, hquantity, hclears⟩
      exact ⟨o, rfl, hprice, hactive, hquantity, hsourced, hclears⟩
  rw [hlisted, hcharged, and_congr_right_iff, aligned_iff ho hp,
    clears_inStock_iff settings]
  refine imp_congr_right fun _ => ?_
  by_cases hanswers : shop'.Answers cfg settings product o.productId
  · simp only [hanswers, true_and, true_imp_iff, not_true_eq_false, false_imp_iff, and_true]
    constructor
    · intro h hclears
      exact ⟨(h.mp hclears).1, (h.mp hclears).2.2⟩
    · exact fun h => ⟨fun hc => ⟨(h hc).1, hc, (h hc).2⟩, fun hc => hc.2.1⟩
  · simp only [hanswers, false_and, false_imp_iff, not_false_eq_true, true_imp_iff, true_and,
      false_iff, not_and_or, Nat.pos_iff_ne_zero, not_not]

/-! ## A dear offer that nobody sells -/

/-- Two offers for one app in one country: the cheap one at 5SIM, the dear one at a supplier that
is not enabled. -/
def twoTiers : Shop where
  products := ⟨[(1, ⟨"telegram", "Telegram", true, 0⟩)], by decide⟩
  countries := ⟨[(1, ⟨"NG", "Nigeria", "+234", "nigeria", true⟩)], by decide⟩
  offers := ⟨[(1, ⟨1, 1, 1000, 80, 0, 5, true⟩), (2, ⟨1, 1, 3000, 80, 0, 5, true⟩)], by decide⟩
  sources := [⟨1, ⟨.fivesim, "nigeria", "telegram", "any"⟩, 1 / 2, "USD", 80, 5⟩,
    ⟨2, ⟨.smspool, "nigeria", "telegram", "any"⟩, 1, "USD", 80, 5⟩]
  slugsUnique := by simp
  offersValid := by decide +kernel
  sourcesValid := by decide +kernel

/-- An order for an offer at its price. -/
def orderFor (id : Uuid) (price : ℚ) : CreateOrderBody := ⟨some id, "", "", some price⟩

/-- Only the cheap offer has a source. -/
lemma eq_cheap_of_sourced {id : Uuid} {o : Offer} (ho : twoTiers.offers.get? id = some o)
    (hs : twoTiers.Sourced liveConfig .seed id o) : o.priceNgn = 1000 := by
  have hmem := Table.get?_eq_some_iff.mp ho
  simp only [twoTiers, List.mem_cons, Prod.mk.injEq, List.not_mem_nil, or_false] at hmem
  rcases hmem with ⟨rfl, rfl⟩ | ⟨rfl, rfl⟩
  · rfl
  · obtain ⟨product, hp, hne⟩ := hs
    cases hp.symm.trans (show twoTiers.products.get? 1 = some _ from rfl)
    exact absurd (by decide +kernel) hne

lemma cheap_sourced : twoTiers.Sourced liveConfig .seed 1 ⟨1, 1, 1000, 80, 0, 5, true⟩ :=
  ⟨_, rfl, by decide +kernel⟩

lemma cheap_listed : twoTiers.Returned liveConfig .seed 1 1000 := by
  refine (returned_iff (by decide +kernel)).mpr ⟨_, _, rfl, rfl, rfl, rfl, cheap_sourced,
    ⟨by decide +kernel, by decide, rfl, by decide +kernel⟩, ?_⟩
  intro id d hd _ _ hsourced
  rw [eq_cheap_of_sourced hd hsourced]
  norm_num [liveConfig, stubConfig]

/-- The shop lists the cheap offer, and refuses an order for it because of the dear one, which it
does not list. -/
theorem listed_not_orderable :
    ¬ (twoTiers.Returned liveConfig .seed 1 1000 ↔
      twoTiers.Charges liveConfig .seed 0 [] (orderFor 1 1000) 1 1000) := by
  intro h
  obtain ⟨o, ho, -, -, -, -, hclears⟩ :=
    (charges_iff (by decide +kernel) rfl rfl).mp (h.mp cheap_listed)
  cases ho.symm.trans (show twoTiers.offers.get? 1 = some _ from rfl)
  have hdear := hclears 2 _ rfl ⟨rfl, rfl⟩ rfl (by decide +kernel)
  norm_num [liveConfig, stubConfig] at hdear

/-- The shop once the dear offer's source has refused. -/
def soldOut : Shop := twoTiers.afterRejections [(2, ⟨.smspool, "nigeria", "telegram", "any"⟩)]

lemma soldOut_aligned : soldOut.Aligned liveConfig .seed 1 1000 := by
  intro o product ho hp _ _ _
  cases ho.symm.trans (show soldOut.offers.get? 1 = some _ from rfl)
  cases hp.symm.trans (show soldOut.products.get? 1 = some _ from rfl)
  refine ⟨fun _ _ => ⟨by decide, ?_⟩, fun hnot => absurd ?_ hnot⟩
  · rintro id d hd _ _ ⟨hstock, -⟩
    have hmem : (id, d) ∈ twoTiers.offers.rows := Table.get?_eq_some_iff.mp hd
    simp only [twoTiers, List.mem_cons, Prod.mk.injEq, List.not_mem_nil, or_false] at hmem
    rcases hmem with ⟨rfl, rfl⟩ | ⟨rfl, rfl⟩
    · norm_num [liveConfig, stubConfig]
    · exact absurd hstock (by decide +kernel)
  · exact ⟨by decide +kernel, by decide, rfl, by decide +kernel⟩

theorem listing_agrees_sold_out :
    soldOut.Returned liveConfig .seed 1 1000 ↔
      soldOut.Charges liveConfig .seed 0 [] (orderFor 1 1000) 1 1000 :=
  (listing_agrees liveConfig (by decide +kernel) .seed twoTiers
    [(2, ⟨.smspool, "nigeria", "telegram", "any"⟩)] 0 [] (orderFor 1 1000) 1 1000 rfl rfl).mpr
    soldOut_aligned

end Shop

end Naivolt
