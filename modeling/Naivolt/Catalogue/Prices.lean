import Naivolt.Catalogue.Countries
import Naivolt.Ledger.Numeric

/-!
# The prices of the catalogue

`Pricing`, `upsert_prices` and the sweep of `sync` of `number_catalog.rs`.  A sale price is the
supplier's cost in naira times the margin, rounded up to ten naira.  A stored price that is within
five percent of a new one is kept, so that what is charged after a sync may be a price that some
earlier cost has given.  A kept price is still more than the sale price divided by 1.05: it covers
the cost whatever has happened before if the margin is 1.05 or more.  The configuration asks for a
margin above 1, and `never_below_cost_iff` says that nothing less than 1.05 is enough.

A sale price is computed by three products and a quotient of `Decimal`s, each of which rounds to
28 digits or so where the exact one has more.  The operations are a parameter (`DecimalOps`), and
what is said of prices is said of costs where all four are exact (`Pricing.Carried`).
-/

namespace Naivolt

open Foundation

/-! ## The sale price -/

/-- `Pricing`, with the arithmetic that it is done in. -/
structure Pricing where
  usdNgn : ℚ
  margin : ℚ
  supplierCurrency : Option String
  arithmetic : DecimalOps := exactOps

/-- `MIN_PRICE_NGN`. -/
def minPriceNgn : ℚ := 100

/-- `PRICE_HYSTERESIS`. -/
def priceHysteresis : ℚ := 5 / 100

namespace Pricing

/-- Whether costs can be turned into naira. -/
def pricesInUsd (p : Pricing) : Bool :=
  p.supplierCurrency.all fun currency => currency.toList.map Char.toLower = ['u', 's', 'd']

/-- The sale price for a supplier's cost, rounded up to ten naira. -/
def salePrice (p : Pricing) (cost : ℚ) : Option ℚ := do
  let naira ← p.arithmetic.mul cost p.usdNgn
  let raw ← p.arithmetic.mul naira p.margin
  let tenth ← p.arithmetic.div raw 10
  let rounded ← p.arithmetic.mul ⌈tenth⌉ 10
  return max rounded minPriceNgn

/-- The price that a row with a price comes to have. -/
def reprice (p : Pricing) (stored sale : ℚ) : ℚ :=
  if !p.pricesInUsd then stored
  else if |sale - stored| / max stored 1 < priceHysteresis then stored
  else sale

end Pricing

/-! ## The sweep -/

/-- `GuestProduct`. -/
structure GuestProduct where
  category : String
  qty : ℤ
  price : ℚ

/-- A row of `number_prices`.  `providerCost` is the cost that the row was last priced by, of which
the column keeps six decimals. -/
structure PriceRow where
  priceNgn : ℚ
  providerCost : ℚ
  providerCostCurrency : String
  providerOperator : String
  stock : ℤ
  active : Bool
  syncedAt : Time
  updatedAt : Time
  lastInStockAt : Option Time

/-- `number_prices`, by product and country. -/
abbrev PriceTable := Table (Uuid × Uuid) PriceRow

/-- The row for a product that has none in the country. -/
def Pricing.newRow (p : Pricing) (now : Time) (offer : GuestProduct) (sale : ℚ) : PriceRow where
  priceNgn := sale
  providerCost := offer.price
  providerCostCurrency := p.supplierCurrency.getD "USD"
  providerOperator := "any"
  stock := min (max offer.qty 0) (2 ^ 31 - 1)
  active := true
  syncedAt := now
  updatedAt := now
  lastInStockAt := if 0 < offer.qty then some now else none

/-- The row that the product already has, in its new form. -/
def Pricing.updateRow (p : Pricing) (now : Time) (offer : GuestProduct) (sale : ℚ)
    (row : PriceRow) : PriceRow :=
  let new := p.newRow now offer sale
  { new with
    priceNgn := p.reprice row.priceNgn new.priceNgn
    providerOperator := row.providerOperator
    active := row.active
    lastInStockAt := new.lastInStockAt.or row.lastInStockAt }

/-- What the statement of `upsert_prices` has for one row: product, listing and sale price. -/
abbrev PricedEntry := Uuid × GuestProduct × ℚ

/-- One row of the statement. -/
def upsertPrice (p : Pricing) (now : Time) (country : Uuid) (t : PriceTable)
    (entry : PricedEntry) : PriceTable :=
  t.upsert (entry.1, country) (p.newRow now entry.2.1 entry.2.2)
    (p.updateRow now entry.2.1 entry.2.2)

/-- The products of a listing that have an id. -/
def identified (productIds : String → Option Uuid) (offers : List (String × GuestProduct)) :
    List (Uuid × GuestProduct) :=
  offers.filterMap fun offer => (productIds offer.1).map fun id => (id, offer.2)

/-- The loop of `upsert_prices`, which prices what it has identified. -/
def Pricing.priced (p : Pricing) (offers : List (Uuid × GuestProduct)) :
    Option (List PricedEntry) :=
  offers.mapM fun offer => (p.salePrice offer.2.price).map fun sale => (offer.1, offer.2, sale)

/-- `upsert_prices`.  It panics in a price, or the statement fails if it meets a row twice. -/
def upsertPrices (p : Pricing) (now : Time) (country : Uuid)
    (offers : List (String × GuestProduct)) (productIds : String → Option Uuid) (t : PriceTable) :
    Option PriceTable := do
  let entries ← p.priced (identified productIds offers)
  if (entries.map Prod.fst).Nodup then return entries.foldl (upsertPrice p now country) t
  else none

/-- The two tables that a sweep writes. -/
structure CatalogueTables where
  countries : Countries
  prices : PriceTable

/-- What a sweep meets: the countries the supplier lists, its listing of a country if there is one,
the ids that `gen_random_uuid()` and `upsert_products` give, and the clock. -/
structure SweepInput where
  pricing : Pricing
  countries : Table String GuestCountry
  listing : String → Option (Table String GuestProduct)
  draws : String → Uuid
  productIds : String → String → Option Uuid
  now : String → Time

/-- How a sweep ends: the tables, whether it went through all countries, and the products and
countries whose prices it has written. -/
structure SweepResult where
  tables : CatalogueTables
  completed : Bool
  synced : List (Uuid × Uuid)

/-- The loop of `sync`.  A failing statement or a panic ends it, and what has been written stays. -/
def sweep (cfg : Config) (i : SweepInput) :
    List (String × GuestCountry) → CatalogueTables → SweepResult
  | [], s => ⟨s, true, []⟩
  | (key, country) :: rest, s =>
    match upsertCountry cfg (i.draws key) key country s.countries with
    | none => ⟨s, false, []⟩
    | some (none, countries) => sweep cfg i rest { s with countries }
    | some (some id, countries) =>
      match i.listing key with
      | none => sweep cfg i rest { s with countries }
      | some listing =>
        let offers := listing.rows.filter fun offer => offer.2.category = "activation"
        match upsertPrices i.pricing (i.now key) id offers (i.productIds key) s.prices with
        | none => ⟨{ s with countries }, false, []⟩
        | some prices =>
          let result := sweep cfg i rest { countries, prices }
          { result with
            synced := (identified (i.productIds key) offers).map (fun e => (e.1, id)) ++
              result.synced }

/-- `sync`, in the order of the supplier's keys. -/
def sync (cfg : Config) (i : SweepInput) (s : CatalogueTables) : SweepResult :=
  sweep cfg i (byKey i.countries.rows) s

/-- The tables after some syncs. -/
def afterSyncs (cfg : Config) (l : List SweepInput) (s : CatalogueTables) : CatalogueTables :=
  l.foldl (fun s i => (sync cfg i s).tables) s

/-! ## Fresh prices -/

namespace Pricing

variable {p : Pricing}

/-- The price where nothing is rounded but to ten naira. -/
def exactPrice (p : Pricing) (cost : ℚ) : ℚ :=
  max (⌈cost * p.usdNgn * p.margin / 10⌉ * 10) minPriceNgn

/-- Every number on the way to the price of a cost is a `Decimal`. -/
structure Carried (p : Pricing) (cost : ℚ) : Prop where
  listed : rustDecimal.Carries cost
  rate : rustDecimal.Carries p.usdNgn
  margin : rustDecimal.Carries p.margin
  naira : rustDecimal.Carries (cost * p.usdNgn)
  raw : rustDecimal.Carries (cost * p.usdNgn * p.margin)
  tenth : rustDecimal.Carries (cost * p.usdNgn * p.margin / 10)
  rounded : rustDecimal.Carries (⌈cost * p.usdNgn * p.margin / 10⌉ * 10)

/-- **The price is the exact one** if every number on the way is carried. -/
lemma Carried.salePrice_eq {cost : ℚ} (hexact : p.arithmetic.Exact) (h : p.Carried cost) :
    p.salePrice cost = some (p.exactPrice cost) := by
  have hten : rustDecimal.Carries 10 :=
    ⟨10, 0, by norm_num [rustDecimal], Nat.zero_le _, by norm_num⟩
  have hceil : rustDecimal.Carries (⌈cost * p.usdNgn * p.margin / 10⌉ : ℤ) := by
    refine DecimalFormat.carries_intCast ?_
    have hlt := h.rounded.abs_lt
    rw [abs_mul, abs_of_pos (by norm_num : (0 : ℚ) < 10)] at hlt
    have hle := abs_nonneg (⌈cost * p.usdNgn * p.margin / 10⌉ : ℚ)
    exact_mod_cast (by linarith : |(⌈cost * p.usdNgn * p.margin / 10⌉ : ℚ)| < rustDecimal.limit)
  unfold salePrice
  simp only [hexact.mul _ _ h.listed h.rate h.naira, hexact.mul _ _ h.naira h.margin h.raw,
    hexact.div _ _ h.raw hten h.tenth, hexact.mul _ _ hceil hten h.rounded, Option.bind_eq_bind,
    Option.bind_some, Option.pure_def, exactPrice]

lemma le_ceil_ten (x : ℚ) : x ≤ ⌈x / 10⌉ * 10 := by
  have h := Int.le_ceil (x / 10)
  linarith

lemma ceil_ten_lt (x : ℚ) : ⌈x / 10⌉ * 10 < x + 10 := by
  have h := Int.ceil_lt_add_one (x / 10)
  linarith

lemma markup_le (cost : ℚ) : cost * p.usdNgn * p.margin ≤ p.exactPrice cost :=
  (le_ceil_ten _).trans (le_max_left _ _)

lemma hundred_le (cost : ℚ) : 100 ≤ p.exactPrice cost := le_max_right _ _

/-- The floor does not depend on the arithmetic. -/
lemma hundred_le_of_salePrice {cost sale : ℚ} (h : p.salePrice cost = some sale) : 100 ≤ sale := by
  simp only [salePrice, Option.bind_eq_bind, Option.bind_eq_some_iff, Option.pure_def,
    Option.some_inj] at h
  obtain ⟨_, -, _, -, _, -, _, -, rfl⟩ := h
  exact le_max_right _ _

lemma monotone_exactPrice (hmargin : 0 ≤ p.margin) (hrate : 0 ≤ p.usdNgn) :
    Monotone p.exactPrice := by
  intro cost cost' hle
  have hraw : cost * p.usdNgn * p.margin / 10 ≤ cost' * p.usdNgn * p.margin / 10 := by gcongr
  have hceil : (⌈cost * p.usdNgn * p.margin / 10⌉ : ℚ) ≤ ⌈cost' * p.usdNgn * p.margin / 10⌉ :=
    Int.cast_le.mpr (Int.ceil_mono hraw)
  unfold exactPrice
  gcongr

lemma exactPrice_multiple (cost : ℚ) : ∃ n : ℤ, p.exactPrice cost = n * 10 := by
  unfold exactPrice
  rcases max_choice (⌈cost * p.usdNgn * p.margin / 10⌉ * 10 : ℚ) minPriceNgn with h | h
  · exact ⟨_, h⟩
  · exact ⟨10, h.trans (by norm_num [minPriceNgn])⟩

/-- What a newly computed price promises: not to be below the floor, and where every number on the
way is carried, that there is one, a multiple of ten naira, not below the marked-up cost, and for a
rate that is not negative no lower for a higher cost. -/
structure SalePriceLaws (p : Pricing) : Prop where
  floor : ∀ {cost sale}, p.salePrice cost = some sale → 100 ≤ sale
  priced : ∀ {cost}, p.Carried cost → ∃ sale, p.salePrice cost = some sale ∧
    (∃ n : ℤ, sale = n * 10) ∧ cost * p.usdNgn * p.margin ≤ sale
  monotone : 0 ≤ p.usdNgn → ∀ {cost cost' sale sale'}, p.Carried cost → p.Carried cost' →
    p.salePrice cost = some sale → p.salePrice cost' = some sale' → cost ≤ cost' → sale ≤ sale'

/-- A newly computed price keeps its promises. -/
lemma salePriceLaws (hexact : p.arithmetic.Exact) (hmargin : 1 < p.margin) : SalePriceLaws p where
  floor := hundred_le_of_salePrice
  priced h := ⟨_, h.salePrice_eq hexact, exactPrice_multiple _, markup_le _⟩
  monotone hrate cost cost' sale sale' h h' hsale hsale' hle := by
    obtain rfl := Option.some.inj ((h.salePrice_eq hexact).symm.trans hsale)
    obtain rfl := Option.some.inj ((h'.salePrice_eq hexact).symm.trans hsale')
    exact monotone_exactPrice (by linarith) hrate hle

lemma cost_le_sale (hmargin : 21 / 20 ≤ p.margin) (cost : ℚ) :
    cost * p.usdNgn ≤ 20 / 21 * p.exactPrice cost := by
  have hmarkup := markup_le (p := p) cost
  have hfloor := hundred_le (p := p) cost
  rcases le_or_gt (cost * p.usdNgn) 0 with hneg | hpos
  · linarith
  · have hmore := mul_le_mul_of_nonneg_left hmargin hpos.le
    linarith

/-- **A price that covers the cost**, whatever price there was. -/
lemma cost_le_reprice (husd : p.pricesInUsd = true) (hmargin : 21 / 20 ≤ p.margin)
    (stored cost : ℚ) : cost * p.usdNgn ≤ p.reprice stored (p.exactPrice cost) := by
  have hfloor := hundred_le (p := p) cost
  have hsale := cost_le_sale hmargin cost
  simp only [reprice, husd, Bool.not_true, Bool.false_eq_true, if_false]
  split_ifs with hclose
  · rw [div_lt_iff₀ (lt_max_of_lt_right one_pos)] at hclose
    have hdiff := (le_abs_self (p.exactPrice cost - stored)).trans_lt hclose
    simp only [priceHysteresis] at hdiff
    -- The floor rules out a stored price below one naira.
    rcases le_total stored 1 with hlow | hhigh
    · rw [max_eq_right hlow] at hdiff
      linarith
    · rw [max_eq_left hhigh] at hdiff
      linarith
  · linarith

end Pricing

/-! ## What a sweep leaves -/

/-- The stored price covers the cost at an exchange rate. -/
def PriceTable.Covered (t : PriceTable) (rate : ℚ) (k : Uuid × Uuid) : Prop :=
  ∃ row, t.get? k = some row ∧ row.providerCost * rate ≤ row.priceNgn

/-- The arithmetic is exact for every cost that the supplier lists. -/
structure SweepInput.Carried (i : SweepInput) : Prop where
  exact : i.pricing.arithmetic.Exact
  costs : ∀ key listing, i.listing key = some listing → ∀ offer ∈ listing.rows,
    offer.2.category = "activation" → i.pricing.Carried offer.2.price

section Sweep

variable {cfg : Config} {p : Pricing} {now : Time} {country : Uuid} {t t' : PriceTable}

lemma get?_upsertPrice (entry : PricedEntry) (k : Uuid × Uuid) :
    (upsertPrice p now country t entry).get? k =
      if k = (entry.1, country) then
        some ((t.get? (entry.1, country)).elim (p.newRow now entry.2.1 entry.2.2)
          (p.updateRow now entry.2.1 entry.2.2))
      else t.get? k :=
  Table.get?_upsert ..

/-- Where the arithmetic is exact, so are the prices. -/
lemma priced_of_carried (hexact : p.arithmetic.Exact) {l : List (Uuid × GuestProduct)}
    (h : ∀ offer ∈ l, p.Carried offer.2.price) :
    p.priced l = some (l.map fun offer => (offer.1, offer.2, p.exactPrice offer.2.price)) := by
  unfold Pricing.priced
  induction l with
  | nil => rfl
  | cons offer rest ih =>
      obtain ⟨hoffer, hrest⟩ := List.forall_mem_cons.mp h
      simp [List.mapM_cons, hoffer.salePrice_eq hexact, ih hrest]

/-- A row that is written covers the cost, and the others are left alone. -/
lemma covered_upsertPrice (husd : p.pricesInUsd = true) (hmargin : 21 / 20 ≤ p.margin)
    (offer : Uuid × GuestProduct) {k : Uuid × Uuid}
    (h : k = (offer.1, country) ∨ t.Covered p.usdNgn k) :
    (upsertPrice p now country t (offer.1, offer.2, p.exactPrice offer.2.price)).Covered
      p.usdNgn k := by
  unfold PriceTable.Covered
  rw [get?_upsertPrice]
  by_cases hk : k = (offer.1, country)
  · rw [if_pos hk]
    refine ⟨_, rfl, ?_⟩
    cases t.get? (offer.1, country) with
    | none =>
        have hsale := Pricing.cost_le_sale hmargin offer.2.price
        have hfloor := Pricing.hundred_le (p := p) offer.2.price
        change offer.2.price * p.usdNgn ≤ p.exactPrice offer.2.price
        linarith
    | some old => exact Pricing.cost_le_reprice husd hmargin _ _
  · rw [if_neg hk]
    exact h.resolve_left hk

lemma mem_identified {offers : List (String × GuestProduct)} {productIds : String → Option Uuid}
    {offer : Uuid × GuestProduct} (h : offer ∈ identified productIds offers) :
    ∃ key, (key, offer.2) ∈ offers := by
  obtain ⟨⟨key, listed⟩, hmem, hid⟩ := List.mem_filterMap.mp h
  obtain ⟨id, -, rfl⟩ := Option.map_eq_some_iff.mp hid
  exact ⟨key, hmem⟩

lemma covered_upsertPrices (husd : p.pricesInUsd = true) (hmargin : 21 / 20 ≤ p.margin)
    (hexact : p.arithmetic.Exact) {offers : List (String × GuestProduct)}
    (hcarried : ∀ offer ∈ offers, p.Carried offer.2.price) {productIds : String → Option Uuid}
    (hwritten : upsertPrices p now country offers productIds t = some t') {k : Uuid × Uuid}
    (h : k ∈ (identified productIds offers).map (fun e => (e.1, country)) ∨
      t.Covered p.usdNgn k) : t'.Covered p.usdNgn k := by
  have hall : ∀ offer ∈ identified productIds offers, p.Carried offer.2.price := fun offer hoffer =>
    let ⟨_, hmem⟩ := mem_identified hoffer
    hcarried _ hmem
  unfold upsertPrices at hwritten
  rw [priced_of_carried hexact hall, Option.bind_eq_bind, Option.bind_some] at hwritten
  split_ifs at hwritten
  cases hwritten
  clear hall
  generalize identified productIds offers = l at h ⊢
  induction l generalizing t with
  | nil => simpa using h
  | cons offer rest ih =>
      refine ih ?_
      rcases h with hmem | hcovered
      · rcases List.mem_cons.mp hmem with rfl | hmem
        · exact .inr (covered_upsertPrice husd hmargin offer (.inl rfl))
        · exact .inl hmem
      · exact .inr (covered_upsertPrice husd hmargin offer (.inr hcovered))

/-- **Every price that a sweep has written covers the cost**, and so do those that did before. -/
lemma covered_sweep {i : SweepInput} (husd : i.pricing.pricesInUsd = true)
    (hmargin : 21 / 20 ≤ i.pricing.margin) (hcarried : i.Carried)
    (l : List (String × GuestCountry)) (s : CatalogueTables) {k : Uuid × Uuid}
    (h : k ∈ (sweep cfg i l s).synced ∨ s.prices.Covered i.pricing.usdNgn k) :
    (sweep cfg i l s).tables.prices.Covered i.pricing.usdNgn k := by
  induction l generalizing s with
  | nil => simpa [sweep] using h
  | cons entry rest ih =>
      obtain ⟨key, country⟩ := entry
      simp only [sweep] at h ⊢
      split at h
      · exact h.resolve_left List.not_mem_nil
      · exact ih _ h
      · split at h
        · exact ih _ h
        · rename_i listing hlisting
          have hoffers : ∀ offer ∈ listing.rows.filter
              (fun offer => offer.2.category = "activation"),
              i.pricing.Carried offer.2.price := by
            intro offer hoffer
            obtain ⟨hmem, hactivation⟩ := List.mem_filter.mp hoffer
            exact hcarried.costs key listing hlisting offer hmem (by simpa using hactivation)
          split at h
          · exact h.resolve_left List.not_mem_nil
          · rename_i prices hwritten
            refine ih _ ?_
            rw [List.mem_append, or_assoc] at h
            rcases h with hmem | hmem | hcovered
            · exact .inr (covered_upsertPrices husd hmargin hcarried.exact hoffers hwritten
                (.inl hmem))
            · exact .inl hmem
            · exact .inr (covered_upsertPrices husd hmargin hcarried.exact hoffers hwritten
                (.inr hcovered))

end Sweep

/-- After a sync, the stored price of every product and country in it is at least the naira cost
that the sync went by. -/
def AboveCost (i : SweepInput) (r : SweepResult) : Prop :=
  ∀ k ∈ r.synced, r.tables.prices.Covered i.pricing.usdNgn k

/-- However often the catalogue is synced with a margin, at whatever costs and rates that the
arithmetic is exact for, each sync leaves prices above cost. -/
def NeverBelowCost (cfg : Config) (margin : ℚ) (s : CatalogueTables) : Prop :=
  ∀ (l : List SweepInput) (i : SweepInput),
    (∀ j ∈ l ++ [i], j.pricing.margin = margin ∧ j.pricing.pricesInUsd = true ∧ j.Carried) →
      AboveCost i (sync cfg i (afterSyncs cfg l s))

/-! ## Prices below cost -/

/-- The supplier's country, whatever its key. -/
def plainCountry : GuestCountry := ⟨["us"], ["+1"], none⟩

/-- A margin at a naira for a dollar. -/
def atPar (margin : ℚ) : Pricing := ⟨1, margin, none, exactOps⟩

lemma markup_le_atPar (margin cost : ℚ) : cost * margin ≤ (atPar margin).exactPrice cost := by
  have h := Pricing.markup_le (p := atPar margin) cost
  rwa [show (atPar margin).usdNgn = 1 from rfl, mul_one] at h

/-- The sale price is less than ten naira above the marked-up cost, but for the floor. -/
lemma atPar_lt (margin cost : ℚ) (hcost : 100 ≤ cost * margin) :
    (atPar margin).exactPrice cost < cost * margin + 10 := by
  have hraw := Pricing.ceil_ten_lt (cost * 1 * margin)
  rw [mul_one] at hraw
  refine max_lt ?_ ?_
  · change (⌈cost * 1 * margin / 10⌉ * 10 : ℚ) < cost * margin + 10
    rwa [mul_one]
  · norm_num [minPriceNgn]
    linarith

/-- Whole costs and a margin of ten decimals are carried, if they are not too large. -/
lemma carried_atPar {margin cost : ℚ} {m n : ℤ} (hm : margin * 10 ^ 10 = m) (hn : cost = n)
    (hmargin : 1 < margin) (hlow : margin < 2) (hpos : 0 ≤ n) (hcost : n ≤ 10 ^ 14) :
    (atPar margin).Carried cost := by
  have hlimit : (rustDecimal.limit : ℤ) = 2 ^ 96 := by norm_num [rustDecimal]
  have hm0 : 0 < m := by
    have h : (0 : ℚ) < m := by rw [← hm]; positivity
    exact_mod_cast h
  have hm2 : m < 2 * 10 ^ 10 := by
    have h : (m : ℚ) < 2 * 10 ^ 10 := by rw [← hm]; linarith
    exact_mod_cast h
  have hunits : cost * margin * 10 ^ 10 = (n * m : ℤ) := by
    rw [mul_assoc, hm, hn, Int.cast_mul]
  have hprod : |n * m| < 2 ^ 96 := by
    rw [abs_of_nonneg (by positivity)]
    calc n * m ≤ 10 ^ 14 * (2 * 10 ^ 10) := by gcongr
      _ < 2 ^ 96 := by norm_num
  have hwhole : ∀ x : ℤ, |x| ≤ 10 ^ 16 → rustDecimal.Carries x := fun x h =>
    DecimalFormat.carries_intCast (by rw [hlimit]; omega)
  have hn' : |n| ≤ 10 ^ 16 := by rw [abs_of_nonneg hpos]; omega
  have hone : cost * (atPar margin).usdNgn = cost := mul_one cost
  have hround : |⌈cost * margin / 10⌉ * 10| ≤ (10 : ℤ) ^ 16 := by
    have hnonneg : 0 ≤ cost := by rw [hn]; exact_mod_cast hpos
    have hle : cost ≤ 10 ^ 14 := by rw [hn]; exact_mod_cast hcost
    have hceil : (⌈cost * margin / 10⌉ * 10 : ℚ) < cost * margin + 10 := Pricing.ceil_ten_lt _
    have hzero : 0 ≤ ⌈cost * margin / 10⌉ := Int.ceil_nonneg (by positivity)
    rw [abs_of_nonneg (by positivity)]
    have hmul : cost * margin ≤ 10 ^ 14 * 2 := by gcongr
    exact_mod_cast (by linarith : (⌈cost * margin / 10⌉ * 10 : ℚ) ≤ 10 ^ 16)
  constructor
  · exact hn ▸ hwhole n hn'
  · exact_mod_cast hwhole 1 (by norm_num)
  · exact DecimalFormat.carries_of_units hm (by rw [hlimit, abs_of_pos hm0]; omega)
      (by norm_num [rustDecimal])
  · exact hone.symm ▸ hn ▸ hwhole n hn'
  · rw [hone]
    exact DecimalFormat.carries_of_units hunits (by rw [hlimit]; exact hprod)
      (by norm_num [rustDecimal])
  · rw [hone]
    refine DecimalFormat.carries_of_units (k := 11) (n := n * m) ?_ (by rw [hlimit]; exact hprod)
      (by norm_num [rustDecimal])
    change cost * margin / 10 * 10 ^ 11 = _
    rw [← hunits]
    ring
  · rw [hone]
    exact_mod_cast hwhole _ hround

/-- A sweep over one country with one product on offer. -/
def soleOffer (margin cost : ℚ) (key : String) : SweepInput where
  pricing := atPar margin
  countries := ⟨[(key, plainCountry)], by simp⟩
  listing _ := some ⟨[("whatsapp", ⟨"activation", 1, cost⟩)], by simp⟩
  draws _ := 0
  productIds _ _ := some 0
  now _ := 0

lemma carried_soleOffer {margin cost : ℚ} {key : String} (h : (atPar margin).Carried cost) :
    (soleOffer margin cost key).Carried where
  exact := exactOps_exact
  costs := by
    rintro key listing hlisting offer hoffer -
    cases hlisting
    rw [List.mem_singleton.mp hoffer]
    exact h

/-- The row that a sole offer writes. -/
abbrev soleEntry (margin cost : ℚ) : PricedEntry :=
  (0, ⟨"activation", 1, cost⟩, (atPar margin).exactPrice cost)

lemma sync_soleOffer {cfg : Config} {margin cost : ℚ} {key : String} {s : CatalogueTables}
    {id : Uuid} {countries : Countries} (hcarried : (atPar margin).Carried cost)
    (h : upsertCountry cfg 0 key plainCountry s.countries = some (some id, countries)) :
    sync cfg (soleOffer margin cost key) s =
      ⟨⟨countries, upsertPrice (atPar margin) 0 id s.prices (soleEntry margin cost)⟩, true,
        [(0, id)]⟩ := by
  have hsorted : byKey (soleOffer margin cost key).countries.rows = [(key, plainCountry)] := rfl
  have hdraw : (soleOffer margin cost key).draws key = 0 := rfl
  have hidentified : identified ((soleOffer margin cost key).productIds key)
      ([("whatsapp", (⟨"activation", 1, cost⟩ : GuestProduct))].filter
        fun offer => offer.2.category = "activation") = [(0, ⟨"activation", 1, cost⟩)] := by
    simp [identified, soleOffer]
  have hpriced : (atPar margin).priced [(0, ⟨"activation", 1, cost⟩)] =
      some [soleEntry margin cost] := priced_of_carried exactOps_exact (by simpa using hcarried)
  have hlisting : (soleOffer margin cost key).listing key =
      some ⟨[("whatsapp", ⟨"activation", 1, cost⟩)], by simp⟩ := rfl
  have hupsert : upsertPrices (soleOffer margin cost key).pricing
      ((soleOffer margin cost key).now key) id
      ([("whatsapp", (⟨"activation", 1, cost⟩ : GuestProduct))].filter
        fun offer => offer.2.category = "activation")
      ((soleOffer margin cost key).productIds key) s.prices =
        some (upsertPrice (atPar margin) 0 id s.prices (soleEntry margin cost)) := by
    change upsertPrices (atPar margin) 0 id _ _ s.prices = _
    unfold upsertPrices
    rw [hidentified, hpriced]
    simp
  unfold sync
  rw [hsorted]
  simp only [sweep, hdraw, h, hlisting, hupsert, hidentified, List.map_cons, List.map_nil,
    List.append_nil]

/-- Some key is sold under a row now and when it is written again. -/
lemma exists_sold (cfg : Config) (t : Countries) : ∃ key id t',
    upsertCountry cfg 0 key plainCountry t = some (some id, t') ∧
      upsertCountry cfg 0 key plainCountry t' = some (some id, t') := by
  suffices h : ∃ key id t', upsertCountry cfg 0 key plainCountry t = some (some id, t') by
    obtain ⟨key, id, t', h⟩ := h
    exact ⟨key, id, t', h, upsertCountry_of_settled rfl (upsertCountry_step rfl h).settled⟩
  rcases hrows : t.rows with _ | ⟨r, rest⟩
  · have hfree : t.get? 0 = none := Table.get?_eq_none_iff.mpr (by simp [hrows])
    obtain ⟨id, t', h⟩ := upsertCountry_isSome cfg "usa" plainCountry hfree
    have hnone : ∀ r : Uuid × CountryRow, r ∉ t.rows := by simp [hrows]
    cases upsertCountry_step rfl h with
    | described hr => exact absurd hr (hnone _)
    | skipped _ hr => exact absurd hr (hnone _)
    | taken _ hr => exact absurd hr (hnone _)
    | added => exact ⟨"usa", 0, t', h⟩
  · have hr : r ∈ t.rows := hrows ▸ List.mem_cons_self
    have hread : plainCountry.read cfg r.2.providerCountry = some _ := rfl
    obtain ⟨t', h⟩ := upsertCountry_of_key hread hr rfl
    exact ⟨_, _, t', h⟩

/-- The price at which a dear product is sold is kept when it costs a naira more than that. -/
lemma reprice_kept {margin stored : ℚ} (hmargin : 1 < margin) (hlow : margin < 21 / 20)
    (hdear : (margin + 10) / (21 / 20 - margin) ≤ stored) (hfloor : 100 ≤ stored) :
    (atPar margin).reprice stored
      ((atPar margin).exactPrice (stored + 1)) = stored := by
  have hroom : margin + 10 ≤ stored * (21 / 20 - margin) := by
    rwa [div_le_iff₀ (by linarith)] at hdear
  have hmarkup := markup_le_atPar margin (stored + 1)
  have hmore : (stored + 1) * 1 ≤ (stored + 1) * margin := by gcongr
  have hsale : (atPar margin).exactPrice (stored + 1) < stored + stored / 20 := by
    have h := atPar_lt margin (stored + 1) (by linarith)
    linarith
  have habove : stored ≤ (atPar margin).exactPrice (stored + 1) := by linarith
  have hclose : |(atPar margin).exactPrice (stored + 1) - stored| / max stored 1 <
      priceHysteresis := by
    rw [abs_of_nonneg (by linarith), max_eq_left (by linarith), div_lt_iff₀ (by linarith),
      priceHysteresis]
    linarith
  unfold Pricing.reprice
  rw [if_pos hclose]
  simp

/-- Of two prices far apart one is taken over. -/
lemma reprice_moved {p : Pricing} (husd : p.pricesInUsd = true) (stored : ℚ) {low high : ℚ}
    (hlow : 100 ≤ low) (hhigh : 2 * low ≤ high) :
    p.reprice stored low = low ∨ p.reprice stored high = high := by
  simp only [Pricing.reprice, husd, Bool.not_true, Bool.false_eq_true, if_false]
  by_cases hclose : |low - stored| / max stored 1 < priceHysteresis
  · refine .inr (if_neg ?_)
    rw [div_lt_iff₀ (lt_max_of_lt_right one_pos), priceHysteresis] at hclose
    rw [not_lt, le_div_iff₀ (lt_max_of_lt_right one_pos), priceHysteresis]
    -- What is within five percent of the lower price is below the higher one by far.
    have hnear := (neg_le_abs (low - stored)).trans_lt hclose
    refine le_trans ?_ (le_abs_self _)
    rcases le_total stored 1 with h | h
    · rw [max_eq_right h] at hnear ⊢
      linarith
    · rw [max_eq_left h] at hnear ⊢
      linarith
  · exact .inl (if_neg hclose)

/-- Two costs of which one brings the price of a product to its sale price. -/
lemma exists_dear {margin : ℚ} (hmargin : 1 < margin) (hlow : margin < 21 / 20) (t : PriceTable)
    (id : Uuid) : ∃ n : ℤ, ∃ row, 10 ^ 12 ≤ n ∧ n ≤ 4 * 10 ^ 12 ∧
      (upsertPrice (atPar margin) 0 id t (soleEntry margin n)).get? (0, id) = some row ∧
      row.priceNgn = (atPar margin).exactPrice n := by
  cases hold : t.get? (0, id) with
  | none =>
      refine ⟨10 ^ 12, _, le_rfl, by norm_num, (get?_upsertPrice _ _).trans (if_pos rfl), ?_⟩
      rw [hold]
      rfl
  | some old =>
      have hfirst := atPar_lt margin ((10 ^ 12 : ℤ) : ℚ)
        (by push_cast; linarith)
      have hsecond := markup_le_atPar margin ((4 * 10 ^ 12 : ℤ) : ℚ)
      push_cast at hfirst hsecond
      have hfar : 2 * (atPar margin).exactPrice ((10 ^ 12 : ℤ) : ℚ) ≤
          (atPar margin).exactPrice ((4 * 10 ^ 12 : ℤ) : ℚ) := by
        push_cast
        linarith
      rcases reprice_moved (p := atPar margin) rfl old.priceNgn (Pricing.hundred_le _) hfar with
        hmoved | hmoved
      · refine ⟨10 ^ 12, _, le_rfl, by norm_num, (get?_upsertPrice _ _).trans (if_pos rfl), ?_⟩
        rw [hold]
        exact hmoved
      · refine ⟨4 * 10 ^ 12, _, by norm_num, le_rfl,
          (get?_upsertPrice _ _).trans (if_pos rfl), ?_⟩
        rw [hold]
        exact hmoved

/-- With a margin of ten decimals below 1.05, some costs lead to a price below cost. -/
lemma not_neverBelowCost (cfg : Config) {margin : ℚ} {m : ℤ} (hm : margin * 10 ^ 10 = m)
    (hmargin : 1 < margin) (hlow : margin < 21 / 20) (s : CatalogueTables) :
    ¬ NeverBelowCost cfg margin s := by
  intro h
  have hgap : 1 / 10 ^ 10 ≤ 21 / 20 - margin := by
    have hlt : m < 10500000000 := by
      have h : (m : ℚ) < 10500000000 := by rw [← hm]; linarith
      exact_mod_cast h
    have hle : (m : ℚ) + 1 ≤ 10500000000 := by exact_mod_cast hlt
    rw [← hm] at hle
    linarith
  obtain ⟨key, id, countries, hfirst, hsecond⟩ := exists_sold cfg s.countries
  obtain ⟨n, row, hmin, hmax, hrow, hprice⟩ := exists_dear hmargin hlow s.prices id
  have hmin' : (10 : ℚ) ^ 12 ≤ n := by exact_mod_cast hmin
  have hmax' : (n : ℚ) ≤ 4 * 10 ^ 12 := by exact_mod_cast hmax
  have hmarkup := markup_le_atPar margin (n : ℚ)
  have hmore : (n : ℚ) * 1 ≤ n * margin := by gcongr
  have hbelow := atPar_lt margin n (by linarith)
  have hless : (n : ℚ) * margin ≤ 4 * 10 ^ 12 * (21 / 20) := by gcongr
  obtain ⟨tens, htens⟩ := Pricing.exactPrice_multiple (p := atPar margin) (n : ℚ)
  have hstored : row.priceNgn + 1 = (tens * 10 + 1 : ℤ) := by
    rw [hprice, htens]
    push_cast
    ring
  have hcarried := carried_atPar hm rfl hmargin (by linarith) (by omega) (hmax.trans (by norm_num))
  have hcarried' : (atPar margin).Carried (row.priceNgn + 1) := by
    have hrange : (0 : ℚ) ≤ (tens * 10 + 1 : ℤ) ∧ ((tens * 10 + 1 : ℤ) : ℚ) ≤ 10 ^ 14 := by
      rw [← hstored, hprice]
      constructor <;> linarith
    exact carried_atPar hm hstored hmargin (by linarith) (by exact_mod_cast hrange.1)
      (by exact_mod_cast hrange.2)
  let first := soleOffer margin n key
  let second := soleOffer margin (row.priceNgn + 1) key
  have hsync : (sync cfg first s).tables = _ := congrArg _ (sync_soleOffer hcarried hfirst)
  have hafter : afterSyncs cfg [first] s = _ := hsync
  have habove := h [first] second fun j hj => by
    rcases List.mem_pair.mp hj with rfl | rfl
    · exact ⟨rfl, rfl, carried_soleOffer hcarried⟩
    · exact ⟨rfl, rfl, carried_soleOffer hcarried'⟩
  rw [hafter] at habove
  unfold AboveCost at habove
  rw [sync_soleOffer hcarried' hsecond] at habove
  obtain ⟨row', hrow', hcovered⟩ := habove (0, id) (List.mem_singleton.mpr rfl)
  rw [get?_upsertPrice, if_pos rfl, hrow] at hrow'
  cases hrow'
  have hdear : (margin + 10) / (21 / 20 - margin) ≤ row.priceNgn := by
    have hstock : (10 : ℚ) ^ 12 ≤ row.priceNgn := by linarith
    have hroom : (10 : ℚ) ^ 12 * (1 / 10 ^ 10) ≤ row.priceNgn * (21 / 20 - margin) := by gcongr
    rw [div_le_iff₀ (by linarith)]
    linarith
  have hkept := reprice_kept hmargin hlow hdear (by rw [hprice]; exact Pricing.hundred_le _)
  change (row.priceNgn + 1) * 1 ≤ (atPar margin).reprice row.priceNgn
    ((atPar margin).exactPrice (row.priceNgn + 1)) at hcovered
  rw [hkept] at hcovered
  linarith

/-- **Prices stay above cost with a margin of 1.05 or more**, whatever the catalogue holds before
the first sync, and among the margins of ten decimals with no other; a newly computed price keeps
its promises with every margin above 1. -/
theorem never_below_cost_iff (cfg : Config) {margin : ℚ} (hmargin : 1 < margin)
    (s : CatalogueTables) :
    (∀ p : Pricing, p.arithmetic.Exact → p.margin = margin → p.SalePriceLaws) ∧
      (21 / 20 ≤ margin → NeverBelowCost cfg margin s) ∧
      ((∃ m : ℤ, margin * 10 ^ 10 = m) → NeverBelowCost cfg margin s → 21 / 20 ≤ margin) := by
  refine ⟨fun p hexact hp => Pricing.salePriceLaws hexact (hp ▸ hmargin), fun h l i hall => ?_,
    fun ⟨m, hm⟩ h => ?_⟩
  · obtain ⟨hi, husd, hcarried⟩ := hall i (List.mem_append_right _ (List.mem_singleton.mpr rfl))
    exact fun k hk => covered_sweep husd (hi ▸ h) hcarried _ _ (.inl hk)
  · by_contra hlow
    exact not_neverBelowCost cfg hm hmargin (not_le.mp hlow) s h

/-- An empty catalogue. -/
def noCatalogue : CatalogueTables where
  countries := ⟨Table.empty, by simp [Table.empty], by simp [Table.empty]⟩
  prices := Table.empty

/-- **A margin of one percent** is accepted, and sells below cost when a cost of 1000 naira rises
to 1040. -/
theorem sold_below_cost : ¬ ∀ margin : ℚ, 1 < margin →
    NeverBelowCost catalogueConfig margin noCatalogue := by
  intro h
  obtain ⟨key, id, countries, hfirst, hsecond⟩ := exists_sold catalogueConfig noCatalogue.countries
  have hcarried : ∀ n : ℤ, 0 ≤ n → n ≤ 10 ^ 14 → (atPar (101 / 100)).Carried n := fun n =>
    carried_atPar (m := 10100000000) (by norm_num) rfl (by norm_num) (by norm_num)
  have hthousand : (atPar (101 / 100)).Carried 1000 :=
    hcarried 1000 (by norm_num) (by norm_num)
  have hrisen : (atPar (101 / 100)).Carried 1040 := hcarried 1040 (by norm_num) (by norm_num)
  let first := soleOffer (101 / 100) 1000 key
  let second := soleOffer (101 / 100) 1040 key
  have hsync : (sync catalogueConfig first noCatalogue).tables = _ :=
    congrArg _ (sync_soleOffer hthousand hfirst)
  have hafter : afterSyncs catalogueConfig [first] noCatalogue = _ := hsync
  have habove := h (101 / 100) (by norm_num) [first] second fun j hj => by
    rcases List.mem_pair.mp hj with rfl | rfl
    · exact ⟨rfl, rfl, carried_soleOffer hthousand⟩
    · exact ⟨rfl, rfl, carried_soleOffer hrisen⟩
  rw [hafter] at habove
  unfold AboveCost at habove
  rw [sync_soleOffer hrisen hsecond] at habove
  obtain ⟨row, hrow, hcovered⟩ := habove (0, id) (List.mem_singleton.mpr rfl)
  rw [get?_upsertPrice, if_pos rfl, get?_upsertPrice, if_pos rfl] at hrow
  cases hrow
  -- The sale price for 1040 is 1060, less than five percent above the 1010 for 1000.
  have hkept : (atPar (101 / 100)).reprice ((atPar (101 / 100)).exactPrice 1000)
      ((atPar (101 / 100)).exactPrice 1040) = 1010 := by decide +kernel
  change 1040 * 1 ≤ (atPar (101 / 100)).reprice ((atPar (101 / 100)).exactPrice 1000)
    ((atPar (101 / 100)).exactPrice 1040) at hcovered
  rw [hkept] at hcovered
  norm_num at hcovered

/-- The margin that is configured where none is given. -/
theorem never_below_cost_default : NeverBelowCost catalogueConfig (8 / 5) noCatalogue :=
  (never_below_cost_iff catalogueConfig (by norm_num) noCatalogue).2.1 (by norm_num)

end Naivolt
