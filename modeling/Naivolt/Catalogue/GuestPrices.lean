import Naivolt.Catalogue.Sources
import Naivolt.Numbers.Wire

/-!
# 5SIM's guest prices

`skus_from_guest_prices` of `number_catalog.rs`, which reads the SKUs of 5SIM off a JSON document
of operators by country and product.  The whole list comes with the countries on top and the list
of one product with the product on top; which of the two a document is, is told key by key from
the countries that are known.

What a document lists is `Json.Lists`; a table gives the operators of each product and country,
and either kind of document can be one of it.  Both come to the same SKUs if no product has the
name of a known country (`guest_prices_agree`).
-/

namespace Naivolt

open Foundation

/-! ## Values -/

/-- `as_object`, with the members in the order in which they are walked. -/
def Json.members : Json → List (String × Json)
  | .object members => members
  | _ => []

/-- What the crates make of numbers. -/
structure NumberReaders where
  /-- `as_f64`, then `Decimal::from_str` of its text. -/
  decimal : JsonNumber → Option ℚ
  /-- `as_f64`, then `as i64`. -/
  truncated : JsonNumber → Option ℤ
  /-- `Decimal::from_str`. -/
  text : String → Option ℚ

/-- `json_decimal`. -/
def jsonDecimal (r : NumberReaders) : Json → Option ℚ
  | .number n => (r.decimal n).or (n.int.map fun i => i)
  | .string s => r.text (trimText s)
  | _ => none

/-- `json_i64`. -/
def jsonI64 (r : NumberReaders) : Json → Option ℤ
  | .number n => n.int.or (r.truncated n)
  | .string s => parseI64 (trimText s)
  | _ => none

/-- `parse_success_rate`. -/
def parseSuccessRate (value : ℚ) : Option ℚ := if 0 < value ∧ value ≤ 100 then some value else none

/-- `parse_success_json`. -/
def parseSuccessJson (r : NumberReaders) (value : Json) : Option ℚ :=
  (jsonDecimal r value).bind parseSuccessRate

/-- `row_success_rate`. -/
def rowSuccessRate (r : NumberReaders) (row : Json) : Option ℚ :=
  ((row.get? "rate").bind (parseSuccessJson r)).or ((row.get? "rate1").bind (parseSuccessJson r))

/-! ## Operators -/

/-- What is read off an operator's row. -/
structure OperatorRow where
  count : ℤ
  cost : ℚ
  successRate : ℚ

/-- The row of an operator that has numbers, a cost and a success rate. -/
def operatorRow (r : NumberReaders) (row : Json) : Option OperatorRow := do
  let count ← (row.get? "count").bind (jsonI64 r)
  if count ≤ 0 then none
  let cost ← (row.get? "cost").bind (jsonDecimal r)
  let successRate ← rowSuccessRate r row
  return ⟨count, cost, successRate⟩

/-- The operators with a usable row. -/
def usableRows (r : NumberReaders) (operators : Json) : List (String × OperatorRow) :=
  operators.members.filterMap fun m => (operatorRow r m.2).map fun row => (m.1, row)

/-- The SKU of an operator. -/
def guestSku (iso currency countryKey productKey operator : String) (row : OperatorRow) :
    OfferSku where
  provider := .fivesim
  productSlug := productKey
  countryCode := iso
  providerProduct := productKey
  providerCountry := countryKey
  providerOperator := some operator
  cost := row.cost
  currency := currency
  successRate := row.successRate
  stock := min row.count (2 ^ 31 - 1)

/-- `push_operator_skus`: the SKUs of the operators of a country and a product. -/
def operatorSkus (cfg : Config) (r : NumberReaders) (countries : Table String GuestCountry)
    (currency countryKey productKey : String) (operators : Json) : List OfferSku :=
  match (countries.get? countryKey).bind fun country => country.iso.head? with
  | none => []
  | some iso =>
    let rows := usableRows r operators
    let hasNamed := rows.any fun row => row.1 ≠ "any"
    (rows.filter fun row => !(hasNamed && row.1 = "any")).map fun row =>
      guestSku (cfg.toUppercase iso) currency countryKey productKey row.1 row.2

/-- `skus_from_guest_prices`. -/
def skusFromGuestPrices (cfg : Config) (r : NumberReaders) (prices : Json)
    (countries : Table String GuestCountry) (p : Pricing) : List OfferSku :=
  let currency := p.supplierCurrency.getD "USD"
  prices.members.flatMap fun (topKey, nested) =>
    nested.members.flatMap fun (key, operators) =>
      if (countries.get? topKey).isSome then
        operatorSkus cfg r countries currency topKey key operators
      else operatorSkus cfg r countries currency key topKey operators

/-! ## What a document lists -/

/-- A document lists operators under two keys. -/
def Json.Lists (prices : Json) (topKey key : String) (operators : Json) : Prop :=
  ∃ nested, (topKey, nested) ∈ prices.members ∧ (key, operators) ∈ nested.members

/-- The operators of each product and country that are priced. -/
abbrev GuestTable := String → String → Option Json

/-- A document of the table with the countries on top.  What else it may hold is not an object
where there should be one. -/
def Json.CountryFirst (prices : Json) (table : GuestTable) : Prop :=
  ∀ country product operators,
    prices.Lists country product operators ↔ table product country = some operators

/-- A document of the table with the products on top. -/
def Json.ProductFirst (prices : Json) (table : GuestTable) : Prop :=
  ∀ country product operators,
    prices.Lists product country operators ↔ table product country = some operators

section Law

variable {cfg : Config} {r : NumberReaders} {countries : Table String GuestCountry} {p : Pricing}
  {prices : Json} {table : GuestTable}

lemma mem_skusFromGuestPrices {sku : OfferSku} :
    sku ∈ skusFromGuestPrices cfg r prices countries p ↔
      ∃ topKey key operators, prices.Lists topKey key operators ∧
        sku ∈ if (countries.get? topKey).isSome then
            operatorSkus cfg r countries (p.supplierCurrency.getD "USD") topKey key operators
          else
            operatorSkus cfg r countries (p.supplierCurrency.getD "USD") key topKey operators := by
  simp only [skusFromGuestPrices, List.mem_flatMap, Prod.exists, Json.Lists]
  constructor
  · rintro ⟨topKey, nested, hnested, key, operators, hoperators, hsku⟩
    exact ⟨topKey, key, operators, ⟨nested, hnested, hoperators⟩, hsku⟩
  · rintro ⟨topKey, key, operators, ⟨nested, hnested, hoperators⟩, hsku⟩
    exact ⟨topKey, nested, hnested, key, operators, hoperators, hsku⟩

/-- Operators of a country that is not known have no SKUs. -/
lemma operatorSkus_of_unknown {currency countryKey productKey : String} {operators : Json}
    (h : countries.get? countryKey = none) :
    operatorSkus cfg r countries currency countryKey productKey operators = [] := by
  simp [operatorSkus, h]

/-- No product of the table has the name of a known country. -/
def Unambiguous (countries : Table String GuestCountry) (table : GuestTable) : Prop :=
  ∀ product country operators, table product country = some operators →
    countries.get? product = none

/-- The SKUs of a table. -/
def GuestTable.Sells (cfg : Config) (r : NumberReaders) (countries : Table String GuestCountry)
    (p : Pricing) (table : GuestTable) (sku : OfferSku) : Prop :=
  ∃ product country operators, table product country = some operators ∧
    sku ∈ operatorSkus cfg r countries (p.supplierCurrency.getD "USD") country product operators

/-- With the countries on top the SKUs are those of the table. -/
lemma mem_skus_countryFirst (h : prices.CountryFirst table) (hkeys : Unambiguous countries table)
    {sku : OfferSku} :
    sku ∈ skusFromGuestPrices cfg r prices countries p ↔ table.Sells cfg r countries p sku := by
  rw [mem_skusFromGuestPrices]
  constructor
  · rintro ⟨country, product, operators, hlists, hsku⟩
    have hentry := (h country product operators).mp hlists
    split_ifs at hsku
    · exact ⟨product, country, operators, hentry, hsku⟩
    · rw [operatorSkus_of_unknown (hkeys product country operators hentry)] at hsku
      cases hsku
  · rintro ⟨product, country, operators, hentry, hsku⟩
    refine ⟨country, product, operators, (h country product operators).mpr hentry, ?_⟩
    split_ifs with hknown
    · exact hsku
    · rw [operatorSkus_of_unknown (by simpa using hknown)] at hsku
      cases hsku

/-- With the products on top likewise. -/
lemma mem_skus_productFirst (h : prices.ProductFirst table) (hkeys : Unambiguous countries table)
    {sku : OfferSku} :
    sku ∈ skusFromGuestPrices cfg r prices countries p ↔ table.Sells cfg r countries p sku := by
  rw [mem_skusFromGuestPrices]
  constructor
  · rintro ⟨product, country, operators, hlists, hsku⟩
    have hentry := (h country product operators).mp hlists
    rw [if_neg (by simp [hkeys product country operators hentry])] at hsku
    exact ⟨product, country, operators, hentry, hsku⟩
  · rintro ⟨product, country, operators, hentry, hsku⟩
    refine ⟨product, country, operators, (h country product operators).mpr hentry, ?_⟩
    rw [if_neg (by simp [hkeys product country operators hentry])]
    exact hsku

/-! ## The aggregate operator -/

lemma mem_operatorSkus {currency countryKey productKey : String} {operators : Json}
    {sku : OfferSku} :
    sku ∈ operatorSkus cfg r countries currency countryKey productKey operators ↔
      ∃ iso, ((countries.get? countryKey).bind fun country => country.iso.head?) = some iso ∧
        ∃ operator row, (operator, row) ∈ usableRows r operators ∧
          (operator = "any" → ∀ named ∈ usableRows r operators, named.1 = "any") ∧
          guestSku (cfg.toUppercase iso) currency countryKey productKey operator row = sku := by
  unfold operatorSkus
  cases hiso : (countries.get? countryKey).bind fun country => country.iso.head? with
  | none => simp
  | some iso =>
      simp only [List.mem_map, List.mem_filter, Prod.exists, Option.some_inj, exists_eq_left']
      have hkept : ∀ operator : String,
          (!(((usableRows r operators).any fun row => row.1 ≠ "any") && operator = "any")) = true ↔
            (operator = "any" → ∀ named ∈ usableRows r operators, named.1 = "any") := by
        intro operator
        by_cases hany : operator = "any" <;> simp [hany]
      simp only [hkept, and_assoc]

/-- The SKUs of a table, operator by operator. -/
lemma sells_iff {sku : OfferSku} :
    table.Sells cfg r countries p sku ↔
      ∃ product country operators iso operator row, table product country = some operators ∧
        ((countries.get? country).bind fun country => country.iso.head?) = some iso ∧
        (operator, row) ∈ usableRows r operators ∧
        (operator = "any" → ∀ named ∈ usableRows r operators, named.1 = "any") ∧
        guestSku (cfg.toUppercase iso) (p.supplierCurrency.getD "USD") country product operator
          row = sku := by
  simp only [GuestTable.Sells, mem_operatorSkus]
  constructor
  · rintro ⟨product, country, operators, hentry, iso, hiso, operator, row, hrest⟩
    exact ⟨product, country, operators, iso, operator, row, hentry, hiso, hrest⟩
  · rintro ⟨product, country, operators, iso, operator, row, hentry, hiso, hrest⟩
    exact ⟨product, country, operators, hentry, iso, hiso, operator, row, hrest⟩

/-- The aggregate operator of a product and a country is sold unless a named one is. -/
lemma sells_any_iff {product country iso : String} {operators : Json} {row : OperatorRow}
    (hentry : table product country = some operators)
    (hiso : ((countries.get? country).bind fun country => country.iso.head?) = some iso)
    (hrow : ("any", row) ∈ usableRows r operators) :
    ¬ table.Sells cfg r countries p (guestSku (cfg.toUppercase iso)
        (p.supplierCurrency.getD "USD") country product "any" row) ↔
      ∃ sku, table.Sells cfg r countries p sku ∧ sku.providerProduct = product ∧
        sku.providerCountry = country ∧ sku.providerOperator ≠ some "any" := by
  constructor
  · intro hdropped
    by_contra hnone
    refine hdropped (sells_iff.mpr ⟨product, country, operators, iso, "any", row, hentry, hiso,
      hrow, fun _ named hnamed => ?_, rfl⟩)
    by_contra hne
    refine hnone ⟨_, sells_iff.mpr ⟨product, country, operators, iso, named.1, named.2, hentry,
      hiso, hnamed, fun h => absurd h hne, rfl⟩, rfl, rfl, fun h => hne (Option.some.inj h)⟩
  · rintro ⟨sku, hsku, rfl, rfl, hoperator⟩ hkept
    obtain ⟨product, country, operators', iso', operator, row', hentry', -, hrow', -, rfl⟩ :=
      sells_iff.mp hsku
    obtain ⟨product₁, country₁, operators₁, _, operator₁, _, hentry₁, -, -, honly, hsame⟩ :=
      sells_iff.mp hkept
    obtain ⟨rfl, rfl, rfl⟩ : product₁ = product ∧ country₁ = country ∧ operator₁ = "any" :=
      ⟨congrArg OfferSku.providerProduct hsame, congrArg OfferSku.providerCountry hsame,
        Option.some.inj (congrArg OfferSku.providerOperator hsame)⟩
    obtain rfl := Option.some.inj (hentry₁.symm.trans hentry')
    exact hoperator (congrArg some (honly rfl _ hrow'))

/-- **The orientation of a document does not matter**: both documents of a table come to the same
SKUs.  Of a product and a country, the aggregate operator is dropped exactly when a named one is
sold. -/
theorem guest_prices_agree {countryFirst productFirst : Json}
    (hcountries : countryFirst.CountryFirst table) (hproducts : productFirst.ProductFirst table)
    (hkeys : Unambiguous countries table) :
    (∀ sku, sku ∈ skusFromGuestPrices cfg r countryFirst countries p ↔
      sku ∈ skusFromGuestPrices cfg r productFirst countries p) ∧
    ∀ product country operators iso row, table product country = some operators →
      ((countries.get? country).bind fun country => country.iso.head?) = some iso →
      ("any", row) ∈ usableRows r operators →
        (guestSku (cfg.toUppercase iso) (p.supplierCurrency.getD "USD") country product "any" row ∉
            skusFromGuestPrices cfg r countryFirst countries p ↔
          ∃ sku ∈ skusFromGuestPrices cfg r countryFirst countries p,
            sku.providerProduct = product ∧ sku.providerCountry = country ∧
              sku.providerOperator ≠ some "any") := by
  constructor
  · intro sku
    rw [mem_skus_countryFirst hcountries hkeys, mem_skus_productFirst hproducts hkeys]
  · intro product country operators iso row hentry hiso hrow
    simp only [mem_skus_countryFirst hcountries hkeys]
    exact sells_any_iff hentry hiso hrow

end Law

/-! ## Witness -/

/-- Numbers as they are written, in whole units. -/
def wholeNumbers : NumberReaders where
  decimal n := n.int.map fun i => i
  truncated _ := none
  text s := (parseI64 s).map fun i => i

/-- An operator's row. -/
def statedRow (cost count : String) (rate : String × Json) : Json :=
  .object [("cost", .string cost), ("count", .string count), rate]

/-- The operators of WhatsApp in France, one of them without a rate. -/
def frenchOperators : Json := .object
  [("any", statedRow "1" "9" ("rate", .string "70")),
    ("virtual1", statedRow "2" "4" ("rate1", .string "80")),
    ("virtual2", statedRow "2" "4" ("rate1", .null))]

/-- They are all there is. -/
def frenchTable : GuestTable := fun product country =>
  if product = "whatsapp" ∧ country = "france" then some frenchOperators else none

lemma lists_sole {outer inner : String} {operators : Json} {topKey key : String} {v : Json} :
    Json.Lists (.object [(outer, .object [(inner, operators)])]) topKey key v ↔
      (topKey = outer ∧ key = inner) ∧ operators = v := by
  constructor
  · rintro ⟨nested, hnested, hv⟩
    obtain ⟨rfl, rfl⟩ := Prod.mk.inj (List.mem_singleton.mp hnested)
    obtain ⟨rfl, rfl⟩ := Prod.mk.inj (List.mem_singleton.mp hv)
    exact ⟨⟨rfl, rfl⟩, rfl⟩
  · rintro ⟨⟨rfl, rfl⟩, rfl⟩
    exact ⟨_, List.mem_singleton.mpr rfl, List.mem_singleton.mpr rfl⟩

/-- The document with the countries on top. -/
def frenchPrices : Json := .object [("france", .object [("whatsapp", frenchOperators)])]

/-- The list of one product. -/
def whatsappPrices : Json := .object [("whatsapp", .object [("france", frenchOperators)])]

/-- What the aggregate operator's row reads. -/
def frenchAggregate : OperatorRow := ⟨9, 1, 70⟩

/-- What `virtual1`'s row reads. -/
def frenchVirtual : OperatorRow := ⟨4, 2, 80⟩

lemma usableRows_french : usableRows wholeNumbers frenchOperators =
    [("any", frenchAggregate), ("virtual1", frenchVirtual)] := by
  have hread : parseI64 (trimText "1") = some 1 ∧ parseI64 (trimText "2") = some 2 ∧
      parseI64 (trimText "4") = some 4 ∧ parseI64 (trimText "9") = some 9 ∧
      parseI64 (trimText "70") = some 70 ∧ parseI64 (trimText "80") = some 80 := by decide +kernel
  obtain ⟨h1, h2, h4, h9, h70, h80⟩ := hread
  have hseventy : (70 : ℚ) ≤ 100 := by norm_num
  have heighty : (80 : ℚ) ≤ 100 := by norm_num
  have hany : operatorRow wholeNumbers (statedRow "1" "9" ("rate", .string "70")) =
      some frenchAggregate := by
    simp [operatorRow, statedRow, Json.get?, List.lookup, jsonI64, jsonDecimal, rowSuccessRate,
      parseSuccessJson, parseSuccessRate, wholeNumbers, h1, h9, h70, hseventy, frenchAggregate]
  have hvirtual : operatorRow wholeNumbers (statedRow "2" "4" ("rate1", .string "80")) =
      some frenchVirtual := by
    simp [operatorRow, statedRow, Json.get?, List.lookup, jsonI64, jsonDecimal, rowSuccessRate,
      parseSuccessJson, parseSuccessRate, wholeNumbers, h2, h4, h80, heighty, frenchVirtual]
  have hunrated : operatorRow wholeNumbers (statedRow "2" "4" ("rate1", .null)) = none := by
    simp [operatorRow, statedRow, Json.get?, List.lookup, jsonI64, jsonDecimal, rowSuccessRate,
      parseSuccessJson, wholeNumbers, h2, h4]
  simp [usableRows, frenchOperators, Json.members, hany, hvirtual, hunrated]

/-- `virtual1` is sold by either document, and drops the aggregate. -/
theorem guest_prices_agree_france :
    guestSku "FR" "USD" "france" "whatsapp" "virtual1" frenchVirtual ∈
        skusFromGuestPrices catalogueConfig wholeNumbers whatsappPrices collidingPair
          ⟨1530, 8 / 5, none, exactOps⟩ ∧
      guestSku "FR" "USD" "france" "whatsapp" "any" frenchAggregate ∉
        skusFromGuestPrices catalogueConfig wholeNumbers frenchPrices collidingPair
          ⟨1530, 8 / 5, none, exactOps⟩ := by
  have hcountries : frenchPrices.CountryFirst frenchTable := by
    intro country product operators
    rw [frenchPrices, lists_sole, and_comm (a := country = "france")]
    by_cases h : product = "whatsapp" ∧ country = "france" <;> simp [frenchTable, h]
  have hproducts : whatsappPrices.ProductFirst frenchTable := by
    intro country product operators
    rw [whatsappPrices, lists_sole]
    by_cases h : product = "whatsapp" ∧ country = "france" <;> simp [frenchTable, h]
  have hkeys : Unambiguous collidingPair frenchTable := by
    intro product country operators hentry
    unfold frenchTable at hentry
    split_ifs at hentry with h
    rw [h.1]
    decide
  have hagree := @guest_prices_agree catalogueConfig wholeNumbers collidingPair
    ⟨1530, 8 / 5, none, exactOps⟩ frenchTable _ _ hcountries hproducts hkeys
  have hiso :
      ((collidingPair.get? "france").bind fun country => country.iso.head?) = some "fr" := by
    decide
  have hsold : guestSku "FR" "USD" "france" "whatsapp" "virtual1" frenchVirtual ∈
      skusFromGuestPrices catalogueConfig wholeNumbers frenchPrices collidingPair
        ⟨1530, 8 / 5, none, exactOps⟩ := by
    rw [mem_skus_countryFirst hcountries hkeys, sells_iff]
    refine ⟨"whatsapp", "france", frenchOperators, "fr", "virtual1", frenchVirtual, rfl, hiso, ?_,
      fun h => absurd h (by decide), rfl⟩
    simp [usableRows_french]
  refine ⟨(hagree.1 _).mp hsold, ?_⟩
  refine (hagree.2 "whatsapp" "france" frenchOperators "fr" frenchAggregate rfl hiso ?_).mpr
    ⟨_, hsold, rfl, rfl, by decide⟩
  simp [usableRows_french]

end Naivolt
