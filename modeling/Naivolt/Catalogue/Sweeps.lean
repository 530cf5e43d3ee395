import Naivolt.Catalogue.Sources
import Naivolt.Shop.Offers

/-!
# What the shop has on sale

The catalogue job sweeps the suppliers every quarter of an hour: `sync_offers` reads which of them
are switched on, asks each for its wallet and its list, and writes an offer and a source for every
SKU, statement by statement.  Several processes may sweep at once, and any of them may fail
anywhere; the operators switch suppliers, and the buy loop marks a source as sold out.

`sources_justified` says what stands behind every source whatever the order: its supplier listed
it to a sweep that found the supplier switched on, with a wallet that could pay for it if the
wallet was read, and it is sold under an offer whose price is no less than its cost with the
margin, if its price has been computed exactly.  All processes have one configuration, from the
first sweep to the last.
-/

namespace Naivolt

open Foundation Foundation.Machine

/-! ## Configuration -/

/-- `OfferSync`, with the pricing of 5SIM. -/
structure OfferSync where
  writeStub : Bool
  /-- Whether there is a `fivesim_api_key`. -/
  fivesimKeyed : Bool
  /-- Whether SMSPool is configured. -/
  smspool : Bool
  /-- Whether an adapter of `handler_api.php` is configured. -/
  activate : SupplierLabel → Bool
  pricing : Pricing
  smspoolPricing : Pricing
  activatePricing : SupplierLabel → Option Pricing

/-- The pricing a supplier is swept with. -/
def OfferSync.pricingOf (c : OfferSync) : SupplierLabel → Pricing
  | .stub | .fivesim | .fivesimCatalogue => c.pricing
  | .smspool => c.smspoolPricing
  | provider => (c.activatePricing provider).getD c.smspoolPricing

/-- `stub_skus`. -/
def stubSkus : List OfferSku :=
  [{ provider := .stub, productSlug := "whatsapp", countryCode := "NG",
      providerProduct := "whatsapp", providerCountry := "nigeria", providerOperator := none,
      cost := 20 / 100, currency := "USD", successRate := 82, stock := 12 },
    { provider := .stub, productSlug := "whatsapp", countryCode := "NG",
      providerProduct := "whatsapp-low", providerCountry := "nigeria",
      providerOperator := some "budget", cost := 8 / 100, currency := "USD", successRate := 39,
      stock := 4 }]

/-- `wallet_is_funded`. -/
def walletIsFunded (balance : ℚ) : Bool := 0 < balance

/-- `affordable_skus`. -/
def affordableSkus (skus : List OfferSku) (maxCost : ℚ) : List OfferSku :=
  skus.filter fun sku => sku.cost ≤ maxCost && 0 < sku.successRate

/-! ## Statements -/

/-- What a sweep has read. -/
inductive SweepEvent where
  | listed (provider : SupplierLabel) (skus : Option (List OfferSku))
  | settings (sell : SellSettings)
  | balance (provider : SupplierLabel) (balance : Option ℚ)

/-- Every sweep begins with the guest catalogue of 5SIM. -/
def SweepEvent.opens : SweepEvent → Bool
  | listed .fivesim _ => true
  | _ => false

/-- What has been read and by which process, newest first. -/
abbrev SweepLog := List (ℕ × SweepEvent)

/-- What a process has read in the sweep it is at. -/
def currentSweep (tid : ℕ) : SweepLog → List SweepEvent
  | [] => []
  | (i, e) :: log =>
    if i = tid then if e.opens then [e] else e :: currentSweep tid log else currentSweep tid log

/-- The tables of the catalogue, and `number_sell_providers`. -/
structure SweepWorld where
  now : Time
  db : OfferTables
  settings : SellSettings
  log : SweepLog

/-- A catalogue without offers. -/
def SweepWorld.fresh (now : Time) (products : Table Uuid CatalogueProduct)
    (countries : Table Uuid CountryRow) (settings : SellSettings) : SweepWorld :=
  ⟨now, ⟨products, countries, .empty, .empty⟩, settings, []⟩

/-- What suppliers answer, none when they do not, and the identifier of a new offer. -/
structure SweepOracle where
  balance : Option ℚ := none
  listing : Option (List OfferSku) := none
  fresh : Uuid := 0

/-- What a sweep asks of suppliers and database. -/
inductive SweepOp where
  /-- `number_sell::load`. -/
  | settings
  /-- `fetch_fivesim_balance`, `fetch_balance`. -/
  | balance (provider : SupplierLabel)
  /-- The guest catalogue of 5SIM, or `fetch_skus`. -/
  | listing (provider : SupplierLabel)
  | productId (slug : String)
  | countryId (code : String)
  /-- The panic of `sale_price`: nothing follows. -/
  | panicked
  | putOffer (product country : Uuid) (price : ℚ) (sku : OfferSku)
  | putSource (offer : Uuid) (sku : OfferSku)
  | zeroMissing (provider : SupplierLabel) (seen : List Source)
  | recount

abbrev SweepOp.Res : SweepOp → Type
  | settings => SellSettings
  | balance _ => Option ℚ
  | listing _ => Option (List OfferSku)
  | productId _ | countryId _ => Option Uuid
  | putOffer .. => Uuid
  | panicked | putSource .. | zeroMissing .. | recount => Unit

/-- The offer a SKU is written to. -/
def OfferSku.offer (sku : OfferSku) (product country : Uuid) (price : ℚ) (now : Time) : Offer :=
  ⟨product, country, price, scaled 4 sku.successRate, now, sku.stock.toNat, 0 < sku.stock⟩

/-- The source a SKU is written to. -/
def OfferSku.row (sku : OfferSku) (offer : Uuid) (now : Time) : SourceRow :=
  ⟨offer, scaled 6 sku.cost, sku.currency, scaled 4 sku.successRate, sku.stock.toNat, now⟩

def execSweep (cfg : Config) (tid : ℕ) :
    (op : SweepOp) → SweepOracle → SweepWorld → Option (op.Res × SweepWorld)
  | .settings, _, w =>
      some (w.settings.loaded,
        { w with
          settings := w.settings.loaded
          log := (tid, .settings w.settings.loaded) :: w.log })
  | .balance provider, ω, w =>
      some (ω.balance, { w with log := (tid, .balance provider ω.balance) :: w.log })
  | .listing provider, ω, w =>
      some (ω.listing, { w with log := (tid, .listed provider ω.listing) :: w.log })
  | .productId slug, _, w => some (w.db.productId slug, w)
  | .countryId code, _, w => some (w.db.countryId cfg code, w)
  | .panicked, _, _ => none
  | .putOffer product country price sku, ω, w =>
      (w.db.putOffer ω.fresh (sku.offer product country price w.now)).map fun (id, db) =>
        (id, { w with db := db })
  | .putSource offer sku, _, w =>
      let row := sku.row offer w.now
      some ((), { w with db :=
        { w.db with sources := w.db.sources.upsert sku.source row fun _ => row } })
  | .zeroMissing provider seen, _, w =>
      some ((), { w with db := w.db.zeroMissing provider w.now seen })
  | .recount, _, w => w.db.recount.map fun db => ((), { w with db := db })

/-! ## The sweep -/

abbrev SweepProg (α : Type) := Prog SweepOp SweepOp.Res α

/-- One SKU of `apply_provider_skus`: the source it has been written to, if it has. -/
def putSku (p : Pricing) (provider : SupplierLabel) (sku : OfferSku) :
    SweepProg (Option Source) :=
  if sku.provider ≠ provider then pure none
  else do
    match ← Prog.perform (SweepOp.productId sku.productSlug) with
    | none => pure none
    | some product =>
      match ← Prog.perform (SweepOp.countryId sku.countryCode) with
      | none => pure none
      | some country =>
        if p.prices provider then
          match p.salePrice sku.cost with
          | none => do
            Prog.perform SweepOp.panicked
            pure none
          | some price => do
            let offer ← Prog.perform (SweepOp.putOffer product country price sku)
            Prog.perform (SweepOp.putSource offer sku)
            pure (some sku.source)
        else pure none

/-- The loop over the SKUs, with what it has seen. -/
def putSkus (p : Pricing) (provider : SupplierLabel) : List OfferSku → SweepProg (List Source)
  | [] => pure []
  | sku :: rest => do
    let written ← putSku p provider sku
    let seen ← putSkus p provider rest
    pure (written.toList ++ seen)

/-- `apply_provider_skus`, statement by statement. -/
def sweepProvider (p : Pricing) (provider : SupplierLabel) (skus : List OfferSku) :
    SweepProg Unit := do
  let seen ← putSkus p provider skus
  Prog.perform (SweepOp.zeroMissing provider seen)
  Prog.perform SweepOp.recount

/-- `hide_provider`. -/
def hideProvider (p : Pricing) (provider : SupplierLabel) : SweepProg Unit :=
  sweepProvider p provider []

/-- `fivesim_listing`: what is to be written, or none to keep what there is. -/
def fivesimListing (c : OfferSync) (skus : Option (List OfferSku)) :
    SweepProg (Option (List OfferSku)) :=
  if c.fivesimKeyed then do
    match ← Prog.perform (SweepOp.balance .fivesim) with
    | none => pure skus
    | some balance =>
      if walletIsFunded balance then pure (skus.map fun skus => affordableSkus skus balance)
      else pure (some [])
  else pure skus

/-- `smspool_listing`; a list that cannot be had keeps what there is too. -/
def smspoolListing : SweepProg (Option (List OfferSku)) := do
  match ← Prog.perform (SweepOp.balance .smspool) with
  | none => pure none
  | some balance =>
    if walletIsFunded balance then do
      let skus ← Prog.perform (SweepOp.listing .smspool)
      pure (skus.map fun skus => affordableSkus skus balance)
    else pure (some [])

/-- Write what is to be written. -/
def writeListing (p : Pricing) (provider : SupplierLabel) :
    Option (List OfferSku) → SweepProg Unit
  | some skus => sweepProvider p provider skus
  | none => pure ()

/-- The part of `sync_offers` for 5SIM. -/
def syncFivesim (c : OfferSync) (sell : SellSettings) (skus : Option (List OfferSku)) :
    SweepProg Unit :=
  if sell.isEnabled "fivesim" then do
    let listing ← fivesimListing c skus
    writeListing c.pricing .fivesim listing
  else hideProvider c.pricing .fivesim

/-- The part for SMSPool. -/
def syncSmspool (c : OfferSync) (sell : SellSettings) : SweepProg Unit :=
  if sell.isEnabled "smspool" && c.smspool then do
    let listing ← smspoolListing
    writeListing c.smspoolPricing .smspool listing
  else hideProvider c.smspoolPricing .smspool

/-- The `KNOWN_PROVIDERS` that `ActivateFlavor::parse` knows. -/
def activateLabels : List SupplierLabel := [.smsactivate, .daisysms, .smshub, .tigersms]

/-- The part for a supplier of `handler_api.php`. -/
def syncActivate (c : OfferSync) (sell : SellSettings) (provider : SupplierLabel) :
    SweepProg Unit :=
  if sell.isEnabled provider.text && c.activate provider then do
    let listing ← Prog.perform (SweepOp.listing provider)
    writeListing (c.pricingOf provider) provider listing
  else hideProvider (c.pricingOf provider) provider

def syncActivates (c : OfferSync) (sell : SellSettings) : List SupplierLabel → SweepProg Unit
  | [] => pure ()
  | provider :: rest => do
    syncActivate c sell provider
    syncActivates c sell rest

/-- `sync_offers`. -/
def syncOffers (c : OfferSync) (fivesimSkus : Option (List OfferSku)) : SweepProg Unit := do
  let sell ← Prog.perform SweepOp.settings
  if c.writeStub then do
    sweepProvider c.pricing .stub stubSkus
    hideProvider c.pricing .fivesim
    hideProvider c.smspoolPricing .smspool
  else do
    hideProvider c.pricing .stub
    syncFivesim c sell fivesimSkus
    syncSmspool c sell
    syncActivates c sell activateLabels

/-- One turn of the loop of `spawn`. -/
def offerTurn (c : OfferSync) : SweepProg Unit := do
  let skus ← Prog.perform (SweepOp.listing .fivesim)
  syncOffers c skus

/-- What else happens to these tables: suppliers are switched, the catalogue changes, and the buy
loop finds a source sold out. -/
inductive SweepMove where
  | tick (d : Time)
  | switch (settings : SellSettings)
  | catalogue (products : Table Uuid CatalogueProduct) (countries : Table Uuid CountryRow)
  | ranOut (offer : Uuid) (source : Source)

def moveSweep : SweepMove → SweepWorld → SweepWorld
  | .tick d, w => { w with now := w.now + d }
  | .switch settings, w => { w with settings := settings }
  | .catalogue products countries, w =>
      { w with db := { w.db with products := products, countries := countries } }
  | .ranOut offer source, w =>
      { w with db := { w.db with sources := w.db.sources.modify source fun row =>
        if row.offerId = offer then { row with stock := 0, syncedAt := w.now } else row } }

/-- Any number of sweeps, beside whatever else touches the tables. -/
def sweeping (cfg : Config) (c : OfferSync) : Machine SweepOp SweepOp.Res SweepOracle SweepMove
    SweepWorld Unit Unit Unit where
  exec tid op ω w := execSweep cfg tid op ω w
  env e w := some (moveSweep e w)
  program _ := offerTurn c
  stamp _ := ()

/-! ## What stands behind a source -/

/-- A wallet that has been read, if it has, can pay for the SKU, and codes for it arrive. -/
def PaidBy (balance : Option ℚ) (sku : OfferSku) : Prop :=
  ∀ b, balance = some b → 0 < b ∧ sku.cost ≤ b ∧ 0 < sku.successRate

/-- Why a sweep writes a SKU, in what it has read.  The stub's are built in, and written where the
stub is configured; any other supplier has listed it and is switched on and configured, and where
its wallet is looked at, the wallet can pay. -/
inductive Vouched (c : OfferSync) (read : List SweepEvent) (sku : OfferSku) : Prop
  | stub : c.writeStub = true → sku.provider = .stub → sku ∈ stubSkus → Vouched c read sku
  | listed (sell : SellSettings) (skus : List OfferSku) : c.writeStub = false →
      .settings sell ∈ read → sell.isEnabled sku.provider.text = true →
      .listed sku.provider (some skus) ∈ read → sku ∈ skus →
      (sku.provider = .fivesim → c.fivesimKeyed = true →
        ∃ balance, .balance .fivesim balance ∈ read ∧ PaidBy balance sku) →
      (sku.provider = .smspool → c.smspool = true ∧
        ∃ balance, .balance .smspool (some balance) ∈ read ∧ PaidBy (some balance) sku) →
      (sku.provider ∈ activateLabels → c.activate sku.provider = true) → Vouched c read sku

/-- The offer a SKU is sold under: at the sale price of its cost, in naira that the cost can be
turned into, and with its success rate. -/
structure Sells (c : OfferSync) (offer : Offer) (sku : OfferSku) : Prop where
  priced : (c.pricingOf sku.provider).prices sku.provider = true
  price : (c.pricingOf sku.provider).salePrice sku.cost = some offer.priceNgn
  rate : offer.successRate = scaled 4 sku.successRate

/-- What stands behind a source: a SKU that some sweep had reason to write, sold under an offer at
its price, with the columns of the source and stock for what there is. -/
structure Justified (c : OfferSync) (w : SweepWorld) (source : Source) (row : SourceRow)
    (sku : OfferSku) : Prop where
  source : sku.source = source
  cost : row.providerCost = scaled 6 sku.cost
  currency : row.providerCostCurrency = sku.currency
  rate : row.providerSuccessRate = scaled 4 sku.successRate
  stock : row.stock ≤ sku.stock.toNat
  sold : ∃ offer, w.db.offers.get? row.offerId = some offer ∧ Sells c offer sku
  supplied : ∃ tid log, log <:+ w.log ∧ Vouched c (currentSweep tid log) sku

/-! ## One statement -/

/-- Offers stay, with what they cost and how often a code arrives. -/
def OffersKept (db db' : OfferTables) : Prop :=
  ∀ id offer, db.offers.get? id = some offer → ∃ offer', db'.offers.get? id = some offer' ∧
    offer'.priceNgn = offer.priceNgn ∧ offer'.successRate = offer.successRate

/-- What a sweep relies on: offers stay, and nobody else reads for it. -/
structure SweepLater (tid : ℕ) (w w' : SweepWorld) : Prop where
  offers : OffersKept w.db w'.db
  log : w.log <:+ w'.log
  own : currentSweep tid w'.log = currentSweep tid w.log

/-- Every source has something that stands behind it. -/
def SourcesOk (c : OfferSync) (w : SweepWorld) : Prop :=
  ∀ source row, w.db.sources.get? source = some row → ∃ sku, Justified c w source row sku

/-- What is written to a source has a reason in the sweep, and an offer. -/
def SweepContract (c : OfferSync) (tid : ℕ) (_ _ : Unit) (op : SweepOp) (w : SweepWorld) : Prop :=
  match op with
  | .putSource id sku => Vouched c (currentSweep tid w.log) sku ∧
      ∃ offer, w.db.offers.get? id = some offer ∧ Sells c offer sku
  | _ => True

lemma OffersKept.refl (db : OfferTables) : OffersKept db db :=
  fun _ offer h => ⟨offer, h, rfl, rfl⟩

lemma OffersKept.of_eq {db db' : OfferTables} (h : db'.offers = db.offers) : OffersKept db db' :=
  fun _ offer hoffer => ⟨offer, h ▸ hoffer, rfl, rfl⟩

lemma OffersKept.trans {db db' db'' : OfferTables} (h : OffersKept db db')
    (h' : OffersKept db' db'') : OffersKept db db'' := by
  intro id offer hoffer
  obtain ⟨offer', hoffer', hprice, hrate⟩ := h id offer hoffer
  obtain ⟨offer'', hoffer'', hprice', hrate'⟩ := h' id offer' hoffer'
  exact ⟨offer'', hoffer'', hprice'.trans hprice, hrate'.trans hrate⟩

lemma SweepLater.refl (tid : ℕ) (w : SweepWorld) : SweepLater tid w w :=
  ⟨.refl _, List.suffix_refl _, rfl⟩

lemma SweepLater.trans {tid : ℕ} {w w' w'' : SweepWorld} (h : SweepLater tid w w')
    (h' : SweepLater tid w' w'') : SweepLater tid w w'' :=
  ⟨h.offers.trans h'.offers, h.log.trans h'.log, h'.own.trans h.own⟩

section Steps

variable {cfg : Config} {c : OfferSync} {tid : ℕ} {w w' : SweepWorld} {ω : SweepOracle}
  {sku : OfferSku} {source : Source} {row : SourceRow}

lemma Justified.later (h : Justified c w source row sku) (hoffers : OffersKept w.db w'.db)
    (hlog : w.log <:+ w'.log) : Justified c w' source row sku where
  source := h.source
  cost := h.cost
  currency := h.currency
  rate := h.rate
  stock := h.stock
  sold := by
    obtain ⟨offer, hoffer, hsells⟩ := h.sold
    obtain ⟨offer', hoffer', hprice, hrate⟩ := hoffers _ offer hoffer
    exact ⟨offer', hoffer', hsells.priced, hsells.price.trans (congrArg some hprice.symm),
      hrate.trans hsells.rate⟩
  supplied := by
    obtain ⟨i, log, hsuffix, hsupplied⟩ := h.supplied
    exact ⟨i, log, hsuffix.trans hlog, hsupplied⟩

/-- A source may run out. -/
lemma Justified.runsOut (h : Justified c w source row sku) (syncedAt : Time) :
    Justified c w source { row with stock := 0, syncedAt := syncedAt } sku :=
  { h with stock := Nat.zero_le _ }

/-- The offer is there afterwards, whether it was before or not. -/
lemma putOffer_kept {db db' : OfferTables} {draw id : Uuid} {offer : Offer}
    (h : db.putOffer draw offer = some (id, db')) :
    OffersKept db db' ∧ ∃ o, db'.offers.get? id = some o ∧ o.priceNgn = offer.priceNgn ∧
      o.successRate = offer.successRate := by
  unfold OfferTables.putOffer at h
  split_ifs at h
  split at h
  · rename_i found hfound
    obtain ⟨rfl, rfl⟩ := Prod.mk.inj (Option.some.inj h)
    obtain ⟨⟨id, o⟩, hfind, rfl⟩ := Option.map_eq_some_iff.mp hfound
    have hkey := List.find?_some hfind
    simp only [Bool.and_eq_true, decide_eq_true_eq] at hkey
    have hrow : db.offers.get? id = some o :=
      Table.get?_eq_some_iff.mpr (List.mem_of_find?_eq_some hfind)
    have hget := Table.get?_modify db.offers id fun o =>
      { o with
        quantity := offer.quantity
        active := offer.active
        successFetchedAt := offer.successFetchedAt }
    have hthere := hget id
    rw [if_pos rfl, hrow] at hthere
    refine ⟨fun id' o' ho' => ?_, _, hthere, hkey.1.2, hkey.2⟩
    have hafter := hget id'
    rw [ho'] at hafter
    by_cases heq : id' = id
    · rw [if_pos heq] at hafter
      exact ⟨_, hafter, rfl, rfl⟩
    · rw [if_neg heq] at hafter
      exact ⟨o', hafter, rfl, rfl⟩
  · obtain ⟨offers, hinsert, heq⟩ := Option.map_eq_some_iff.mp h
    obtain ⟨rfl, rfl⟩ := Prod.mk.inj heq
    have hget := Table.get?_insert hinsert
    refine ⟨fun id' o' ho' => ⟨o', ?_, rfl, rfl⟩, offer, by rw [hget, if_pos rfl], rfl, rfl⟩
    have hne : id' ≠ draw := by
      intro heq
      have hnone := (Table.insert_eq_some hinsert).1
      rw [heq] at ho'
      simp [hnone] at ho'
    rw [hget, if_neg hne]
    exact ho'

/-- Sources stay as they are, or run out. -/
def OnlyRunOut (db db' : OfferTables) : Prop :=
  ∀ source row', db'.sources.get? source = some row' → ∃ row, db.sources.get? source = some row ∧
    (row' = row ∨ ∃ t, row' = { row with stock := 0, syncedAt := t })

lemma OnlyRunOut.of_eq {db db' : OfferTables} (h : db'.sources = db.sources) :
    OnlyRunOut db db' := fun _ row' hrow => ⟨row', h ▸ hrow, .inl rfl⟩

lemma SourcesOk.of_onlyRunOut (hI : SourcesOk c w) (hsources : OnlyRunOut w.db w'.db)
    (hoffers : OffersKept w.db w'.db) (hlog : w.log <:+ w'.log) : SourcesOk c w' := by
  intro source row' hrow'
  obtain ⟨row, hrow, heq⟩ := hsources source row' hrow'
  obtain ⟨sku, hsku⟩ := hI source row hrow
  have hlater := hsku.later hoffers hlog
  rcases heq with rfl | ⟨t, rfl⟩
  · exact ⟨sku, hlater⟩
  · exact ⟨sku, hlater.runsOut t⟩

/-- What a statement can do: it reads and leaves the tables alone, or it reads nothing; offers
stay, and but for the source it is told to write, sources only run out. -/
lemma execSweep_cases {op : SweepOp} {r : op.Res}
    (he : execSweep cfg tid op ω w = some (r, w')) :
    (w'.db = w.db ∧ ∃ e, w'.log = (tid, e) :: w.log ∧
        (e.opens = true → op = .listing .fivesim)) ∨
      (w'.log = w.log ∧ OffersKept w.db w'.db ∧ OnlyRunOut w.db w'.db) ∨
      ∃ id sku, op = .putSource id sku ∧ w'.log = w.log ∧ w'.db.offers = w.db.offers ∧
        w'.db.sources =
          w.db.sources.upsert sku.source (sku.row id w.now) fun _ => sku.row id w.now := by
  cases op with
  | settings | balance =>
      cases he
      exact .inl ⟨rfl, _, rfl, fun h => by cases h⟩
  | listing provider =>
      cases he
      refine .inl ⟨rfl, _, rfl, fun h => ?_⟩
      cases provider with
      | fivesim => rfl
      | _ => cases h
  | productId | countryId =>
      cases he
      exact .inr (.inl ⟨rfl, .refl _, .of_eq rfl⟩)
  | panicked => cases he
  | putOffer product country price sku =>
      simp only [execSweep, Option.map_eq_some_iff, Prod.mk.injEq] at he
      obtain ⟨⟨id, db⟩, hput, -, rfl⟩ := he
      exact .inr (.inl ⟨rfl, (putOffer_kept hput).1, .of_eq (putOffer_eq_some hput).2.2⟩)
  | putSource id sku =>
      cases he
      exact .inr (.inr ⟨id, sku, rfl, rfl, rfl, rfl⟩)
  | zeroMissing provider seen =>
      cases he
      refine .inr (.inl ⟨rfl, .of_eq rfl, fun source row' hrow' => ?_⟩)
      simp only [OfferTables.zeroMissing, Table.get?_mapRows, Option.map_eq_some_iff] at hrow'
      obtain ⟨row, hrow, heq⟩ := hrow'
      refine ⟨row, hrow, ?_⟩
      split_ifs at heq
      · exact .inr ⟨w.now, heq.symm⟩
      · exact .inl heq.symm
  | recount =>
      simp only [execSweep, Option.map_eq_some_iff, Prod.mk.injEq] at he
      obtain ⟨db, hcount, -, rfl⟩ := he
      obtain ⟨hsources, hoffers⟩ := recount_eq_some hcount
      refine .inr (.inl ⟨rfl, fun id offer hoffer => ?_, .of_eq hsources⟩)
      have hget := Table.get?_mapRows w.db.offers (fun id o =>
        { o with quantity := w.db.stockOf id, active := 0 < w.db.stockOf id }) id
      rw [← hoffers, hoffer, Option.map_some] at hget
      exact ⟨_, hget, rfl, rfl⟩

lemma currentSweep_of_ne {i : ℕ} {log : SweepLog} {e : SweepEvent} (h : tid ≠ i) :
    currentSweep i ((tid, e) :: log) = currentSweep i log := if_neg h

lemma currentSweep_cons {log : SweepLog} {e : SweepEvent} (h : e.opens = false) :
    currentSweep tid ((tid, e) :: log) = e :: currentSweep tid log := by
  simp [currentSweep, h]

lemma mem_currentSweep_cons (log : SweepLog) (e : SweepEvent) :
    e ∈ currentSweep tid ((tid, e) :: log) := by
  by_cases h : e.opens = true <;> simp [currentSweep, h]

lemma offersKept_of_exec {op : SweepOp} {r : op.Res}
    (he : execSweep cfg tid op ω w = some (r, w')) : OffersKept w.db w'.db := by
  rcases execSweep_cases he with ⟨hdb, -⟩ | ⟨-, hoffers, -⟩ | ⟨_, _, -, -, hoffers, -⟩
  · exact .of_eq (by rw [hdb])
  · exact hoffers
  · exact .of_eq hoffers

lemma sweepLog_of_exec {op : SweepOp} {r : op.Res} (he : execSweep cfg tid op ω w = some (r, w')) :
    w'.log = w.log ∨ ∃ e, w'.log = (tid, e) :: w.log ∧
      (e.opens = true → op = .listing .fivesim) := by
  rcases execSweep_cases he with ⟨-, hlog⟩ | ⟨hlog, -⟩ | ⟨_, _, -, hlog, -⟩
  · exact .inr hlog
  · exact .inl hlog
  · exact .inl hlog

lemma suffix_of_exec {op : SweepOp} {r : op.Res} (he : execSweep cfg tid op ω w = some (r, w')) :
    w.log <:+ w'.log := by
  rcases sweepLog_of_exec he with hlog | ⟨e, hlog, -⟩
  · rw [hlog]
  · rw [hlog]
    exact List.suffix_cons _ _

/-- A statement of one sweep is what another relies on. -/
lemma sweepLater_of_exec {op : SweepOp} {r : op.Res}
    (he : execSweep cfg tid op ω w = some (r, w')) {i : ℕ} (hne : i ≠ tid) :
    SweepLater i w w' where
  offers := offersKept_of_exec he
  log := suffix_of_exec he
  own := by
    rcases sweepLog_of_exec he with hlog | ⟨e, hlog, -⟩
    · rw [hlog]
    · rw [hlog, currentSweep_of_ne hne.symm]

/-- A statement that keeps its contract leaves something behind every source. -/
lemma SourcesOk.exec {op : SweepOp} {r : op.Res} (hI : SourcesOk c w)
    (hC : SweepContract c tid () () op w) (he : execSweep cfg tid op ω w = some (r, w')) :
    SourcesOk c w' := by
  have hoffers := offersKept_of_exec he
  have hsuffix := suffix_of_exec he
  rcases execSweep_cases he with ⟨hdb, -⟩ | ⟨-, -, hsources⟩ | ⟨id, sku, rfl, hlog, heq, hput⟩
  · exact hI.of_onlyRunOut (.of_eq (by rw [hdb])) hoffers hsuffix
  · exact hI.of_onlyRunOut hsources hoffers hsuffix
  · obtain ⟨hsupplied, offer, hoffer, hsells⟩ := hC
    intro source row hrow
    rw [hput, Table.get?_upsert] at hrow
    by_cases hsource : source = sku.source
    · rw [if_pos hsource] at hrow
      have hrow : sku.row id w.now = row := by
        rcases hbefore : w.db.sources.get? sku.source with _ | before <;>
          simpa [hbefore] using hrow
      rw [← hrow, hsource]
      exact ⟨sku, rfl, rfl, rfl, rfl, le_rfl, ⟨offer, heq ▸ hoffer, hsells⟩, tid, w.log,
        hsuffix, hsupplied⟩
    · rw [if_neg hsource] at hrow
      obtain ⟨other, hother⟩ := hI source row hrow
      exact ⟨other, hother.later hoffers hsuffix⟩

end Steps

/-! ## A sweep keeps its contract -/

lemma Vouched.mono {c : OfferSync} {read read' : List SweepEvent} {sku : OfferSku}
    (h : Vouched c read sku) (hsub : read ⊆ read') : Vouched c read' sku := by
  rcases h with ⟨hstub, hprovider, hmem⟩ | ⟨sell, skus, hlive, hsell, hon, hlisted, hmem, hfivesim,
    hsmspool, hactivate⟩
  · exact .stub hstub hprovider hmem
  · refine .listed sell skus hlive (hsub hsell) hon (hsub hlisted) hmem (fun hp hk => ?_)
      (fun hp => ?_) hactivate
    · obtain ⟨balance, hbalance, hpaid⟩ := hfivesim hp hk
      exact ⟨balance, hsub hbalance, hpaid⟩
    · obtain ⟨hpool, balance, hbalance, hpaid⟩ := hsmspool hp
      exact ⟨hpool, balance, hsub hbalance, hpaid⟩

section Programs

variable {cfg : Config} {c : OfferSync} {tid : ℕ} {w : SweepWorld} {read : List SweepEvent}
  {β : Type}

/-- What is safe in any interleaving. -/
abbrev SweepSafe (cfg : Config) (c : OfferSync) (tid : ℕ) {β : Type} (Q : β → SweepWorld → Prop) :
    SweepProg β → SweepWorld → Prop :=
  Safe (sweeping cfg c) (SourcesOk c) SweepLater anyOp (SweepContract c) tid () () Q

/-- The sweep has read this. -/
abbrev HasRead (tid : ℕ) (read : List SweepEvent) (w : SweepWorld) : Prop :=
  read ⊆ currentSweep tid w.log

/-- After its first statement, a sweep does not forget what it has read. -/
lemma hasRead_of_exec {op : SweepOp} {r : op.Res} {ω : SweepOracle} {w' : SweepWorld}
    (he : execSweep cfg tid op ω w = some (r, w')) (hop : op ≠ .listing .fivesim)
    (h : HasRead tid read w) : HasRead tid read w' := by
  rcases sweepLog_of_exec he with hlog | ⟨e, hlog, hopens⟩
  · unfold HasRead
    rw [hlog]
    exact h
  · have hcloses : e.opens = false := by
      by_contra hne
      exact hop (hopens (by simpa using hne))
    unfold HasRead
    rw [hlog, currentSweep_cons hcloses]
    exact fun x hx => List.mem_cons_of_mem _ (h hx)

lemma HasRead.rely {w' : SweepWorld} (h : HasRead tid read w) (hR : SweepLater tid w w') :
    HasRead tid read w' := by
  unfold HasRead
  rw [hR.own]
  exact h

/-- A statement that needs no more than what has been read. -/
lemma safe_statement {op : SweepOp} {k : op.Res → SweepProg β} {Q : β → SweepWorld → Prop}
    (h : HasRead tid read w) (hop : op ≠ .listing .fivesim)
    (hC : ∀ w, HasRead tid read w → SweepContract c tid () () op w)
    (hk : ∀ r ω w w', execSweep cfg tid op ω w = some (r, w') → HasRead tid read w' →
      SweepSafe cfg c tid Q (k r) w') : SweepSafe cfg c tid Q (.call op k) w := by
  intro w₁ _ hR ω _
  have h₁ := h.rely hR
  exact ⟨hC w₁ h₁, fun r w₂ he => hk r ω w₁ w₂ he (hasRead_of_exec he hop h₁)⟩

/-- Where a SKU is written, it has a reason. -/
lemma safe_putSku {provider : SupplierLabel} {sku : OfferSku} (h : HasRead tid read w)
    (hsku : sku.provider = provider → Vouched c read sku) :
    SweepSafe cfg c tid (fun _ => HasRead tid read) (putSku (c.pricingOf provider) provider sku)
      w := by
  unfold putSku
  by_cases hne : sku.provider = provider
  · rw [if_neg (not_not.mpr hne)]
    simp only [Prog.perform_bind, Prog.pure_eq]
    refine safe_statement h (by simp) (fun _ _ => trivial) fun product _ _ w₁ _ h₁ => ?_
    rcases product with _ | product
    · exact h₁
    refine safe_statement h₁ (by simp) (fun _ _ => trivial) fun country _ _ w₂ _ h₂ => ?_
    rcases country with _ | country
    · exact h₂
    by_cases hprices : (c.pricingOf provider).prices provider = true
    · simp only [hprices, if_true]
      rcases hsale : (c.pricingOf provider).salePrice sku.cost with _ | price
      · exact safe_statement h₂ (by simp) (fun _ _ => trivial) fun _ _ _ _ he => by cases he
      refine safe_statement h₂ (by simp) (fun _ _ => trivial) fun id ω w₃ w₄ he₃ h₄ => ?_
      simp only [execSweep, Option.map_eq_some_iff, Prod.mk.injEq] at he₃
      obtain ⟨⟨id, db⟩, hput, rfl, rfl⟩ := he₃
      obtain ⟨-, offer, hoffer, hprice, hrate⟩ := putOffer_kept hput
      intro w₅ _ hR₅ ω₅ _
      obtain ⟨offer', hoffer', hprice', hrate'⟩ := hR₅.offers id offer hoffer
      refine ⟨⟨(hsku hne).mono (h₄.rely hR₅), offer', hoffer', ?_⟩, fun r w₆ he₅ => ?_⟩
      · rw [← hne] at hprices hsale
        exact ⟨hprices, hsale.trans (congrArg some (hprice'.trans hprice).symm),
          hrate'.trans hrate⟩
      · replace he₅ : execSweep cfg tid (.putSource id sku) ω₅ w₅ = some (r, w₆) := he₅
        exact hasRead_of_exec he₅ (by simp) (h₄.rely hR₅)
    · rw [Bool.not_eq_true] at hprices
      simp only [hprices, Bool.false_eq_true, if_false]
      exact h₂
  · rw [if_pos hne]
    exact h

lemma safe_putSkus {provider : SupplierLabel} {skus : List OfferSku} (h : HasRead tid read w)
    (hskus : ∀ sku ∈ skus, sku.provider = provider → Vouched c read sku) :
    SweepSafe cfg c tid (fun _ => HasRead tid read)
      (putSkus (c.pricingOf provider) provider skus) w := by
  induction skus generalizing w with
  | nil => exact h
  | cons sku rest ih =>
      refine (safe_putSku h (hskus sku List.mem_cons_self)).bind fun _ w₁ h₁ => ?_
      have hrest := ih h₁ fun sku hsku => hskus sku (List.mem_cons_of_mem _ hsku)
      exact hrest.bind fun _ w₂ h₂ => h₂

/-- A sweep of a list every SKU of which has a reason. -/
lemma safe_sweepProvider {provider : SupplierLabel} {skus : List OfferSku}
    (h : HasRead tid read w)
    (hskus : ∀ sku ∈ skus, sku.provider = provider → Vouched c read sku) :
    SweepSafe cfg c tid (fun _ => HasRead tid read)
      (sweepProvider (c.pricingOf provider) provider skus) w := by
  refine (safe_putSkus h hskus).bind fun seen w₁ h₁ => ?_
  simp only [Prog.perform_bind]
  refine safe_statement h₁ (by simp) (fun _ _ => trivial) fun _ _ _ w₂ _ h₂ => ?_
  exact safe_statement h₂ (by simp) (fun _ _ => trivial) fun _ _ _ w₃ _ h₃ => h₃

/-- Hiding a supplier needs no reason. -/
lemma safe_hideProvider {provider : SupplierLabel} (h : HasRead tid read w) :
    SweepSafe cfg c tid (fun _ => HasRead tid read)
      (hideProvider (c.pricingOf provider) provider) w :=
  safe_sweepProvider h fun _ hsku => absurd hsku List.not_mem_nil

lemma HasRead.cons {w' : SweepWorld} {e : SweepEvent} (h : HasRead tid read w)
    (hlog : w'.log = (tid, e) :: w.log) (hcloses : e.opens = false) :
    HasRead tid (e :: read) w' := by
  unfold HasRead
  rw [hlog, currentSweep_cons hcloses]
  intro x hx
  rcases List.mem_cons.mp hx with rfl | hx
  · exact List.mem_cons_self
  · exact List.mem_cons_of_mem _ (h hx)

/-- What is to be written of a supplier has its reasons in what has been read meanwhile. -/
def Reasoned (c : OfferSync) (tid : ℕ) (read : List SweepEvent) (provider : SupplierLabel)
    (listing : Option (List OfferSku)) (w : SweepWorld) : Prop :=
  ∃ more, read ⊆ more ∧ HasRead tid more w ∧ ∀ skus, listing = some skus →
    ∀ sku ∈ skus, sku.provider = provider → Vouched c more sku

lemma safe_writeListing {provider : SupplierLabel} {listing : Option (List OfferSku)}
    (h : Reasoned c tid read provider listing w) :
    SweepSafe cfg c tid (fun _ => HasRead tid read)
      (writeListing (c.pricingOf provider) provider listing) w := by
  obtain ⟨more, hsub, hread, hskus⟩ := h
  rcases listing with _ | skus
  · exact fun e he => hread (hsub he)
  · exact (safe_sweepProvider hread (hskus skus rfl)).mono fun _ _ hmore e he => hmore (hsub he)

/-- A supplier that is on, and not the stub. -/
structure Selling (c : OfferSync) (read : List SweepEvent) (provider : SupplierLabel) : Prop where
  live : c.writeStub = false
  on : ∃ sell, .settings sell ∈ read ∧ sell.isEnabled provider.text = true

lemma mem_affordableSkus {skus : List OfferSku} {balance : ℚ} {sku : OfferSku}
    (hfunded : walletIsFunded balance = true) (h : sku ∈ affordableSkus skus balance) :
    sku ∈ skus ∧ PaidBy (some balance) sku := by
  simp only [affordableSkus, List.mem_filter, Bool.and_eq_true, decide_eq_true_eq] at h
  obtain ⟨hmem, hcost, hrate⟩ := h
  refine ⟨hmem, fun b hb => ?_⟩
  cases hb
  exact ⟨of_decide_eq_true hfunded, hcost, hrate⟩

lemma Selling.mono {provider : SupplierLabel} {more : List SweepEvent}
    (h : Selling c read provider) (hsub : read ⊆ more) : Selling c more provider := by
  obtain ⟨hlive, sell, hsell, hon⟩ := h
  exact ⟨hlive, sell, hsub hsell, hon⟩

lemma reasoned_none {provider : SupplierLabel} (h : HasRead tid read w) :
    Reasoned c tid read provider none w :=
  ⟨read, List.Subset.refl _, h, fun skus hskus => by cases hskus⟩

lemma reasoned_nil {provider : SupplierLabel} (h : HasRead tid read w) :
    Reasoned c tid read provider (some []) w := by
  refine ⟨read, List.Subset.refl _, h, fun skus hskus sku hsku => ?_⟩
  cases hskus
  exact absurd hsku List.not_mem_nil

lemma Reasoned.of_more {provider : SupplierLabel} {listing : Option (List OfferSku)}
    {more : List SweepEvent} (h : Reasoned c tid more provider listing w) (hsub : read ⊆ more) :
    Reasoned c tid read provider listing w := by
  obtain ⟨most, hsub', hread, hskus⟩ := h
  exact ⟨most, fun e he => hsub' (hsub he), hread, hskus⟩

/-- The wallet of 5SIM as it has been read, if it is looked at. -/
def FivesimPaid (c : OfferSync) (read : List SweepEvent) (sku : OfferSku) : Prop :=
  c.fivesimKeyed = true → ∃ balance, .balance .fivesim balance ∈ read ∧ PaidBy balance sku

lemma reasoned_fivesim {skus written : Option (List OfferSku)} (h : HasRead tid read w)
    (hon : Selling c read .fivesim) (hlisted : .listed .fivesim skus ∈ read)
    (hwritten : ∀ l, written = some l → ∀ sku ∈ l, (∃ l, skus = some l ∧ sku ∈ l) ∧
      FivesimPaid c read sku) : Reasoned c tid read .fivesim written w := by
  refine ⟨read, List.Subset.refl _, h, fun l hl sku hsku hprovider => ?_⟩
  obtain ⟨hlive, sell, hsell, hon⟩ := hon
  obtain ⟨⟨l', rfl, hmem⟩, hpaid⟩ := hwritten l hl sku hsku
  rw [← hprovider] at hon hlisted
  refine .listed sell l' hlive hsell hon hlisted hmem (fun _ => hpaid) (fun hp => ?_) fun hp => ?_
  · exact absurd (hprovider.symm.trans hp) (by simp)
  · rw [hprovider] at hp
    exact absurd hp (by decide)

lemma hasRead_balance {provider : SupplierLabel} {r : Option ℚ} {ω : SweepOracle}
    {w' : SweepWorld} (he : execSweep cfg tid (.balance provider) ω w = some (r, w'))
    (h : HasRead tid read w) : HasRead tid (.balance provider r :: read) w' := by
  cases he
  exact h.cons rfl rfl

lemma hasRead_listing {provider : SupplierLabel} {r : Option (List OfferSku)} {ω : SweepOracle}
    {w' : SweepWorld} (he : execSweep cfg tid (.listing provider) ω w = some (r, w'))
    (hne : provider ≠ .fivesim) (h : HasRead tid read w) :
    HasRead tid (.listed provider r :: read) w' := by
  cases he
  refine h.cons rfl ?_
  cases provider with
  | fivesim => exact absurd rfl hne
  | _ => rfl

/-- What is written of 5SIM was in its catalogue, and its wallet can pay if it could be read. -/
lemma safe_fivesimListing {skus : Option (List OfferSku)} (h : HasRead tid read w)
    (hon : Selling c read .fivesim) (hlisted : .listed .fivesim skus ∈ read) :
    SweepSafe cfg c tid (Reasoned c tid read .fivesim) (fivesimListing c skus) w := by
  unfold fivesimListing
  by_cases hkeyed : c.fivesimKeyed = true
  · simp only [hkeyed, if_true, Prog.perform_bind, Prog.pure_eq]
    intro w₁ _ hR₁ ω₁ _
    refine ⟨trivial, fun balance w₂ he₁ => ?_⟩
    replace he₁ : execSweep cfg tid (.balance .fivesim) ω₁ w₁ = some (balance, w₂) := he₁
    have hread := hasRead_balance he₁ (h.rely hR₁)
    have hsub : read ⊆ .balance .fivesim balance :: read := List.subset_cons_self _ _
    have hmore := hon.mono hsub
    have hlater := hsub hlisted
    rcases balance with _ | balance
    · refine (reasoned_fivesim hread hmore hlater fun l hl sku hsku => ?_).of_more hsub
      exact ⟨⟨l, hl, hsku⟩, fun _ => ⟨none, List.mem_cons_self, fun b hb => by cases hb⟩⟩
    by_cases hfunded : walletIsFunded balance = true
    · simp only [hfunded, if_true]
      refine (reasoned_fivesim hread hmore hlater fun l hl sku hsku => ?_).of_more hsub
      obtain ⟨listed, hskus, rfl⟩ := Option.map_eq_some_iff.mp hl
      obtain ⟨hmem, hpaid⟩ := mem_affordableSkus hfunded hsku
      exact ⟨⟨listed, hskus, hmem⟩, fun _ => ⟨some balance, List.mem_cons_self, hpaid⟩⟩
    · simp only [hfunded, Bool.false_eq_true, if_false]
      exact (reasoned_nil hread).of_more hsub
  · simp only [hkeyed, Bool.false_eq_true, if_false]
    refine reasoned_fivesim h hon hlisted fun l hl sku hsku => ⟨⟨l, hl, hsku⟩, fun hk => ?_⟩
    exact absurd hk hkeyed

/-- What is written of SMSPool was in its list, and its wallet can pay. -/
lemma safe_smspoolListing (h : HasRead tid read w) (hon : Selling c read .smspool)
    (hpool : c.smspool = true) :
    SweepSafe cfg c tid (Reasoned c tid read .smspool) smspoolListing w := by
  unfold smspoolListing
  simp only [Prog.perform_bind, Prog.pure_eq]
  intro w₁ _ hR₁ ω₁ _
  refine ⟨trivial, fun balance w₂ he₁ => ?_⟩
  replace he₁ : execSweep cfg tid (.balance .smspool) ω₁ w₁ = some (balance, w₂) := he₁
  have hread := hasRead_balance he₁ (h.rely hR₁)
  have hsub : read ⊆ .balance .smspool balance :: read := List.subset_cons_self _ _
  rcases balance with _ | balance
  · exact (reasoned_none hread).of_more hsub
  by_cases hfunded : walletIsFunded balance = true
  · simp only [hfunded, if_true]
    intro w₃ _ hR₃ ω₃ _
    refine ⟨trivial, fun listing w₄ he₃ => ?_⟩
    replace he₃ : execSweep cfg tid (.listing .smspool) ω₃ w₃ = some (listing, w₄) := he₃
    have hlast := hasRead_listing he₃ (by simp) (hread.rely hR₃)
    refine ⟨_, fun e he => List.mem_cons_of_mem _ (hsub he), hlast,
      fun skus hskus sku hsku hprovider => ?_⟩
    obtain ⟨listed, rfl, rfl⟩ := Option.map_eq_some_iff.mp hskus
    obtain ⟨hmem, hpaid⟩ := mem_affordableSkus hfunded hsku
    obtain ⟨hlive, sell, hsell, hon⟩ := hon
    rw [← hprovider] at hon
    refine .listed sell listed hlive (List.mem_cons_of_mem _ (hsub hsell)) hon
      (hprovider ▸ List.mem_cons_self) hmem (fun hp => ?_) (fun _ => ⟨hpool, balance, ?_, hpaid⟩)
      fun hp => ?_
    · exact absurd (hprovider.symm.trans hp) (by simp)
    · exact List.mem_cons_of_mem _ List.mem_cons_self
    · rw [hprovider] at hp
      exact absurd hp (by decide)
  · simp only [hfunded, Bool.false_eq_true, if_false]
    exact (reasoned_nil hread).of_more hsub

lemma safe_syncFivesim {sell : SellSettings} {skus : Option (List OfferSku)}
    (h : HasRead tid read w) (hlive : c.writeStub = false) (hsell : .settings sell ∈ read)
    (hlisted : .listed .fivesim skus ∈ read) :
    SweepSafe cfg c tid (fun _ => HasRead tid read) (syncFivesim c sell skus) w := by
  unfold syncFivesim
  by_cases hon : sell.isEnabled "fivesim" = true
  · rw [if_pos hon]
    exact (safe_fivesimListing h ⟨hlive, sell, hsell, hon⟩ hlisted).bind fun _ _ hlisting =>
      safe_writeListing hlisting
  · rw [if_neg hon]
    exact safe_hideProvider h

lemma safe_syncSmspool {sell : SellSettings} (h : HasRead tid read w)
    (hlive : c.writeStub = false) (hsell : .settings sell ∈ read) :
    SweepSafe cfg c tid (fun _ => HasRead tid read) (syncSmspool c sell) w := by
  unfold syncSmspool
  by_cases hon : (sell.isEnabled "smspool" && c.smspool) = true
  · rw [if_pos hon]
    rw [Bool.and_eq_true] at hon
    exact (safe_smspoolListing h ⟨hlive, sell, hsell, hon.1⟩ hon.2).bind fun _ _ hlisting =>
      safe_writeListing hlisting
  · rw [if_neg hon]
    exact safe_hideProvider h

lemma safe_syncActivate {sell : SellSettings} {provider : SupplierLabel}
    (hprovider : provider ∈ activateLabels) (h : HasRead tid read w)
    (hlive : c.writeStub = false) (hsell : .settings sell ∈ read) :
    SweepSafe cfg c tid (fun _ => HasRead tid read) (syncActivate c sell provider) w := by
  have hfivesim : provider ≠ .fivesim := by
    rintro rfl
    exact absurd hprovider (by decide)
  have hsmspool : provider ≠ .smspool := by
    rintro rfl
    exact absurd hprovider (by decide)
  unfold syncActivate
  by_cases hon : (sell.isEnabled provider.text && c.activate provider) = true
  · rw [if_pos hon]
    rw [Bool.and_eq_true] at hon
    simp only [Prog.perform_bind]
    intro w₁ _ hR₁ ω₁ _
    refine ⟨trivial, fun listing w₂ he₁ => safe_writeListing ?_⟩
    replace he₁ : execSweep cfg tid (.listing provider) ω₁ w₁ = some (listing, w₂) := he₁
    have hread := hasRead_listing he₁ hfivesim (h.rely hR₁)
    refine ⟨_, List.subset_cons_self _ _, hread, fun skus hskus sku hsku hsupplier => ?_⟩
    subst hsupplier
    refine .listed sell skus hlive (List.mem_cons_of_mem _ hsell) hon.1
      (hskus ▸ List.mem_cons_self) hsku (fun hp => absurd hp hfivesim)
      (fun hp => absurd hp hsmspool) fun _ => hon.2
  · rw [if_neg hon]
    exact safe_hideProvider h

lemma safe_syncActivates {sell : SellSettings} {labels : List SupplierLabel}
    (hlabels : labels ⊆ activateLabels) (h : HasRead tid read w) (hlive : c.writeStub = false)
    (hsell : .settings sell ∈ read) :
    SweepSafe cfg c tid (fun _ => HasRead tid read) (syncActivates c sell labels) w := by
  induction labels generalizing w with
  | nil => exact h
  | cons provider rest ih =>
      refine (safe_syncActivate (hlabels List.mem_cons_self) h hlive hsell).bind fun _ w₁ h₁ => ?_
      exact ih (fun p hp => hlabels (List.mem_cons_of_mem _ hp)) h₁

/-- **A sweep writes nothing without a reason**, whatever it reads. -/
lemma safe_offerTurn (w : SweepWorld) :
    SweepSafe cfg c tid (fun _ _ => True) (offerTurn c) w := by
  simp only [offerTurn, syncOffers, Prog.perform_bind]
  intro w₁ _ _ ω₁ _
  refine ⟨trivial, fun skus w₂ he₁ => ?_⟩
  have h₂ : HasRead tid [.listed .fivesim skus] w₂ := by
    cases he₁
    intro e he
    rw [List.mem_singleton.mp he]
    exact mem_currentSweep_cons _ _
  intro w₃ _ hR₃ ω₃ _
  refine ⟨trivial, fun sell w₄ he₃ => ?_⟩
  have h₄ : HasRead tid [.settings sell, .listed .fivesim skus] w₄ := by
    cases he₃
    exact (h₂.rely hR₃).cons rfl rfl
  have hsell : SweepEvent.settings sell ∈ [.settings sell, .listed .fivesim skus] :=
    List.mem_cons_self
  have hlisted : SweepEvent.listed .fivesim skus ∈ [.settings sell, .listed .fivesim skus] :=
    List.mem_cons_of_mem _ List.mem_cons_self
  by_cases hstub : c.writeStub = true
  · simp only [hstub, if_true]
    have hskus : ∀ sku ∈ stubSkus, sku.provider = .stub →
        Vouched c [.settings sell, .listed .fivesim skus] sku :=
      fun sku hsku hprovider => .stub hstub hprovider hsku
    refine (safe_sweepProvider h₄ hskus).bind fun _ w₅ h₅ => ?_
    refine (safe_hideProvider h₅).bind fun _ w₆ h₆ => ?_
    exact (safe_hideProvider h₆).mono fun _ _ _ => trivial
  · have hlive : c.writeStub = false := by simpa using hstub
    simp only [hlive, Bool.false_eq_true, if_false]
    refine (safe_hideProvider h₄).bind fun _ w₅ h₅ => ?_
    refine (safe_syncFivesim h₅ hlive hsell hlisted).bind fun _ w₆ h₆ => ?_
    refine (safe_syncSmspool h₆ hlive hsell).bind fun _ w₇ h₇ => ?_
    exact (safe_syncActivates (List.Subset.refl _) h₇ hlive hsell).mono fun _ _ _ => trivial

end Programs

/-! ## The law -/

lemma moveSweep_later (e : SweepMove) (w : SweepWorld) (tid : ℕ) :
    SweepLater tid w (moveSweep e w) := by
  cases e <;> exact ⟨.of_eq rfl, List.suffix_refl _, rfl⟩

lemma moveSweep_onlyRunOut (e : SweepMove) (w : SweepWorld) :
    OnlyRunOut w.db (moveSweep e w).db := by
  cases e with
  | ranOut offer source =>
      intro source' row' hrow'
      simp only [moveSweep, Table.get?_modify] at hrow'
      split_ifs at hrow' with hsource
      · obtain ⟨row, hrow, rfl⟩ := Option.map_eq_some_iff.mp hrow'
        refine ⟨row, hrow, ?_⟩
        by_cases hoffer : row.offerId = offer
        · exact .inr ⟨w.now, if_pos hoffer⟩
        · exact .inl (if_neg hoffer)
      · exact ⟨row', hrow', .inl rfl⟩
  | _ => exact .of_eq rfl

lemma keeps_sweeping (cfg : Config) (c : OfferSync) :
    Keeps (sweeping cfg c) (SourcesOk c) SweepLater anyOp (SweepContract c) where
  refl := .refl
  trans h h' := h.trans h'
  env {e w w'} hI h := by
    cases h
    have hlater := moveSweep_later e w
    refine ⟨hI.of_onlyRunOut (moveSweep_onlyRunOut e w) (hlater 0).offers (hlater 0).log, hlater⟩
  op hI _ hC h := ⟨hI.exec hC h, fun _ hne => sweepLater_of_exec h hne⟩
  spawn tid _ w _ := safe_offerTurn w

/-- **Nothing is on sale that its supplier has not listed, at a price below its cost.**  In every
interleaving of any number of sweeps with each other, with operators who switch suppliers and with
a buy loop that finds sources sold out, wherever sweeps fail: behind every source stands a SKU that
one sweep read from its supplier while it found the supplier switched on and, where it looked at
the wallet, the wallet able to pay; the source has the columns of that SKU and no more stock, and
is sold under an offer with its success rate at the price that is computed from its cost, which is
no less than a hundred naira and, where every number on the way to it is a `Decimal`, no less than
the cost with the margin. -/
theorem sources_justified (cfg : Config) (c : OfferSync) (now : Time)
    (products : Table Uuid CatalogueProduct) (countries : Table Uuid CountryRow)
    (settings : SellSettings) {s : Sys SweepOp SweepOp.Res SweepWorld Unit Unit Unit}
    (h : (sweeping cfg c).Reachable unguarded
      (Sys.idle (.fresh now products countries settings)) s) {source : Source} {row : SourceRow}
    (hrow : s.world.db.sources.get? source = some row) :
    ∃ sku offer, Justified c s.world source row sku ∧
      s.world.db.offers.get? row.offerId = some offer ∧ Sells c offer sku ∧
      100 ≤ offer.priceNgn ∧
      ((c.pricingOf source.provider).arithmetic.Exact →
        (c.pricingOf source.provider).Carried sku.cost →
        sku.cost * (c.pricingOf source.provider).usdNgn * (c.pricingOf source.provider).margin ≤
          offer.priceNgn) := by
  have hok := ((keeps_sweeping cfg c).holds (fun source row hrow => by cases hrow) (fun _ => rfl)
    (h.mono fun s a _ => onOps_anyOp s a)).1
  obtain ⟨sku, hsku⟩ := hok source row hrow
  obtain ⟨offer, hoffer, hsells⟩ := hsku.sold
  have hprovider : sku.provider = source.provider := by rw [← hsku.source]; rfl
  refine ⟨sku, offer, hsku, hoffer, hsells, Pricing.hundred_le_of_salePrice hsells.price, ?_⟩
  intro hexact hcarried
  have hprice := hsells.price
  rw [hprovider, hcarried.salePrice_eq hexact, Option.some_inj] at hprice
  rw [← hprice]
  exact Pricing.markup_le _

/-- 5SIM with a key, at 1700 naira per dollar and a margin of three fifths. -/
def keyedFivesim : OfferSync where
  writeStub := false
  fivesimKeyed := true
  smspool := false
  activate _ := false
  pricing := inDollars
  smspoolPricing := inDollars
  activatePricing _ := none

/-- Two fifths of a dollar and all that comes of it are `Decimal`s. -/
lemma carried_inDollars : inDollars.Carried (2 / 5) := by
  have hcost : (2 / 5 : ℚ) * inDollars.usdNgn = 680 := by norm_num [inDollars]
  have hraw : (2 / 5 : ℚ) * inDollars.usdNgn * inDollars.margin = 1088 := by norm_num [inDollars]
  have htenth : (2 / 5 : ℚ) * inDollars.usdNgn * inDollars.margin / 10 = 544 / 5 := by
    rw [hraw]
    norm_num
  have hrounded : (⌈(2 / 5 : ℚ) * inDollars.usdNgn * inDollars.margin / 10⌉ * 10 : ℚ) = 1090 := by
    rw [htenth]
    have hceil : ⌈(544 / 5 : ℚ)⌉ = 109 := by decide +kernel
    rw [hceil]
    norm_num
  refine ⟨⟨4, 1, ?_⟩, ⟨1700, 0, ?_⟩, ⟨16, 1, ?_⟩, ⟨680, 0, ?_⟩, ⟨1088, 0, ?_⟩, ⟨1088, 1, ?_⟩,
    ⟨1090, 0, ?_⟩⟩
  all_goals norm_num [rustDecimal, inDollars, hcost, hraw, htenth, hrounded]

/-- The lists read in a sweep are in the log. -/
lemma mem_of_mem_currentSweep {tid : ℕ} {log : SweepLog} {e : SweepEvent}
    (h : e ∈ currentSweep tid log) : (tid, e) ∈ log := by
  induction log with
  | nil => cases h
  | cons entry log ih =>
      obtain ⟨i, e'⟩ := entry
      unfold currentSweep at h
      split_ifs at h with hi hopens
      · rw [List.mem_singleton.mp h, hi]
        exact List.mem_cons_self
      · rcases List.mem_cons.mp h with rfl | h
        · exact hi ▸ List.mem_cons_self
        · exact List.mem_cons_of_mem _ (ih h)
      · exact List.mem_cons_of_mem _ (ih h)

/-- Whether nothing but SKUs of two fifths of a dollar has been listed. -/
def SweepLog.cheap (log : SweepLog) : Bool :=
  log.all fun
    | (_, .listed _ (some skus)) => skus.all fun sku => sku.cost = 2 / 5
    | _ => true

/-- A sweep that finds ten dollars in the wallet of 5SIM, up to the source it writes. -/
theorem sources_justified_fivesim : ∃ s, (sweeping catalogueConfig keyedFivesim).Reachable unguarded
      (Sys.idle (.fresh 1 oneSource.products oneSource.countries .seed)) s ∧
    ∃ row, s.world.db.sources.get? sevenListed.source = some row ∧ row.stock = 7 ∧
      ∃ sku offer, Justified keyedFivesim s.world sevenListed.source row sku ∧
        s.world.db.offers.get? row.offerId = some offer ∧ Sells keyedFivesim offer sku ∧
        100 ≤ offer.priceNgn ∧ sku.cost = 2 / 5 ∧ sku.cost * 1700 * (8 / 5) ≤ offer.priceNgn := by
  obtain ⟨s, hs, hstock, hcheap⟩ := exists_reachable_of_run
    (sweeping catalogueConfig keyedFivesim) unguarded
    (Sys.idle (.fresh 1 oneSource.products oneSource.countries .seed))
    ([.spawn 0 (), .resume 0 { listing := some [{ sevenListed with currency := "USD" }] },
      .resume 0 {}, .resume 0 {}, .resume 0 {}, .resume 0 { balance := some 10 },
      .resume 0 {}, .resume 0 {}, .resume 0 { fresh := 3 }, .resume 0 {}])
    (fun s => (s.world.db.sources.get? sevenListed.source).map (·.stock) = some 7 ∧
      s.world.log.cheap = true) (by decide +kernel)
  obtain ⟨row, hrow, hseven⟩ := Option.map_eq_some_iff.mp hstock
  obtain ⟨sku, offer, hsku, hoffer, hsells, hfloor, hmarkup⟩ :=
    sources_justified catalogueConfig keyedFivesim 1 _ _ _ hs hrow
  have hcost : sku.cost = 2 / 5 := by
    obtain ⟨tid, log, hsuffix, hvouched⟩ := hsku.supplied
    cases hvouched with
    | stub hstub => cases hstub
    | listed sell skus _ _ _ hlisted hmem =>
        have hall := List.all_eq_true.mp hcheap _
          (hsuffix.subset (mem_of_mem_currentSweep hlisted))
        simpa using List.all_eq_true.mp hall sku hmem
  exact ⟨s, hs, row, hrow, hseven, sku, offer, hsku, hoffer, hsells, hfloor, hcost,
    hmarkup exactOps_exact (hcost ▸ carried_inDollars)⟩

end Naivolt
