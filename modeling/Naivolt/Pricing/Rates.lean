import Naivolt.Foundation.Actors
import Naivolt.Core

/-!
# Rates

A price is asked of CoinGecko in dollars and quoted in naira, net of a margin per dollar.  The
answers are shared: `prices` serves what was fetched within thirty seconds, asks otherwise, and
falls back on what is left when asking fails, unless that is five minutes old — a stale price is
dangerous in a way a missing one is not.

Requests run at once, and nothing is held between looking at the cache, the call, the write and the
fallback.  Several may ask at the same time, and a slow one may put an older answer over a newer.
`quotes_fresh` is what a quote is worth nevertheless.

The prices CoinGecko sends are floating-point numbers; the tests and the conversion that `fetch`
applies to them are parameters, and so is the arithmetic of `Decimal`, which rounds.
-/

namespace Naivolt

open Foundation Foundation.Machine

/-! ## Prices -/

/-- Serve cached prices within this window rather than refetching. -/
def ratesCacheTtl : Time := seconds 30

/-- Past this, a cached price is refused rather than quoted. -/
def staleLimit : Time := seconds (5 * 60)

/-- Assets we price, and their CoinGecko ids. -/
def coingeckoIds : List (String × String) :=
  [("BTC", "bitcoin"), ("ETH", "ethereum"), ("USDT", "tether"), ("USDC", "usd-coin"),
    ("BNB", "binancecoin"), ("SOL", "solana"), ("TRX", "tron")]

/-- `CoinGeckoQuote`, over the floating-point numbers `F`. -/
structure CoinGeckoQuote (F : Type) where
  usd : Option F
  usd24hChange : Option F

/-- An answer of CoinGecko, by its ids. -/
abbrev GeckoBody (F : Type) := String → Option (CoinGeckoQuote F)

/-- The configured rates, and what `fetch` does with a floating-point number. -/
structure RatesConfig (F : Type) where
  midNgnPerUsd : ℚ
  spreadNgnPerUsd : ℚ
  /-- `-` of `Decimal`. -/
  sub : ℚ → ℚ → ℚ
  /-- `*` of `Decimal`.  Where it panics, the request is one that is dropped. -/
  mul : ℚ → ℚ → ℚ
  /-- `usd <= 0.0`. -/
  nonPositive : F → Bool
  /-- `Decimal::from_f64`. -/
  fromF64 : F → Option ℚ

/-- Prices in dollars, before any margin, with their change in a day. -/
abbrev UsdPrices (F : Type) := List (String × ℚ × Option F)

/-- What `fetch` keeps of an answer. -/
def usablePrices {F : Type} (cfg : RatesConfig F) (body : GeckoBody F) : UsdPrices F :=
  coingeckoIds.filterMap fun (asset, id) => do
    let quote ← body id
    let usd ← quote.usd
    if cfg.nonPositive usd then none
    else
      let price ← cfg.fromF64 usd
      some (asset, price, quote.usd24hChange)

structure CacheEntry (F : Type) where
  usd : UsdPrices F
  fetchedAt : Time
  asOf : Time

structure AssetPrice (F : Type) where
  asset : String
  usdPrice : ℚ
  ngnRate : ℚ
  changePct24h : Option F

structure RateBoard (F : Type) where
  ngnPerUsd : ℚ
  assets : List (AssetPrice F)
  asOf : Time

inductive RateError where
  | unavailable
  deriving DecidableEq

namespace RatesConfig

variable {F : Type} (cfg : RatesConfig F)

/-- What we pay per dollar of value. -/
def netNgnPerUsd : ℚ := max (cfg.sub cfg.midNgnPerUsd cfg.spreadNgnPerUsd) 0

/-- Naira we pay per unit of an asset. -/
def ngnRateFor (usdPrice : ℚ) : ℚ := max (cfg.mul usdPrice cfg.netNgnPerUsd) 0

def assetPrice (row : String × ℚ × Option F) : AssetPrice F :=
  ⟨row.1, row.2.1, cfg.ngnRateFor row.2.1, row.2.2⟩

/-- The board of some prices. -/
def boardOf (usd : UsdPrices F) (asOf : Time) : RateBoard F where
  ngnPerUsd := cfg.netNgnPerUsd
  assets := ((usd.map cfg.assetPrice).filter fun row => 0 < row.ngnRate).mergeSort
    fun a b => b.usdPrice ≤ a.usdPrice
  asOf := asOf

end RatesConfig

/-! ## The cache -/

section Machine

variable {F : Type}

inductive RateEvent (F : Type) where
  /-- An answer with usable prices, stamped with the clock and the time of day. -/
  | answered (body : GeckoBody F) (fetchedAt asOf : Time)
  | failed (time : Time)

structure RatesWorld (F : Type) where
  now : Time
  cache : Option (CacheEntry F)
  /-- The calls that have been answered, or not. -/
  calls : List (RateEvent F)

def RatesWorld.fresh (now : Time) : RatesWorld F := ⟨now, none, []⟩

/-- What the program does not decide: the time of day, and what CoinGecko answers, none when it
does not answer or its answer is refused. -/
structure RatesOracle (F : Type) where
  utc : Time := 0
  body : Option (GeckoBody F) := none

inductive RateOp (F : Type) where
  /-- The cache, if it was filled within the time to live. -/
  | readFresh
  /-- `fetch`, with the time its answer is stamped with before it waits for the cache. -/
  | fetch
  | store (entry : CacheEntry F)
  /-- The cache, if it is not stale. -/
  | readStale

abbrev RateOp.Res : RateOp F → Type
  | readFresh | readStale => Option (CacheEntry F)
  | fetch => Except Unit (CacheEntry F)
  | store _ => Unit

/-- The cache, if it was filled less than `limit` ago. -/
def RatesWorld.within (w : RatesWorld F) (limit : Time) : Option (CacheEntry F) :=
  w.cache.filter fun e => w.now - e.fetchedAt < limit

def execRates (cfg : RatesConfig F) :
    (op : RateOp F) → RatesOracle F → RatesWorld F → Option (op.Res × RatesWorld F)
  | .readFresh, _, w => some (w.within ratesCacheTtl, w)
  | .fetch, ω, w =>
      match ω.body.filter fun body => !(usablePrices cfg body).isEmpty with
      | none => some (.error (), { w with calls := .failed w.now :: w.calls })
      | some body =>
        some (.ok ⟨usablePrices cfg body, w.now, ω.utc⟩,
          { w with calls := .answered body w.now ω.utc :: w.calls })
  | .store entry, _, w => some ((), { w with cache := some entry })
  | .readStale, _, w => some (w.within staleLimit, w)

abbrev RateProg (F α : Type) := Prog (RateOp F) RateOp.Res α

/-- `prices`. -/
def fetchedPrices : RateProg F (Except RateError (UsdPrices F × Time)) := do
  match ← Prog.perform RateOp.readFresh with
  | some entry => pure (.ok (entry.usd, entry.asOf))
  | none =>
    match ← Prog.perform RateOp.fetch with
    | .ok entry =>
      Prog.perform (RateOp.store entry)
      pure (.ok (entry.usd, entry.asOf))
    | .error () =>
      match ← Prog.perform RateOp.readStale with
      | some entry => pure (.ok (entry.usd, entry.asOf))
      | none => pure (.error .unavailable)

/-- `board`. -/
def rateBoard (cfg : RatesConfig F) : RateProg F (Except RateError (RateBoard F)) := do
  let r ← fetchedPrices
  pure (r.map fun (usd, asOf) => cfg.boardOf usd asOf)

/-- `ngn_rate_of`. -/
def ngnRateOf (cfg : RatesConfig F) (asset : String) : RateProg F (Option ℚ) := do
  match ← fetchedPrices with
  | .error _ => pure none
  | .ok (usd, _) => pure ((usd.find? (·.1 = asset)).map fun row => cfg.ngnRateFor row.2.1)

inductive RateRequest where
  | board
  | rateOf (asset : String)

inductive RateAnswer (F : Type) where
  | board (answer : Except RateError (RateBoard F))
  | rateOf (answer : Option ℚ)

def rateProgram (cfg : RatesConfig F) : RateRequest → RateProg F (RateAnswer F)
  | .board => do
      let answer ← rateBoard cfg
      pure (.board answer)
  | .rateOf asset => do
      let answer ← ngnRateOf cfg asset
      pure (.rateOf answer)

/-- Any number of requests for rates; time passes in between.  A request remembers when it came. -/
def rating (cfg : RatesConfig F) : Machine (RateOp F) RateOp.Res (RatesOracle F) Time
    (RatesWorld F) RateRequest Time (RateAnswer F) where
  exec _ op ω w := execRates cfg op ω w
  env d w := some { w with now := w.now + d }
  program := rateProgram cfg
  stamp w := w.now

/-! ## What a quote rests on -/

/-- An answer of CoinGecko that came less than five minutes before the request, and less than thirty
seconds before it unless asking has failed since. -/
def Served (w : RatesWorld F) (born : Time) (body : GeckoBody F) (fetchedAt asOf : Time) : Prop :=
  .answered body fetchedAt asOf ∈ w.calls ∧ born < fetchedAt + staleLimit ∧
    (born < fetchedAt + ratesCacheTtl ∨ ∃ t, .failed t ∈ w.calls ∧ born ≤ t)

/-- The answer prices the asset above nothing. -/
def GeckoBody.Prices (body : GeckoBody F) (cfg : RatesConfig F) (asset : String) (price : ℚ)
    (change : Option F) : Prop :=
  ∃ id quote usd, (asset, id) ∈ coingeckoIds ∧ body id = some quote ∧ quote.usd = some usd ∧
    cfg.nonPositive usd = false ∧ cfg.fromF64 usd = some price ∧ quote.usd24hChange = change

lemma mem_usablePrices {cfg : RatesConfig F} {body : GeckoBody F} {asset : String} {price : ℚ}
    {change : Option F} :
    (asset, price, change) ∈ usablePrices cfg body ↔ body.Prices cfg asset price change := by
  unfold usablePrices GeckoBody.Prices
  rw [List.mem_filterMap]
  constructor
  · rintro ⟨⟨asset', id⟩, hid, hrow⟩
    simp only [Option.bind_eq_bind, Option.bind_eq_some_iff] at hrow
    obtain ⟨quote, hquote, usd, husd, hrow⟩ := hrow
    split at hrow
    · cases hrow
    · rename_i hpos
      obtain ⟨price', hprice, hrow⟩ := Option.bind_eq_some_iff.mp hrow
      cases hrow
      exact ⟨id, quote, usd, hid, hquote, husd, by simpa using hpos, hprice, rfl⟩
  · rintro ⟨id, quote, usd, hid, hquote, husd, hpos, hprice, rfl⟩
    exact ⟨(asset, id), hid, by simp [hquote, husd, hpos, hprice]⟩

/-- An answer prices no asset twice. -/
lemma pairwise_usablePrices (cfg : RatesConfig F) (body : GeckoBody F) :
    (usablePrices cfg body).Pairwise fun x y => x.1 ≠ y.1 := by
  have hids : coingeckoIds.Pairwise fun x y => x.1 ≠ y.1 := by decide
  have hasset : ∀ {source : String × String} {row : String × ℚ × Option F},
      (do
        let quote ← body source.2
        let usd ← quote.usd
        if cfg.nonPositive usd then none
        else
          let price ← cfg.fromF64 usd
          some (source.1, price, quote.usd24hChange)) = some row → row.1 = source.1 := by
    intro source row hrow
    simp only [Option.bind_eq_bind, Option.bind_eq_some_iff] at hrow
    obtain ⟨quote, -, usd, -, hrow⟩ := hrow
    split at hrow
    · cases hrow
    · obtain ⟨price, -, hrow⟩ := Option.bind_eq_some_iff.mp hrow
      cases hrow
      rfl
  refine List.pairwise_filterMap.mpr (hids.imp fun hne x hx y hy => ?_)
  rw [hasset hx, hasset hy]
  exact hne

/-- A board says what an answer of CoinGecko said: every asset it prices, once and at one rate per
dollar, the net rate, the highest first, but for those that come to nothing at that rate. -/
structure BoardOf (cfg : RatesConfig F) (body : GeckoBody F) (asOf : Time) (board : RateBoard F) :
    Prop where
  asOf : board.asOf = asOf
  net : board.ngnPerUsd = max (cfg.sub cfg.midNgnPerUsd cfg.spreadNgnPerUsd) 0
  rows : ∀ row, row ∈ board.assets ↔ body.Prices cfg row.asset row.usdPrice row.changePct24h ∧
    row.ngnRate = cfg.mul row.usdPrice board.ngnPerUsd ∧ 0 < row.ngnRate
  once : board.assets.Pairwise fun a b => a.asset ≠ b.asset
  sorted : board.assets.Pairwise fun a b => b.usdPrice ≤ a.usdPrice

lemma boardOf_right (cfg : RatesConfig F) (body : GeckoBody F) (asOf : Time) :
    BoardOf cfg body asOf (cfg.boardOf (usablePrices cfg body) asOf) where
  asOf := rfl
  net := rfl
  rows row := by
    rw [← mem_usablePrices]
    simp only [RatesConfig.boardOf, List.mem_mergeSort, List.mem_filter, List.mem_map,
      decide_eq_true_eq]
    constructor
    · rintro ⟨⟨x, hx, rfl⟩, hpos⟩
      refine ⟨hx, ?_, hpos⟩
      exact max_eq_left_of_lt (lt_of_not_ge fun hle => absurd hpos (by
        simp [RatesConfig.assetPrice, RatesConfig.ngnRateFor, hle]))
    · rintro ⟨hmem, hrate, hpos⟩
      refine ⟨⟨_, hmem, ?_⟩, hpos⟩
      obtain ⟨asset, usdPrice, ngnRate, change⟩ := row
      simp only at hrate hpos
      simp only [RatesConfig.assetPrice, RatesConfig.ngnRateFor, AssetPrice.mk.injEq, true_and,
        and_true]
      rw [hrate] at hpos ⊢
      exact max_eq_left hpos.le
  once := by
    have hrows : ((usablePrices cfg body).map cfg.assetPrice).Pairwise fun a b =>
        a.asset ≠ b.asset := List.pairwise_map.mpr (pairwise_usablePrices cfg body)
    exact ((List.mergeSort_perm _ _).pairwise_iff fun hne => hne.symm).mpr (hrows.filter _)
  sorted := by
    have h := @List.pairwise_mergeSort _ (fun a b : AssetPrice F => b.usdPrice ≤ a.usdPrice)
      (fun a b c hab hbc => by
        simp only [decide_eq_true_eq] at hab hbc ⊢
        exact hbc.trans hab)
      (fun a b => by simpa using le_total b.usdPrice a.usdPrice)
      (((usablePrices cfg body).map cfg.assetPrice).filter fun row => 0 < row.ngnRate)
    exact h.imp fun h => of_decide_eq_true h

/-! ## Every request is served so -/

/-- The prices are those of an answer of CoinGecko. -/
def CacheEntry.Answered (entry : CacheEntry F) (cfg : RatesConfig F) (w : RatesWorld F) : Prop :=
  ∃ body, .answered body entry.fetchedAt entry.asOf ∈ w.calls ∧ entry.usd = usablePrices cfg body

/-- The cache holds an answer of CoinGecko. -/
def RatesOk (cfg : RatesConfig F) (w : RatesWorld F) : Prop :=
  ∀ entry, w.cache = some entry → entry.Answered cfg w

/-- What is written to the cache is an answer of CoinGecko. -/
def RatesContract (cfg : RatesConfig F) (_ : ℕ) (_ : RateRequest) (_ : Time) (op : RateOp F)
    (w : RatesWorld F) : Prop :=
  match op with
  | .store entry => entry.Answered cfg w
  | _ => True

/-- Time passes, and what has been answered stays answered. -/
structure RatesLater (w w' : RatesWorld F) : Prop where
  now : w.now ≤ w'.now
  calls : w.calls ⊆ w'.calls

lemma RatesLater.refl (w : RatesWorld F) : RatesLater w w := ⟨le_rfl, fun _ h => h⟩

lemma RatesLater.trans {w w' w'' : RatesWorld F} (h : RatesLater w w') (h' : RatesLater w' w'') :
    RatesLater w w'' := ⟨h.now.trans h'.now, fun _ hc => h'.calls (h.calls hc)⟩

section Steps

variable {cfg : RatesConfig F} {w w' : RatesWorld F} {ω : RatesOracle F} {born : Time}
  {entry : CacheEntry F}

lemma CacheEntry.Answered.later (h : entry.Answered cfg w) (hR : RatesLater w w') :
    entry.Answered cfg w' := by
  obtain ⟨body, hcall, husd⟩ := h
  exact ⟨body, hR.calls hcall, husd⟩

lemma Served.later {body : GeckoBody F} {fetchedAt asOf : Time}
    (h : Served w born body fetchedAt asOf) (hR : RatesLater w w') :
    Served w' born body fetchedAt asOf := by
  obtain ⟨hcall, hstale, hfresh⟩ := h
  refine ⟨hR.calls hcall, hstale, hfresh.imp_right ?_⟩
  rintro ⟨t, ht, hle⟩
  exact ⟨t, hR.calls ht, hle⟩

/-- What is found within a limit was fetched, and not long before whoever looks came. -/
lemma RatesOk.within (h : RatesOk cfg w) (hborn : born ≤ w.now) {limit : Time}
    (hentry : w.within limit = some entry) :
    entry.Answered cfg w ∧ born < entry.fetchedAt + limit := by
  simp only [RatesWorld.within, Option.filter_eq_some_iff, decide_eq_true_eq] at hentry
  refine ⟨h entry hentry.1, ?_⟩
  have := hentry.2
  lia

lemma ratesCacheTtl_le_staleLimit : ratesCacheTtl ≤ staleLimit := by decide

lemma ratesLater_of_exec {op : RateOp F} {r : op.Res} (he : execRates cfg op ω w = some (r, w')) :
    RatesLater w w' := by
  cases op with
  | readFresh | store | readStale =>
      cases he
      exact ⟨le_rfl, fun _ h => h⟩
  | fetch =>
      simp only [execRates] at he
      split at he <;> cases he <;> exact ⟨le_rfl, fun _ h => List.mem_cons_of_mem _ h⟩

/-- An answer of CoinGecko is entered as it is stamped. -/
lemma exec_fetch {r : Except Unit (CacheEntry F)}
    (he : execRates cfg .fetch ω w = some (r, w')) :
    (∃ entry, r = .ok entry ∧ entry.Answered cfg w' ∧ entry.fetchedAt = w.now) ∨
      r = .error () ∧ .failed w.now ∈ w'.calls := by
  simp only [execRates] at he
  split at he <;> cases he
  · exact .inr ⟨rfl, List.mem_cons_self⟩
  · exact .inl ⟨_, rfl, ⟨_, List.mem_cons_self, rfl⟩, rfl⟩

lemma RatesOk.exec {tid : ℕ} {req : RateRequest} {op : RateOp F} {r : op.Res} (h : RatesOk cfg w)
    (hC : RatesContract cfg tid req born op w) (he : execRates cfg op ω w = some (r, w')) :
    RatesOk cfg w' := by
  have hlater := ratesLater_of_exec he
  cases op with
  | readFresh | readStale =>
      cases he
      exact h
  | store stored =>
      cases he
      intro entry hentry
      cases hentry
      exact hC
  | fetch =>
      have hcache : w'.cache = w.cache := by
        simp only [execRates] at he
        split at he <;> cases he <;> rfl
      exact fun entry hentry => (h entry (hcache ▸ hentry)).later hlater

end Steps

/-- What is safe in any interleaving. -/
abbrev RatesSafe (cfg : RatesConfig F) (tid : ℕ) (req : RateRequest) (born : Time) {β : Type}
    (Q : β → RatesWorld F → Prop) : RateProg F β → RatesWorld F → Prop :=
  Safe (rating cfg) (RatesOk cfg) (fun _ => RatesLater) anyOp (RatesContract cfg) tid req born Q

/-- **Whatever is served was fetched recently.** -/
lemma safe_fetchedPrices (cfg : RatesConfig F) (tid : ℕ) (req : RateRequest) {born : Time}
    {w : RatesWorld F} (hborn : born ≤ w.now) : RatesSafe cfg tid req born
      (fun r w => ∀ usd asOf, r = .ok (usd, asOf) →
        ∃ body fetchedAt, Served w born body fetchedAt asOf ∧ usd = usablePrices cfg body)
      fetchedPrices w := by
  simp only [fetchedPrices, Prog.perform_bind, Prog.pure_eq]
  intro w₁ hI₁ hR₁ ω₁ _
  refine ⟨trivial, fun fresh w₂ he₁ => ?_⟩
  obtain ⟨hfresh, rfl⟩ := Prod.mk.inj (Option.some.inj he₁)
  have hborn₁ : born ≤ w₁.now := hborn.trans hR₁.now
  rcases fresh with _ | entry
  · intro w₃ _ hR₃ ω₃ _
    refine ⟨trivial, fun answer w₄ he₃ => ?_⟩
    replace he₃ : execRates cfg .fetch ω₃ w₃ = some (answer, w₄) := he₃
    have hborn₃ : born ≤ w₃.now := hborn₁.trans hR₃.now
    rcases exec_fetch he₃ with ⟨entry, rfl, hanswered, hstamp⟩ | ⟨rfl, hfailed⟩
    · -- The request's own answer is newer than the request.
      intro w₅ _ hR₅ ω₅ _
      refine ⟨hanswered.later hR₅, fun _ w₆ he₅ => ?_⟩
      cases he₅
      intro usd asOf hr
      cases hr
      have hpos : 0 < ratesCacheTtl := by decide
      have hle := ratesCacheTtl_le_staleLimit
      obtain ⟨body, hcall, husd⟩ := hanswered.later hR₅
      exact ⟨body, _, ⟨hcall, by lia, .inl (by lia)⟩, husd⟩
    · intro w₅ hI₅ hR₅ ω₅ _
      refine ⟨trivial, fun stale w₆ he₅ => ?_⟩
      obtain ⟨hstale, rfl⟩ := Prod.mk.inj (Option.some.inj he₅)
      rcases stale with _ | entry
      · intro usd asOf hr
        cases hr
      · intro usd asOf hr
        cases hr
        have hlater := (ratesLater_of_exec he₃).now.trans hR₅.now
        obtain ⟨⟨body, hcall, husd⟩, hlimit⟩ := hI₅.within (hborn₃.trans hlater) hstale
        exact ⟨body, _, ⟨hcall, hlimit, .inr ⟨w₃.now, hR₅.calls hfailed, hborn₃⟩⟩, husd⟩
  · intro usd asOf hr
    cases hr
    obtain ⟨⟨body, hcall, husd⟩, hlimit⟩ := hI₁.within hborn₁ hfresh
    have hle := ratesCacheTtl_le_staleLimit
    exact ⟨body, _, ⟨hcall, by lia, .inl hlimit⟩, husd⟩

/-- What an answer owes to the one of CoinGecko that it was made from. -/
def QuoteRight (cfg : RatesConfig F) (req : RateRequest) (born : Time) (answer : RateAnswer F)
    (w : RatesWorld F) : Prop :=
  match req, answer with
  | .board, .board (.ok board) => ∃ body fetchedAt asOf, Served w born body fetchedAt asOf ∧
      BoardOf cfg body asOf board
  | .rateOf asset, .rateOf (some rate) => ∃ body fetchedAt asOf,
      Served w born body fetchedAt asOf ∧ ∃ price change, body.Prices cfg asset price change ∧
        rate = max (cfg.mul price (max (cfg.sub cfg.midNgnPerUsd cfg.spreadNgnPerUsd) 0)) 0
  | .board, .board (.error _) | .rateOf _, .rateOf none => True
  | _, _ => False

lemma QuoteRight.later {cfg : RatesConfig F} {req : RateRequest} {born : Time}
    {answer : RateAnswer F} {w w' : RatesWorld F} (h : QuoteRight cfg req born answer w)
    (hR : RatesLater w w') : QuoteRight cfg req born answer w' := by
  unfold QuoteRight at h ⊢
  split at h
  · obtain ⟨body, fetchedAt, asOf, hserved, hboard⟩ := h
    exact ⟨body, fetchedAt, asOf, hserved.later hR, hboard⟩
  · obtain ⟨body, fetchedAt, asOf, hserved, hrate⟩ := h
    exact ⟨body, fetchedAt, asOf, hserved.later hR, hrate⟩
  · trivial
  · trivial
  · exact h

lemma safe_rateProgram (cfg : RatesConfig F) (tid : ℕ) (req : RateRequest) {born : Time}
    {w : RatesWorld F} (hborn : born ≤ w.now) :
    RatesSafe cfg tid req born (QuoteRight cfg req born) (rateProgram cfg req) w := by
  cases req with
  | board =>
      refine Safe.bind (Q := fun r w => QuoteRight cfg .board born (.board r) w)
        (Safe.bind (safe_fetchedPrices cfg tid .board hborn) fun r w₁ hr => ?_) fun _ _ hr => hr
      rcases r with e | ⟨usd, asOf⟩
      · trivial
      · obtain ⟨body, fetchedAt, hserved, rfl⟩ := hr usd asOf rfl
        exact ⟨body, fetchedAt, asOf, hserved, boardOf_right cfg body asOf⟩
  | rateOf asset =>
      refine Safe.bind (Q := fun r w => QuoteRight cfg (.rateOf asset) born (.rateOf r) w)
        (Safe.bind (safe_fetchedPrices cfg tid (.rateOf asset) hborn) fun r w₁ hr => ?_)
        fun _ _ hr => hr
      rcases r with e | ⟨usd, asOf⟩
      · trivial
      · obtain ⟨body, fetchedAt, hserved, rfl⟩ := hr usd asOf rfl
        show QuoteRight cfg (.rateOf asset) born
          (.rateOf (((usablePrices cfg body).find? (·.1 = asset)).map
            fun row => cfg.ngnRateFor row.2.1)) w₁
        rcases hfind : (usablePrices cfg body).find? (·.1 = asset) with _ | ⟨found, price, change⟩
        · rw [hfind]
          trivial
        · rw [hfind]
          have hasset : found = asset := by simpa using List.find?_some hfind
          have hmem := List.mem_of_find?_eq_some hfind
          exact ⟨body, fetchedAt, asOf, hserved, price, change,
            mem_usablePrices.mp (hasset ▸ hmem), rfl⟩

lemma keeps_rating (cfg : RatesConfig F) :
    Keeps (rating cfg) (RatesOk cfg) (fun _ => RatesLater) anyOp (RatesContract cfg) where
  refl _ w := .refl w
  trans h h' := h.trans h'
  env {d w w'} hI h := by
    cases h
    exact ⟨hI, fun _ => ⟨Nat.le_add_right _ _, fun _ hc => hc⟩⟩
  op hI _ hC h := ⟨hI.exec hC h, fun _ _ => ratesLater_of_exec h⟩
  spawn tid req w _ := (safe_rateProgram cfg tid req le_rfl).mono fun _ _ _ => trivial

/-- **A quote is fresh.**  In every interleaving of any number of requests, however long each of
them waits anywhere: whatever a request is told comes from one answer of CoinGecko, which came less
than five minutes before the request did, and less than thirty seconds before it unless asking has
failed since; and a board has exactly the assets that this answer prices above nothing, each once
and at the same net rate per dollar, which is not negative, but for those that come to nothing at
that rate — all of them where the spread reaches the mid. -/
theorem quotes_fresh (cfg : RatesConfig F) (now : Time)
    {s : Sys (RateOp F) RateOp.Res (RatesWorld F) RateRequest Time (RateAnswer F)}
    (h : (rating cfg).Reachable unguarded (Sys.idle (.fresh now)) s) {tid : ℕ} {req : RateRequest}
    {born : Time} {answer : RateAnswer F} (ht : s.task tid = some ⟨req, born, .ret answer⟩) :
    QuoteRight cfg req born answer s.world := by
  have hanswers := (keeps_rating cfg).answers (Q := QuoteRight cfg) (fun hR hQ => hQ.later hR)
    (fun tid req w _ => safe_rateProgram cfg tid req le_rfl) (fun entry hentry => by cases hentry)
    (fun _ => rfl) (h.mono fun s a _ => onOps_anyOp s a)
  exact hanswers.2 tid req born (.ret answer) ht

end Machine

/-- Prices in whole dollars, and a margin of ten naira. -/
def wholeDollars : RatesConfig ℤ where
  midNgnPerUsd := 1530
  spreadNgnPerUsd := 10
  sub x y := x - y
  mul x y := x * y
  nonPositive usd := decide (usd ≤ 0)
  fromF64 usd := some usd

/-- Two requests ask at once, and the one that is answered first writes last.  Four minutes later
asking fails, and the older price is quoted. -/
def staleQuotes : List (Act (RatesOracle ℤ) Time RateRequest) :=
  let answer (usd : ℤ) : RatesOracle ℤ :=
    { body := some fun id => if id = "bitcoin" then some ⟨some usd, none⟩ else none }
  [.spawn 0 .board, .spawn 1 (.rateOf "BTC"), .resume 0 {}, .resume 1 {}, .resume 0 (answer 64000),
    .env (seconds 1), .resume 1 (answer 65000), .resume 1 {}, .resume 0 {}, .env (minutes 4),
    .spawn 2 (.rateOf "BTC"), .resume 2 {}, .resume 2 {}, .resume 2 {}]

/-- The rate that a finished request was told, with when it came. -/
def toldRate {F : Type}
    (s : Sys (RateOp F) RateOp.Res (RatesWorld F) RateRequest Time (RateAnswer F)) (tid : ℕ) :
    Option (String × Time × ℚ) :=
  match s.task tid with
  | some ⟨.rateOf asset, born, .ret (.rateOf (some rate))⟩ => some (asset, born, rate)
  | _ => none

lemma task_of_toldRate {F : Type}
    {s : Sys (RateOp F) RateOp.Res (RatesWorld F) RateRequest Time (RateAnswer F)} {tid : ℕ}
    {asset : String} {born : Time} {rate : ℚ} (h : toldRate s tid = some (asset, born, rate)) :
    s.task tid = some ⟨.rateOf asset, born, .ret (.rateOf (some rate))⟩ := by
  unfold toldRate at h
  split at h
  · cases h
    assumption
  · cases h

/-- What was asked for at four minutes and a second had come at the start. -/
theorem quotes_fresh_stale : ∃ w : RatesWorld ℤ,
    QuoteRight wholeDollars (.rateOf "BTC") (seconds 241) (.rateOf (some 97280000)) w := by
  obtain ⟨s, hreach, htold⟩ := exists_reachable_of_run (rating wholeDollars) unguarded
    (Sys.idle (.fresh 0)) staleQuotes
    (fun s => toldRate s 2 = some ("BTC", seconds 241, 97280000)) (by decide +kernel)
  exact ⟨s.world, quotes_fresh wholeDollars 0 hreach (task_of_toldRate htold)⟩

end Naivolt
