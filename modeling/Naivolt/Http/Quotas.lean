import Naivolt.Core
import Naivolt.Foundation.Delimited

/-!
# Quotas and routes

`boundary.rs` chooses the rate limiters of a request from its method and its path, before the
router has seen it: `bucket` is a list of comparisons that repeats part of the route table.
This module puts the table beside it (`routes`, `dispatch`) and says for every method and every
path whether the two agree.

They disagree on one spelling.  A route registered for `GET` answers `HEAD` as well, and `bucket`
asks for `GET`: `quota_follows_router_iff` says that a request which reaches a handler with a quota
of its own is counted under it exactly when its method is not `HEAD`.  `head_polls_order` polls an
order, which asks the supplier, under the quota of everything else.

A path is compared through its pieces between slashes, `pieces`; the section on them turns the
string tests of `bucket` into statements about lists of pieces.
-/

namespace Naivolt

open Foundation

/-! ## Requests -/

/-- `http::Method`. -/
inductive HttpMethod where
  | get | post | put | patch | delete | head | options
  | other (name : String)
  deriving DecidableEq

/-- The raw path between its slashes. -/
def pieces (path : String) : List (List Char) := path.toList.splitOn '/'

/-- `str::starts_with`. -/
def startsWith (s p : String) : Bool := p.toList.isPrefixOf s.toList

/-- `str::ends_with`. -/
def endsWith (s p : String) : Bool := p.toList.isSuffixOf s.toList

/-- `str::strip_prefix`. -/
def stripPrefix (s p : String) : Option (List Char) :=
  if startsWith s p then some (s.toList.drop p.toList.length) else none

/-! ## The limiters -/

/-- The fields of `Limiters`. -/
inductive Limiter where
  | globalIp | authIp | publicReadIp | fundingIp | fundingUser | purchaseIp | purchaseUser
  | pollIp | pollUser | cancelIp | cancelUser
  deriving DecidableEq, Repr

/-- A limiter for the address of a request, and one for its user. -/
abbrev Quota := Limiter × Option Limiter

/-- `is_order_detail`. -/
def isOrderDetail (path : String) : Bool :=
  match stripPrefix path "/api/v1/numbers/orders/" with
  | none => false
  | some rest => !rest.isEmpty && !rest.contains '/'

/-- `bucket`. -/
def bucket (method : HttpMethod) (path : String) : Quota :=
  if method = .post ∧ startsWith path "/api/v1/auth/" then (.authIp, none)
  else if method = .get ∧ (path = "/api/v1/numbers/catalog" ∨ path = "/api/v1/numbers/offers" ∨
      path = "/api/v1/numbers/products" ∨ startsWith path "/api/v1/numbers/products/" ∨
      path = "/api/v1/rates") then (.publicReadIp, none)
  else if method = .post ∧ path = "/api/v1/funding/intents" then (.fundingIp, some .fundingUser)
  else if method = .post ∧ path = "/api/v1/numbers/orders" then (.purchaseIp, some .purchaseUser)
  else if method = .get ∧ (path = "/api/v1/numbers/orders" ∨ isOrderDetail path) then
    (.pollIp, some .pollUser)
  else if method = .post ∧ startsWith path "/api/v1/numbers/orders/" ∧
      endsWith path "/cancel" then (.cancelIp, some .cancelUser)
  else (.globalIp, none)

/-- The limiters `rate_limit` enforces; it lets preflights and the health check pass. -/
def enforced (method : HttpMethod) (path : String) : Option Quota :=
  if method = .options ∨ path = "/health" then none else some (bucket method path)

/-! ## The router -/

/-- The handlers. -/
inductive Handles where
  | health
  | requestOtp | verifyOtp | googleSignIn | refresh | logout | unlock
  | me | updateMe | setPin | portfolio | wallets | depositAddress | limits
  | rates
  | banks | resolveBank | listAccounts | addAccount | removeAccount
  | createPayout
  | listActivity | activityDetail
  | giftBrands | submitGiftCard | registerPushToken
  | catalog | listOffers | products | productCountries | createOrder | listOrders | getOrder
  | cancelOrder
  | createIntent | listIntents | getIntent
  | kycStatus | submitKyc
  | adminOverview | putSellSettings | adminActivity | adminOrders | adminOrder | recheckOrder
  | refundOrder | adminMe | enrollOperator | createSession | deleteSession | listMembers
  | inviteMember | revokeMember
  deriving DecidableEq

/-- A segment of a route: written out, or captured. -/
inductive Segment where
  | lit (s : String)
  | param
  deriving DecidableEq

/-- The segments match the pieces of a path.  The captured last segment of a path is not empty;
whether one before it may be is left to the router, and let through here. -/
def matchSegments : List Segment → List (List Char) → Bool
  | [], [] => true
  | [.param], [p] => p ≠ []
  | .lit s :: segments, p :: ps => p = s.toList && matchSegments segments ps
  | .param :: segments, _ :: ps => matchSegments segments ps
  | _, _ => false

/-- A path and the handlers registered for its methods. -/
abbrev Route := List Segment × List (HttpMethod × Handles)

/-- `auth_routes`. -/
def authRoutes : List Route :=
  [([.lit "auth", .lit "otp", .lit "request"], [(.post, .requestOtp)]),
    ([.lit "auth", .lit "otp", .lit "verify"], [(.post, .verifyOtp)]),
    ([.lit "auth", .lit "google"], [(.post, .googleSignIn)]),
    ([.lit "auth", .lit "refresh"], [(.post, .refresh)]),
    ([.lit "auth", .lit "logout"], [(.post, .logout)]),
    ([.lit "auth", .lit "unlock"], [(.post, .unlock)])]

/-- `user_routes`. -/
def userRoutes : List Route :=
  [([.lit "me"], [(.get, .me), (.patch, .updateMe)]),
    ([.lit "auth", .lit "pin"], [(.post, .setPin)]),
    ([.lit "portfolio"], [(.get, .portfolio)]),
    ([.lit "wallets"], [(.get, .wallets)]),
    ([.lit "wallets", .lit "deposit-address"], [(.get, .depositAddress)]),
    ([.lit "limits"], [(.get, .limits)])]

/-- `rate_routes`, `bank_routes`, `payout_routes`, `activity_routes`, `giftcard_routes` and
`kyc_routes`. -/
def accountRoutes : List Route :=
  [([.lit "rates"], [(.get, .rates)]),
    ([.lit "banks"], [(.get, .banks)]),
    ([.lit "banks", .lit "resolve"], [(.get, .resolveBank)]),
    ([.lit "bank-accounts"], [(.get, .listAccounts), (.post, .addAccount)]),
    ([.lit "bank-accounts", .param], [(.delete, .removeAccount)]),
    ([.lit "payouts"], [(.post, .createPayout)]),
    ([.lit "activity"], [(.get, .listActivity)]),
    ([.lit "activity", .param], [(.get, .activityDetail)]),
    ([.lit "gift-cards", .lit "brands"], [(.get, .giftBrands)]),
    ([.lit "gift-cards", .lit "submissions"], [(.post, .submitGiftCard)]),
    ([.lit "devices", .lit "push-token"], [(.post, .registerPushToken)]),
    ([.lit "kyc"], [(.get, .kycStatus), (.post, .submitKyc)])]

/-- `number_routes`. -/
def numberRoutes : List Route :=
  [([.lit "numbers", .lit "catalog"], [(.get, .catalog)]),
    ([.lit "numbers", .lit "offers"], [(.get, .listOffers)]),
    ([.lit "numbers", .lit "products"], [(.get, .products)]),
    ([.lit "numbers", .lit "products", .param, .lit "countries"], [(.get, .productCountries)]),
    ([.lit "numbers", .lit "orders"], [(.post, .createOrder), (.get, .listOrders)]),
    ([.lit "numbers", .lit "orders", .param], [(.get, .getOrder)]),
    ([.lit "numbers", .lit "orders", .param, .lit "cancel"], [(.post, .cancelOrder)])]

/-- `funding_routes`. -/
def fundingRoutes : List Route :=
  [([.lit "funding", .lit "intents"], [(.post, .createIntent), (.get, .listIntents)]),
    ([.lit "funding", .lit "intents", .param], [(.get, .getIntent)])]

/-- `admin_routes`. -/
def adminRoutes : List Route :=
  [([.lit "admin", .lit "overview"], [(.get, .adminOverview)]),
    ([.lit "admin", .lit "sell-settings"], [(.put, .putSellSettings)]),
    ([.lit "admin", .lit "activity"], [(.get, .adminActivity)]),
    ([.lit "admin", .lit "orders"], [(.get, .adminOrders)]),
    ([.lit "admin", .lit "orders", .param], [(.get, .adminOrder)]),
    ([.lit "admin", .lit "orders", .param, .lit "recheck"], [(.post, .recheckOrder)]),
    ([.lit "admin", .lit "orders", .param, .lit "refund"], [(.post, .refundOrder)]),
    ([.lit "admin", .lit "me"], [(.get, .adminMe)]),
    ([.lit "admin", .lit "operators"], [(.post, .enrollOperator)]),
    ([.lit "admin", .lit "operator", .lit "session"],
      [(.post, .createSession), (.delete, .deleteSession)]),
    ([.lit "admin", .lit "members"], [(.get, .listMembers), (.post, .inviteMember)]),
    ([.lit "admin", .lit "members", .param], [(.delete, .revokeMember)])]

/-- A route below `/api/v1`. -/
def nest (r : Route) : Route := (.lit "" :: .lit "api" :: .lit "v1" :: r.1, r.2)

/-- The route table of `main`. -/
def routes : List Route :=
  ([.lit "", .lit "health"], [(.get, .health)]) ::
    (authRoutes ++ userRoutes ++ accountRoutes ++ numberRoutes ++ fundingRoutes ++
      adminRoutes).map nest

/-- The handler a route has for a method; `HEAD` is answered by the one for `GET`. -/
def handlerFor (method : HttpMethod) (methods : List (HttpMethod × Handles)) : Option Handles :=
  methods.lookup method <|> if method = .head then methods.lookup .get else none

/-- The handler the router dispatches a request to. -/
def dispatch (method : HttpMethod) (path : String) : Option Handles :=
  (routes.find? fun r => matchSegments r.1 (pieces path)).bind fun r => handlerFor method r.2

/-- The quota of a handler that has one of its own. -/
def ownQuota : Handles → Option Quota
  | .requestOtp | .verifyOtp | .googleSignIn | .refresh | .logout | .unlock | .setPin =>
      some (.authIp, none)
  | .catalog | .listOffers | .products | .productCountries | .rates => some (.publicReadIp, none)
  | .createIntent => some (.fundingIp, some .fundingUser)
  | .createOrder => some (.purchaseIp, some .purchaseUser)
  | .listOrders | .getOrder => some (.pollIp, some .pollUser)
  | .cancelOrder => some (.cancelIp, some .cancelUser)
  | _ => none

/-! ## Paths by their pieces -/

/-- The pieces go on after those of the base. -/
def goesOn (base ps : List (List Char)) : Bool :=
  base.isPrefixOf ps && decide (base.length < ps.length)

/-- The pieces of a path below `/api/v1`. -/
def below (ps : List String) : List (List Char) := ("" :: "api" :: "v1" :: ps).map String.toList

/-- `bucket`, as a function of the pieces. -/
def bucketOfPieces (method : HttpMethod) (ps : List (List Char)) : Quota :=
  if method = .post ∧ goesOn (below ["auth"]) ps then (.authIp, none)
  else if method = .get ∧ (ps = below ["numbers", "catalog"] ∨ ps = below ["numbers", "offers"] ∨
      ps = below ["numbers", "products"] ∨ goesOn (below ["numbers", "products"]) ps ∨
      ps = below ["rates"]) then (.publicReadIp, none)
  else if method = .post ∧ ps = below ["funding", "intents"] then
    (.fundingIp, some .fundingUser)
  else if method = .post ∧ ps = below ["numbers", "orders"] then
    (.purchaseIp, some .purchaseUser)
  else if method = .get ∧ (ps = below ["numbers", "orders"] ∨
      goesOn (below ["numbers", "orders"]) ps ∧ ps.length = 6 ∧ ps.getLast? ≠ some []) then
    (.pollIp, some .pollUser)
  else if method = .post ∧ goesOn (below ["numbers", "orders"]) ps ∧
      ps.getLast? = some "cancel".toList then (.cancelIp, some .cancelUser)
  else (.globalIp, none)

section Pieces

variable (path : String)

lemma goesOn_iff {base ps : List (List Char)} :
    goesOn base ps = true ↔ ∃ rest, rest ≠ [] ∧ ps = base ++ rest := by
  simp only [goesOn, Bool.and_eq_true, List.isPrefixOf_iff_prefix, decide_eq_true_eq]
  constructor
  · rintro ⟨⟨rest, rfl⟩, hlen⟩
    refine ⟨rest, ?_, rfl⟩
    rintro rfl
    simp at hlen
  · rintro ⟨rest, hrest, rfl⟩
    exact ⟨⟨rest, rfl⟩, by simpa using List.length_pos_iff.mpr hrest⟩

lemma eq_iff_pieces {t : String} : path = t ↔ pieces path = pieces t := by
  rw [pieces, pieces, Delimited.splitOn_inj, String.toList_inj]

lemma startsWith_iff {p q : String} (hq : q.toList = p.toList ++ ['/']) :
    startsWith path q = true ↔ goesOn (pieces p) (pieces path) = true := by
  rw [startsWith, List.isPrefixOf_iff_prefix, hq, Delimited.prefix_iff_pieces, goesOn_iff]
  rfl

/-- The path has more than one piece, and this one is the last. -/
lemma endsWith_iff {p q : String} (hq : q.toList = '/' :: p.toList) (hp : '/' ∉ p.toList) :
    endsWith path q = true ↔ ∃ front, front ≠ [] ∧ pieces path = front ++ [p.toList] := by
  rw [endsWith, List.isSuffixOf_iff_suffix, hq, Delimited.suffix_iff_pieces hp]
  rfl

/-- The path is one piece below the orders, and not an empty one. -/
lemma isOrderDetail_iff : isOrderDetail path = true ↔
    ∃ id, id ≠ [] ∧ pieces path = pieces "/api/v1/numbers/orders" ++ [id] := by
  have hq : "/api/v1/numbers/orders/".toList = "/api/v1/numbers/orders".toList ++ ['/'] := rfl
  unfold isOrderDetail stripPrefix
  split
  · rename_i hnone
    have hno : ¬ startsWith path "/api/v1/numbers/orders/" = true := by
      intro hstart
      simp [hstart] at hnone
    simp only [Bool.false_eq_true, false_iff]
    rintro ⟨id, -, h⟩
    exact hno ((startsWith_iff path hq).mpr (goesOn_iff.mpr ⟨[id], List.cons_ne_nil _ _, h⟩))
  · rename_i rest hsome
    split at hsome
    · rename_i hstart
      cases hsome
      obtain ⟨t, ht⟩ := List.isPrefixOf_iff_prefix.mp hstart
      rw [← ht, List.drop_left]
      simp only [Bool.and_eq_true, Bool.not_eq_true', List.isEmpty_eq_false_iff,
        List.contains_eq_mem, decide_eq_false_iff_not]
      have hpath : path.toList = "/api/v1/numbers/orders".toList ++ '/' :: t := by
        rw [← ht, hq, List.append_assoc]
        rfl
      constructor
      · rintro ⟨hne, hslash⟩
        exact ⟨t, hne, Delimited.last_piece_iff.mp ⟨hpath, hslash⟩⟩
      · rintro ⟨id, hne, h⟩
        obtain ⟨heq, hslash⟩ := Delimited.last_piece_iff.mpr h
        rw [hpath] at heq
        cases List.append_cancel_left heq
        exact ⟨hne, hslash⟩
    · cases hsome

/-- **`bucket` sees the pieces of a path only.** -/
lemma bucket_eq (method : HttpMethod) (path : String) :
    bucket method path = bucketOfPieces method (pieces path) := by
  have hauth : startsWith path "/api/v1/auth/" = true ↔ goesOn (below ["auth"]) (pieces path) :=
    startsWith_iff path (p := "/api/v1/auth") rfl
  have hproducts : startsWith path "/api/v1/numbers/products/" = true ↔
      goesOn (below ["numbers", "products"]) (pieces path) :=
    startsWith_iff path (p := "/api/v1/numbers/products") rfl
  have horders : startsWith path "/api/v1/numbers/orders/" = true ↔
      goesOn (below ["numbers", "orders"]) (pieces path) :=
    startsWith_iff path (p := "/api/v1/numbers/orders") rfl
  have hdetail : isOrderDetail path = true ↔ goesOn (below ["numbers", "orders"]) (pieces path) ∧
      (pieces path).length = 6 ∧ (pieces path).getLast? ≠ some [] := by
    rw [isOrderDetail_iff]
    constructor
    · rintro ⟨id, hid, h⟩
      exact ⟨goesOn_iff.mpr ⟨[id], by simp, h⟩, by rw [h]; rfl, by simpa [h] using hid⟩
    · rintro ⟨hon, hlen, hlast⟩
      obtain ⟨rest, -, h⟩ := goesOn_iff.mp hon
      rw [h, List.length_append] at hlen
      obtain ⟨id, rfl⟩ := List.length_eq_one_iff.mp (Nat.add_left_cancel (n := 5) hlen)
      exact ⟨id, by simpa [h] using hlast, h⟩
  have hcancel : (startsWith path "/api/v1/numbers/orders/" = true ∧
      endsWith path "/cancel" = true) ↔ (goesOn (below ["numbers", "orders"]) (pieces path) ∧
        (pieces path).getLast? = some "cancel".toList) := by
    rw [horders]
    refine and_congr_right fun hon => ?_
    rw [endsWith_iff path (p := "cancel") rfl (by decide)]
    constructor
    · rintro ⟨front, -, h⟩
      simp [h]
    · intro hlast
      obtain ⟨rest, -, h⟩ := goesOn_iff.mp hon
      obtain ⟨front, hfront⟩ := List.getLast?_eq_some_iff.mp hlast
      refine ⟨front, ?_, hfront⟩
      rintro rfl
      simpa [below] using (congrArg List.length (h.symm.trans hfront))
  have hpath : ∀ ps t, pieces t = below ps → (path = t ↔ pieces path = below ps) :=
    fun ps t h => h ▸ eq_iff_pieces path
  unfold bucket bucketOfPieces
  simp only [hauth, hproducts, hcancel, hdetail,
    hpath ["numbers", "catalog"] "/api/v1/numbers/catalog" rfl,
    hpath ["numbers", "offers"] "/api/v1/numbers/offers" rfl,
    hpath ["numbers", "products"] "/api/v1/numbers/products" rfl,
    hpath ["rates"] "/api/v1/rates" rfl,
    hpath ["funding", "intents"] "/api/v1/funding/intents" rfl,
    hpath ["numbers", "orders"] "/api/v1/numbers/orders" rfl]

end Pieces

/-! ## Routes by their pieces -/

/-- A route without captures matches one path. -/
lemma matchSegments_literal (texts : List String) {ps : List (List Char)} :
    matchSegments (texts.map .lit) ps = true ↔ ps = texts.map String.toList := by
  induction texts generalizing ps with
  | nil => cases ps <;> simp [matchSegments]
  | cons s texts ih => cases ps <;> simp [matchSegments, ih]

lemma matchSegments_lit {s : String} {segments : List Segment} {ps : List (List Char)} :
    matchSegments (.lit s :: segments) ps = true ↔
      ∃ rest, ps = s.toList :: rest ∧ matchSegments segments rest = true := by
  cases ps <;> simp [matchSegments]

lemma matchSegments_last {ps : List (List Char)} :
    matchSegments [.param] ps = true ↔ ∃ p, p ≠ [] ∧ ps = [p] := by
  rcases ps with _ | ⟨p, _ | ⟨p', ps⟩⟩ <;> simp [matchSegments]

lemma matchSegments_param {s : Segment} {segments : List Segment} {ps : List (List Char)} :
    matchSegments (.param :: s :: segments) ps = true ↔
      ∃ p rest, ps = p :: rest ∧ matchSegments (s :: segments) rest = true := by
  cases ps <;> simp [matchSegments]

/-- The text of a segment that is written out. -/
def Segment.text : Segment → Option String
  | .lit s => some s
  | .param => none

/-! ## The table and the match -/

/-- A method and the pattern of a path, with the quota of their handler. -/
abbrev QuotaRow := HttpMethod × List Segment × Quota

/-- The handlers with a quota of their own. -/
def quotaTable : List QuotaRow :=
  routes.flatMap fun r => r.2.filterMap fun x => (ownQuota x.2).map fun q => (x.1, r.1, q)

/-- `bucket` gives the row's quota to every path of its pattern. -/
def Followed (row : QuotaRow) : Prop :=
  ∀ ps, matchSegments row.2.1 ps = true → bucketOfPieces row.1 ps = row.2.2

/-- A row without captures is followed if its one path is. -/
lemma followed_of_literal {row : QuotaRow} {texts : List String} (hrow : row.2.1 = texts.map .lit)
    (h : bucketOfPieces row.1 (texts.map String.toList) = row.2.2) : Followed row := by
  intro ps hps
  rw [hrow, matchSegments_literal] at hps
  rw [hps, h]

/-- `GET /api/v1/numbers/orders/:id`. -/
def orderRow : QuotaRow :=
  (.get, [.lit "", .lit "api", .lit "v1", .lit "numbers", .lit "orders", .param],
    (.pollIp, some .pollUser))

/-- `POST /api/v1/numbers/orders/:id/cancel`. -/
def cancelRow : QuotaRow :=
  (.post, [.lit "", .lit "api", .lit "v1", .lit "numbers", .lit "orders", .param, .lit "cancel"],
    (.cancelIp, some .cancelUser))

/-- `GET /api/v1/numbers/products/:slug/countries`. -/
def countriesRow : QuotaRow :=
  (.get, [.lit "", .lit "api", .lit "v1", .lit "numbers", .lit "products", .param,
    .lit "countries"], (.publicReadIp, none))

lemma followed_order : Followed orderRow := by
  intro ps hps
  simp only [orderRow, matchSegments_lit, matchSegments_last] at hps
  obtain ⟨_, rfl, _, rfl, _, rfl, _, rfl, _, rfl, id, hid, rfl⟩ := hps
  simp [bucketOfPieces, orderRow, goesOn, below, hid]

lemma followed_cancel : Followed cancelRow := by
  intro ps hps
  simp only [cancelRow, matchSegments_lit, matchSegments_param] at hps
  obtain ⟨_, rfl, _, rfl, _, rfl, _, rfl, _, rfl, id, _, rfl, _, rfl, hend⟩ := hps
  obtain rfl := (matchSegments_literal []).mp hend
  simp [bucketOfPieces, cancelRow, goesOn, below]

lemma followed_countries : Followed countriesRow := by
  intro ps hps
  simp only [countriesRow, matchSegments_lit, matchSegments_param] at hps
  obtain ⟨_, rfl, _, rfl, _, rfl, _, rfl, _, rfl, id, _, rfl, _, rfl, hend⟩ := hps
  obtain rfl := (matchSegments_literal []).mp hend
  simp [bucketOfPieces, countriesRow, goesOn, below]

/-- **The hand-written match repeats the route table.** -/
lemma followed_of_mem {row : QuotaRow} (h : row ∈ quotaTable) : Followed row := by
  have hcases : ∀ row ∈ quotaTable, row = orderRow ∨ row = cancelRow ∨ row = countriesRow ∨
      (row.2.1 = (row.2.1.filterMap Segment.text).map .lit ∧
        bucketOfPieces row.1 ((row.2.1.filterMap Segment.text).map String.toList) = row.2.2) := by
    decide +kernel
  rcases hcases row h with rfl | rfl | rfl | ⟨hrow, hpath⟩
  · exact followed_order
  · exact followed_cancel
  · exact followed_countries
  · exact followed_of_literal hrow hpath

/-! ## Every request -/

/-- A request that is dispatched to a handler with a quota of its own matches a row of the table:
for its own method, or for `GET` if that is `HEAD`. -/
lemma row_of_dispatch {method : HttpMethod} {path : String} {handler : Handles} {q : Quota}
    (h : dispatch method path = some handler) (hq : ownQuota handler = some q) :
    ∃ row ∈ quotaTable, row.2.2 = q ∧ matchSegments row.2.1 (pieces path) = true ∧
      (row.1 = method ∨ method = .head) := by
  obtain ⟨r, hr, hhandler⟩ := Option.bind_eq_some_iff.mp h
  have hmem := List.mem_of_find?_eq_some hr
  have hmatch : matchSegments r.1 (pieces path) = true :=
    List.find?_some (p := fun r : Route => matchSegments r.1 (pieces path)) hr
  have hlisted : ∀ m, r.2.lookup m = some handler →
      ((m, r.1, q) : QuotaRow) ∈ quotaTable := by
    intro m hm
    refine List.mem_flatMap.mpr ⟨r, hmem, List.mem_filterMap.mpr ⟨(m, handler), ?_, by simp [hq]⟩⟩
    obtain ⟨l₁, l₂, heq, -⟩ := List.lookup_eq_some_iff.mp hm
    rw [heq]
    simp
  unfold handlerFor at hhandler
  rcases hown : r.2.lookup method with _ | found
  · rw [hown] at hhandler
    simp only [Option.orElse_eq_orElse, Option.orElse] at hhandler
    split at hhandler
    · rename_i hhead
      exact ⟨_, hlisted .get hhandler, rfl, hmatch, .inr hhead⟩
    · cases hhandler
  · rw [hown] at hhandler
    cases hhandler
    exact ⟨_, hlisted method hown, rfl, hmatch, .inl rfl⟩

/-- What the rows have in common. -/
lemma row_facts : ∀ row ∈ quotaTable, (row.1 = .get ∨ row.1 = .post) ∧
    row.2.2 ≠ (.globalIp, none) ∧ matchSegments row.2.1 (pieces "/health") = false := by
  decide +kernel

/-- **Quotas follow the router exactly off `HEAD`.**  A request of any method and any path that the
router dispatches to a handler with a quota of its own is counted under that quota exactly when
its method is not `HEAD`. -/
theorem quota_follows_router_iff {method : HttpMethod} {path : String} {handler : Handles}
    {q : Quota} (h : dispatch method path = some handler) (hq : ownQuota handler = some q) :
    enforced method path = some q ↔ method ≠ .head := by
  obtain ⟨row, hrow, rfl, hmatch, hmethod⟩ := row_of_dispatch h hq
  obtain ⟨hlisted, hown, hhealth⟩ := row_facts row hrow
  have hpath : path ≠ "/health" := by
    rintro rfl
    cases hmatch.symm.trans hhealth
  unfold enforced
  rcases hmethod with rfl | rfl
  · have hoff : row.1 ≠ .options ∧ row.1 ≠ .head := by
      rcases hlisted with hget | hpost
      · simp [hget]
      · simp [hpost]
    simp [hoff.1, hoff.2, hpath, bucket_eq, followed_of_mem hrow _ hmatch]
  · simp [hpath, bucket, hown.symm]

/-- Polling an order. -/
theorem quota_follows_router_get :
    enforced .get "/api/v1/numbers/orders/7" = some (.pollIp, some .pollUser) :=
  (quota_follows_router_iff (show dispatch .get "/api/v1/numbers/orders/7" = some .getOrder by
    decide +kernel) rfl).mpr (by decide)

/-- `HEAD` polls an order, which asks the supplier, and is counted with everything else. -/
theorem head_polls_order :
    ¬ ∀ (method : HttpMethod) (path : String) (handler : Handles) (q : Quota),
      dispatch method path = some handler → ownQuota handler = some q →
        enforced method path = some q := by
  intro h
  have hpoll := h .head "/api/v1/numbers/orders/7" .getOrder (.pollIp, some .pollUser)
    (by decide +kernel) rfl
  revert hpoll
  decide +kernel

end Naivolt
