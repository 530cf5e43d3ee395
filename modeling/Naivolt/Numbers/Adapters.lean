import Naivolt.Numbers.BuyLoop
import Naivolt.Numbers.Purchasing
import Naivolt.Numbers.Wire

/-!
# How a purchase answer is classified

The purchase calls of the three adapters: 5SIM (`fiveSimPurchase`), SMSPool (`smspoolBuy`) and the
`handler_api.php` suppliers (`activateBuy`).  Each turns the end of an exchange into one of the
`BuyAnswer`s the buy loop branches on.

An answer under which the supplier may have sold a number (`MayHaveSold`) must not be taken for a
refusal, since the loop then buys elsewhere.  `Conservative` says so of one exchange, and
`WellRead` says for which exchanges the adapters keep to it.  They do not on all: SMSPool looks
for words in the body of a server error before it looks at the status, and for a failure marker
before it looks for an order; an answer outside the success range is a refusal to it and to 5SIM
whatever it carries; and 5SIM takes any text that is no object or array for a refusal.
-/

namespace Naivolt

open Foundation Foundation.Machine

/-- `classify_buy_transport`: a buy that never left this host cannot have created an order. -/
def classifyBuyTransport (connecting : Bool) : BuyAnswer :=
  if connecting then .refused .buyRestored else .ambiguous

/-! ## 5SIM -/

/-- The refusals 5SIM's sentences name. -/
def namedRefusal (text : String) : Option BuyRefusal :=
  if containsText text "no free phones" || containsText text "no product" then some .outOfStock
  else if containsText text "not enough user balance" then some .sourceUnavailable
  else none

/-- A body that is a sentence rather than a JSON object or array. -/
def isPlain (body : String) : Bool :=
  match (trimText body).toList.head? with
  | none => false
  | some c => c.toNat ≠ 123 && c ≠ '['

/-- The sentence as it is searched. -/
def plainText (body : String) : String := String.ofList (lowerAscii (trimText body))

/-- `classify_fivesim_plain_body`. -/
def classifyFivesimPlainBody (body : String) : Option BuyRefusal :=
  if isPlain body then some ((namedRefusal (plainText body)).getD .buyRestored) else none

/-- The activation a success answer of 5SIM is read as. -/
def fiveSimActivation (p : Parsers) (currency : Option String) (body : String) :
    Option Activation :=
  ((p.document body).bind (FiveSimReply.read p)).bind fun reply =>
    activationFromOrder reply.order currency

/-- `FiveSimProvider::purchase`.  After `unreadable` the recent orders are looked through. -/
def fiveSimPurchase (p : Parsers) (currency : Option String) : Exchange → BuyAnswer
  | .failed connecting => classifyBuyTransport connecting
  | .answered _ none => .ambiguous
  | .answered status (some bytes) =>
      let body := p.text bytes
      if !isSuccess status then
        if isServerError status then .ambiguous
        else .refused ((namedRefusal body).getD .buyRestored)
      else match classifyFivesimPlainBody body with
        | some r => .refused r
        | none =>
          match fiveSimActivation p currency body with
          | some a => .bought a
          | none => .unreadable

/-! ## SMSPool -/

/-- `json_success_zero`. -/
def jsonSuccessZero (v : Json) : Bool :=
  match v.get? "success" with
  | some (.bool b) => !b
  | some (.number n) => n.int = some 0 || n.zero
  | some (.string s) => trimText s = "0" || eqIgnoreAsciiCase s "false"
  | _ => false

/-- The upper-cased `type` of a JSON answer. -/
def smspoolKind (v : Json) : String := upperAscii ((v.get? "type").getD .null).key

/-- The words by which `classify_smspool_failure` tells an empty shelf. -/
def namesStock (kind lower : String) : Bool :=
  kind = "OUT_OF_STOCK" || containsText lower "out_of_stock" || containsText lower "out of stock" ||
    containsText lower "available" ||
    (containsText lower "stock" && !containsText lower "balance")

/-- The words by which it tells that our balance is short. -/
def namesMoney (kind lower : String) : Bool :=
  kind = "BALANCE_ERROR" || containsText lower "balance" || containsText lower "funds" ||
    containsText lower "no money"

/-- `classify_smspool_failure`. -/
def classifySmspoolFailure (serverError : Bool) (body : String) (json : Option Json) : BuyAnswer :=
  let lower := String.ofList (lowerAscii body)
  let kind := (json.map smspoolKind).getD ""
  if namesStock kind lower then .refused .outOfStock
  else if namesMoney kind lower then .refused .sourceUnavailable
  else if serverError then .ambiguous
  else .refused .buyRestored

/-- A JSON answer of SMSPool says that it failed. -/
def marksFailure (v : Json) : Bool := jsonSuccessZero v || smspoolKind v ≠ ""

/-- `smspool_error_from_json`. -/
def smspoolErrorFromJson (v : Json) : Option BuyAnswer :=
  if marksFailure v then
    let message := ((v.get? "message").getD .null).key
    some (classifySmspoolFailure false (smspoolKind v ++ " " ++ message) (some v))
  else none

/-- `SmsPoolOrder`. -/
structure SmsPoolOrder where
  orderid : Option String
  orderId : Option String
  phonenumber : Option String
  number : Option String
  cost : Option ℚ
  price : Option ℚ

/-- A field of type `Option<Decimal>`. -/
def amountField (p : Parsers) (v : Option Json) : Option (Option ℚ) :=
  match Json.optValueField v with
  | none => some none
  | some v => (p.amount v).map some

/-- `SmsPoolOrder`'s `Deserialize`. -/
def SmsPoolOrder.read (p : Parsers) (v : Json) : Option SmsPoolOrder :=
  match v.fields ["orderid", "order_id", "phonenumber", "number", "cost", "price"] with
  | some [orderid, orderId, phonenumber, number, cost, price] => do
      return ⟨← Json.optTextField orderid, ← Json.optTextField orderId,
        ← Json.optTextField phonenumber, ← Json.optTextField number,
        ← amountField p cost, ← amountField p price⟩
  | _ => none

/-- The activation an order of SMSPool is taken for. -/
def SmsPoolOrder.activation (now : Time) (currency : Option String) (o : SmsPoolOrder) :
    Option Activation :=
  ((o.orderid.or o.orderId).filter (· ≠ "")).bind fun id =>
  let phone := (o.phonenumber.or o.number).getD ""
  if phone = "" then none
  else some ⟨id, phone, o.cost.or o.price, currency, some (now + minutes 20), .smspool⟩

/-- The activation a JSON answer of SMSPool is read as. -/
def smspoolActivation (p : Parsers) (now : Time) (currency : Option String) (v : Json) :
    Option Activation :=
  (SmsPoolOrder.read p v).bind (SmsPoolOrder.activation now currency)

/-- `SmsPoolProvider::buy`. -/
def smspoolBuy (p : Parsers) (now : Time) (currency : Option String) : Exchange → BuyAnswer
  | .failed connecting => classifyBuyTransport connecting
  | .answered status body =>
      if !isSuccess status then
        -- `response.text().await.unwrap_or_default()`
        classifySmspoolFailure (isServerError status) ((body.map p.text).getD "") none
      else match body.bind p.json with
        | none => .ambiguous
        | some v =>
          match smspoolErrorFromJson v with
          | some answer => answer
          | none =>
            match smspoolActivation p now currency v with
            | some a => .bought a
            | none => .ambiguous

/-! ## The `handler_api.php` suppliers -/

/-- `classify_activate_error`, none when the token is not a known refusal. -/
def activateRefusal (token : String) : Option BuyRefusal :=
  let upper := upperAscii (trimText token)
  if upper ∈ ["NO_NUMBERS", "NO_NUMBER"] then some .outOfStock
  else if upper ∈ ["NO_BALANCE", "NO_MONEY", "NO_BALANCE_FORWARD"] then some .sourceUnavailable
  else if upper ∈ ["BAD_KEY", "BAD_ACTION", "BAD_SERVICE", "WRONG_SERVICE", "WRONG_COUNTRY",
      "BAD_STATUS", "ERROR_NO_KEY", "WRONG_MAX_PRICE", "ACCOUNT_INACTIVE"] then
    some .sourceUnavailable
  else none

/-- What follows `ACCESS_NUMBER:`. -/
def accessNumber (body : String) : Option (List Char) :=
  let key := "ACCESS_NUMBER:".toList
  let trimmed := (trimText body).toList
  if key <+: trimmed then some (trimmed.drop key.length) else none

/-- `id:phone`, both trimmed. -/
def idAndPhone (rest : List Char) : String × String :=
  match splitOnce ':' rest with
  | some (id, phone) => (trimText (String.ofList id), trimText (String.ofList phone))
  | none => (trimText (String.ofList rest), "")

/-- `normalise_phone`: these suppliers return bare digits. -/
def normalisePhone (raw : String) : String :=
  let digits := raw.toList.filter Char.isDigit
  if digits = [] then raw else String.ofList ('+' :: digits)

/-- `parse_buy`. -/
def parseBuy (flavor : ActivateFlavor) (currency : Option String) (body : String) : BuyAnswer :=
  match accessNumber body with
  | some rest =>
      let (id, phone) := idAndPhone rest
      if id = "" || phone = "" then .ambiguous
      else .bought ⟨id, normalisePhone phone, none, currency, none, .activate flavor⟩
  | none =>
      match activateRefusal (trimText body) with
      | some r => .refused r
      | none => .ambiguous

/-- `ActivateProvider::buy`. -/
def activateBuy (p : Parsers) (flavor : ActivateFlavor) (currency : Option String) :
    Exchange → BuyAnswer
  | .failed connecting => classifyBuyTransport connecting
  | .answered status body =>
      if isErrorStatus status then .ambiguous
      else match body with
        | none => .ambiguous
        | some bytes => parseBuy flavor currency (p.text bytes)

/-- The member is a non-empty text or a number. -/
def hasKey (v : Json) (name : String) : Bool := (v.get? name).any fun m => m.key ≠ ""

/-! ## The three together -/

section Answers

variable (p : Parsers) (now : Time) (currency : Supplier → Option String)

/-- What the adapter of a supplier makes of an exchange.  `currency` is the unit configured for
it. -/
def buyAnswer : Supplier → Exchange → BuyAnswer
  | .primary => fiveSimPurchase p (currency .primary)
  | .smspool => smspoolBuy p now (currency .smspool)
  | .activate f => activateBuy p f (currency (.activate f))

/-! ## Answers under which a number may have been sold -/

/-- The JSON an adapter reads in a body. -/
def readJson : Supplier → List UInt8 → Option Json
  | .smspool, bytes => p.json bytes
  | _, bytes => p.document (p.text bytes)

/-- The activation an adapter reads in a body. -/
def readActivation (s : Supplier) (bytes : List UInt8) : Option Activation :=
  match s with
  | .primary => fiveSimActivation p (currency s) (p.text bytes)
  | .smspool => (p.json bytes).bind (smspoolActivation p now (currency s))
  | .activate f =>
      match parseBuy f (currency s) (p.text bytes) with
      | .bought a => some a
      | _ => none

/-- The supplier says that it refuses. -/
def saysRefused : Supplier → List UInt8 → Bool
  | .primary, bytes =>
      isPlain (p.text bytes) && (namedRefusal (plainText (p.text bytes))).isSome
  | .smspool, bytes => (p.json bytes).any marksFailure
  | .activate _, bytes => (activateRefusal (trimText (p.text bytes))).isSome

/-- The body carries a non-empty order id and phone. -/
def carriesOrder : Supplier → List UInt8 → Bool
  | .primary, bytes => (p.document (p.text bytes)).any fun v => hasKey v "id" && hasKey v "phone"
  | .smspool, bytes => (p.json bytes).any fun v =>
      (hasKey v "orderid" || hasKey v "order_id") && (hasKey v "phonenumber" || hasKey v "number")
  | .activate _, bytes => (accessNumber (p.text bytes)).any fun rest =>
      (idAndPhone rest).1 ≠ "" && (idAndPhone rest).2 ≠ ""

namespace Exchange

/-- A 5xx answer. -/
def IsServerError : Exchange → Prop
  | .answered status _ => isServerError status = true
  | .failed _ => False

/-- The connection was established and the exchange failed afterwards. -/
def BrokeOff : Exchange → Prop
  | .failed connecting => connecting = false
  | .answered _ body => body = none

/-- A success answer in JSON that is neither an activation nor a refusal. -/
def Silent (s : Supplier) : Exchange → Prop
  | .answered status (some bytes) =>
      isSuccess status = true ∧ readJson p s bytes ≠ none ∧
        readActivation p now currency s bytes = none ∧ saysRefused p s bytes = false
  | _ => False

/-- An answer with an order in it. -/
def Carries (s : Supplier) : Exchange → Prop
  | .answered _ (some bytes) => carriesOrder p s bytes = true
  | _ => False

/-- The supplier may have sold us a number. -/
def MayHaveSold (s : Supplier) (x : Exchange) : Prop :=
  x.IsServerError ∨ x.BrokeOff ∨ x.Silent p now currency s ∨ x.Carries p s

end Exchange

/-- The adapter of `s` classifies the exchange conservatively.  After `unreadable` 5SIM's recent
orders are looked through, and the purchase is ambiguous unless one of them is ours
(`fivesimPurchase`). -/
structure Conservative (s : Supplier) (x : Exchange) : Prop where
  serverError : x.IsServerError → buyAnswer p now currency s x = .ambiguous
  brokeOff : x.BrokeOff → buyAnswer p now currency s x = .ambiguous
  silent : x.Silent p now currency s → buyAnswer p now currency s x = .ambiguous ∨
    buyAnswer p now currency s x = .unreadable
  carries : x.Carries p s → ∀ r, buyAnswer p now currency s x ≠ .refused r

/-- The exchanges the adapters read without loss. -/
def WellRead : Supplier → Exchange → Prop
  | .primary, .answered status (some bytes) =>
      if isSuccess status then
        isPlain (p.text bytes) = true → carriesOrder p .primary bytes = false ∧
          (saysRefused p .primary bytes = true ∨ readJson p .primary bytes = none ∨
            readActivation p now currency .primary bytes ≠ none)
      else isServerError status = false → carriesOrder p .primary bytes = false
  | .smspool, .answered status body =>
      let text := (body.map p.text).getD ""
      let lower := String.ofList (lowerAscii text)
      if isSuccess status then
        ∀ bytes, body = some bytes → saysRefused p .smspool bytes = true →
          carriesOrder p .smspool bytes = false
      else if isServerError status then
        namesStock "" lower = false ∧ namesMoney "" lower = false
      else ∃ bytes, body = some bytes ∧ carriesOrder p .smspool bytes = false
  | _, _ => True

/-! ## Each adapter -/

variable {p now currency} {x : Exchange}

/-- A purchase that never left this host is conservative. -/
lemma conservative_failed (s : Supplier) (connecting : Bool) :
    Conservative p now currency s (.failed connecting) where
  serverError h := h.elim
  brokeOff h := by
    cases h
    cases s <;> rfl
  silent h := h.elim
  carries h := h.elim

/-- The `handler_api.php` adapter takes only the refusals it knows for one. -/
lemma conservative_activate (f : ActivateFlavor) (x : Exchange) :
    Conservative p now currency (.activate f) x := by
  cases x with
  | failed connecting => exact conservative_failed _ _
  | answered status body =>
      constructor
      · intro h
        simp [buyAnswer, activateBuy, isErrorStatus_of_isServerError h]
      · rintro ⟨⟩
        simp [buyAnswer, activateBuy]
      · intro h
        cases body with
        | none => exact h.elim
        | some bytes =>
            obtain ⟨-, -, hread, hrefused⟩ := h
            left
            simp only [buyAnswer, activateBuy]
            split
            · rfl
            · simp only [readActivation] at hread
              simp only [saysRefused, Option.isSome_eq_false_iff, Option.isNone_iff_eq_none]
                at hrefused
              unfold parseBuy at hread ⊢
              split
              · rename_i rest hrest
                rw [hrest] at hread
                dsimp only at hread ⊢
                split
                · rfl
                · rename_i hne
                  simp [hne] at hread
              · rw [hrefused]
      · intro h r
        cases body with
        | none => exact h.elim
        | some bytes =>
            simp only [Exchange.Carries, carriesOrder, Option.any_eq_true] at h
            obtain ⟨rest, hrest, hboth⟩ := h
            simp only [ne_eq, decide_not, Bool.and_eq_true, Bool.not_eq_eq_eq_not, Bool.not_true,
              decide_eq_false_iff_not] at hboth
            simp only [buyAnswer, activateBuy, parseBuy, hrest]
            split <;> simp [hboth.1, hboth.2]

/-- What 5SIM's adapter makes of a success answer. -/
lemma fiveSimPurchase_success {c : Option String} {status : ℕ} (bytes : List UInt8)
    (h : isSuccess status = true) :
    fiveSimPurchase p c (.answered status (some bytes)) =
      if isPlain (p.text bytes) then
        .refused ((namedRefusal (plainText (p.text bytes))).getD .buyRestored)
      else ((fiveSimActivation p c (p.text bytes)).map BuyAnswer.bought).getD .unreadable := by
  simp only [fiveSimPurchase, h, classifyFivesimPlainBody]
  by_cases hplain : isPlain (p.text bytes) = true
  · simp [hplain]
  · simp only [hplain]
    cases fiveSimActivation p c (p.text bytes) <;> simp

lemma conservative_primary_iff {status : ℕ} {bytes : List UInt8} :
    Conservative p now currency .primary (.answered status (some bytes)) ↔
      WellRead p now currency .primary (.answered status (some bytes)) := by
  by_cases hsuccess : isSuccess status = true
  · have hserver := isServerError_eq_false_of_isSuccess hsuccess
    have hans := @fiveSimPurchase_success p (currency .primary) status bytes hsuccess
    by_cases hplain : isPlain (p.text bytes) = true
    · rw [if_pos hplain] at hans
      simp only [WellRead, hsuccess, hplain, if_true, forall_true_left]
      constructor
      · intro h
        refine ⟨?_, ?_⟩
        · by_contra hc
          exact h.carries (by simpa [Exchange.Carries] using hc) _ hans
        · by_contra hc
          simp only [not_or, Bool.not_eq_true, not_not] at hc
          obtain ⟨hrefused, hjson, hread⟩ := hc
          have := h.silent ⟨hsuccess, hjson, hread, hrefused⟩
          simp [buyAnswer, hans] at this
      · rintro ⟨hcarries, hsilent⟩
        constructor
        · intro h
          simp [Exchange.IsServerError, hserver] at h
        · nofun
        · rintro ⟨-, hjson, hread, hrefused⟩
          simp [hjson, hread, hrefused] at hsilent
        · intro h
          simp [Exchange.Carries, hcarries] at h
    · rw [if_neg hplain] at hans
      simp only [WellRead, hsuccess, hplain, if_true, false_implies, Bool.false_eq_true, iff_true]
      constructor
      · intro h
        simp [Exchange.IsServerError, hserver] at h
      · nofun
      · rintro ⟨-, -, hread, -⟩
        right
        simp only [readActivation] at hread
        simp [buyAnswer, hans, hread]
      · intro _ r
        simp only [buyAnswer, hans]
        cases fiveSimActivation p (currency .primary) (p.text bytes) <;> simp
  · simp only [WellRead, hsuccess, Bool.false_eq_true, if_false]
    have hans : fiveSimPurchase p (currency .primary) (.answered status (some bytes)) =
        if isServerError status then .ambiguous
        else .refused ((namedRefusal (p.text bytes)).getD .buyRestored) := by
      simp [fiveSimPurchase, hsuccess]
    cases hserver : isServerError status
    · simp only [hserver, Bool.false_eq_true, if_false] at hans
      constructor
      · intro h _
        by_contra hc
        exact h.carries (by simpa [Exchange.Carries] using hc) _ hans
      · intro hcarries
        constructor
        · intro h
          simp [Exchange.IsServerError, hserver] at h
        · nofun
        · exact fun h => absurd h.1 hsuccess
        · intro h
          simp [Exchange.Carries, hcarries] at h
    · simp only [hserver, if_true] at hans
      simp only [Bool.true_eq_false, false_implies, iff_true]
      exact ⟨fun _ => hans, fun _ => hans, fun _ => .inl hans, fun _ r => by simp [buyAnswer, hans]⟩

lemma exists_classifySmspoolFailure (body : String) (json : Option Json) :
    ∃ r, classifySmspoolFailure false body json = .refused r := by
  unfold classifySmspoolFailure
  dsimp only
  split
  · exact ⟨_, rfl⟩
  · split
    · exact ⟨_, rfl⟩
    · exact ⟨_, rfl⟩

/-- A server error is ambiguous exactly when its body has none of the words that are looked
for. -/
lemma classifySmspoolFailure_serverError_iff {body : String} :
    classifySmspoolFailure true body none = .ambiguous ↔
      namesStock "" (String.ofList (lowerAscii body)) = false ∧
        namesMoney "" (String.ofList (lowerAscii body)) = false := by
  simp only [classifySmspoolFailure, Option.map_none, Option.getD_none, if_true]
  cases namesStock "" (String.ofList (lowerAscii body)) <;>
    cases namesMoney "" (String.ofList (lowerAscii body)) <;> simp

lemma smspoolErrorFromJson_eq_none {v : Json} (h : marksFailure v = false) :
    smspoolErrorFromJson v = none := by
  simp [smspoolErrorFromJson, h]

lemma smspoolErrorFromJson_of_marksFailure {v : Json} (h : marksFailure v = true) :
    ∃ r, smspoolErrorFromJson v = some (.refused r) := by
  obtain ⟨r, hr⟩ := exists_classifySmspoolFailure
    (smspoolKind v ++ " " ++ ((v.get? "message").getD .null).key) (some v)
  exact ⟨r, by simp [smspoolErrorFromJson, h, hr]⟩

/-- What SMSPool's adapter makes of a success answer without a failure marker. -/
lemma smspoolBuy_unmarked {c : Option String} {status : ℕ} {bytes : List UInt8}
    (h : isSuccess status = true) (hmark : saysRefused p .smspool bytes = false) :
    smspoolBuy p now c (.answered status (some bytes)) =
      (((p.json bytes).bind (smspoolActivation p now c)).map BuyAnswer.bought).getD
        .ambiguous := by
  simp only [smspoolBuy, h, Option.bind_some]
  cases hjson : p.json bytes with
  | none => rfl
  | some v =>
      simp only [saysRefused, hjson, Option.any_some] at hmark
      simp only [smspoolErrorFromJson_eq_none hmark, Option.bind_some]
      cases smspoolActivation p now c v <;> rfl

/-- And of one that has the marker. -/
lemma smspoolBuy_marked {c : Option String} {status : ℕ} {bytes : List UInt8}
    (h : isSuccess status = true) (hmark : saysRefused p .smspool bytes = true) :
    ∃ r, smspoolBuy p now c (.answered status (some bytes)) = .refused r := by
  obtain ⟨v, hjson, hv⟩ := (Option.any_eq_true _ _).mp hmark
  obtain ⟨r, hr⟩ := smspoolErrorFromJson_of_marksFailure hv
  exact ⟨r, by simp [smspoolBuy, h, hjson, hr]⟩

lemma conservative_smspool_success {status : ℕ} {body : Option (List UInt8)}
    (h : isSuccess status = true) :
    Conservative p now currency .smspool (.answered status body) ↔
      ∀ bytes, body = some bytes → saysRefused p .smspool bytes = true →
        carriesOrder p .smspool bytes = false := by
  have hserver := isServerError_eq_false_of_isSuccess h
  constructor
  · rintro hcons bytes rfl hmark
    obtain ⟨r, hr⟩ := @smspoolBuy_marked p now (currency .smspool) _ _ h hmark
    by_contra hc
    exact hcons.carries (by simpa [Exchange.Carries] using hc) r hr
  · intro hmarked
    constructor
    · intro hs
      simp [Exchange.IsServerError, hserver] at hs
    · rintro ⟨⟩
      simp [buyAnswer, smspoolBuy, h]
    · intro hsilent
      cases body with
      | none => exact hsilent.elim
      | some bytes =>
          obtain ⟨-, -, hread, hrefused⟩ := hsilent
          left
          have hans := @smspoolBuy_unmarked p now (currency .smspool) _ _ h hrefused
          simp only [readActivation] at hread
          simpa [buyAnswer, hread] using hans
    · intro hcarries r
      cases body with
      | none => exact hcarries.elim
      | some bytes =>
          cases hmark : saysRefused p .smspool bytes
          · have hans := @smspoolBuy_unmarked p now (currency .smspool) _ _ h hmark
            simp only [buyAnswer, hans]
            cases (p.json bytes).bind (smspoolActivation p now (currency .smspool)) <;> simp
          · have hnot := hmarked bytes rfl hmark
            simp [Exchange.Carries, hnot] at hcarries

lemma conservative_smspool_iff {status : ℕ} {body : Option (List UInt8)} :
    Conservative p now currency .smspool (.answered status body) ↔
      WellRead p now currency .smspool (.answered status body) := by
  by_cases hsuccess : isSuccess status = true
  · simp only [WellRead, hsuccess, if_true]
    exact conservative_smspool_success hsuccess
  · have hans : smspoolBuy p now (currency .smspool) (.answered status body) =
        classifySmspoolFailure (isServerError status) ((body.map p.text).getD "") none := by
      simp [smspoolBuy, hsuccess]
    simp only [WellRead, hsuccess, Bool.false_eq_true, if_false]
    cases hserver : isServerError status
    · rw [hserver] at hans
      obtain ⟨r, hr⟩ := exists_classifySmspoolFailure ((body.map p.text).getD "") none
      rw [hr] at hans
      simp only [Bool.false_eq_true, if_false]
      constructor
      · intro hcons
        cases body with
        | none =>
            have := hcons.brokeOff rfl
            simp [buyAnswer, hans] at this
        | some bytes =>
            refine ⟨bytes, rfl, ?_⟩
            by_contra hc
            exact hcons.carries (by simpa [Exchange.Carries] using hc) r hans
      · rintro ⟨bytes, rfl, hcarries⟩
        constructor
        · intro h
          simp [Exchange.IsServerError, hserver] at h
        · nofun
        · exact fun h => absurd h.1 hsuccess
        · intro h
          simp [Exchange.Carries, hcarries] at h
    · rw [hserver] at hans
      simp only [if_true]
      rw [← classifySmspoolFailure_serverError_iff, ← hans]
      exact ⟨fun hcons => hcons.serverError hserver, fun h =>
        ⟨fun _ => h, fun _ => h, fun _ => .inl h, fun _ r => by rw [buyAnswer, h]; nofun⟩⟩

/-- **The adapters classify conservatively exactly what they read without loss.** -/
lemma conservative_iff (s : Supplier) (x : Exchange) :
    Conservative p now currency s x ↔ WellRead p now currency s x := by
  cases x with
  | failed connecting =>
      refine iff_of_true (conservative_failed s connecting) ?_
      cases s <;> trivial
  | answered status body =>
      cases s with
      | activate f => exact iff_of_true (conservative_activate f _) trivial
      | smspool => exact conservative_smspool_iff
      | primary =>
          cases body with
          | some bytes => exact conservative_primary_iff
          | none =>
              refine iff_of_true ?_ trivial
              exact ⟨fun _ => rfl, fun _ => rfl, fun h => h.elim, fun h => h.elim⟩

/-- An answer under which a number may have been sold is not a refusal. -/
lemma Conservative.not_refused {s : Supplier} (h : Conservative p now currency s x)
    (hsold : x.MayHaveSold p now currency s) (r : BuyRefusal) :
    buyAnswer p now currency s x ≠ .refused r := by
  rcases hsold with hx | hx | hx | hx
  · rw [h.serverError hx]
    nofun
  · rw [h.brokeOff hx]
    nofun
  · rcases h.silent hx with hx | hx <;> rw [hx] <;> nofun
  · exact h.carries hx r

/-! ## The loop -/

/-- In a history, an order was tried again only after refusals, and what its adapter reads
without loss as that refusal sold nothing. -/
def GoesOnUnsold (p : Parsers) (now : Time) (currency : Supplier → Option String) (log : Log) :
    Prop :=
  ∀ c past, Recorded log (.purchaseStarted c) past →
    ∀ c', Event.purchaseStarted c' ∈ past → c'.order = c.order →
      ∃ r, Event.purchaseAnswered c'.call c.order (.refused r) ∈ past ∧
        ∀ s x, buyAnswer p now currency s x = .refused r → WellRead p now currency s x →
          ¬ x.MayHaveSold p now currency s

end Answers

/-- **Purchase answers are classified conservatively exactly where they are read without loss.**
And in every run of the backend, whatever the answers and the interleaving, an order is tried
again only after a refusal, under which no number may have been sold if the answer was read
without loss. -/
theorem purchases_conservative (p : Parsers) (clock : Time)
    (currency : Supplier → Option String) {cfg : Config} {now : Time} {wallets : List Wallet}
    {s : State} (h : (backend cfg).Reachable unguarded (initial now wallets) s) :
    (∀ supplier x, Conservative p clock currency supplier x ↔
      WellRead p clock currency supplier x) ∧
    GoesOnUnsold p clock currency s.world.log := by
  refine ⟨conservative_iff, fun c past hc c' hc' horder => ?_⟩
  obtain ⟨r, hr, -⟩ := callsPassOn_of_reachable h c past hc c' hc' horder
  refine ⟨r, hr, fun supplier x hrefused hread hsold => ?_⟩
  exact ((conservative_iff supplier x).mpr hread).not_refused hsold r hrefused

/-- A body in ASCII. -/
def asciiBody (s : String) : List UInt8 := s.toList.map fun c => UInt8.ofNat c.toNat

/-- ASCII text that is no JSON. -/
def plainParsers : Parsers where
  text bytes := String.ofList (bytes.map fun b => Char.ofNat b.toNat)
  json _ := none
  slice _ := none
  document _ := none
  decimal _ := none
  amount _ := none
  instant _ := none

/-- What a gateway in front of a supplier answers while the supplier is busy. -/
def gatewayDown : Exchange := .answered 503 (some (asciiBody "Service Temporarily Unavailable"))

/-- An offer of SMSPool and 5SIM.  SMSPool's gateway is down, so 5SIM is bought from. -/
def boughtAfterServerError : List Move :=
  topUp 0 7 100 101 102 5000 ++
  serve 2 (.createOrder 7 50 (offerOrder 9 1000))
    [{ fresh := [200, 201, 2 <<< 100],
       catalogue := offerCatalogue 1000 [⟨.smspool, "NG", "telegram", ""⟩,
         ⟨.fivesim, "nigeria", "telegram", "any"⟩] },
      { fresh := [203] }, {},
      { buy := buyAnswer plainParsers 0 (fun _ => none) .smspool gatewayDown }, {},
      { buy := .bought ⟨"p1", "+2341", none, none, none, .primary⟩ }, {}, {}, {}]

/-- **The loop goes on after a server error**: 503 with the word “available” in its text is
taken for an empty shelf, and a number is bought from the next supplier. -/
theorem server_error_passed_over : ∃ s : State,
    (backend liveConfig).Reachable unguarded (initial 0 []) s ∧
    gatewayDown.IsServerError ∧
    buyAnswer plainParsers 0 (fun _ => none) .smspool gatewayDown = .refused .outOfStock ∧
    ¬ Conservative plainParsers 0 (fun _ => none) .smspool gatewayDown ∧
    (purchaseCalls s.world.log).map PurchaseCall.label = [.fivesim, .smspool] := by
  obtain ⟨s, hs, hcalls⟩ := exists_reachable_of_run (backend liveConfig) unguarded
    (initial 0 []) boughtAfterServerError
    (fun s => (purchaseCalls s.world.log).map PurchaseCall.label = [.fivesim, .smspool])
    (by decide +kernel)
  have hans : buyAnswer plainParsers 0 (fun _ => none) .smspool gatewayDown =
      .refused .outOfStock := by decide +kernel
  have hserver : gatewayDown.IsServerError := (rfl : isServerError 503 = true)
  refine ⟨s, hs, hserver, hans, fun h => ?_, hcalls⟩
  cases hans.symm.trans (h.serverError hserver)

theorem purchases_conservative_secondSource : ∃ s : State,
    (purchaseCalls s.world.log).map PurchaseCall.label = [.smspool, .fivesim, .fivesim] ∧
    (∀ supplier x, Conservative plainParsers 0 (fun _ => none) supplier x ↔
      WellRead plainParsers 0 (fun _ => none) supplier x) ∧
    GoesOnUnsold plainParsers 0 (fun _ => none) s.world.log := by
  obtain ⟨s, hs, hcalls⟩ := exists_reachable_of_run (backend liveConfig) unguarded
    (initial 0 []) secondSource
    (fun s => (purchaseCalls s.world.log).map PurchaseCall.label = [.smspool, .fivesim, .fivesim])
    (by decide +kernel)
  exact ⟨s, hcalls, purchases_conservative plainParsers 0 (fun _ => none) hs⟩

end Naivolt
