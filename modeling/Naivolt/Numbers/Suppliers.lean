import Naivolt.Numbers.Order

/-!
# Suppliers

What `number_provider.rs` decides without talking to anyone: which adapter a provider name
is routed to when buying (`NumberProviders.buyRoute`) and when asking about an activation
(`NumberProviders.askRoute`), which refusals let the buy loop try the next source
(`tryNextSource`), and which of 5SIM's recent orders `recover_recent_buy` takes for ours
(`recoverRecentBuy`).

The adapters' reading of HTTP bodies is not modelled here: a purchase call is answered by one
of the outcomes the adapters can report (`BuyAnswer`), a check by any `ActivationCheck`.
`Activation.issuedBy` is not a field of the source's struct.  It records which supplier's API
the value was read from, and nothing in the model branches on it.
-/

namespace Naivolt

/-! ## Errors -/

/-- `ApiError`, the variants the modelled handlers raise. -/
inductive ApiError where
  | pinInvalid (attemptsRemaining : ℤ)
  | insufficientBalance
  | limitExceeded (limit : ℚ)
  | kycRequired (nextStep : String)
  | priceMoved (priceNgn : ℚ)
  | serviceUnavailable (message : String)
  | badRequest (message : String)
  | refundCap
  | recheckUnavailable
  | claimConflict
  | conflict (message : String)
  | notFound
  /-- Anything unexpected; the detail goes to the log. -/
  | internal (detail : String)
  deriving DecidableEq

/-- The `Display` text of the errors whose text the handlers look into. -/
def ApiError.message : ApiError → String
  | .serviceUnavailable m | .badRequest m | .conflict m | .internal m => m
  | .pinInvalid _ => "that PIN isn't right"
  | .insufficientBalance => "not enough balance"
  | .limitExceeded _ => "that would go over your limit"
  | .kycRequired _ => "verification required"
  | .priceMoved _ => "that price changed"
  | .refundCap => "that refund is over the configured cap"
  | .recheckUnavailable => "this order cannot be rechecked without buying again"
  | .claimConflict => "another worker is updating this order"
  | .notFound => "not found"

/-! ## Activations and checks -/

/-- A `handler_api.php` supplier. -/
inductive ActivateFlavor where
  | smsActivate | smsHub | tigerSms | daisySms
  deriving DecidableEq, Repr

/-- An API this deployment can call. -/
inductive Supplier where
  | primary
  | smspool
  | activate (flavor : ActivateFlavor)
  deriving DecidableEq, Repr

/-- A number a supplier has assigned to one of our orders. -/
structure Activation where
  providerOrderId : String
  phone : String
  cost : Option ℚ
  costCurrency : Option String
  expiresAt : Option Time
  issuedBy : Supplier
  deriving DecidableEq

/-- One message a number received. -/
structure Sms where
  sender : Option String
  text : String
  code : Option String
  receivedAt : Option Time
  providerMessageId : Option String
  deriving DecidableEq

/-- Whether the supplier still says this activation can receive SMS. -/
inductive ActivationLifecycle where
  | open | closed
  deriving DecidableEq, Repr

/-- One provider check. -/
structure ActivationCheck where
  messages : List Sms
  lifecycle : ActivationLifecycle
  expiresAt : Option Time
  deriving DecidableEq

/-- `ActivationCheck::closed()`. -/
def ActivationCheck.closed : ActivationCheck := ⟨[], .closed, none⟩

/-! ## Purchase outcomes -/

/-- The three texts a supplier's refusal is reduced to. -/
inductive BuyRefusal where
  | buyRestored | sourceUnavailable | outOfStock
  deriving DecidableEq, Repr

namespace BuyRefusal

/-- `COPY_BUY_RESTORED`, `COPY_SOURCE_UNAVAILABLE`, `COPY_OUT_OF_STOCK`. -/
def copy : BuyRefusal → String
  | buyRestored => "We couldn't get that number. Your money is back in your balance."
  | sourceUnavailable => "That option isn't available right now. Try another country."
  | outOfStock => "That number is out of stock right now. Try another country."

def error (r : BuyRefusal) : ApiError := .serviceUnavailable r.copy

end BuyRefusal

/-- `PurchaseError`. -/
inductive PurchaseError where
  | rejected (error : ApiError)
  | ambiguous
  deriving DecidableEq

/-- `PurchaseError::is_out_of_stock`. -/
def PurchaseError.isOutOfStock : PurchaseError → Bool
  | .rejected (.serviceUnavailable m) => containsText m "out of stock"
  | _ => false

/-- `try_next_source`. -/
def tryNextSource (e : ApiError) : Bool :=
  containsText e.message "out of stock" || containsText e.message "isn't available right now"

/-- How a purchase call ends.  `unreadable` is 5SIM's success answer from which no order can
be read. -/
inductive BuyAnswer where
  | bought (a : Activation)
  | refused (r : BuyRefusal)
  | ambiguous
  | unreadable
  deriving DecidableEq

/-! ## Routing -/

/-- `ActivateFlavor::parse` on the names the `provider` column can hold. -/
def SupplierLabel.flavor? : SupplierLabel → Option ActivateFlavor
  | .smsactivate => some .smsActivate
  | .smshub => some .smsHub
  | .tigersms => some .tigerSms
  | .daisysms => some .daisySms
  | _ => none

/-- `is_foreign_supplier`: names `primary` must never be asked about. -/
def isForeignSupplier (l : SupplierLabel) : Bool := l.flavor?.isSome || l = .smspool

/-- `NumberProviders`: the suppliers this process holds keys for. -/
structure NumberProviders where
  /-- `primary` is 5SIM rather than the stub. -/
  primaryLive : Bool
  smspool : Bool
  activate : List ActivateFlavor
  deriving DecidableEq

/-- What `buy_source` does with a source. -/
inductive BuyRoute where
  | activate (flavor : ActivateFlavor)
  | smspool
  /-- `primary.buy_with(country, product, operator)`. -/
  | primaryWith
  /-- `primary.buy(country, product)`. -/
  | primaryAny
  | refuse (r : BuyRefusal)
  deriving DecidableEq

namespace NumberProviders

/-- Real supplier money can move. -/
def isLive (p : NumberProviders) : Bool := p.primaryLive || p.smspool || !p.activate.isEmpty

/-- The configured `handler_api.php` supplier under that name, if any. -/
def activateFor (p : NumberProviders) (l : SupplierLabel) : Option ActivateFlavor :=
  p.activate.find? (fun f => l.flavor? = some f)

/-- `buy_source`. -/
def buyRoute (p : NumberProviders) (l : SupplierLabel) : BuyRoute :=
  match p.activateFor l with
  | some f => .activate f
  | none =>
    match l with
    | .smspool => if p.smspool then .smspool else .refuse .outOfStock
    | .fivesim => .primaryWith
    | .stub => .primaryAny
    | other => if isForeignSupplier other then .refuse .sourceUnavailable else .refuse .buyRestored

/-- `check_for` and `cancel_for`: the supplier asked about an order under that name, none when
the call is refused without asking anyone. -/
def askRoute (p : NumberProviders) (l : SupplierLabel) : Option Supplier :=
  match p.activateFor l with
  | some f => some (.activate f)
  | none =>
    match l with
    | .smspool => if p.smspool then some .smspool else none
    | other => if isForeignSupplier other then none else some .primary

lemma activateFor_eq_some {p : NumberProviders} {l : SupplierLabel} {f : ActivateFlavor}
    (h : p.activateFor l = some f) : l.flavor? = some f := by
  simpa using List.find?_some h

/-- A source bought from an adapter is later asked about at the same adapter. -/
lemma askRoute_of_buyRoute_activate {p : NumberProviders} {l : SupplierLabel}
    {f : ActivateFlavor} (h : p.buyRoute l = .activate f) :
    p.askRoute l = some (.activate f) := by
  unfold buyRoute at h
  unfold askRoute
  cases hf : p.activateFor l with
  | some g =>
      rw [hf] at h
      cases h
      rfl
  | none =>
      rw [hf] at h
      cases l <;> simp at h <;> split at h <;> cases h

lemma askRoute_of_buyRoute_smspool {p : NumberProviders} {l : SupplierLabel}
    (h : p.buyRoute l = .smspool) : p.askRoute l = some .smspool := by
  unfold buyRoute at h
  unfold askRoute
  cases hf : p.activateFor l with
  | some g => simp [hf] at h
  | none =>
      rw [hf] at h
      cases l <;> simp at h ⊢ <;> first | exact h | (split at h <;> cases h)

lemma askRoute_of_buyRoute_primary {p : NumberProviders} {l : SupplierLabel}
    (h : p.buyRoute l = .primaryWith ∨ p.buyRoute l = .primaryAny) :
    p.askRoute l = some .primary := by
  unfold buyRoute at h
  unfold askRoute
  cases hf : p.activateFor l with
  | some g => simp [hf] at h
  | none =>
      rw [hf] at h
      cases l <;> simp [isForeignSupplier, SupplierLabel.flavor?] at h ⊢
      split at h <;> simp at h

/-- The label a catalogue order is inserted with. -/
def catalogueLabel (p : NumberProviders) : SupplierLabel :=
  if p.primaryLive then .fivesimCatalogue else .stub

/-- The catalogue sells from `primary`, under a label `check_for` sends back there. -/
lemma askRoute_catalogueLabel (p : NumberProviders) :
    p.askRoute p.catalogueLabel = some .primary := by
  have hnone : ∀ l : SupplierLabel, l.flavor? = none → p.activateFor l = none := by
    intro l hl
    cases hf : p.activateFor l with
    | none => rfl
    | some f => rw [activateFor_eq_some hf] at hl; cases hl
  cases hp : p.primaryLive
  · simp [catalogueLabel, hp, askRoute, hnone .stub rfl, isForeignSupplier,
      SupplierLabel.flavor?]
  · simp [catalogueLabel, hp, askRoute, hnone .fivesimCatalogue rfl, isForeignSupplier,
      SupplierLabel.flavor?]

end NumberProviders

/-! ## 5SIM's order history -/

/-- An entry of 5SIM's order list.  `id` is `fivesim_order_id` of the JSON value. -/
structure FiveSimOrder where
  id : Option String
  phone : String
  price : Option ℚ
  expires : Option Time
  country : Option String
  product : Option String
  deriving DecidableEq

/-- `activation_from_order`. -/
def activationFromOrder (o : FiveSimOrder) (currency : Option String) : Option Activation :=
  match o.id with
  | none => none
  | some id =>
    if isBlank o.phone then none
    else some ⟨id, o.phone, o.price, currency, o.expires, .primary⟩

/-- `recover_recent_buy` on the list 5SIM returned: the first order of the same country and
product.  Which of our orders it was bought for is not looked at. -/
def recoverRecentBuy (currency : Option String) (country product : String)
    (recent : List FiveSimOrder) : Option Activation :=
  recent.findSome? fun o =>
    if o.country.any (eqIgnoreAsciiCase · country) && o.product.any (eqIgnoreAsciiCase · product)
    then activationFromOrder o currency
    else none

lemma issuedBy_of_recoverRecentBuy {currency : Option String} {country product : String}
    {recent : List FiveSimOrder} {a : Activation}
    (h : recoverRecentBuy currency country product recent = some a) : a.issuedBy = .primary := by
  obtain ⟨o, -, ho⟩ := List.exists_of_findSome?_eq_some h
  split at ho
  · unfold activationFromOrder at ho
    split at ho
    · cases ho
    · split at ho
      · cases ho
      · cases ho
        rfl
  · cases ho

end Naivolt
