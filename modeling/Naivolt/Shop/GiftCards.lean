import Naivolt.Foundation.Actors
import Naivolt.Ledger.Numeric
import Naivolt.Trace

/-!
# Gift card submissions

`giftcard_routes.rs`: `submit` looks for a submission of its user under the `Idempotency-Key`,
checks the request against the rate it finds, and inserts one row.  `consistent_of_reachable` is
what a client may expect of any number of such requests in any order: one row for a user and a
key, told of in the same way to every request that comes for it, with a payout that is the stored
face value at the stored rate.

It needs what the source does not see to.  The lookup is by user and key and the unique index is
on the key alone, so the insertion fails when another user has sent the key, or the same one in
the meantime; and the payout is computed before the column rounds the face value to two places.
`card_paid_unrounded` is a card of 10.005 dollars that is stored as 10.01 and paid as 10.005.
-/

namespace Naivolt

open Foundation Foundation.Machine

/-! ## Columns -/

/-- A number as a `NUMERIC` column with `scale` decimals keeps it. -/
def scaled (scale : ℕ) (x : ℚ) : ℚ := roundAway (x * 10 ^ scale) / 10 ^ scale

/-- It has no more than twenty digits, the precision of all these columns. -/
def fits (scale : ℕ) (x : ℚ) : Bool := |roundAway (x * 10 ^ scale)| < 10 ^ 20

/-- A row of `gift_card_brands`. -/
structure GiftBrand where
  name : String
  requiresImage : Bool
  active : Bool
  deriving DecidableEq

/-- A row of `gift_card_rates`. -/
structure GiftRate where
  brandId : Uuid
  countryCode : String
  currency : String
  ratePerUnit : ℚ
  minFaceValue : ℚ
  maxFaceValue : ℚ
  active : Bool
  rate_positive : 0 < ratePerUnit
  rate_scale : scaled 4 ratePerUnit = ratePerUnit
  min_scale : scaled 2 minFaceValue = minFaceValue
  max_scale : scaled 2 maxFaceValue = maxFaceValue
  range_sane : minFaceValue ≤ maxFaceValue
  deriving DecidableEq

inductive SubmissionStatus where
  | pending | reviewing | approved | rejected
  deriving DecidableEq, Repr

/-- A row of `gift_card_submissions`. -/
structure Submission where
  userId : Uuid
  brandId : Uuid
  rateId : Uuid
  faceValue : ℚ
  currency : String
  ratePerUnit : ℚ
  payoutNgn : ℚ
  cardCode : String
  cardPin : Option String
  imageUrl : Option String
  status : SubmissionStatus
  reference : String
  idempotencyKey : String
  createdAt : Time
  deriving DecidableEq

/-- The row after a review. -/
def Submission.reviewed (row : Submission) (status : SubmissionStatus) : Submission :=
  { row with status := status }

/-! ## Requests and answers -/

/-- `SubmitBody` with its user and its header.  The face value is none when it is not a number. -/
structure SubmitRequest where
  userId : Uuid
  key : String
  brandId : Uuid
  countryCode : String
  faceValue : Option ℚ
  cardCode : String
  cardPin : Option String
  imageUrl : Option String
  deriving DecidableEq

/-- `SubmissionResponse`. -/
structure SubmissionResponse where
  id : Uuid
  brandName : String
  countryCode : String
  faceValue : ℚ
  currency : String
  payoutNgn : ℚ
  status : SubmissionStatus
  reference : String
  createdAt : Time
  deriving DecidableEq

/-- What is sent of a row, its brand and the country of its rate. -/
def submissionResponse (brandName countryCode : String) (id : Uuid) (row : Submission) :
    SubmissionResponse :=
  ⟨id, brandName, countryCode, row.faceValue, row.currency, row.payoutNgn, row.status,
    row.reference, row.createdAt⟩

/-- Ten digits of a random identifier. -/
def giftReference (u : Uuid) : String :=
  "NVGC-" ++ String.ofList ((u.simple.toList.take 10).map Char.toUpper)

/-! ## The tables -/

/-- A row as the database had it when it told a request of it. -/
structure ShownCard where
  id : Uuid
  row : Submission
  brandName : String
  countryCode : String
  deriving DecidableEq

def ShownCard.response (c : ShownCard) : SubmissionResponse :=
  submissionResponse c.brandName c.countryCode c.id c.row

structure GiftWorld where
  now : Time
  brands : Table Uuid GiftBrand
  rates : Table Uuid GiftRate
  submissions : Table Uuid Submission
  /-- What requests have been told of, latest first. -/
  shown : List ShownCard
  /-- The rate each submission was checked against. -/
  terms : List (Uuid × GiftRate)
  /-- Every row that `gift_card_rates` has had, under its identifier. -/
  offered : List (Uuid × GiftRate)

namespace GiftWorld

/-- The row joined to its brand and its rate. -/
def join (w : GiftWorld) (id : Uuid) (row : Submission) : Option ShownCard :=
  (w.brands.get? row.brandId).bind fun brand =>
    (w.rates.get? row.rateId).map fun rate => ⟨id, row, brand.name, rate.countryCode⟩

/-- The query of `find_by_key`. -/
def findSubmission (w : GiftWorld) (userId : Uuid) (key : String) : Option (Uuid × Submission) :=
  w.submissions.rows.find? fun r => r.2.idempotencyKey = key && r.2.userId = userId

/-- The query of `submit`: an active rate of an active brand. -/
def findRate (w : GiftWorld) (brandId : Uuid) (countryCode : String) :
    Option (Uuid × GiftRate × GiftBrand) :=
  (w.rates.rows.find? fun r => r.2.brandId = brandId && r.2.countryCode = countryCode &&
      r.2.active && (w.brands.get? r.2.brandId).any GiftBrand.active).bind fun r =>
    (w.brands.get? r.2.brandId).map fun brand => (r.1, r.2, brand)

end GiftWorld

/-- The columns of the `INSERT`, the reference apart. -/
structure NewSubmission where
  userId : Uuid
  brandId : Uuid
  rateId : Uuid
  faceValue : ℚ
  rate : GiftRate
  payoutNgn : ℚ
  cardCode : String
  cardPin : Option String
  imageUrl : Option String
  key : String

/-- The row it makes. -/
def NewSubmission.row (n : NewSubmission) (reference : String) (now : Time) : Submission :=
  ⟨n.userId, n.brandId, n.rateId, scaled 2 n.faceValue, n.rate.currency,
    scaled 4 n.rate.ratePerUnit, scaled 4 n.payoutNgn, n.cardCode, n.cardPin, n.imageUrl, .pending,
    reference, n.key, now⟩

/-- The columns take the values. -/
def NewSubmission.storable (n : NewSubmission) : Bool :=
  fits 2 n.faceValue && 0 < scaled 2 n.faceValue && fits 4 n.payoutNgn &&
    0 < scaled 4 n.payoutNgn && storableText n.cardCode && n.cardPin.all storableText &&
    n.imageUrl.all storableText

/-- No row has the key or the reference. -/
def Unclaimed (w : GiftWorld) (key reference : String) : Prop :=
  ∀ r ∈ w.submissions.rows, r.2.idempotencyKey ≠ key ∧ r.2.reference ≠ reference

instance (w : GiftWorld) (key reference : String) : Decidable (Unclaimed w key reference) := by
  unfold Unclaimed
  infer_instance

/-! ## The program and its world -/

inductive GiftOp where
  | findByKey (userId : Uuid) (key : String)
  | findRate (brandId : Uuid) (countryCode : String)
  | insert (n : NewSubmission)

/-- What the database answers; it refuses an insertion that breaks a constraint, and a text it
cannot hold. -/
abbrev GiftOp.Res : GiftOp → Type
  | .findByKey .. => Option SubmissionResponse
  | .findRate .. => Option (Option (Uuid × GiftRate × GiftBrand))
  | .insert .. => Option (Uuid × String × Time)

/-- The identifiers an insertion draws. -/
structure GiftOracle where
  id : Uuid := 0
  reference : Uuid := 0

def execGift : (op : GiftOp) → GiftOracle → GiftWorld → Option (op.Res × GiftWorld)
  | .findByKey userId key, _, w =>
      match (w.findSubmission userId key).bind fun r => w.join r.1 r.2 with
      | some card => some (some card.response, { w with shown := card :: w.shown })
      | none => some (none, w)
  | .findRate brandId countryCode, _, w =>
      some (if storableText countryCode then some (w.findRate brandId countryCode) else none, w)
  | .insert n, ω, w =>
      let reference := giftReference ω.reference
      if n.storable && Unclaimed w n.key reference then
        let row := n.row reference w.now
        (w.submissions.insert ω.id row).bind fun submissions =>
        (w.join ω.id row).map fun card =>
          (some (ω.id, reference, w.now),
            { w with
              submissions := submissions, shown := card :: w.shown,
              terms := (ω.id, n.rate) :: w.terms })
      else some (none, w)

/-- What operators and reviewers do: brands and rates are added, a rate is tuned, a brand is
withdrawn or offered again, a submission is reviewed. -/
inductive GiftMove where
  | tick (d : Time)
  | addBrand (id : Uuid) (brand : GiftBrand)
  | addRate (id : Uuid) (rate : GiftRate)
  | retune (id : Uuid) (rate : GiftRate)
  | offer (brandId : Uuid) (active : Bool)
  | review (id : Uuid) (status : SubmissionStatus)

def moveGift : GiftMove → GiftWorld → Option GiftWorld
  | .tick d, w => some { w with now := w.now + d }
  | .addBrand id brand, w =>
      (w.brands.insert id brand).map fun brands => { w with brands := brands }
  | .addRate id rate, w =>
      if (w.brands.get? rate.brandId).isSome && w.rates.rows.all fun r =>
          ¬ (r.2.brandId = rate.brandId ∧ r.2.countryCode = rate.countryCode) then
        (w.rates.insert id rate).map fun rates =>
          { w with rates := rates, offered := (id, rate) :: w.offered }
      else none
  | .retune id rate, w =>
      if (w.rates.get? id).any fun r =>
          r.brandId = rate.brandId ∧ r.countryCode = rate.countryCode then
        some { w with
          rates := w.rates.modify id fun _ => rate, offered := (id, rate) :: w.offered }
      else none
  | .offer brandId active, w =>
      some { w with brands := w.brands.modify brandId fun b => { b with active := active } }
  | .review id status, w =>
      some { w with submissions := w.submissions.modify id fun row => row.reviewed status }

namespace GiftCards

abbrev Handler := Prog GiftOp GiftOp.Res

abbrev ask (op : GiftOp) : Handler op.Res := Prog.perform op

/-- What is wrong with the request itself. -/
def checkCard (req : SubmitRequest) : Except ApiError ℚ :=
  match req.faceValue with
  | none => .error (.badRequest "That amount isn't a number.")
  | some faceValue =>
    if faceValue ≤ 0 then .error (.badRequest "Enter the value printed on the card.")
    else if (trimText req.cardCode).toList.isEmpty then .error (.badRequest "Enter the card code.")
    else .ok faceValue

/-- What is wrong with it at this rate.  `decimalText` renders a decimal. -/
def checkRate (decimalText : ℚ → String) (req : SubmitRequest) (faceValue : ℚ) (rate : GiftRate)
    (brand : GiftBrand) : Except ApiError Unit :=
  if faceValue < rate.minFaceValue then
    .error (.badRequest ("Minimum for " ++ brand.name ++ " is " ++ rate.currency ++ " " ++
      decimalText rate.minFaceValue ++ "."))
  else if rate.maxFaceValue < faceValue then
    .error (.badRequest ("Maximum for " ++ brand.name ++ " is " ++ rate.currency ++ " " ++
      decimalText rate.maxFaceValue ++ "."))
  else if brand.requiresImage && (trimText (req.imageUrl.getD "")).toList.isEmpty then
    .error (.badRequest "A photo of the card is required.")
  else .ok ()

/-- `submit`. -/
def submit (decimalText : ℚ → String) (req : SubmitRequest) :
    Handler (Except ApiError SubmissionResponse) := do
  match ← ask (.findByKey req.userId req.key) with
  | some existing => pure (.ok existing)
  | none =>
    match checkCard req with
    | .error e => pure (.error e)
    | .ok faceValue =>
      match ← ask (.findRate req.brandId req.countryCode) with
      | none => pure (.error (.internal "database error"))
      | some none => pure (.error (.badRequest "We don't buy that card from there right now."))
      | some (some (rateId, rate, brand)) =>
        match checkRate decimalText req faceValue rate brand with
        | .error e => pure (.error e)
        | .ok () =>
          let payoutNgn := roundDp (faceValue * rate.ratePerUnit) 4
          match ← ask (.insert ⟨req.userId, req.brandId, rateId, faceValue, rate, payoutNgn,
              trimText req.cardCode, req.cardPin.map trimText, req.imageUrl, req.key⟩) with
          | none => pure (.error (.internal "database error"))
          | some (id, reference, createdAt) =>
            pure (.ok ⟨id, brand.name, req.countryCode, faceValue, rate.currency, payoutNgn,
              .pending, reference, createdAt⟩)

end GiftCards

/-- Any number of submit requests.  A task remembers the submissions there were when it came. -/
def giftDesk (decimalText : ℚ → String) : Machine GiftOp GiftOp.Res GiftOracle GiftMove GiftWorld
    SubmitRequest (List (Uuid × Submission)) (Except ApiError SubmissionResponse) where
  exec _ op ω w := execGift op ω w
  env := moveGift
  program := GiftCards.submit decimalText
  stamp w := w.submissions.rows

/-- A state of it, and a move of its schedule. -/
abbrev GiftState := Sys GiftOp GiftOp.Res GiftWorld SubmitRequest (List (Uuid × Submission))
  (Except ApiError SubmissionResponse)

abbrev GiftAct := Act GiftOracle GiftMove SubmitRequest

/-- Nothing is sold and nothing has been submitted. -/
def openDesk (now : Time) : GiftState := Sys.idle ⟨now, .empty, .empty, .empty, [], [], []⟩

/-! ## What a client may expect -/

/-- An answer to the request: what the database once told of a row of its user and key, which
stands as it was but for its review; or a refusal of the request itself, if there was no such row
when it came. -/
def AnsweredCard (w : GiftWorld) (req : SubmitRequest) (born : List (Uuid × Submission)) :
    Except ApiError SubmissionResponse → Prop
  | .ok resp => ∃ row card, w.submissions.get? resp.id = some row ∧ row.userId = req.userId ∧
      row.idempotencyKey = req.key ∧ w.join resp.id row = some card ∧
      resp = { card.response with status := resp.status } ∧ ∃ c ∈ w.shown, c.response = resp
  | .error e => (∃ text, e = .badRequest text) ∧
      ∀ r ∈ born, ¬ (r.2.userId = req.userId ∧ r.2.idempotencyKey = req.key)

/-- **Submissions are consistent and replayable.** -/
structure Consistent (s : GiftState) : Prop where
  one : ∀ r ∈ s.world.submissions.rows, ∀ r' ∈ s.world.submissions.rows,
    r.2.userId = r'.2.userId → r.2.idempotencyKey = r'.2.idempotencyKey → r = r'
  answered : ∀ tid req born a, s.task tid = some ⟨req, born, .ret a⟩ →
    AnsweredCard s.world req born a
  same : ∀ tid req born resp tid' req' born' resp',
    s.task tid = some ⟨req, born, .ret (.ok resp)⟩ →
    s.task tid' = some ⟨req', born', .ret (.ok resp')⟩ →
    req.userId = req'.userId → req.key = req'.key → resp' = { resp with status := resp'.status }
  priced : ∀ r ∈ s.world.submissions.rows,
    r.2.payoutNgn = roundDp (r.2.faceValue * r.2.ratePerUnit) 4
  within : ∀ r ∈ s.world.submissions.rows, ∃ rate, (r.1, rate) ∈ s.world.terms ∧
    (r.2.rateId, rate) ∈ s.world.offered ∧
    rate.brandId = r.2.brandId ∧ rate.ratePerUnit = r.2.ratePerUnit ∧
    rate.minFaceValue ≤ r.2.faceValue ∧ r.2.faceValue ≤ rate.maxFaceValue

/-- A submission comes to be inserted when no row, of any user, has its key or its reference; its
face value has no more than two decimals; and the columns take it, its payout and its texts.  A
country is asked for in a text that the database takes. -/
def Insertable (_ : ℕ) (_ : SubmitRequest) (_ : List (Uuid × Submission)) :
    GiftOp → GiftOracle → GiftWorld → Prop
  | .insert n, ω, w => Unclaimed w n.key (giftReference ω.reference) ∧
      scaled 2 n.faceValue = n.faceValue ∧ n.storable = true
  | .findRate _ countryCode, _, _ => storableText countryCode = true
  | .findByKey .., _, _ => True

instance (tid : ℕ) (req : SubmitRequest) (born : List (Uuid × Submission)) (op : GiftOp)
    (ω : GiftOracle) (w : GiftWorld) : Decidable (Insertable tid req born op ω w) := by
  unfold Insertable
  split <;> infer_instance

/-! ## Rounding -/

/-- What has been rounded to a scale is kept by a column of it. -/
lemma scaled_roundDp (x : ℚ) (dp : ℕ) : scaled dp (roundDp x dp) = roundDp x dp := by
  have hpow : (10 : ℚ) ^ dp ≠ 0 := by positivity
  unfold scaled roundDp
  rw [div_mul_cancel₀ _ hpow, roundAway_intCast]

/-! ## What changes leave -/

/-- Rows stay but for their review, brands and rates keep their names, and what has been told
stays told. -/
structure GiftLater (w w' : GiftWorld) : Prop where
  rows : ∀ id row, w.submissions.get? id = some row →
    ∃ status, w'.submissions.get? id = some (row.reviewed status)
  brands : ∀ id b, w.brands.get? id = some b → ∃ b', w'.brands.get? id = some b' ∧ b'.name = b.name
  rates : ∀ id r, w.rates.get? id = some r →
    ∃ r', w'.rates.get? id = some r' ∧ r'.countryCode = r.countryCode
  shown : ∀ c ∈ w.shown, c ∈ w'.shown
  offered : ∀ x ∈ w.offered, x ∈ w'.offered

namespace GiftLater

variable {w w' w'' : GiftWorld}

lemma refl (w : GiftWorld) : GiftLater w w :=
  ⟨fun _ row h => ⟨row.status, h⟩, fun _ b h => ⟨b, h, rfl⟩, fun _ r h => ⟨r, h, rfl⟩,
    fun _ h => h, fun _ h => h⟩

lemma trans (h : GiftLater w w') (h' : GiftLater w' w'') : GiftLater w w'' where
  rows id row hrow := by
    obtain ⟨status, hrow⟩ := h.rows id row hrow
    obtain ⟨status', hrow⟩ := h'.rows id _ hrow
    exact ⟨status', hrow⟩
  brands id b hb := by
    obtain ⟨b', hb, hname⟩ := h.brands id b hb
    obtain ⟨b'', hb, hname'⟩ := h'.brands id b' hb
    exact ⟨b'', hb, hname'.trans hname⟩
  rates id r hr := by
    obtain ⟨r', hr, hcountry⟩ := h.rates id r hr
    obtain ⟨r'', hr, hcountry'⟩ := h'.rates id r' hr
    exact ⟨r'', hr, hcountry'.trans hcountry⟩
  shown c hc := h'.shown c (h.shown c hc)
  offered x hx := h'.offered x (h.offered x hx)

end GiftLater

/-- A joined row is joined from a brand and a rate. -/
lemma join_eq_some {w : GiftWorld} {id : Uuid} {row : Submission} {card : ShownCard} :
    w.join id row = some card ↔ ∃ b r, w.brands.get? row.brandId = some b ∧
      w.rates.get? row.rateId = some r ∧ card = ⟨id, row, b.name, r.countryCode⟩ := by
  unfold GiftWorld.join
  constructor
  · intro h
    obtain ⟨b, hb, h⟩ := Option.bind_eq_some_iff.mp h
    obtain ⟨r, hr, rfl⟩ := Option.map_eq_some_iff.mp h
    exact ⟨b, r, hb, hr, rfl⟩
  · rintro ⟨b, r, hb, hr, rfl⟩
    rw [hb, hr]
    rfl

/-- The join of a row, later: the row may have been reviewed. -/
lemma GiftLater.join {w w' : GiftWorld} (h : GiftLater w w') {id : Uuid} {row : Submission}
    {card : ShownCard} (hjoin : w.join id row = some card) (status : SubmissionStatus) :
    w'.join id (row.reviewed status) = some { card with row := row.reviewed status } := by
  obtain ⟨b, r, hb, hr, rfl⟩ := join_eq_some.mp hjoin
  obtain ⟨b', hb', hname⟩ := h.brands _ b hb
  obtain ⟨r', hr', hcountry⟩ := h.rates _ r hr
  exact join_eq_some.mpr ⟨b', r', hb', hr', by rw [hname, hcountry]⟩

lemma findSubmission_eq_some {w : GiftWorld} {userId : Uuid} {key : String}
    {r : Uuid × Submission} (h : w.findSubmission userId key = some r) :
    r ∈ w.submissions.rows ∧ r.2.idempotencyKey = key ∧ r.2.userId = userId :=
  ⟨List.mem_of_find?_eq_some h, by simpa using List.find?_some h⟩

lemma findRate_eq_some {w : GiftWorld} {brandId : Uuid} {countryCode : String}
    {x : Uuid × GiftRate × GiftBrand} (h : w.findRate brandId countryCode = some x) :
    w.rates.get? x.1 = some x.2.1 ∧ w.brands.get? brandId = some x.2.2 ∧
      x.2.1.brandId = brandId ∧ x.2.1.countryCode = countryCode := by
  obtain ⟨r, hr, h⟩ := Option.bind_eq_some_iff.mp h
  obtain ⟨b, hb, rfl⟩ := Option.map_eq_some_iff.mp h
  have hmem := List.mem_of_find?_eq_some hr
  have hwhere := List.find?_some hr
  simp only [Bool.and_eq_true, decide_eq_true_eq] at hwhere
  obtain ⟨⟨⟨rfl, hcountry⟩, -⟩, -⟩ := hwhere
  exact ⟨Table.get?_eq_some_iff.mpr hmem, hb, rfl, hcountry⟩

/-! ## The invariant -/

/-- What has been told is told of a row, which stands as it was but for its review. -/
def Told (w : GiftWorld) (c : ShownCard) : Prop :=
  ∃ status, w.submissions.get? c.id = some (c.row.reviewed status) ∧
    w.join c.id (c.row.reviewed status) = some { c with row := c.row.reviewed status }

lemma Told.later {w w' : GiftWorld} {c : ShownCard} (h : Told w c) (hlater : GiftLater w w') :
    Told w' c := by
  obtain ⟨status, hrow, hjoin⟩ := h
  obtain ⟨status', hrow'⟩ := hlater.rows _ _ hrow
  exact ⟨status', hrow', hlater.join hjoin status'⟩

/-- A joined row may be told of. -/
lemma told_of_join {w : GiftWorld} {id : Uuid} {row : Submission} {card : ShownCard}
    (hrow : w.submissions.get? id = some row) (hjoin : w.join id row = some card) :
    Told w card := by
  obtain ⟨b, r, hb, hr, rfl⟩ := join_eq_some.mp hjoin
  exact ⟨row.status, hrow, hjoin⟩

/-- The row is paid at its rate, and within the limits it was checked against. -/
structure FairRow (w : GiftWorld) (r : Uuid × Submission) : Prop where
  priced : r.2.payoutNgn = roundDp (r.2.faceValue * r.2.ratePerUnit) 4
  within : ∃ rate, (r.1, rate) ∈ w.terms ∧ (r.2.rateId, rate) ∈ w.offered ∧
    rate.brandId = r.2.brandId ∧ rate.ratePerUnit = r.2.ratePerUnit ∧
    rate.minFaceValue ≤ r.2.faceValue ∧ r.2.faceValue ≤ rate.maxFaceValue

/-- No two rows share a key, every row can be joined and is fair, what has been told is true, and
a rate that stands has been offered. -/
structure GiftSound (w : GiftWorld) : Prop where
  keys : ∀ r ∈ w.submissions.rows, ∀ r' ∈ w.submissions.rows,
    r.2.idempotencyKey = r'.2.idempotencyKey → r = r'
  joined : ∀ r ∈ w.submissions.rows, ∃ card, w.join r.1 r.2 = some card
  fair : ∀ r ∈ w.submissions.rows, FairRow w r
  told : ∀ c ∈ w.shown, Told w c
  offered : ∀ id r, w.rates.get? id = some r → (id, r) ∈ w.offered

lemma giftSound_open (now : Time) : GiftSound (openDesk now).world where
  keys _ hr := absurd hr List.not_mem_nil
  joined _ hr := absurd hr List.not_mem_nil
  fair _ hr := absurd hr List.not_mem_nil
  told _ hc := absurd hc List.not_mem_nil
  offered _ _ hr := by cases hr

/-- A change that makes no row and tells only what is true. -/
lemma GiftSound.later {w w' : GiftWorld} (h : GiftSound w) (hlater : GiftLater w w')
    (hrows : ∀ r ∈ w'.submissions.rows, ∃ row, (r.1, row) ∈ w.submissions.rows ∧
      r.2 = row.reviewed r.2.status) (hterms : w'.terms = w.terms)
    (hshown : ∀ c ∈ w'.shown, c ∈ w.shown ∨ Told w' c)
    (hoffered : ∀ id r, w'.rates.get? id = some r → (id, r) ∈ w'.offered) : GiftSound w' where
  keys r hr r' hr' hkey := by
    obtain ⟨row, hrow, heq⟩ := hrows r hr
    obtain ⟨row', hrow', heq'⟩ := hrows r' hr'
    rw [heq, heq'] at hkey
    have hsame : (r.1, row) = (r'.1, row') := h.keys _ hrow _ hrow' hkey
    have hid : r.1 = r'.1 := (Prod.mk.inj hsame).1
    have hget := (Table.get?_eq_some_iff (a := r.2)).mpr hr
    rw [hid, (Table.get?_eq_some_iff (a := r'.2)).mpr hr'] at hget
    exact Prod.ext hid (Option.some.inj hget).symm
  joined r hr := by
    obtain ⟨row, hrow, heq⟩ := hrows r hr
    obtain ⟨card, hcard⟩ := h.joined _ hrow
    exact ⟨_, (congrArg (w'.join r.1) heq).trans (hlater.join hcard r.2.status)⟩
  fair r hr := by
    obtain ⟨row, hrow, heq⟩ := hrows r hr
    obtain ⟨hpriced, rate, hrate, hoffer, hwithin⟩ := h.fair _ hrow
    rw [show r = (r.1, row.reviewed r.2.status) from Prod.ext rfl heq]
    exact ⟨hpriced, rate, hterms ▸ hrate, hlater.offered _ hoffer, hwithin⟩
  told c hc := (hshown c hc).elim (fun hc => (h.told c hc).later hlater) id
  offered := hoffered

/-- A change of brands and rates alone. -/
lemma GiftSound.catalogue {w w' : GiftWorld} (h : GiftSound w) (hlater : GiftLater w w')
    (hrows : w'.submissions = w.submissions) (hterms : w'.terms = w.terms)
    (hshown : w'.shown = w.shown)
    (hoffered : ∀ id r, w'.rates.get? id = some r → (id, r) ∈ w'.offered) : GiftSound w' :=
  h.later hlater (fun r hr => ⟨r.2, hrows ▸ hr, rfl⟩) hterms (fun _ hc => .inl (hshown ▸ hc))
    hoffered

/-- The insertion is of a card that was checked: its values are those of the rate it was quoted,
and that rate was offered. -/
def Quoted (_ : ℕ) (_ : SubmitRequest) (_ : List (Uuid × Submission)) : GiftOp → GiftWorld → Prop
  | .insert n, w => n.rate.brandId = n.brandId ∧ n.rate.minFaceValue ≤ n.faceValue ∧
      n.faceValue ≤ n.rate.maxFaceValue ∧
      n.payoutNgn = roundDp (n.faceValue * n.rate.ratePerUnit) 4 ∧
      (n.rateId, n.rate) ∈ w.offered ∧
      (∃ b, w.brands.get? n.brandId = some b) ∧ ∃ r, w.rates.get? n.rateId = some r
  | _, _ => True

/-! ## Steps -/

section Steps

variable {w w' : GiftWorld} {ω : GiftOracle}

lemma giftLater_of_move {e : GiftMove} (h : moveGift e w = some w') : GiftLater w w' := by
  have hsame := GiftLater.refl w
  cases e with
  | tick =>
      cases h
      exact ⟨hsame.rows, hsame.brands, hsame.rates, hsame.shown, hsame.offered⟩
  | addBrand id brand =>
      obtain ⟨brands, hins, rfl⟩ := Option.map_eq_some_iff.mp h
      refine ⟨hsame.rows, fun i b hb => ⟨b, ?_, rfl⟩, hsame.rates, hsame.shown, hsame.offered⟩
      rw [Table.get?_insert hins, if_neg]
      · exact hb
      · rintro rfl
        cases hb.symm.trans (Table.insert_eq_some hins).1
  | addRate id rate =>
      simp only [moveGift] at h
      split at h
      · obtain ⟨rates, hins, rfl⟩ := Option.map_eq_some_iff.mp h
        refine ⟨hsame.rows, hsame.brands, fun i r hr => ⟨r, ?_, rfl⟩, hsame.shown,
          fun x hx => List.mem_cons_of_mem _ hx⟩
        rw [Table.get?_insert hins, if_neg]
        · exact hr
        · rintro rfl
          cases hr.symm.trans (Table.insert_eq_some hins).1
      · cases h
  | retune id rate =>
      simp only [moveGift] at h
      split at h
      · rename_i hsome
        cases h
        refine ⟨hsame.rows, hsame.brands, fun i r hr => ?_, hsame.shown,
          fun x hx => List.mem_cons_of_mem _ hx⟩
        obtain ⟨r₀, hr₀, hkept⟩ := (Option.any_eq_true _ _).mp hsome
        have hkept : r₀.brandId = rate.brandId ∧ r₀.countryCode = rate.countryCode :=
          of_decide_eq_true hkept
        simp only [Table.get?_modify]
        split
        · rename_i hi
          subst hi
          cases hr.symm.trans hr₀
          exact ⟨rate, by rw [hr]; rfl, hkept.2.symm⟩
        · exact ⟨r, hr, rfl⟩
      · cases h
  | offer brandId active =>
      cases h
      refine ⟨hsame.rows, fun i b hb => ?_, hsame.rates, hsame.shown, hsame.offered⟩
      simp only [Table.get?_modify, hb]
      split <;> exact ⟨_, rfl, rfl⟩
  | review id status =>
      cases h
      refine ⟨fun i row hrow => ?_, hsame.brands, hsame.rates, hsame.shown, hsame.offered⟩
      simp only [Table.get?_modify, hrow]
      split
      · exact ⟨status, rfl⟩
      · exact ⟨row.status, rfl⟩

lemma giftSound_of_move {e : GiftMove} (h : moveGift e w = some w') (hw : GiftSound w) :
    GiftSound w' := by
  have hlater := giftLater_of_move h
  cases e with
  | review id status =>
      cases h
      refine hw.later hlater (fun r hr => ?_) rfl (fun c hc => .inl hc) hw.offered
      rcases Table.mem_modify.mp hr with ⟨-, hr⟩ | ⟨hid, row, hrow, heq⟩
      · exact ⟨r.2, hr, rfl⟩
      · exact ⟨row, hid ▸ hrow, by rw [heq]; rfl⟩
  | tick | offer =>
      cases h
      exact hw.catalogue hlater rfl rfl rfl hw.offered
  | addBrand =>
      obtain ⟨brands, -, rfl⟩ := Option.map_eq_some_iff.mp h
      exact hw.catalogue hlater rfl rfl rfl hw.offered
  | addRate id rate =>
      simp only [moveGift] at h
      split at h
      · obtain ⟨rates, hinsert, rfl⟩ := Option.map_eq_some_iff.mp h
        refine hw.catalogue hlater rfl rfl rfl fun i r hr => ?_
        rw [Table.get?_insert hinsert] at hr
        split_ifs at hr with hi
        · cases hr
          exact hi ▸ List.mem_cons_self
        · exact List.mem_cons_of_mem _ (hw.offered i r hr)
      · cases h
  | retune id rate =>
      simp only [moveGift] at h
      split at h
      · cases h
        refine hw.catalogue hlater rfl rfl rfl fun i r hr => ?_
        simp only [Table.get?_modify] at hr
        split_ifs at hr with hi
        · obtain ⟨r₀, -, rfl⟩ := Option.map_eq_some_iff.mp hr
          exact hi ▸ List.mem_cons_self
        · exact List.mem_cons_of_mem _ (hw.offered i r hr)
      · cases h

/-- **What an insertion does.**  It is refused, or it makes a row under a key that no row had and
tells of it. -/
lemma execGift_insert {n : NewSubmission} {r : Option (Uuid × String × Time)}
    (h : execGift (.insert n) ω w = some (r, w')) :
    (w' = w ∧ r = none ∧
      ¬ (n.storable = true ∧ Unclaimed w n.key (giftReference ω.reference))) ∨
    (Unclaimed w n.key (giftReference ω.reference) ∧
      r = some (ω.id, giftReference ω.reference, w.now) ∧ ∃ submissions card,
        w.submissions.insert ω.id (n.row (giftReference ω.reference) w.now) = some submissions ∧
        w.join ω.id (n.row (giftReference ω.reference) w.now) = some card ∧
        w' = { w with
          submissions := submissions, shown := card :: w.shown,
          terms := (ω.id, n.rate) :: w.terms }) := by
  simp only [execGift] at h
  split at h
  · rename_i hfree
    simp only [Bool.and_eq_true, decide_eq_true_eq] at hfree
    obtain ⟨submissions, hinsert, h⟩ := Option.bind_eq_some_iff.mp h
    obtain ⟨card, hcard, h⟩ := Option.map_eq_some_iff.mp h
    cases h
    exact .inr ⟨hfree.2, rfl, submissions, card, hinsert, hcard, rfl⟩
  · rename_i hclaimed
    cases h
    exact .inl ⟨rfl, rfl, by simpa using hclaimed⟩

/-- What a lookup answers. -/
lemma execGift_findByKey {userId : Uuid} {key : String} {r : Option SubmissionResponse}
    (h : execGift (.findByKey userId key) ω w = some (r, w')) :
    (w' = w ∧ r = none ∧
      (w.findSubmission userId key).bind (fun r => w.join r.1 r.2) = none) ∨
    ∃ id row card, w.submissions.get? id = some row ∧ row.userId = userId ∧
      row.idempotencyKey = key ∧ w.join id row = some card ∧ r = some card.response ∧
      w' = { w with shown := card :: w.shown } := by
  simp only [execGift] at h
  split at h
  · rename_i card hcard
    cases h
    obtain ⟨⟨id, row⟩, hfind, hjoin⟩ := Option.bind_eq_some_iff.mp hcard
    obtain ⟨hmem, hkey, huser⟩ := findSubmission_eq_some hfind
    exact .inr ⟨id, row, card, Table.get?_eq_some_iff.mpr hmem, huser, hkey, hjoin, rfl, rfl⟩
  · rename_i hnone
    cases h
    exact .inl ⟨rfl, rfl, hnone⟩

lemma giftLater_of_exec {op : GiftOp} {r : op.Res} (h : execGift op ω w = some (r, w')) :
    GiftLater w w' := by
  have hsame := GiftLater.refl w
  cases op with
  | findRate =>
      cases h
      exact hsame
  | findByKey =>
      rcases execGift_findByKey h with ⟨rfl, -⟩ | ⟨id, row, card, -, -, -, -, -, rfl⟩
      · exact hsame
      · exact ⟨hsame.rows, hsame.brands, hsame.rates, fun c hc => List.mem_cons_of_mem _ hc,
          hsame.offered⟩
  | insert n =>
      rcases execGift_insert h with ⟨rfl, -⟩ | ⟨-, -, submissions, card, hinsert, -, rfl⟩
      · exact hsame
      · refine ⟨fun i row hrow => ⟨row.status, ?_⟩, hsame.brands, hsame.rates,
          fun c hc => List.mem_cons_of_mem _ hc, hsame.offered⟩
        rw [Table.get?_insert hinsert, if_neg]
        · exact hrow
        · rintro rfl
          cases hrow.symm.trans (Table.insert_eq_some hinsert).1

lemma giftSound_of_exec {tid : ℕ} {req : SubmitRequest} {born : List (Uuid × Submission)}
    {op : GiftOp} {r : op.Res} (hw : GiftSound w) (hP : Insertable tid req born op ω w)
    (hC : Quoted tid req born op w) (h : execGift op ω w = some (r, w')) : GiftSound w' := by
  have hlater := giftLater_of_exec h
  cases op with
  | findRate =>
      cases h
      exact hw
  | findByKey =>
      rcases execGift_findByKey h with ⟨rfl, -⟩ | ⟨id, row, card, hrow, -, -, hjoin, -, rfl⟩
      · exact hw
      · refine hw.later hlater (fun r hr => ⟨r.2, hr, rfl⟩) rfl (fun c hc => ?_) hw.offered
        rcases List.mem_cons.mp hc with rfl | hc
        · exact .inr (told_of_join (w := { w with shown := c :: w.shown }) hrow hjoin)
        · exact .inl hc
  | insert n =>
      rcases execGift_insert h with ⟨rfl, -⟩ | ⟨hfree, -, submissions, card, hinsert, hjoin, rfl⟩
      · exact hw
      obtain ⟨-, hface, -⟩ := hP
      obtain ⟨hbrand, hmin, hmax, hpayout, hoffer, -, -⟩ := hC
      obtain ⟨-, hrows⟩ := Table.insert_eq_some hinsert
      -- The new row keeps what was computed, as its columns round nothing away.
      have hpaid : scaled 4 n.payoutNgn = n.payoutNgn := hpayout ▸ scaled_roundDp _ 4
      have hcases : ∀ r ∈ submissions.rows,
          r = (ω.id, n.row (giftReference ω.reference) w.now) ∨ r ∈ w.submissions.rows :=
        fun r hr => List.mem_cons.mp (hrows ▸ hr)
      refine ⟨fun r hr r' hr' hkey => ?_, fun r hr => ?_, fun r hr => ?_, fun c hc => ?_,
        hw.offered⟩
      · rcases hcases r hr with rfl | hr <;> rcases hcases r' hr' with rfl | hr'
        · rfl
        · exact absurd hkey.symm (hfree r' hr').1
        · exact absurd hkey (hfree r hr).1
        · exact hw.keys r hr r' hr' hkey
      · rcases hcases r hr with rfl | hr
        · exact ⟨card, hjoin⟩
        · exact hw.joined r hr
      · rcases hcases r hr with rfl | hr
        · refine ⟨?_, n.rate, List.mem_cons_self, hoffer, hbrand, n.rate.rate_scale.symm, ?_, ?_⟩
          · simpa only [NewSubmission.row, hface, hpaid, n.rate.rate_scale] using hpayout
          · simpa only [NewSubmission.row, hface] using hmin
          · simpa only [NewSubmission.row, hface] using hmax
        · obtain ⟨hpriced, rate, hrate, hwithin⟩ := hw.fair r hr
          exact ⟨hpriced, rate, List.mem_cons_of_mem _ hrate, hwithin⟩
      · rcases List.mem_cons.mp hc with rfl | hc
        · exact told_of_join ((Table.get?_insert hinsert _).trans (if_pos rfl)) hjoin
        · exact (hw.told c hc).later hlater

end Steps

/-! ## The program -/

/-- What `submit` answers: what the database told of a row of its user and key, or a refusal of
the request itself, if there was no such row when it came. -/
def GiftAnswer (req : SubmitRequest) (born : List (Uuid × Submission)) :
    Except ApiError SubmissionResponse → GiftWorld → Prop
  | .ok resp, w => ∃ c ∈ w.shown, c.response = resp ∧ c.row.userId = req.userId ∧
      c.row.idempotencyKey = req.key
  | .error e, _ => (∃ text, e = .badRequest text) ∧
      ∀ r ∈ born, ¬ (r.2.userId = req.userId ∧ r.2.idempotencyKey = req.key)

lemma checkCard_eq_error {req : SubmitRequest} {e : ApiError}
    (h : GiftCards.checkCard req = .error e) : ∃ text, e = .badRequest text := by
  unfold GiftCards.checkCard at h
  split at h
  · cases h
    exact ⟨_, rfl⟩
  · split_ifs at h <;> cases h <;> exact ⟨_, rfl⟩

lemma checkRate_cases (decimalText : ℚ → String) (req : SubmitRequest) (faceValue : ℚ)
    (rate : GiftRate) (brand : GiftBrand) :
    (∃ text, GiftCards.checkRate decimalText req faceValue rate brand =
      .error (.badRequest text)) ∨
    (GiftCards.checkRate decimalText req faceValue rate brand = .ok () ∧
      rate.minFaceValue ≤ faceValue ∧ faceValue ≤ rate.maxFaceValue) := by
  unfold GiftCards.checkRate
  split_ifs with hmin hmax himage
  · exact .inl ⟨_, rfl⟩
  · exact .inl ⟨_, rfl⟩
  · exact .inl ⟨_, rfl⟩
  · exact .inr ⟨rfl, not_lt.mp hmin, not_lt.mp hmax⟩

/-- A lookup that finds nothing finds that there was nothing before. -/
lemma none_before {w w' : GiftWorld} (hw' : GiftSound w') (hlater : GiftLater w w')
    {userId : Uuid} {key : String}
    (h : (w'.findSubmission userId key).bind (fun r => w'.join r.1 r.2) = none) :
    ∀ r ∈ w.submissions.rows, ¬ (r.2.userId = userId ∧ r.2.idempotencyKey = key) := by
  rintro r hr ⟨rfl, rfl⟩
  obtain ⟨status, hrow⟩ := hlater.rows _ _ (Table.get?_eq_some_iff.mpr hr)
  rcases hfind : w'.findSubmission r.2.userId r.2.idempotencyKey with _ | found
  · have hno := List.find?_eq_none.mp hfind _ (Table.get?_eq_some_iff.mp hrow)
    simp [Submission.reviewed] at hno
  · obtain ⟨card, hcard⟩ := hw'.joined found (findSubmission_eq_some hfind).1
    rw [hfind] at h
    cases hcard.symm.trans h

/-- **A request keeps its contract and is answered right**, whatever the others do meanwhile. -/
lemma submit_safe (decimalText : ℚ → String) (tid : ℕ) (req : SubmitRequest) (w : GiftWorld) :
    Safe (giftDesk decimalText) GiftSound (fun _ => GiftLater) Insertable Quoted tid req
      w.submissions.rows (GiftAnswer req w.submissions.rows)
      (GiftCards.submit decimalText req) w := by
  unfold GiftCards.submit
  simp only [GiftCards.ask, Prog.perform_bind]
  intro w₁ hI₁ hR₁ ω₁ _
  refine ⟨trivial, fun found w₂ hfound => ?_⟩
  replace hfound : execGift (.findByKey req.userId req.key) ω₁ w₁ = some (found, w₂) := hfound
  rcases execGift_findByKey hfound with ⟨rfl, rfl, hnone⟩ |
    ⟨id, row, card, hrow, huser, hkey, hjoin, rfl, rfl⟩
  · have hnew := none_before hI₁ hR₁ hnone
    dsimp only
    split
    · exact ⟨checkCard_eq_error ‹_›, hnew⟩
    · rename_i faceValue _
      intro w₃ hI₃ hR₃ ω₃ hP₃
      refine ⟨trivial, fun quoted w₄ hquoted => ?_⟩
      obtain ⟨rfl, rfl⟩ := Prod.mk.inj (Option.some.inj hquoted)
      have hasked : storableText req.countryCode = true := hP₃
      rw [if_pos hasked]
      rcases hrate : w₃.findRate req.brandId req.countryCode with _ | ⟨rateId, rate, brand⟩
      · exact ⟨⟨_, rfl⟩, hnew⟩
      · dsimp only
        obtain ⟨hrateRow, hbrandRow, hbrandId, hcountry⟩ := findRate_eq_some hrate
        dsimp only at hrateRow hbrandRow hbrandId hcountry
        rcases checkRate_cases decimalText req faceValue rate brand with
          ⟨text, hcheck⟩ | ⟨hcheck, hmin, hmax⟩
        · rw [hcheck]
          exact ⟨⟨text, rfl⟩, hnew⟩
        · rw [hcheck]
          intro w₅ hI₅ hR₅ ω₅ hP₅
          obtain ⟨b, hb, hname⟩ := hR₅.brands _ _ hbrandRow
          obtain ⟨r, hr, hcountry'⟩ := hR₅.rates _ _ hrateRow
          have hoffer := hR₅.offered _ (hI₃.offered _ _ hrateRow)
          refine ⟨⟨hbrandId, hmin, hmax, rfl, hoffer, ⟨b, hb⟩, ⟨r, hr⟩⟩,
            fun stored w₆ hstored => ?_⟩
          rcases execGift_insert hstored with ⟨-, -, hclaimed⟩ |
            ⟨-, rfl, submissions, card, -, hjoin, rfl⟩
          · exact absurd ⟨hP₅.2.2, hP₅.1⟩ hclaimed
          · obtain ⟨b', r', hb', hr', rfl⟩ := join_eq_some.mp hjoin
            cases hb.symm.trans hb'
            cases hr.symm.trans hr'
            refine ⟨_, List.mem_cons_self, ?_, rfl, rfl⟩
            simp only [ShownCard.response, submissionResponse, NewSubmission.row, scaled_roundDp,
              hP₅.2.1, hname, hcountry', hcountry]
  · obtain ⟨b, r, -, -, rfl⟩ := join_eq_some.mp hjoin
    exact ⟨_, List.mem_cons_self, rfl, huser, hkey⟩

lemma giftDesk_keeps (decimalText : ℚ → String) :
    Keeps (giftDesk decimalText) GiftSound (fun _ => GiftLater) Insertable Quoted where
  refl _ w := .refl w
  trans h h' := h.trans h'
  env hI he := ⟨giftSound_of_move he hI, fun _ => giftLater_of_move he⟩
  op hI hP hC he := ⟨giftSound_of_exec hI hP hC he, fun _ _ => giftLater_of_exec he⟩
  spawn tid req w _ := (submit_safe decimalText tid req w).mono fun _ _ _ => trivial

/-! ## Every run -/

/-- What was told of a row of the user and the key describes the row that stands. -/
lemma answeredCard_of_answer {w : GiftWorld} (hw : GiftSound w) {req : SubmitRequest}
    {born : List (Uuid × Submission)} {a : Except ApiError SubmissionResponse}
    (h : GiftAnswer req born a w) : AnsweredCard w req born a := by
  rcases a with e | resp
  · exact h
  · obtain ⟨c, hc, rfl, huser, hkey⟩ := h
    obtain ⟨status, hrow, hjoin⟩ := hw.told c hc
    exact ⟨_, _, hrow, huser, hkey, hjoin, rfl, c, hc, rfl⟩

/-- **Gift card submission is consistent and replayable** in every run in which each submission
comes to be inserted with a key and a reference that no row has, a face value of two decimals, and
amounts and texts its columns take. -/
theorem submissions_consistent {decimalText : ℚ → String} {now : Time} {s : GiftState}
    (h : (giftDesk decimalText).Reachable (onOps Insertable) (openDesk now) s) : Consistent s := by
  obtain ⟨hI, hT⟩ := (giftDesk_keeps decimalText).answers (Q := GiftAnswer)
    (fun {_ req born a w w'} hlater ha => by
      rcases a with e | resp
      · exact ha
      · obtain ⟨c, hc, hresp⟩ := ha
        exact ⟨c, hlater.shown c hc, hresp⟩)
    (fun tid req w _ => submit_safe decimalText tid req w) (giftSound_open now) (fun _ => rfl) h
  have hanswered : ∀ tid req born a, s.task tid = some ⟨req, born, .ret a⟩ →
      AnsweredCard s.world req born a :=
    fun tid req born a ht => answeredCard_of_answer hI (hT tid req born _ ht)
  refine ⟨fun r hr r' hr' _ hkey => hI.keys r hr r' hr' hkey, hanswered, ?_,
    fun r hr => (hI.fair r hr).priced, fun r hr => (hI.fair r hr).within⟩
  intro tid req born resp tid' req' born' resp' ht ht' huser hkey
  obtain ⟨row, card, hrow, -, hrkey, hjoin, hresp, -⟩ := hanswered tid req born _ ht
  obtain ⟨row', card', hrow', -, hrkey', hjoin', hresp', -⟩ := hanswered tid' req' born' _ ht'
  -- Both describe the one row that has the key.
  have hsame : (resp.id, row) = (resp'.id, row') :=
    hI.keys _ (Table.get?_eq_some_iff.mp hrow) _ (Table.get?_eq_some_iff.mp hrow')
      (hrkey.trans (hkey.trans hrkey'.symm))
  obtain ⟨hid, rfl⟩ := Prod.mk.inj hsame
  rw [← hid] at hjoin'
  cases hjoin.symm.trans hjoin'
  rw [hresp', hresp]

/-- One brand, bought at ₦1 080 to the dollar. -/
def amazonRate : GiftRate where
  brandId := 1
  countryCode := "US"
  currency := "USD"
  ratePerUnit := 1080
  minFaceValue := 10
  maxFaceValue := 1000
  active := true
  rate_positive := by norm_num
  rate_scale := by decide +kernel
  min_scale := by decide +kernel
  max_scale := by decide +kernel
  range_sane := by norm_num

/-- A card is submitted under a key, without interruption. -/
def submits (tid : ℕ) (userId : Uuid) (key : String) (faceValue : ℚ) (answers : List GiftOracle) :
    List GiftAct :=
  .spawn tid ⟨userId, key, 1, "US", some faceValue, "AQ1", none, none⟩ :: answers.map (.resume tid)

/-- Amazon cards are bought. -/
def sellsAmazon : List GiftAct :=
  [.env (.addBrand 1 ⟨"Amazon", false, true⟩), .env (.addRate 11 amazonRate)]

/-- Two users submit a card each, and one of them does so twice. -/
theorem submissions_consistent_replayed :
    ∃ s, (giftDesk fun _ => "").Reachable (onOps Insertable) (openDesk 0) s ∧
      s.world.submissions.rows.length = 2 ∧ Consistent s := by
  obtain ⟨s, hs, hrows⟩ := exists_reachable_of_run (giftDesk fun _ => "") (onOps Insertable)
    (openDesk 0) (sellsAmazon ++ submits 0 7 "a" 25 [{}, {}, ⟨100, 2 ^ 120⟩] ++
      submits 1 7 "a" 25 [{}] ++ submits 2 8 "b" 50 [{}, {}, ⟨101, 2 ^ 121⟩])
    (fun s => s.world.submissions.rows.length = 2) (by decide +kernel)
  exact ⟨s, hs, hrows, submissions_consistent hs⟩

/-- A card of 10.005 dollars is stored as one of 10.01 and paid as one of 10.005. -/
theorem card_paid_unrounded :
    ¬ ∀ (now : Time) (s : GiftState),
      (giftDesk fun _ => "").Reachable unguarded (openDesk now) s → Consistent s := by
  intro h
  obtain ⟨s, hs, r, hr, hne⟩ := exists_reachable_of_run (giftDesk fun _ => "") unguarded
    (openDesk 0) (sellsAmazon ++ submits 0 7 "a" (2001 / 200) [{}, {}, ⟨100, 2 ^ 120⟩])
    (fun s => ∃ r ∈ s.world.submissions.rows,
      r.2.payoutNgn ≠ roundDp (r.2.faceValue * r.2.ratePerUnit) 4) (by decide +kernel)
  exact hne ((h 0 s hs).priced r hr)

end Naivolt
