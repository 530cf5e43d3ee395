import Naivolt.Foundation.Actors
import Naivolt.Auth.Identifier
import Naivolt.Payouts.Payout
import Naivolt.Users.AgeGate

/-!
# The verification ladder

A user climbs from tier 0 to tier 3, and every rung asks for a document of its own.  `submit` reads
the user's tier, looks for a submission that is still open, takes what is missing from the profile,
checks it, and in one transaction inserts a verification for the next tier and — in development
only — raises the tier.  Elsewhere somebody reviews it.  Whoever raises a tier meets
`assert_tier_is_earned`, the trigger that asks for an approved verification of that tier or a
higher one.

Nothing holds the user between the reads and the transaction, and other submissions, reviews and
changes of the tier may come in between.  The trigger alone does not say that a rung was not
skipped, nor what was shown for it.  `every_tier_earned` does.
-/

namespace Naivolt

open Foundation Foundation.Machine

/-! ## The ladder -/

namespace KycTier

def fromI16 (v : ℤ) : Option KycTier :=
  if v = 0 then some tier0
  else if v = 1 then some tier1
  else if v = 2 then some tier2
  else if v = 3 then some tier3
  else none

def asI16 : KycTier → ℤ
  | tier0 => 0
  | tier1 => 1
  | tier2 => 2
  | tier3 => 3

def canWithdraw (tier : KycTier) : Bool := tier.dailyPayoutCap.isSome

end KycTier

/-- The document a tier asks for. -/
inductive KycRequirement where
  | bvn | nin | address
  deriving DecidableEq

namespace KycRequirement

/-- The token the client branches on. -/
def asStr : KycRequirement → String
  | bvn => "bvn"
  | nin => "nin"
  | address => "address"

def toUppercase : KycRequirement → String
  | bvn => "BVN"
  | nin => "NIN"
  | address => "ADDRESS"

end KycRequirement

def nextRequirement : KycTier → Option KycRequirement
  | .tier0 => some .bvn
  | .tier1 => some .nin
  | .tier2 => some .address
  | .tier3 => none

/-- The tier that a stored value stands for. -/
def kycTierOf (tierRaw : ℤ) : KycTier := (KycTier.fromI16 tierRaw).getD .tier0

structure TierInfo where
  tier : ℤ
  name : String
  requirement : String
  dailyLimitNgn : ℚ
  deriving DecidableEq

def tierLadder : List TierInfo :=
  [(KycTier.tier0, "Unverified", "Nothing — you're here by default"),
    (KycTier.tier1, "Verified", "Your BVN, name and date of birth"),
    (KycTier.tier2, "Full", "Your NIN and a selfie"),
    (KycTier.tier3, "Premium", "Proof of address")].map fun (tier, name, requirement) =>
      ⟨tier.asI16, name, requirement, tier.dailyPayoutCap.getD 0⟩

/-! ## Tables -/

inductive KycStatus where
  | pending | manualReview | approved | rejected
  deriving DecidableEq

/-- Nobody has decided yet. -/
def KycStatus.isOpen : KycStatus → Bool
  | pending | manualReview => true
  | approved | rejected => false

/-- A row of `kyc_verifications`. -/
structure KycVerification where
  userId : Uuid
  targetTier : ℤ
  provider : String
  status : KycStatus
  bvnLast4 : Option (List Char)
  ninLast4 : Option (List Char)
  fullName : String
  dateOfBirth : Date
  rejectionReason : Option String
  reviewedAt : Option Time
  createdAt : Time

/-- The columns of `users` that matter here. -/
structure KycUser where
  kycTier : ℤ
  displayName : Option String
  dateOfBirth : Option Date

/-- What a verification was submitted with, for the record: the number is not stored. -/
structure KycSubmission where
  verification : Uuid
  userId : Uuid
  idNumber : String
  today : Date

structure KycWorld where
  now : Time
  users : Table Uuid KycUser
  verifications : Table Uuid KycVerification
  /-- The submissions whose transaction has committed. -/
  submissions : List KycSubmission

/-- Nobody has signed up. -/
def KycWorld.fresh (now : Time) : KycWorld := ⟨now, .empty, .empty, []⟩

namespace KycWorld

/-- What `assert_tier_is_earned` looks for. -/
def tierIsEarned (w : KycWorld) (userId : Uuid) (tier : ℤ) : Bool :=
  w.verifications.rows.any fun r =>
    r.2.userId = userId && decide (tier ≤ r.2.targetTier) && decide (r.2.status = .approved)

/-- `UPDATE users SET kyc_tier`, unless the trigger raises. -/
def setTier (w : KycWorld) (userId : Uuid) (tier : ℤ) : Option KycWorld :=
  match w.users.get? userId with
  | none => some w
  | some x =>
    if x.kycTier < tier && !w.tierIsEarned userId tier then none
    else some { w with users := w.users.modify userId fun x => { x with kycTier := tier } }

/-- `CHECK (… ~ '^[0-9]{4}$')`. -/
def lastFourOk (digits : Option (List Char)) : Bool :=
  digits.all fun l => l.length = 4 && l.all Char.isDigit

/-- `INSERT INTO kyc_verifications`, unless a constraint is violated: the user exists, the tier is
one to be reached, the digits are digits, and the user has one open verification for a tier. -/
def insertVerification (w : KycWorld) (id : Uuid) (row : KycVerification) : Option KycWorld :=
  if (w.users.get? row.userId).isSome && decide (1 ≤ row.targetTier ∧ row.targetTier ≤ 3) &&
      lastFourOk row.bvnLast4 && lastFourOk row.ninLast4 &&
      !(row.status.isOpen && w.verifications.rows.any fun r =>
        r.2.userId = row.userId && decide (r.2.targetTier = row.targetTier) && r.2.status.isOpen)
  then (w.verifications.insert id row).map fun t => { w with verifications := t }
  else none

/-- `UPDATE users SET display_name = COALESCE(display_name, $1), …`. -/
def completeProfile (w : KycWorld) (userId : Uuid) (fullName : String) (dob : Date) : KycWorld :=
  { w with users := w.users.modify userId fun x =>
      { x with displayName := some (x.displayName.getD fullName),
               dateOfBirth := some (x.dateOfBirth.getD dob) } }

end KycWorld

/-! ## Operations -/

/-- What the transaction of a submission writes. -/
structure NewVerification where
  userId : Uuid
  targetTier : ℤ
  bvnLast4 : Option (List Char)
  ninLast4 : Option (List Char)
  fullName : String
  dateOfBirth : Date

/-- What the program does not decide: a random identifier and the date. -/
structure KycOracle where
  fresh : Uuid := 0
  today : Date

inductive KycOp where
  | selectTier (userId : Uuid)
  /-- The target of a submission that is pending or in review. -/
  | selectOpen (userId : Uuid)
  | selectProfile (userId : Uuid)
  /-- The most recent submission that has not raised the tier. -/
  | selectUnsettled (userId : Uuid)
  | today
  /-- The transaction of `submit`; the number and the date are for the record. -/
  | submitVerification (v : NewVerification) (autoApprove : Bool) (idNumber : String) (today : Date)

abbrev KycOp.Res : KycOp → Type
  | selectTier _ => Option ℤ
  | selectOpen _ => Option ℤ
  | selectProfile _ => Option (Option String × Option Date)
  | selectUnsettled _ => Option KycVerification
  | today => Date
  | submitVerification .. => Except ApiError Unit

/-- The row that a submission inserts. -/
def NewVerification.row (v : NewVerification) (autoApprove : Bool) (now : Time) :
    KycVerification where
  userId := v.userId
  targetTier := v.targetTier
  provider := if autoApprove then "dev" else "manual"
  status := if autoApprove then .approved else .pending
  bvnLast4 := v.bvnLast4
  ninLast4 := v.ninLast4
  fullName := v.fullName
  dateOfBirth := v.dateOfBirth
  rejectionReason := none
  reviewedAt := if autoApprove then some now else none
  createdAt := now

/-- The transaction of `submit`. -/
def KycWorld.submitted (w : KycWorld) (id : Uuid) (v : NewVerification) (autoApprove : Bool)
    (idNumber : String) (today : Date) : Option KycWorld := do
  let w₁ ← w.insertVerification id (v.row autoApprove w.now)
  let w₂ := { w₁ with submissions := ⟨id, v.userId, idNumber, today⟩ :: w.submissions }
  let w₃ := w₂.completeProfile v.userId v.fullName v.dateOfBirth
  if autoApprove then w₃.setTier v.userId v.targetTier else some w₃

def execKyc : (op : KycOp) → KycOracle → KycWorld → Option (op.Res × KycWorld)
  | .selectTier userId, _, w => some ((w.users.get? userId).map (·.kycTier), w)
  | .selectOpen userId, _, w =>
      some ((w.verifications.rows.find? fun r => r.2.userId = userId && r.2.status.isOpen).map
        (·.2.targetTier), w)
  | .selectProfile userId, _, w =>
      some ((w.users.get? userId).map fun x => (x.displayName, x.dateOfBirth), w)
  | .selectUnsettled userId, _, w =>
      some (((w.verifications.rows.filter fun r =>
        r.2.userId = userId && (r.2.status.isOpen || r.2.status = .rejected)).argmax
          (·.2.createdAt)).map Prod.snd, w)
  | .today, ω, w => some (ω.today, w)
  | .submitVerification v autoApprove idNumber today, ω, w =>
      match w.submitted ω.fresh v autoApprove idNumber today with
      | none => some (.error (.internal "the transaction was refused"), w)
      | some w' => some (.ok (), w')

/-- What happens besides.  The table is open to whoever has the database: they are held to what
the trigger asks for, and decide what is open. -/
inductive KycMove where
  | tick (d : Time)
  | signUp (id : Uuid)
  /-- `update_me`. -/
  | profile (id : Uuid) (displayName : Option String) (dateOfBirth : Option Date)
  | review (verification : Uuid) (status : KycStatus) (reason : Option String)
  | setTier (id : Uuid) (tier : ℤ)

/-- A decision, if none has been taken. -/
def KycVerification.reviewed (v : KycVerification) (now : Time) (status : KycStatus)
    (reason : Option String) : KycVerification :=
  if v.status.isOpen then
    { v with status := status, rejectionReason := reason, reviewedAt := some now }
  else v

def moveKyc : KycMove → KycWorld → Option KycWorld
  | .tick d, w => some { w with now := w.now + d }
  | .signUp id, w => (w.users.insert id ⟨0, none, none⟩).map fun t => { w with users := t }
  | .profile id displayName dateOfBirth, w =>
      some { w with users := w.users.modify id fun x =>
        { x with displayName := displayName <|> x.displayName,
                 dateOfBirth := dateOfBirth <|> x.dateOfBirth } }
  | .review id status reason, w =>
      some { w with verifications := w.verifications.modify id (·.reviewed w.now status reason) }
  | .setTier id tier, w => w.setTier id tier

/-! ## The endpoints -/

abbrev KycProg (α : Type) := Prog KycOp KycOp.Res α

structure SubmitKycBody where
  idNumber : String
  fullName : Option String
  dateOfBirth : Option String

structure SubmitKycResponse where
  status : String
  tier : ℤ
  message : String
  deriving DecidableEq

structure PendingVerification where
  targetTier : ℤ
  status : KycStatus
  submittedAt : Time
  rejectionReason : Option String
  deriving DecidableEq

structure KycStatusResponse where
  tier : ℤ
  canWithdraw : Bool
  nextStep : Option String
  nextRequirement : Option KycRequirement
  pending : Option PendingVerification
  dailyLimitNgn : ℚ
  tiers : List TierInfo
  deriving DecidableEq

/-- The name of a submission, from the request or else from the profile. -/
def kycFullName (sent stored : Option String) : Except ApiError String :=
  match (sent.map trimText).filter (· ≠ "") <|> stored with
  | none => .error (.badRequest "Add your full name in your profile first.")
  | some fullName =>
    if countWords fullName.toList < 2 then
      .error (.badRequest "Enter your full name as it appears on your ID.")
    else .ok fullName

/-- The digits of what was typed. -/
def idDigits (idNumber : String) : List Char := idNumber.toList.filter Char.isDigit

/-- `&digits[digits.len() - 4..]`. -/
def lastFour (digits : List Char) : List Char := digits.drop (digits.length - 4)

/-- The checks of a submission but for the age. -/
def checkSubmission (parse : String → Option Date) (requirement : KycRequirement)
    (body : SubmitKycBody) (storedName : Option String) (storedDob : Option Date) :
    Except ApiError (String × Date) :=
  if (idDigits body.idNumber).length ≠ 11 then
    .error (.badRequest ("A " ++ requirement.toUppercase ++ " is 11 digits."))
  else do
    let fullName ← kycFullName body.fullName storedName
    let dob ← kycDateOfBirth parse body.dateOfBirth storedDob
    pure (fullName, dob)

/-- What a submission for the tier after `tierRaw` writes. -/
def newVerification (userId : Uuid) (tierRaw : ℤ) (requirement : KycRequirement)
    (idNumber fullName : String) (dob : Date) : NewVerification where
  userId := userId
  targetTier := tierRaw + 1
  bvnLast4 := if requirement = .bvn then some (lastFour (idDigits idNumber)) else none
  ninLast4 := if requirement = .nin then some (lastFour (idDigits idNumber)) else none
  fullName := fullName
  dateOfBirth := dob

/-- `submit`, for a user whose tier has a next one. -/
def submitFor (parse : String → Option Date) (autoApprove : Bool) (userId : Uuid) (tierRaw : ℤ)
    (requirement : KycRequirement) (body : SubmitKycBody) :
    KycProg (Except ApiError SubmitKycResponse) := do
  match ← Prog.perform (KycOp.selectOpen userId) with
  | some _ => pure (.error (.badRequest "We're already checking your details."))
  | none =>
    match ← Prog.perform (KycOp.selectProfile userId) with
    | none => pure (.error (.internal "no rows returned"))
    | some (storedName, storedDob) =>
      match checkSubmission parse requirement body storedName storedDob with
      | .error e => pure (.error e)
      | .ok (fullName, dob) =>
        let today ← Prog.perform KycOp.today
        match kycAgeCheck dob today with
        | .error e => pure (.error e)
        | .ok () =>
          let v := newVerification userId tierRaw requirement body.idNumber fullName dob
          match ← Prog.perform (KycOp.submitVerification v autoApprove body.idNumber today) with
          | .error e => pure (.error e)
          | .ok () =>
            if autoApprove then pure (.ok ⟨"approved", tierRaw + 1, "You're verified."⟩)
            else pure (.ok ⟨"pending", tierRaw,
              "We're checking your details. This usually takes a few minutes."⟩)

/-- `submit`. -/
def submitKyc (parse : String → Option Date) (autoApprove : Bool) (userId : Uuid)
    (body : SubmitKycBody) : KycProg (Except ApiError SubmitKycResponse) := do
  match ← Prog.perform (KycOp.selectTier userId) with
  | none => pure (.error (.internal "no rows returned"))
  | some tierRaw =>
    match nextRequirement (kycTierOf tierRaw) with
    | none => pure (.error (.badRequest "You're already fully verified."))
    | some requirement => submitFor parse autoApprove userId tierRaw requirement body

/-- `status`. -/
def kycStatus (userId : Uuid) : KycProg (Except ApiError KycStatusResponse) := do
  match ← Prog.perform (KycOp.selectTier userId) with
  | none => pure (.error (.internal "no rows returned"))
  | some tierRaw =>
    let tier := kycTierOf tierRaw
    let pending ← Prog.perform (KycOp.selectUnsettled userId)
    pure (.ok {
      tier := tierRaw
      canWithdraw := tier.canWithdraw
      nextStep := tier.nextStep
      nextRequirement := nextRequirement tier
      pending := pending.map fun v => ⟨v.targetTier, v.status, v.createdAt, v.rejectionReason⟩
      dailyLimitNgn := tier.dailyPayoutCap.getD 0
      tiers := tierLadder })

inductive KycRequest where
  | status (userId : Uuid)
  | submit (userId : Uuid) (body : SubmitKycBody)

inductive KycAnswer where
  | status (answer : Except ApiError KycStatusResponse)
  | submit (answer : Except ApiError SubmitKycResponse)

def kycProgram (parse : String → Option Date) (autoApprove : Bool) : KycRequest → KycProg KycAnswer
  | .status userId => do
      let answer ← kycStatus userId
      pure (.status answer)
  | .submit userId body => do
      let answer ← submitKyc parse autoApprove userId body
      pure (.submit answer)

/-- Any number of requests to `/kyc`, in a deployment that approves submissions itself or does
not. -/
def kyc (parse : String → Option Date) (autoApprove : Bool) :
    Machine KycOp KycOp.Res KycOracle KycMove KycWorld KycRequest Unit KycAnswer where
  exec _ op ω w := execKyc op ω w
  env e w := moveKyc e w
  program := kycProgram parse autoApprove
  stamp _ := ()

/-! ## What a rung is climbed with -/

/-- The verification was submitted with what its tier asks for: eleven digits, of which tiers 1 and
2 keep the last four and tier 3 none, a name of two words, and a date of birth eighteen times 365
days before or more, which is up to five days short of the eighteenth birthday. -/
structure Documents (row : KycVerification) (s : KycSubmission) : Prop where
  digits : (idDigits s.idNumber).length = 11
  bvn : row.bvnLast4 = if row.targetTier = 1 then some (lastFour (idDigits s.idNumber)) else none
  nin : row.ninLast4 = if row.targetTier = 2 then some (lastFour (idDigits s.idNumber)) else none
  name : 2 ≤ countWords row.fullName.toList
  age : 18 * 365 ≤ s.today.dayNumber - row.dateOfBirth.dayNumber

/-- The user has an approved verification for exactly this tier, which was submitted for them with
what the tier asks for. -/
def TierEarned (w : KycWorld) (userId : Uuid) (tier : ℤ) : Prop :=
  ∃ id row s, w.verifications.get? id = some row ∧ row.userId = userId ∧ row.targetTier = tier ∧
    row.status = .approved ∧ s ∈ w.submissions ∧ s.verification = id ∧ s.userId = userId ∧
    Documents row s

/-- Every rung below a tier has been earned. -/
def EarnedBelow (w : KycWorld) (userId : Uuid) (tier : ℤ) : Prop :=
  ∀ k, 1 ≤ k → k < tier → TierEarned w userId k

structure KycRowOk (w : KycWorld) (id : Uuid) (row : KycVerification) : Prop where
  submitted : ∃ s ∈ w.submissions, s.verification = id ∧ s.userId = row.userId ∧ Documents row s
  below : EarnedBelow w row.userId row.targetTier

/-- The invariant of the ladder. -/
structure KycOk (w : KycWorld) : Prop where
  rows : ∀ id row, w.verifications.get? id = some row → KycRowOk w id row
  tiers : ∀ u x, w.users.get? u = some x → 1 ≤ x.kycTier →
    ∃ id row, w.verifications.get? id = some row ∧ row.userId = u ∧ row.status = .approved ∧
      x.kycTier ≤ row.targetTier

/-- What a submission owes when it is written. -/
def KycContract (_ : ℕ) (_ : KycRequest) (_ : Unit) (op : KycOp) (w : KycWorld) : Prop :=
  match op with
  | .submitVerification v autoApprove idNumber today => EarnedBelow w v.userId v.targetTier ∧
      ∀ id now, 1 ≤ v.targetTier → v.targetTier ≤ 3 →
        Documents (v.row autoApprove now) ⟨id, v.userId, idNumber, today⟩
  | _ => True

/-- What everybody respects: what was submitted stays, and what was approved stays approved. -/
structure KycLater (w w' : KycWorld) : Prop where
  submissions : w.submissions ⊆ w'.submissions
  approved : ∀ id row, w.verifications.get? id = some row → row.status = .approved →
    w'.verifications.get? id = some row

namespace KycLater

lemma refl (w : KycWorld) : KycLater w w := ⟨fun _ h => h, fun _ _ h _ => h⟩

lemma trans {w w' w'' : KycWorld} (h : KycLater w w') (h' : KycLater w' w'') : KycLater w w'' :=
  ⟨fun _ hs => h'.submissions (h.submissions hs),
    fun id row hrow hok => h'.approved id row (h.approved id row hrow hok) hok⟩

lemma of_rows {w w' : KycWorld} (hrows : w'.verifications = w.verifications)
    (hsubmissions : w'.submissions = w.submissions) : KycLater w w' :=
  ⟨hsubmissions ▸ fun _ hs => hs, fun _ _ hrow _ => hrows ▸ hrow⟩

lemma tierEarned {w w' : KycWorld} (h : KycLater w w') {userId : Uuid} {tier : ℤ}
    (he : TierEarned w userId tier) : TierEarned w' userId tier := by
  obtain ⟨id, row, s, hrow, huser, htier, hok, hs, hid, hsuser, hdoc⟩ := he
  exact ⟨id, row, s, h.approved id row hrow hok, huser, htier, hok, h.submissions hs, hid, hsuser,
    hdoc⟩

lemma earnedBelow {w w' : KycWorld} (h : KycLater w w') {userId : Uuid} {tier : ℤ}
    (he : EarnedBelow w userId tier) : EarnedBelow w' userId tier :=
  fun k hk hlt => h.tierEarned (he k hk hlt)

end KycLater

section Invariant

variable {w w' : KycWorld} {id userId : Uuid} {tier : ℤ}

/-- A user at a tier has earned it and all below it. -/
lemma KycOk.earned (h : KycOk w) {x : KycUser} (hx : w.users.get? userId = some x) :
    EarnedBelow w userId (x.kycTier + 1) := by
  intro k hk hlt
  obtain ⟨id, row, hrow, rfl, happroved, hle⟩ := h.tiers userId x hx (by omega)
  obtain ⟨⟨s, hs, hid, hsuser, hdoc⟩, hbelow⟩ := h.rows id row hrow
  rcases lt_or_eq_of_le (show k ≤ row.targetTier by omega) with hlow | heq
  · exact hbelow k hk hlow
  · exact ⟨id, row, s, hrow, rfl, heq.symm, happroved, hs, hid, hsuser, hdoc⟩

/-- The trigger has found what it looks for. -/
lemma tierIsEarned_iff : w.tierIsEarned userId tier = true ↔
    ∃ id row, w.verifications.get? id = some row ∧ row.userId = userId ∧ row.status = .approved ∧
      tier ≤ row.targetTier := by
  simp only [KycWorld.tierIsEarned, List.any_eq_true, Bool.and_eq_true, decide_eq_true_eq]
  constructor
  · rintro ⟨⟨id, row⟩, hmem, ⟨huser, hle⟩, hok⟩
    exact ⟨id, row, Table.get?_eq_some_iff.mpr hmem, huser, hok, hle⟩
  · rintro ⟨id, row, hrow, huser, hok, hle⟩
    exact ⟨(id, row), Table.get?_eq_some_iff.mp hrow, ⟨huser, hle⟩, hok⟩

/-- The users' rows are rewritten, and no tier goes up. -/
lemma KycOk.of_users (h : KycOk w) (hrows : w'.verifications = w.verifications)
    (hsubmissions : w'.submissions = w.submissions)
    (husers : ∀ u x', w'.users.get? u = some x' → 1 ≤ x'.kycTier →
      w.tierIsEarned u x'.kycTier = true ∨
        ∃ x, w.users.get? u = some x ∧ x'.kycTier ≤ x.kycTier) : KycOk w' := by
  have hlater : KycLater w w' := .of_rows hrows hsubmissions
  refine ⟨fun id row hrow => ?_, fun u x' hx' hone => ?_⟩
  · obtain ⟨⟨s, hs, hrest⟩, hbelow⟩ := h.rows id row (hrows ▸ hrow)
    exact ⟨⟨s, hsubmissions ▸ hs, hrest⟩, hlater.earnedBelow hbelow⟩
  · rw [hrows]
    rcases husers u x' hx' hone with hearned | ⟨x, hx, hle⟩
    · exact tierIsEarned_iff.mp hearned
    · obtain ⟨id, row, hrow, huser, hok, hle'⟩ := h.tiers u x hx (hone.trans hle)
      exact ⟨id, row, hrow, huser, hok, hle.trans hle'⟩

/-- What a rewrite of a user's row leaves in the table. -/
lemma get?_modify_user {f : KycUser → KycUser} {u : Uuid} {x' : KycUser}
    (h : (w.users.modify userId f).get? u = some x') :
    ∃ x, w.users.get? u = some x ∧ (x' = x ∨ u = userId ∧ x' = f x) := by
  rw [Table.get?_modify] at h
  split at h
  · obtain ⟨x, hx, rfl⟩ := Option.map_eq_some_iff.mp h
    exact ⟨x, hx, .inr ⟨‹_›, rfl⟩⟩
  · exact ⟨x', h, .inl rfl⟩

/-- **The trigger keeps the ladder.** -/
lemma KycOk.setTier (h : KycOk w) (hset : w.setTier userId tier = some w') : KycOk w' := by
  unfold KycWorld.setTier at hset
  split at hset
  · cases hset
    exact h
  · rename_i x₀ hx₀
    split at hset
    · cases hset
    · rename_i hcond
      cases hset
      refine h.of_users rfl rfl fun u x' hx' hone => ?_
      obtain ⟨x, hx, rfl | ⟨rfl, rfl⟩⟩ := get?_modify_user hx'
      · exact .inr ⟨x', hx, le_rfl⟩
      · rw [hx₀, Option.some.injEq] at hx
        subst hx
        rcases lt_or_ge x₀.kycTier tier with hlt | hge
        · refine .inl ?_
          simpa [hlt] using hcond
        · exact .inr ⟨x₀, hx₀, hge⟩

lemma KycLater.setTier (hset : w.setTier userId tier = some w') : KycLater w w' := by
  unfold KycWorld.setTier at hset
  split at hset
  · cases hset
    exact .refl w
  · split at hset
    · cases hset
    · cases hset
      exact ⟨fun _ hs => hs, fun _ _ hrow _ => hrow⟩

/-- What an insertion has checked. -/
lemma insertVerification_eq_some {row : KycVerification}
    (h : w.insertVerification id row = some w') :
    w.verifications.get? id = none ∧ 1 ≤ row.targetTier ∧ row.targetTier ≤ 3 ∧
      w'.users = w.users ∧
      ∀ i, w'.verifications.get? i = if i = id then some row else w.verifications.get? i := by
  unfold KycWorld.insertVerification at h
  split at h
  · rename_i hcond
    simp only [Bool.and_eq_true, decide_eq_true_eq] at hcond
    obtain ⟨t, ht, rfl⟩ := Option.map_eq_some_iff.mp h
    exact ⟨(Table.insert_eq_some ht).1, hcond.1.1.1.2.1, hcond.1.1.1.2.2, rfl,
      Table.get?_insert ht⟩
  · cases h

lemma KycLater.completeProfile (w : KycWorld) (userId : Uuid) (fullName : String) (dob : Date) :
    KycLater w (w.completeProfile userId fullName dob) := .of_rows rfl rfl

/-- A profile is completed. -/
lemma KycOk.completeProfile (h : KycOk w) (userId : Uuid) (fullName : String) (dob : Date) :
    KycOk (w.completeProfile userId fullName dob) := by
  refine h.of_users rfl rfl fun u x' hx' _ => .inr ?_
  obtain ⟨x, hx, rfl | ⟨-, rfl⟩⟩ := get?_modify_user hx'
  · exact ⟨x', hx, le_rfl⟩
  · exact ⟨x, hx, le_rfl⟩

/-- **The transaction keeps the ladder.** -/
lemma KycOk.submitted {v : NewVerification} {autoApprove : Bool} {idNumber : String} {today : Date}
    (h : KycOk w) (hbelow : EarnedBelow w v.userId v.targetTier)
    (hdoc : ∀ id now, 1 ≤ v.targetTier → v.targetTier ≤ 3 →
      Documents (v.row autoApprove now) ⟨id, v.userId, idNumber, today⟩)
    (hsub : w.submitted id v autoApprove idNumber today = some w') : KycOk w' ∧ KycLater w w' := by
  simp only [KycWorld.submitted, Option.bind_eq_bind, Option.bind_eq_some_iff] at hsub
  obtain ⟨w₁, hins, hrest⟩ := hsub
  obtain ⟨hnone, hlow, hhigh, husers, hget⟩ := insertVerification_eq_some hins
  have hdoc := hdoc id w.now hlow hhigh
  -- The new row, with what it was submitted with, before the user's row is touched.
  have hlater : KycLater w { w₁ with
      submissions := ⟨id, v.userId, idNumber, today⟩ :: w.submissions } := by
    refine ⟨fun _ hs => List.mem_cons_of_mem _ hs, fun i row hrow hok => ?_⟩
    show w₁.verifications.get? i = some row
    rw [hget, if_neg, hrow]
    rintro rfl
    rw [hnone] at hrow
    cases hrow
  have hmid : KycOk { w₁ with
      submissions := ⟨id, v.userId, idNumber, today⟩ :: w.submissions } := by
    refine ⟨fun i row hrow => ?_, fun u x hx hone => ?_⟩
    · replace hrow : w₁.verifications.get? i = some row := hrow
      rw [hget] at hrow
      split at hrow
      · cases hrow
        exact ⟨⟨_, List.mem_cons_self, ‹i = id›.symm, rfl, hdoc⟩, hlater.earnedBelow hbelow⟩
      · obtain ⟨⟨s, hs, hs'⟩, hb⟩ := h.rows i row hrow
        exact ⟨⟨s, List.mem_cons_of_mem _ hs, hs'⟩, hlater.earnedBelow hb⟩
    · obtain ⟨i, row, hrow, huser, hok, hle⟩ := h.tiers u x (husers ▸ hx) hone
      exact ⟨i, row, hlater.approved i row hrow hok, huser, hok, hle⟩
  have hprofile := hmid.completeProfile v.userId v.fullName v.dateOfBirth
  have hlater' := hlater.trans (.completeProfile _ v.userId v.fullName v.dateOfBirth)
  split at hrest
  · exact ⟨hprofile.setTier hrest, hlater'.trans (.setTier hrest)⟩
  · cases hrest
    exact ⟨hprofile, hlater'⟩

/-- A decision leaves alone what was submitted, and what has been approved. -/
lemma reviewed_cases (v : KycVerification) (now : Time) (status : KycStatus)
    (reason : Option String) : v.reviewed now status reason = v ∨
      v.status ≠ .approved ∧ v.reviewed now status reason =
        { v with status := status, rejectionReason := reason, reviewedAt := some now } := by
  unfold KycVerification.reviewed
  split
  · rename_i hopen
    refine .inr ⟨fun hok => ?_, rfl⟩
    rw [hok] at hopen
    cases hopen
  · exact .inl rfl

/-- A decision on a submission that is open. -/
lemma KycOk.review (h : KycOk w) (id : Uuid) (status : KycStatus) (reason : Option String)
    (hmove : moveKyc (.review id status reason) w = some w') : KycOk w' ∧ KycLater w w' := by
  cases hmove
  have happroved : ∀ i row, w.verifications.get? i = some row → row.status = .approved →
      (w.verifications.modify id (·.reviewed w.now status reason)).get? i = some row := by
    intro i row hrow hok
    rw [Table.get?_modify]
    split
    · rcases reviewed_cases row w.now status reason with heq | ⟨hne, -⟩
      · rw [hrow, Option.map_some, heq]
      · exact absurd hok hne
    · exact hrow
  have hlater : KycLater w { w with
      verifications := w.verifications.modify id (·.reviewed w.now status reason) } :=
    ⟨fun _ hs => hs, happroved⟩
  refine ⟨⟨fun i row' hrow' => ?_, fun u x hx hone => ?_⟩, hlater⟩
  · replace hrow' : (w.verifications.modify id (·.reviewed w.now status reason)).get? i =
      some row' := hrow'
    have hold : ∀ row, w.verifications.get? i = some row → KycRowOk { w with
        verifications := w.verifications.modify id (·.reviewed w.now status reason) } i row :=
      fun row hrow => ⟨(h.rows i row hrow).submitted, hlater.earnedBelow (h.rows i row hrow).below⟩
    rw [Table.get?_modify] at hrow'
    split at hrow'
    · obtain ⟨row, hrow, rfl⟩ := Option.map_eq_some_iff.mp hrow'
      obtain ⟨⟨s, hs, hid, hsuser, hdoc⟩, hbelow⟩ := hold row hrow
      rcases reviewed_cases row w.now status reason with heq | ⟨-, heq⟩ <;> rw [heq]
      · exact ⟨⟨s, hs, hid, hsuser, hdoc⟩, hbelow⟩
      · exact ⟨⟨s, hs, hid, hsuser, hdoc.digits, hdoc.bvn, hdoc.nin, hdoc.name, hdoc.age⟩,
          hbelow⟩
    · exact hold row' hrow'
  · obtain ⟨i, row, hrow, huser, hok, hle⟩ := h.tiers u x hx hone
    exact ⟨i, row, happroved i row hrow hok, huser, hok, hle⟩

/-- Whatever else happens. -/
lemma KycOk.move {e : KycMove} (h : KycOk w) (hmove : moveKyc e w = some w') :
    KycOk w' ∧ KycLater w w' := by
  cases e with
  | tick d =>
      cases hmove
      exact ⟨h.of_users rfl rfl fun u x hx _ => .inr ⟨x, hx, le_rfl⟩, .of_rows rfl rfl⟩
  | signUp id =>
      obtain ⟨t, ht, rfl⟩ := Option.map_eq_some_iff.mp hmove
      refine ⟨h.of_users rfl rfl fun u x hx hone => ?_, .of_rows rfl rfl⟩
      replace hx : t.get? u = some x := hx
      rw [Table.get?_insert ht] at hx
      split at hx
      · cases hx
        exact absurd hone (by decide)
      · exact .inr ⟨x, hx, le_rfl⟩
  | profile id displayName dateOfBirth =>
      cases hmove
      refine ⟨h.of_users rfl rfl fun u x' hx' _ => .inr ?_, .of_rows rfl rfl⟩
      obtain ⟨x, hx, rfl | ⟨-, rfl⟩⟩ := get?_modify_user hx'
      · exact ⟨x', hx, le_rfl⟩
      · exact ⟨x, hx, le_rfl⟩
  | review id status reason => exact h.review id status reason hmove
  | setTier id tier => exact ⟨h.setTier hmove, .setTier hmove⟩

/-- **What an operation does** when its contract is kept. -/
lemma KycOk.exec {tid : ℕ} {req : KycRequest} {op : KycOp} {ω : KycOracle} {r : op.Res}
    (h : KycOk w) (hC : KycContract tid req () op w) (he : execKyc op ω w = some (r, w')) :
    KycOk w' ∧ KycLater w w' := by
  cases op with
  | selectTier | selectOpen | selectProfile | selectUnsettled | today =>
      cases he
      exact ⟨h, .refl w⟩
  | submitVerification v autoApprove idNumber today =>
      simp only [execKyc] at he
      split at he <;> cases he
      · exact ⟨h, .refl w⟩
      · exact h.submitted hC.1 hC.2 ‹_›

end Invariant

/-! ## The endpoints keep their contracts -/

/-- What has passed the checks of a name. -/
lemma countWords_of_kycFullName {sent stored : Option String} {fullName : String}
    (h : kycFullName sent stored = .ok fullName) : 2 ≤ countWords fullName.toList := by
  unfold kycFullName at h
  split at h
  · cases h
  · split at h
    · cases h
    · rename_i hwords
      cases h
      exact not_lt.mp hwords

/-- A tier that is reached by one step asks for the document of that step. -/
lemma requirement_of_target {tierRaw : ℤ} {requirement : KycRequirement}
    (h : nextRequirement (kycTierOf tierRaw) = some requirement) (hlow : 1 ≤ tierRaw + 1)
    (hhigh : tierRaw + 1 ≤ 3) :
    (requirement = .bvn ↔ tierRaw + 1 = 1) ∧ (requirement = .nin ↔ tierRaw + 1 = 2) := by
  obtain rfl | rfl | rfl : tierRaw = 0 ∨ tierRaw = 1 ∨ tierRaw = 2 := by omega
  all_goals
    cases h
    decide

/-- **What the checks of a submission establish.** -/
lemma documents_of_checks {parse : String → Option Date} {autoApprove : Bool} {userId id : Uuid}
    {tierRaw : ℤ} {requirement : KycRequirement} {body : SubmitKycBody}
    {storedName : Option String} {storedDob : Option Date} {fullName : String} {dob today : Date}
    (hreq : nextRequirement (kycTierOf tierRaw) = some requirement)
    (hcheck : checkSubmission parse requirement body storedName storedDob = .ok (fullName, dob))
    (hage : kycAgeCheck dob today = .ok ()) (now : Time) (hlow : 1 ≤ tierRaw + 1)
    (hhigh : tierRaw + 1 ≤ 3) :
    Documents ((newVerification userId tierRaw requirement body.idNumber fullName dob).row
      autoApprove now) ⟨id, userId, body.idNumber, today⟩ := by
  obtain ⟨hbvn, hnin⟩ := requirement_of_target hreq hlow hhigh
  unfold checkSubmission at hcheck
  split at hcheck
  · cases hcheck
  · rename_i hdigits
    rcases hname : kycFullName body.fullName storedName with e | name
    · rw [hname] at hcheck
      cases hcheck
    · rcases hdob : kycDateOfBirth parse body.dateOfBirth storedDob with e | date
      · rw [hname, hdob] at hcheck
        cases hcheck
      · rw [hname, hdob] at hcheck
        cases hcheck
        refine ⟨not_not.mp hdigits, ?_, ?_, countWords_of_kycFullName hname, ?_⟩
        · simp only [NewVerification.row, newVerification, hbvn]
        · simp only [NewVerification.row, newVerification, hnin]
        · unfold kycAgeCheck at hage
          split at hage
          · cases hage
          · rename_i hold
            exact (le_ageYears_iff (by norm_num)).mp (not_lt.mp hold)

/-- What is safe in any interleaving. -/
abbrev KycSafe (parse : String → Option Date) (autoApprove : Bool) (tid : ℕ) (req : KycRequest)
    {β : Type} (Q : β → KycWorld → Prop) : KycProg β → KycWorld → Prop :=
  Safe (kyc parse autoApprove) KycOk (fun _ => KycLater) anyOp KycContract tid req () Q

section Endpoints

variable {parse : String → Option Date} {autoApprove : Bool} {tid : ℕ} {req : KycRequest}
  {w : KycWorld}

/-- Tier 1 is the first that may withdraw. -/
lemma one_le_of_canWithdraw {tierRaw : ℤ} (h : (kycTierOf tierRaw).canWithdraw = true) :
    1 ≤ tierRaw := by
  unfold kycTierOf KycTier.fromI16 at h
  split_ifs at h with h₀ h₁ h₂ h₃
  · cases h
  · omega
  · omega
  · omega
  · cases h

/-- **Whoever is told that they may withdraw has shown their BVN.** -/
lemma safe_kycStatus (userId : Uuid) : KycSafe parse autoApprove tid req
    (fun r w => ∀ answer, r = .ok answer → answer.canWithdraw = true → TierEarned w userId 1)
    (kycStatus userId) w := by
  intro w₁ hI _ ω _
  refine ⟨trivial, fun tierRaw w₂ he => ?_⟩
  cases he
  rcases hx : w₁.users.get? userId with _ | x
  · intro answer h
    cases h
  · intro w₃ _ hR ω' _
    refine ⟨trivial, fun pending w₄ he => ?_⟩
    cases he
    intro answer h hcan
    cases h
    have hone : 1 ≤ x.kycTier := one_le_of_canWithdraw hcan
    exact hR.tierEarned (hI.earned hx 1 le_rfl (by omega))

/-- The submission of a user who was at the tier below. -/
lemma safe_submitFor {userId : Uuid} {tierRaw : ℤ} {requirement : KycRequirement}
    (hreq : nextRequirement (kycTierOf tierRaw) = some requirement)
    (hbelow : EarnedBelow w userId (tierRaw + 1)) (body : SubmitKycBody) :
    KycSafe parse autoApprove tid req (fun _ _ => True)
      (submitFor parse autoApprove userId tierRaw requirement body) w := by
  simp only [submitFor, Prog.perform_bind, Prog.pure_eq]
  intro w₁ _ hR₁ ω₁ _
  refine ⟨trivial, fun row w₂ he => ?_⟩
  obtain ⟨-, rfl⟩ := Prod.mk.inj (Option.some.inj he)
  rcases row with _ | target
  · intro w₃ _ hR₃ ω₃ _
    refine ⟨trivial, fun profile w₄ he => ?_⟩
    obtain ⟨-, rfl⟩ := Prod.mk.inj (Option.some.inj he)
    rcases profile with _ | ⟨storedName, storedDob⟩
    · trivial
    · rcases hcheck : checkSubmission parse requirement body storedName storedDob with
        e | ⟨fullName, dob⟩
      · simp only [hcheck]
        trivial
      · simp only [hcheck]
        intro w₅ _ hR₅ ω₅ _
        refine ⟨trivial, fun today w₆ he => ?_⟩
        obtain ⟨-, rfl⟩ := Prod.mk.inj (Option.some.inj he)
        rcases hage : kycAgeCheck dob today with e | _
        · simp only [hage]
          trivial
        · simp only [hage]
          -- What was earned when the tier was read is still earned when the rung is written.
          intro w₇ _ hR₇ ω₇ _
          refine ⟨⟨?_, fun id now => documents_of_checks hreq hcheck hage now⟩, fun r w₈ _ => ?_⟩
          · exact (hR₁.trans (hR₃.trans (hR₅.trans hR₇))).earnedBelow hbelow
          · rcases r with e | _
            · trivial
            · cases autoApprove <;> trivial
  · trivial

lemma safe_submitKyc (userId : Uuid) (body : SubmitKycBody) :
    KycSafe parse autoApprove tid req (fun _ _ => True)
      (submitKyc parse autoApprove userId body) w := by
  simp only [submitKyc, Prog.perform_bind, Prog.pure_eq]
  intro w₁ hI _ ω _
  refine ⟨trivial, fun tierRaw w₂ he => ?_⟩
  cases he
  rcases hx : w₁.users.get? userId with _ | x
  · trivial
  · simp only [Option.map_some]
    rcases hreq : nextRequirement (kycTierOf x.kycTier) with _ | requirement
    · trivial
    · exact safe_submitFor hreq (hI.earned hx) body

end Endpoints

/-- What an answer of `status` says of the user. -/
def KycAnswered (req : KycRequest) (_ : Unit) (answer : KycAnswer) (w : KycWorld) : Prop :=
  match req, answer with
  | .status userId, .status (.ok r) => r.canWithdraw = true → TierEarned w userId 1
  | _, _ => True

lemma safe_kycProgram (parse : String → Option Date) (autoApprove : Bool) (tid : ℕ)
    (req : KycRequest) (w : KycWorld) : KycSafe parse autoApprove tid req (KycAnswered req ())
      (kycProgram parse autoApprove req) w := by
  cases req with
  | status userId =>
      refine (safe_kycStatus userId).bind fun r w₁ hanswer => ?_
      rcases r with e | answer
      · trivial
      · exact hanswer answer rfl
  | submit userId body =>
      refine (safe_submitKyc userId body).bind fun r w₁ _ => ?_
      trivial

lemma keeps_kyc (parse : String → Option Date) (autoApprove : Bool) :
    Keeps (kyc parse autoApprove) KycOk (fun _ => KycLater) anyOp KycContract where
  refl _ w := .refl w
  trans h h' := h.trans h'
  env hI h := ⟨(hI.move h).1, fun _ => (hI.move h).2⟩
  op hI _ hC h := ⟨(hI.exec hC h).1, fun _ _ => (hI.exec hC h).2⟩
  spawn tid req w _ := (safe_kycProgram parse autoApprove tid req w).mono fun _ _ _ => trivial

lemma KycOk.fresh (now : Time) : KycOk (.fresh now) where
  rows id row h := by cases h
  tiers u x h := by cases h

/-! ## What a tier says -/

/-- **Every tier is earned.**  In every interleaving of any number of submissions by any users with
reviews, changes of the profile, and changes of the tier by hand that the trigger lets through: a
user at a tier has, for it and for every tier below it, an approved verification of their own,
submitted with eleven digits, of which the row keeps the last four as the BVN's at tier 1 and as the
NIN's at tier 2, a full name, and a date of birth at least eighteen times 365 days before.  No rung
is skipped.  And `status` tells nobody that they may withdraw who has not shown their BVN. -/
theorem every_tier_earned (parse : String → Option Date) (autoApprove : Bool) (now : Time)
    {s : Sys KycOp KycOp.Res KycWorld KycRequest Unit KycAnswer}
    (h : (kyc parse autoApprove).Reachable unguarded (Sys.idle (.fresh now)) s) :
    (∀ userId x, s.world.users.get? userId = some x → ∀ tier, 1 ≤ tier → tier ≤ x.kycTier →
      TierEarned s.world userId tier) ∧
    ∀ tid userId b r, s.task tid = some ⟨.status userId, b, .ret (.status (.ok r))⟩ →
      r.canWithdraw = true → TierEarned s.world userId 1 := by
  have hanswers := (keeps_kyc parse autoApprove).answers (Q := KycAnswered)
    (fun {tid req b answer w w'} hR hQ => ?_) (fun tid req w _ => safe_kycProgram _ _ tid req w)
    (.fresh now) (fun _ => rfl) (h.mono fun s a _ => onOps_anyOp s a)
  · refine ⟨fun userId x hx tier hone hle => ?_, fun tid userId b r ht => ?_⟩
    · exact hanswers.1.earned hx tier hone (by omega)
    · exact hanswers.2 tid _ b _ ht
  · unfold KycAnswered at hQ ⊢
    split at hQ
    · exact fun hcan => hR.tierEarned (hQ hcan)
    · trivial

/-- Somebody shows their BVN and then, in two submissions at once, their NIN; it is approved, and
they ask where they stand. -/
def climbing : List (Act KycOracle KycMove KycRequest) :=
  let birth : Date := ⟨1990, 5, 17, by decide, by decide⟩
  let today : Date := ⟨2026, 6, 15, by decide, by decide⟩
  let ω : KycOracle := ⟨0, today⟩
  let bvn : KycRequest := .submit 7 ⟨"222-3333-4444", some "Ada Obi", none⟩
  let nin : KycRequest := .submit 7 ⟨"55566667777", none, none⟩
  [.env (.signUp 7), .env (.profile 7 none (some birth)),
    .spawn 0 bvn, .resume 0 ω, .resume 0 ω, .resume 0 ω, .resume 0 ω, .resume 0 ⟨1, today⟩,
    .env (.review 1 .approved none), .env (.setTier 7 1),
    .spawn 1 nin, .spawn 2 nin, .resume 1 ω, .resume 2 ω, .resume 1 ω, .resume 2 ω,
    .resume 1 ω, .resume 2 ω, .resume 1 ω, .resume 2 ω, .resume 1 ⟨2, today⟩,
    .resume 2 ⟨3, today⟩,
    .env (.review 2 .approved none), .env (.setTier 7 2),
    .spawn 3 (.status 7), .resume 3 ω, .resume 3 ω]

/-- The second of the two is refused, and the first takes them to tier 2. -/
theorem every_tier_earned_twice : ∃ w : KycWorld, w.submissions.length = 2 ∧
    TierEarned w 7 1 ∧ TierEarned w 7 2 := by
  obtain ⟨s, hreach, hlength, htier⟩ := exists_reachable_of_run (kyc (fun _ => none) false)
    unguarded (Sys.idle (.fresh 0)) climbing
    (fun s => s.world.submissions.length = 2 ∧
      (s.world.users.get? 7).map (·.kycTier) = some 2) (by decide +kernel)
  obtain ⟨x, hx, hx'⟩ := Option.map_eq_some_iff.mp htier
  have hearned := (every_tier_earned (fun _ => none) false 0 hreach).1 7 x hx
  exact ⟨s.world, hlength, hearned 1 le_rfl (by omega), hearned 2 (by decide) (by omega)⟩

end Naivolt
