import Naivolt.Auth.Identifier

/-!
# Identities and one-time codes

The `identity`, `oidc` and `otp` modules of the auth crate.  A sign-in ends in an
`IdentityClaim`: the channel it proved, built only from a consumed code
(`IdentityClaim.fromVerifiedOtp`) or from the verified claims of a Google token
(`claimsToIdentity`).  `resolve` decides from what the database holds whether the claim is a
returning user, a new way in for a known one, or a new person.

`Vouches` says what a claim proves about an identity row: that the row is of the channel the
claim names.  The decision rests on nothing else (`resolve_existing_or_link`).
-/

namespace Naivolt

/-! ## Claims -/

/-- A sign-in attempt whose ownership of the channel has been verified. -/
structure IdentityClaim where
  provider : Provider
  subject : String
  verifiedEmail : Option String
  verifiedPhone : Option String
  deriving DecidableEq

/-- `IdentityClaim::from_verified_otp`. -/
def IdentityClaim.fromVerifiedOtp (identifier : Identifier) : IdentityClaim :=
  match identifier with
  | .phone phone => ⟨.phone, identifier.subject, none, some phone⟩
  | .email email => ⟨.email, identifier.subject, some email, none⟩

/-- `OidcClaims`: what is used of the claims of a verified Google token. -/
structure OidcClaims where
  sub : String
  email : Option String
  emailVerified : Bool
  deriving DecidableEq

/-- `claims_to_identity` for Google.  None is `OidcError::MissingSubject`. -/
def claimsToIdentity (claims : OidcClaims) : Option IdentityClaim :=
  if claims.sub.toList.isEmpty then none
  else some ⟨.google, claims.sub,
    if claims.emailVerified then claims.email.bind normalizeEmail else none, none⟩

/-! ## Resolution -/

/-- `ExistingMatches`: what the database found for a claim. -/
structure ExistingMatches where
  bySubject : Option Uuid
  byVerifiedEmail : Option Uuid
  byVerifiedPhone : Option Uuid
  deriving DecidableEq

/-- `Resolution`. -/
inductive Resolution where
  | existing (userId : Uuid)
  | linkTo (userId : Uuid)
  | createNew
  | conflict (emailUser phoneUser : Uuid)
  deriving DecidableEq

/-- `resolve`. -/
def resolve (claim : IdentityClaim) (found : ExistingMatches) : Resolution :=
  match found.bySubject with
  | some userId => .existing userId
  | none =>
    let emailMatch := if claim.verifiedEmail.isSome then found.byVerifiedEmail else none
    let phoneMatch := if claim.verifiedPhone.isSome then found.byVerifiedPhone else none
    match emailMatch, phoneMatch with
    | some a, some b => if a ≠ b then .conflict a b else .linkTo a
    | some userId, none => .linkTo userId
    | none, some userId => .linkTo userId
    | none, none => .createNew

/-- An account is opened by its identity or by a channel that the claim itself attests to. -/
lemma resolve_existing_or_link {claim : IdentityClaim} {found : ExistingMatches} {userId : Uuid}
    (h : resolve claim found = .existing userId ∨ resolve claim found = .linkTo userId) :
    found.bySubject = some userId ∨
      (claim.verifiedEmail.isSome ∧ found.byVerifiedEmail = some userId) ∨
      (claim.verifiedPhone.isSome ∧ found.byVerifiedPhone = some userId) := by
  rcases claim with ⟨p, s, e, ph⟩
  rcases found with ⟨_ | b, _ | fe, _ | fp⟩ <;> rcases e with _ | e <;> rcases ph with _ | ph <;>
    simp_all [resolve]
  split at h <;> simp_all

/-- An account is linked to by a verified channel. -/
lemma resolve_link {claim : IdentityClaim} {found : ExistingMatches} {userId : Uuid}
    (h : resolve claim found = .linkTo userId) :
    (claim.verifiedEmail.isSome → ∀ u ∈ found.byVerifiedEmail, u = userId) ∧
      (claim.verifiedPhone.isSome → ∀ u ∈ found.byVerifiedPhone, u = userId) := by
  rcases claim with ⟨p, s, e, ph⟩
  rcases found with ⟨_ | b, _ | fe, _ | fp⟩ <;> rcases e with _ | e <;> rcases ph with _ | ph <;>
    simp_all [resolve]
  split at h <;> simp_all

/-- A user is created for a claim that matched nobody. -/
lemma resolve_createNew {claim : IdentityClaim} {found : ExistingMatches}
    (h : resolve claim found = .createNew) :
    found.bySubject = none ∧ (claim.verifiedEmail.isSome → found.byVerifiedEmail = none) ∧
      (claim.verifiedPhone.isSome → found.byVerifiedPhone = none) := by
  rcases claim with ⟨p, s, e, ph⟩
  rcases found with ⟨_ | b, _ | fe, _ | fp⟩ <;> rcases e with _ | e <;> rcases ph with _ | ph <;>
    simp_all [resolve]
  split at h <;> simp_all

/-! ## Identity rows -/

/-- A row of `identities`. -/
structure Identity where
  userId : Uuid
  provider : Provider
  subject : String
  email : Option String
  phone : Option String
  verifiedAt : Option Time
  deriving DecidableEq

/-- The row `attach_identity` inserts. -/
def IdentityClaim.row (claim : IdentityClaim) (userId : Uuid) (now : Time) : Identity :=
  ⟨userId, claim.provider, claim.subject, claim.verifiedEmail, claim.verifiedPhone, some now⟩

/-- The claim proves ownership of the channel of an identity. -/
def IdentityClaim.Vouches (claim : IdentityClaim) (i : Identity) : Prop :=
  (i.provider = claim.provider ∧ i.subject = claim.subject) ∨
    (claim.verifiedEmail.isSome ∧ i.email = claim.verifiedEmail) ∨
    (claim.verifiedPhone.isSome ∧ i.phone = claim.verifiedPhone)

instance (claim : IdentityClaim) (i : Identity) : Decidable (claim.Vouches i) :=
  inferInstanceAs (Decidable (_ ∨ _))

/-! ## One-time codes -/

/-- `OTP_TTL_MINUTES`, as a span of time. -/
def otpTtl : Time := minutes 10

/-- `MAX_ATTEMPTS`. -/
def maxAttempts : ℤ := 5

/-- `RESEND_COOLDOWN_SECONDS`. -/
def resendCooldownSeconds : ℕ := 60

/-- `OtpChallenge`: a row of `otp_challenges`. -/
structure OtpChallenge where
  destination : String
  channel : Channel
  codeHash : String
  expiresAt : Time
  attempts : ℤ := 0
  consumedAt : Option Time := none
  lastSentAt : Time
  deriving DecidableEq

/-- `OtpChallenge::new`, given the hash of the code. -/
def OtpChallenge.new (identifier : Identifier) (codeHash : String) (now : Time) : OtpChallenge :=
  { destination := identifier.subject, channel := identifier.channel, codeHash := codeHash,
    expiresAt := now + otpTtl, lastSentAt := now }

/-- `OtpError`. -/
inductive OtpError where
  | expired | alreadyUsed | tooManyAttempts
  | incorrect (attemptsRemaining : ℤ)
  | hash
  deriving DecidableEq

/-- `OtpChallenge::verify`: the verdict, and the challenge as it is left.  `verifyCode` tells
whether a code is that of a hash; it has no answer for what is not a hash. -/
def OtpChallenge.verify (verifyCode : String → String → Option Bool) (c : OtpChallenge)
    (submitted : String) (now : Time) : Except OtpError Unit × OtpChallenge :=
  if c.consumedAt.isSome then (.error .alreadyUsed, c)
  else if c.expiresAt < now then (.error .expired, c)
  else if maxAttempts ≤ c.attempts then (.error .tooManyAttempts, c)
  else
    let tried := { c with attempts := c.attempts + 1 }
    match verifyCode c.codeHash submitted with
    | none => (.error .hash, tried)
    | some true => (.ok (), { tried with consumedAt := some now })
    | some false => (.error (.incorrect (max (maxAttempts - tried.attempts) 0)), tried)

/-- A code passes only if it is the one that was sent, in time, for the first time. -/
lemma OtpChallenge.verify_ok {verifyCode : String → String → Option Bool} {c : OtpChallenge}
    {submitted : String} {now : Time} (h : (c.verify verifyCode submitted now).1 = .ok ()) :
    verifyCode c.codeHash submitted = some true ∧ c.consumedAt = none ∧ now ≤ c.expiresAt := by
  unfold OtpChallenge.verify at h
  split at h
  · cases h
  · rename_i hused
    split at h
    · cases h
    · rename_i hexpired
      split at h
      · cases h
      · rcases hcode : verifyCode c.codeHash submitted with _ | _ | _ <;> simp [hcode] at h
        exact ⟨rfl, by simpa using hused, not_lt.mp hexpired⟩

end Naivolt
