import Naivolt.Auth.Tables

/-!
# Sign-in, refresh and profile requests

The handlers of `auth_routes.rs` and `update_me` of `user_routes.rs`, each as the transaction it
runs, statement by statement.  A transaction whose answer is an error is dropped without a commit
and so rolled back, except that the attempt at a wrong code is committed with its refusal
(`AuthAnswer.commits`).

`unlock` checks the PIN in statements of its own and then calls `refresh`; it is a `refresh` here.
-/

namespace Naivolt

open Foundation

/-- What the deployment, and the libraries, fix. -/
structure AuthConfig where
  /-- `hash_refresh`: hexadecimal SHA-256. -/
  hashRefresh : String → String
  /-- Argon2: whether a code is that of a hash, none if the hash cannot be read. -/
  verifyCode : String → String → Option Bool
  /-- `str::to_lowercase`. -/
  toLowercase : String → String
  /-- `NaiveDate::parse_from_str(.., "%Y-%m-%d")`, in days since the epoch. -/
  parseDate : String → Option ℤ
  devOtpCode : Option String
  googleClientId : Option String
  googleAllowedEmails : List String

/-- `ApiError`, the variants these handlers raise. -/
inductive AuthError where
  | unauthorized
  | otpExpired
  | otpInvalid (attemptsRemaining : ℤ)
  | otpThrottled (retryAfter : ℤ)
  | badRequest (message : String)
  | serviceUnavailable (message : String)
  | notFound
  | internal
  deriving DecidableEq

/-- `From<IdentifierError>`. -/
def IdentifierError.toError : IdentifierError → AuthError
  | .empty => .badRequest "enter your phone number or email"
  | .invalidEmail => .badRequest "enter a valid email address"
  | .invalidPhone => .badRequest "enter a valid Nigerian phone number"

/-- `From<OtpError>`. -/
def OtpError.toError : OtpError → AuthError
  | .expired | .alreadyUsed | .tooManyAttempts => .otpExpired
  | .incorrect n => .otpInvalid n
  | .hash => .internal

/-- How a transaction ends. -/
inductive AuthAnswer where
  | codeSent
  | otpRefused (e : AuthError)
  | signedIn (userId : Uuid) (isNewAccount : Bool) (user : User) (token : RefreshToken)
      (access : String)
  | refreshed (exchanged : Uuid) (next : RefreshToken) (access : String)
  | reuseDetected (familyId : Uuid)
  | loggedOut (familyId : Option Uuid)
  | updated
  | failed (e : AuthError)
  deriving DecidableEq

/-- The transactions that commit. -/
def AuthAnswer.commits : AuthAnswer → Bool
  | .failed _ => false
  | _ => true

/-- A transaction of the API. -/
abbrev AuthTxn (α : Type) := Prog AuthOp AuthOp.Res α

/-- Send one statement. -/
abbrev sql (op : AuthOp) : AuthTxn op.Res := Prog.perform op

/-! ## Sessions -/

/-- `issue_refresh`. -/
def issueRefreshToken (cfg : AuthConfig) (familyId : Option Uuid) (now : Time) :
    AuthTxn RefreshToken := do
  let secret ← sql .randomSecret
  match familyId with
  | some f => pure (issueRefresh cfg.hashRefresh secret f now)
  | none => do
    let f ← sql .newFamily
    pure (issueRefresh cfg.hashRefresh secret f now)

/-- `start_session`: the access token and the refresh token. -/
def startSession (cfg : AuthConfig) (userId : Uuid) (tier : ℕ) (now : Time) :
    AuthTxn (Option (String × RefreshToken)) := do
  let token ← issueRefreshToken cfg none now
  if ← sql (.insertSession userId token) then
    match ← sql (.signAccess userId token.familyId tier now) with
    | some access => pure (some (access, token))
    | none => pure none
  else pure none

/-- `refresh`, once the presented token has been found to be exchangeable. -/
def rotate (cfg : AuthConfig) (id userId familyId : Uuid) (now : Time) :
    AuthTxn AuthAnswer := do
  sql (.setRotated id now)
  match ← sql (.selectTier userId) with
  | none => pure (.failed .notFound)
  | some tier => do
    let next ← issueRefreshToken cfg (some familyId) now
    if ← sql (.insertSession userId next) then
      match ← sql (.signAccess userId familyId tier now) with
      | some access => pure (.refreshed id next access)
      | none => pure (.failed .internal)
    else pure (.failed .internal)

/-- `refresh`. -/
def refresh (cfg : AuthConfig) (presented : Option String) : AuthTxn AuthAnswer := do
  let now ← sql .clock
  match presented with
  | none => pure (.failed .unauthorized)
  | some secret => do
    match ← sql (.selectSession (cfg.hashRefresh secret)) with
    | none => pure (.failed .unauthorized)
    | some (id, stored) =>
      match evaluateRefresh stored now with
      | .reuseDetected familyId => do
        sql (.revokeFamily familyId now)
        pure (.reuseDetected familyId)
      | .rejected => pure (.failed .unauthorized)
      | .rotate userId familyId => rotate cfg id userId familyId now

/-- `logout`.  Its one statement commits by itself, and its failure is ignored. -/
def logout (cfg : AuthConfig) (presented : Option String) : AuthTxn AuthAnswer :=
  match presented with
  | none => pure (.loggedOut none)
  | some secret => do
    let now ← sql .clock
    let familyId ← sql (.revokeFamilyOf (cfg.hashRefresh secret) now)
    pure (.loggedOut familyId)

/-! ## Identity resolution -/

/-- `lookup_matches`. -/
def lookupMatches (claim : IdentityClaim) : AuthTxn ExistingMatches := do
  let bySubject ← sql (.bySubject claim.provider claim.subject)
  let byVerifiedEmail ← match claim.verifiedEmail with
    | some email => sql (.byVerifiedEmail email)
    | none => pure none
  let byVerifiedPhone ← match claim.verifiedPhone with
    | some phone => sql (.byVerifiedPhone phone)
    | none => pure none
  pure ⟨bySubject, byVerifiedEmail, byVerifiedPhone⟩

/-- The wallets of a new user, one insert each. -/
def insertWallets (userId : Uuid) : List DerivedAddress → AuthTxn Bool
  | [] => pure true
  | address :: rest => do
    if ← sql (.insertWallet userId address) then insertWallets userId rest else pure false

/-- `create_user`.  None is an error on the way, after which nothing is committed. -/
def createUser (claim : IdentityClaim) : AuthTxn (Option Uuid) := do
  match ← sql (.insertUser claim.verifiedPhone claim.verifiedEmail) with
  | none => pure none
  | some userId => do
    sql (.attachIdentity userId claim)
    match ← sql (.addressIndex userId) with
    | none => pure none
    | some index =>
      if index < 2 ^ 32 then
        match ← sql (.deriveAll index) with
        | none => pure none
        | some derived =>
          if ← insertWallets userId derived then pure (some userId) else pure none
      else pure none

def signInConflict : AuthError :=
  .badRequest "We can't sign you in automatically. Please contact support."

/-- Load the user and start the session, the end of every sign-in. -/
def openSession (cfg : AuthConfig) (userId : Uuid) (isNewAccount : Bool) (now : Time) :
    AuthTxn AuthAnswer := do
  match ← sql (.loadUser userId) with
  | none => pure (.failed .notFound)
  | some user =>
    match ← startSession cfg userId user.kycTier now with
    | none => pure (.failed .internal)
    | some (access, token) => pure (.signedIn userId isNewAccount user token access)

/-- Resolve a verified claim and open the session of the user it is found to be of: the second
half of `verify_otp` and of `google_sign_in`. -/
def signIn (cfg : AuthConfig) (claim : IdentityClaim) (now : Time) : AuthTxn AuthAnswer := do
  let found ← lookupMatches claim
  match resolve claim found with
  | .existing userId => openSession cfg userId false now
  | .linkTo userId => do
    sql (.attachIdentity userId claim)
    openSession cfg userId false now
  | .createNew =>
    match ← createUser claim with
    | none => pure (.failed .internal)
    | some userId => openSession cfg userId true now
  | .conflict _ _ => pure (.failed signInConflict)

/-! ## One-time codes -/

/-- `request_otp`. -/
def requestOtp (cfg : AuthConfig) (input : String) : AuthTxn AuthAnswer :=
  match parseIdentifier input with
  | .error e => pure (.failed e.toError)
  | .ok identifier => do
    let now ← sql .clock
    let existing ← sql (.lastSent identifier.subject)
    let elapsed := existing.map fun (lastSentAt : Time) =>
      ((now : ℤ) - (lastSentAt : ℤ)).tdiv (seconds 1 : ℕ)
    match elapsed.filter (· < (resendCooldownSeconds : ℤ)) with
    | some elapsed => pure (.failed (.otpThrottled (resendCooldownSeconds - elapsed)))
    | none => do
      let code ← match cfg.devOtpCode with
        | some fixed => pure fixed
        | none => sql .randomCode
      match ← sql (.hashCode code) with
      | none => pure (.failed .internal)
      | some codeHash => do
        let challenge := OtpChallenge.new identifier codeHash now
        sql (.dropChallenges identifier.subject)
        if ← sql (.insertChallenge challenge) then
          if ← sql (.sendCode challenge.destination challenge.channel code) then pure .codeSent
          else pure (.failed .internal)
        else pure (.failed .internal)

/-- `verify_otp`. -/
def verifyOtp (cfg : AuthConfig) (input code : String) : AuthTxn AuthAnswer :=
  match parseIdentifier input with
  | .error e => pure (.failed e.toError)
  | .ok identifier => do
    let now ← sql .clock
    match ← sql (.selectChallenge identifier.subject) with
    | none => pure (.failed .otpExpired)
    | some (id, challenge) => do
      let (result, challenge) := challenge.verify cfg.verifyCode code now
      sql (.saveAttempt id challenge.attempts challenge.consumedAt)
      match result with
      | .error e => pure (.otpRefused e.toError)
      | .ok () => signIn cfg (.fromVerifiedOtp identifier) now

/-! ## Google -/

/-- The allowlist lets the claim in. -/
def permitted (cfg : AuthConfig) (claim : IdentityClaim) : Bool :=
  cfg.googleAllowedEmails.isEmpty ||
    claim.verifiedEmail.any fun email =>
      cfg.googleAllowedEmails.any fun allowed => allowed.toList = lowerAscii email

/-- `google_sign_in`, given the claims of the presented token: none when its signature, audience,
issuer or expiry does not hold. -/
def googleSignIn (cfg : AuthConfig) (verified : Option OidcClaims) : AuthTxn AuthAnswer :=
  match cfg.googleClientId with
  | none => pure (.failed (.serviceUnavailable "Google sign-in isn't set up yet."))
  | some _ =>
    match verified.bind claimsToIdentity with
    | none => pure (.failed .unauthorized)
    | some claim =>
      if permitted cfg claim then do
        let now ← sql .clock
        signIn cfg claim now
      else pure (.failed (.badRequest
        "Naivolt isn't open yet. This account isn't on the early access list."))

/-! ## The profile -/

/-- `UpdateMeBody`. -/
structure UpdateMeBody where
  displayName : Option String := none
  avatarSeed : Option String := none
  email : Option String := none
  dateOfBirth : Option String := none

/-- What `update_me` asks of an email: one `@`, with something either side. -/
def plausibleEmail (email : String) : Bool :=
  let trimmed := trimText email
  3 ≤ trimmed.utf8ByteSize && trimmed.toList.count '@' = 1 &&
    trimmed.toList.head? ≠ some '@' && trimmed.toList.getLast? ≠ some '@' &&
    !trimmed.toList.contains ' '

/-- The checks of `update_me`, in its order. -/
def checkProfile (cfg : AuthConfig) (today : ℤ) (body : UpdateMeBody) :
    Except AuthError (Option ℤ) := do
  if let some name := body.displayName then
    if (trimText name).toList.isEmpty then throw (.badRequest "Enter a name.")
    if 60 < (trimText name).length then throw (.badRequest "That name is too long.")
  if let some email := body.email then
    if !plausibleEmail email then throw (.badRequest "That email doesn't look right.")
  match body.dateOfBirth with
  | none => pure none
  | some raw =>
    match cfg.parseDate (trimText raw) with
    | none => throw (.badRequest "Enter your date of birth as YYYY-MM-DD.")
    | some parsed =>
      if (today - parsed).tdiv 365 < 18 then throw (.badRequest "You must be 18 or older.")
      if 120 < (today - parsed).tdiv 365 then throw (.badRequest "Check that date of birth.")
      pure (some parsed)

/-- The days since the epoch. -/
def dayOf (now : Time) : ℤ := now / hours 24

/-- `update_me`. -/
def updateMe (cfg : AuthConfig) (userId : Uuid) (body : UpdateMeBody) : AuthTxn AuthAnswer := do
  let now ← sql .clock
  match checkProfile cfg (dayOf now) body with
  | .error e => pure (.failed e)
  | .ok dateOfBirth => do
    if ← sql (.updateUser userId
        ⟨body.displayName.map trimText, body.avatarSeed.map trimText,
          body.email.map fun e => cfg.toLowercase (trimText e), dateOfBirth⟩) then
      pure .updated
    else pure (.failed (.badRequest "That email is already on another account."))

/-! ## The accounts service -/

/-- A request about an account. -/
inductive AuthRequest where
  | requestOtp (identifier : String)
  | verifyOtp (identifier code : String)
  | google (verified : Option OidcClaims)
  | refresh (presented : Option String)
  | logout (presented : Option String)
  | updateMe (userId : Uuid) (body : UpdateMeBody)

/-- The transaction of a request. -/
def authProgram (cfg : AuthConfig) : AuthRequest → AuthTxn AuthAnswer
  | .requestOtp identifier => Naivolt.requestOtp cfg identifier
  | .verifyOtp identifier code => Naivolt.verifyOtp cfg identifier code
  | .google verified => googleSignIn cfg verified
  | .refresh presented => Naivolt.refresh cfg presented
  | .logout presented => Naivolt.logout cfg presented
  | .updateMe userId body => Naivolt.updateMe cfg userId body

/-- The accounts database and the requests that run on it. -/
def accounts (cfg : AuthConfig) :
    Database AuthOp AuthOp.Res AuthOracle AuthDb AuthWrite AuthLock AuthRequest AuthAnswer where
  exec op ω seen current := execAuth ω seen current op
  apply w db := AuthWrite.apply db w
  program := authProgram cfg
  commits := AuthAnswer.commits

/-! ## Schedules -/

/-- A deployment with Google sign-in.  The hash function is SHA-256 on the secrets its runs
use. -/
def webAuth : AuthConfig where
  hashRefresh secret :=
    if secret = "1111111111111111111111111111111111111111111111111111111111111111" then
      "3138bb9bc78df27c473ecfd1410f7bd45ebac1f59cf3ff9cfe4db77aab7aedd3"
    else if secret = "2222222222222222222222222222222222222222222222222222222222222222" then
      "4f2e8d65483c641648cdb374ae9d8abd368d269e4ddffe092a8237b8162cddd6"
    else "79bd7d7fd684b399857c582b1b7172ddf277d4fe1b027ec52b28da3ae381e675"
  verifyCode _ _ := none
  toLowercase := fun s => String.ofList (lowerAscii s)
  parseDate _ := none
  devOtpCode := none
  googleClientId := some "naivolt-web.apps.googleusercontent.com"
  googleAllowedEmails := []

def firstSecret : String := "1111111111111111111111111111111111111111111111111111111111111111"
def secondSecret : String := "2222222222222222222222222222222222222222222222222222222222222222"
def thirdSecret : String := "3333333333333333333333333333333333333333333333333333333333333333"

/-- The signer's addresses of one user. -/
def signerAddresses : List DerivedAddress :=
  [⟨.bitcoin, "bc1q0", "m/84/0"⟩, ⟨.evm, "0x00", "m/44/60"⟩, ⟨.tron, "T00", "m/44/195"⟩,
    ⟨.solana, "So0", "m/44/501"⟩]

/-- What Google asserts of one account. -/
def adasClaims : OidcClaims := ⟨"112233445566", some "ada@example.com", true⟩

/-- The answers to the statements of her first sign-in, at time 100: user 1, family 3, token 4. -/
def adasAnswers : List AuthOracle :=
  [{ now := 100 }, {}, {}, { uuid := 1, index := 7 }, { uuid := 2, now := 100 }, {},
    { derived := some signerAddresses }, {}, {}, {}, {}, {}, { text := some firstSecret },
    { uuid := 3 }, { uuid := 4 }, { text := some "eyJhbGciOiJIUzI1NiJ9.ada" }]

/-- A first sign-in with Google. -/
def adaSignsIn (tid : ℕ) : List (TxnMove AuthOracle AuthRequest) :=
  TxnMove.served tid (.google (some adasClaims)) adasAnswers

/-- The answers to the statements of a rotation: the clock, the lookup, the mark, the tier, the
secret, the row and the signature. -/
def rotationAnswers (now : Time) (secret : String) (newId : Uuid) : List AuthOracle :=
  [{ now := now }, {}, {}, {}, { text := some secret }, { uuid := newId },
    { text := some "eyJhbGciOiJIUzI1NiJ9.ada" }]

end Naivolt
