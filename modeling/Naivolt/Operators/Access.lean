import Naivolt.Auth.Identifier
import Naivolt.Foundation.Supervised
import Naivolt.Operators.Lockout

/-!
# Who acts as an operator

`authorise` and `require_operator`, and the endpoints of `admin_recovery.rs` by which somebody gets
past them: enrolment, sessions, invitations and revocations.  Each statement is a transaction of
its own, so between any two of them other requests may do anything.

A request that passes `require_operator` has been let in by four tables that are written at
different times by different requests.  `every_pass_proven` puts them together: who passes holds a
verified identity of the address, passes as an operator of that address who is not disabled then,
and presents a session not older than half an hour, opened by a request whose code was accepted
against the secret of that very operator; and the address is one of `ADMIN_EMAILS` or was invited
by somebody who had passed before, and so on back to `ADMIN_EMAILS` (`Rooted`).
-/

namespace Naivolt

open Foundation Foundation.Machine

/-! ## Tables and history -/

/-- The columns of `identities` that `authorise` reads. -/
structure IdentityEmail where
  userId : Uuid
  email : Option String
  verified : Bool

/-- A row of `admin_members`. -/
structure MemberRow where
  email : String
  invitedBy : String
  createdAt : Time
  revokedAt : Option Time

/-- A request that has passed `require_operator`, and what its operator's `disabled_at` was. -/
structure OperatorPass where
  userId : Uuid
  operatorId : Uuid
  email : String
  tokenHash : List UInt8
  time : Time
  disabledAt : Option Time
  deriving DecidableEq

inductive TrailEvent where
  | passed (p : OperatorPass)
  | invited (invitedBy email : String)
  deriving DecidableEq

/-- The tables, the clock of the database, and the history of passes and invitations, newest
first. -/
structure AccessWorld where
  door : LockoutWorld
  clock : Time
  identities : List IdentityEmail
  members : List MemberRow
  trail : List TrailEvent

/-- A deployment in which nobody has enrolled and nobody has been invited. -/
def AccessWorld.fresh (now clock : Time) (identities : List IdentityEmail) : AccessWorld where
  door := .fresh now [] []
  clock := clock
  identities := identities
  members := []
  trail := []

/-- What the program is configured with. -/
structure AccessConfig where
  totp : TotpConfig
  /-- `ADMIN_EMAILS`. -/
  adminEmails : List String
  /-- AES-256-GCM, from key, nonce and plaintext. -/
  encrypt : List UInt8 → List UInt8 → List UInt8 → Except String (List UInt8)
  /-- `TOTP::new` with `get_url`. -/
  otpauthUrl : List UInt8 → String → Except String String

/-- What the program does not decide. -/
structure AccessOracle where
  door : LockoutOracle := {}
  /-- A random identifier. -/
  fresh : Uuid := 0
  /-- Random bytes. -/
  bytes : List UInt8 := []

/-! ## Operations -/

inductive AccessOp where
  /-- `SELECT lower(email) FROM identities`. -/
  | selectEmails (userId : Uuid)
  /-- `SELECT lower(email) FROM admin_members … = ANY`. -/
  | selectInvited (emails : List String)
  /-- The join of `require_operator`; the user is for the record. -/
  | selectSession (userId : Uuid) (tokenHash : List UInt8) (email : String)
  | deleteSession (tokenHash : List UInt8) (operatorId : Uuid)
  | existsOperator (email : String)
  | randomBytes
  | insertOperator (email : String) (totpSecret : List UInt8)
  | selectOperatorEmail (operatorId : Uuid)
  | selectMembers
  | selectMember (email : String)
  | upsertMember (email invitedBy : String)
  | revokeMember (email : String)
  | deleteSessionsOf (email : String)
  | door (op : LockoutOp)

abbrev AccessOp.Res : AccessOp → Type
  | selectEmails _ => List String
  | selectInvited _ => Option String
  | selectSession .. => Option (Uuid × Option Time)
  | deleteSession .. => ℕ
  | existsOperator _ => Bool
  | randomBytes => List UInt8
  | insertOperator .. => Option Uuid
  | selectOperatorEmail _ => Option String
  | selectMembers => List MemberRow
  | selectMember _ => Option (Time × Option Time)
  | upsertMember .. => Time
  | revokeMember _ => ℕ
  | deleteSessionsOf _ => Unit
  | door op => op.Res

/-- The address is on one of the two lists of admins. -/
def AccessWorld.entitled (cfg : AccessConfig) (w : AccessWorld) (email : String) : Bool :=
  cfg.adminEmails.contains email ||
    w.members.any fun m => cfg.totp.lower m.email = email && m.revokedAt.isNone

/-- What the join of `require_operator` finds. -/
def AccessWorld.session (cfg : AccessConfig) (w : AccessWorld) (tokenHash : List UInt8)
    (email : String) : Option OperatorAccount := do
  let s ← w.door.sessions.find? fun s => s.tokenHash = tokenHash && w.clock < s.expiresAt
  let o ← w.door.operators.find? fun o => o.id = s.operatorId
  if cfg.totp.lower o.email = email && w.entitled cfg email then some o else none

/-- `now()` is the clock of the database. -/
def LockoutOp.timed (clock : Time) (ω : LockoutOracle) : LockoutOp → LockoutOracle
  | .insertSession .. => { ω with clock := clock }
  | _ => ω

/-- What each operation does. -/
def execAccess (cfg : AccessConfig) (tid : ℕ) :
    (op : AccessOp) → AccessOracle → AccessWorld → Option (op.Res × AccessWorld)
  | .selectEmails userId, _, w =>
      some ((w.identities.filter fun i => i.userId = userId && i.verified).filterMap fun i =>
        i.email.map cfg.totp.lower, w)
  | .selectInvited emails, _, w =>
      some (((w.members.find? fun m => m.revokedAt.isNone &&
        emails.contains (cfg.totp.lower m.email)).map fun m => cfg.totp.lower m.email), w)
  | .selectSession userId tokenHash email, _, w =>
      match w.session cfg tokenHash email with
      | none => some (none, w)
      | some o =>
        if o.disabledAt.isSome then some (some (o.id, o.disabledAt), w)
        else some (some (o.id, none),
          { w with
            trail := .passed ⟨userId, o.id, email, tokenHash, w.clock, o.disabledAt⟩ :: w.trail })
  | .deleteSession tokenHash operatorId, _, w =>
      let gone := fun s : OperatorSession => s.tokenHash = tokenHash && s.operatorId = operatorId
      some (w.door.sessions.countP gone,
        { w with door := { w.door with sessions := w.door.sessions.filter fun s => !gone s } })
  | .existsOperator email, _, w =>
      some (w.door.operators.any fun o => cfg.totp.lower o.email = email, w)
  | .randomBytes, ω, w => some (ω.bytes, w)
  | .insertOperator email totpSecret, ω, w =>
      -- A primary key and a unique address: 23505 otherwise.
      if w.door.operators.any fun o => o.id = ω.fresh || o.email = email then some (none, w)
      else some (some ω.fresh, { w with
        door := { w.door with
          operators := ⟨ω.fresh, email, totpSecret, none⟩ :: w.door.operators } })
  | .selectOperatorEmail operatorId, _, w =>
      some ((w.door.operators.find? fun o => o.id = operatorId).map fun o =>
        cfg.totp.lower o.email, w)
  | .selectMembers, _, w => some (w.members.filter fun m => m.revokedAt.isNone, w)
  | .selectMember email, _, w =>
      some ((w.members.find? fun m => cfg.totp.lower m.email = email).map fun m =>
        (m.createdAt, m.revokedAt), w)
  | .upsertMember email invitedBy, _, w =>
      let row : MemberRow := ⟨email, invitedBy, w.clock, none⟩
      some (w.clock, { w with
        members := row :: w.members.filter fun m => !decide (m.email = email)
        trail := .invited invitedBy (cfg.totp.lower email) :: w.trail })
  | .revokeMember email, _, w =>
      let live := fun m : MemberRow => cfg.totp.lower m.email = email && m.revokedAt.isNone
      some (w.members.countP live, { w with
        members := w.members.map fun m =>
          if live m then { m with revokedAt := some w.clock } else m })
  | .deleteSessionsOf email, _, w =>
      let theirs := fun s : OperatorSession =>
        w.door.operators.any fun o => o.id = s.operatorId && cfg.totp.lower o.email = email
      some ((), { w with
        door := { w.door with sessions := w.door.sessions.filter fun s => !theirs s } })
  | .door op, ω, w =>
      (execLockout cfg.totp tid op (op.timed w.clock ω.door) w.door).map fun r =>
        (r.1, { w with door := r.2 })

/-- What happens besides: time passes, users sign up, operators are disabled by hand. -/
inductive AccessMove where
  | tick (d d' : Time)
  | identity (row : IdentityEmail)
  | disable (operatorId : Uuid) (disabledAt : Option Time)

def moveAccess : AccessMove → AccessWorld → AccessWorld
  | .tick d d', w => { w with door := { w.door with now := w.door.now + d }, clock := w.clock + d' }
  | .identity row, w => { w with identities := row :: w.identities }
  | .disable operatorId disabledAt, w =>
      { w with door := { w.door with operators := w.door.operators.map fun o =>
        if o.id = operatorId then { o with disabledAt := disabledAt } else o } }

/-! ## The endpoints -/

abbrev AccessProg (α : Type) := Prog AccessOp AccessOp.Res α

/-- `authorise`; the user is whom the access token is for. -/
def authorise (cfg : AccessConfig) (user : Option Uuid) :
    AccessProg (Except SessionRefusal String) :=
  match user with
  | none => pure (.error .unauthorized)
  | some userId => do
    let emails ← Prog.perform (AccessOp.selectEmails userId)
    match emails.find? fun email => cfg.adminEmails.contains email with
    | some email => pure (.ok email)
    | none =>
      match ← Prog.perform (AccessOp.selectInvited emails) with
      | some email => pure (.ok email)
      | none => pure (.error (.refused .notFound))

/-- `require_operator`; the text is the header `x-operator-session`. -/
def requireOperator (cfg : AccessConfig) (user : Option Uuid) (presented : String) :
    AccessProg (Except SessionRefusal Uuid) := do
  match ← authorise cfg user with
  | .error e => pure (.error e)
  | .ok email =>
    if presented = "" then pure (.error (.refused .notFound))
    else
      match ← Prog.perform (AccessOp.selectSession (user.getD 0) (cfg.totp.sha256 presented)
        email) with
      | none => pure (.error (.refused .notFound))
      | some (_, some _) => pure (.error .operatorDisabled)
      | some (id, none) => pure (.ok id)

/-- `encrypt_totp_secret`. -/
def encryptTotpSecret (cfg : AccessConfig) (key nonce plaintext : List UInt8) :
    Except ApiError (List UInt8) :=
  if key.length < 32 then
    .error (.internal "OPERATOR_TOTP_KEY must be at least 32 bytes")
  else
    match cfg.encrypt (key.take 32) nonce plaintext with
    | .ok ciphertext => .ok (nonce ++ ciphertext)
    | .error e => .error (.internal e)

/-- `normalise_admin_email`. -/
def normaliseAdminEmail (cfg : AccessConfig) (raw : String) : Except SessionRefusal String :=
  let email := cfg.totp.toLowercase (trimText raw)
  match splitOnceAt email.toList with
  | none => .error (.refused (.badRequest "enter an email address"))
  | some (localPart, domain) =>
    if 254 < email.utf8ByteSize || localPart.isEmpty || domain.isEmpty || !domain.contains '.' ||
        email.toList.any isWhitespace then
      .error (.refused (.badRequest "enter an email address"))
    else .ok email

inductive AccessAnswer where
  | refused (e : SessionRefusal)
  | me (email : String) (operatorEnrolled : Bool)
  | enrolled (id : Uuid) (email otpauthUri : String)
  | session (s : SessionResponse)
  | members (rows : List MemberRow)
  | member (email invitedBy : String) (createdAt : Time)
  | noContent
  /-- An endpoint that does its work for this operator. -/
  | actedAs (operatorId : Uuid)

/-- `admin_me`. -/
def adminMe (cfg : AccessConfig) (user : Option Uuid) : AccessProg AccessAnswer := do
  match ← authorise cfg user with
  | .error e => pure (.refused e)
  | .ok email => do
    let operatorEnrolled ← Prog.perform (AccessOp.existsOperator email)
    pure (.me email operatorEnrolled)

/-- `enroll_operator`. -/
def enrollOperator (cfg : AccessConfig) (user : Option Uuid) : AccessProg AccessAnswer := do
  match ← authorise cfg user with
  | .error e => pure (.refused e)
  | .ok email =>
    match totpKey cfg.totp with
    | .error e => pure (.refused (.refused e))
    | .ok key => do
      let secret ← Prog.perform AccessOp.randomBytes
      match cfg.otpauthUrl secret email with
      | .error e => pure (.refused (.refused (.internal e)))
      | .ok uri => do
        let nonce ← Prog.perform AccessOp.randomBytes
        match encryptTotpSecret cfg key nonce secret with
        | .error e => pure (.refused (.refused e))
        | .ok packed =>
          match ← Prog.perform (AccessOp.insertOperator email packed) with
          | none => pure (.refused (.refused (.conflict "that operator is already enrolled")))
          | some id => pure (.enrolled id email uri)

/-- `create_session`, its headers included. -/
def createSessionFor (cfg : AccessConfig) (user : Option Uuid) (totp : String) :
    AccessProg AccessAnswer := do
  let authorised ← authorise cfg user
  match ← (createSession cfg.totp ⟨authorised, totp⟩).lift AccessOp.door fun _ r => r with
  | .error e => pure (.refused e)
  | .ok s => pure (.session s)

/-- `delete_session`. -/
def deleteSession (cfg : AccessConfig) (user : Option Uuid) (presented : String) :
    AccessProg AccessAnswer := do
  match ← requireOperator cfg user presented with
  | .error e => pure (.refused e)
  | .ok operatorId => do
    let deleted ← Prog.perform (AccessOp.deleteSession (cfg.totp.sha256 presented) operatorId)
    if deleted = 0 then pure (.refused (.refused .notFound)) else pure .noContent

/-- `list_members`. -/
def listMembers (cfg : AccessConfig) (user : Option Uuid) (presented : String) :
    AccessProg AccessAnswer := do
  match ← requireOperator cfg user presented with
  | .error e => pure (.refused e)
  | .ok _ => do
    let rows ← Prog.perform AccessOp.selectMembers
    pure (.members rows)

/-- `invite_member`. -/
def inviteMember (cfg : AccessConfig) (user : Option Uuid) (presented email : String) :
    AccessProg AccessAnswer := do
  match ← requireOperator cfg user presented with
  | .error e => pure (.refused e)
  | .ok operatorId =>
    match normaliseAdminEmail cfg email with
    | .error e => pure (.refused e)
    | .ok email =>
      match ← Prog.perform (AccessOp.selectOperatorEmail operatorId) with
      | none => pure (.refused (.refused (.internal "no rows returned")))
      | some invitedBy =>
        if cfg.adminEmails.contains email then
          pure (.refused (.refused (.conflict "that email is already an admin")))
        else
          match ← Prog.perform (AccessOp.selectMember email) with
          | some (_, none) =>
            pure (.refused (.refused (.conflict "that email is already an admin")))
          | _ => do
            let createdAt ← Prog.perform (AccessOp.upsertMember email invitedBy)
            pure (.member email invitedBy createdAt)

/-- `revoke_member`. -/
def revokeMember (cfg : AccessConfig) (user : Option Uuid) (presented email : String) :
    AccessProg AccessAnswer := do
  match ← requireOperator cfg user presented with
  | .error e => pure (.refused e)
  | .ok _ =>
    match normaliseAdminEmail cfg email with
    | .error e => pure (.refused e)
    | .ok email => do
      let updated ← Prog.perform (AccessOp.revokeMember email)
      if updated = 0 then pure (.refused (.refused .notFound))
      else do
        Prog.perform (AccessOp.deleteSessionsOf email)
        pure .noContent

/-- The other endpoints behind `require_operator`. -/
def actAsOperator (cfg : AccessConfig) (user : Option Uuid) (presented : String) :
    AccessProg AccessAnswer := do
  match ← requireOperator cfg user presented with
  | .error e => pure (.refused e)
  | .ok operatorId => pure (.actedAs operatorId)

inductive AccessCall where
  | adminMe
  | enrollOperator
  | createSession (totp : String)
  | deleteSession
  | listMembers
  | inviteMember (email : String)
  | revokeMember (email : String)
  | act

/-- A request: whom its access token is for, its operator header, and what it asks. -/
structure AccessRequest where
  user : Option Uuid
  presented : String
  call : AccessCall

def accessProgram (cfg : AccessConfig) (req : AccessRequest) : AccessProg AccessAnswer :=
  match req.call with
  | .adminMe => adminMe cfg req.user
  | .enrollOperator => enrollOperator cfg req.user
  | .createSession totp => createSessionFor cfg req.user totp
  | .deleteSession => deleteSession cfg req.user req.presented
  | .listMembers => listMembers cfg req.user req.presented
  | .inviteMember email => inviteMember cfg req.user req.presented email
  | .revokeMember email => revokeMember cfg req.user req.presented email
  | .act => actAsOperator cfg req.user req.presented

/-- Any number of requests of the operators' endpoints. -/
def access (cfg : AccessConfig) : Machine AccessOp AccessOp.Res AccessOracle AccessMove AccessWorld
    AccessRequest Unit AccessAnswer where
  exec tid op ω w := execAccess cfg tid op ω w
  env e w := some (moveAccess e w)
  program := accessProgram cfg
  stamp _ := ()

/-! ## What is required -/

/-- An address that goes back to `ADMIN_EMAILS`: it is among them, or somebody has invited it whose
own address went back to them at that time. -/
inductive Rooted (adminEmails : List String) : List TrailEvent → String → Prop where
  | bootstrap {past : List TrailEvent} {email : String} : email ∈ adminEmails →
      Rooted adminEmails past email
  | invited {past earlier : List TrailEvent} {invitedBy email : String} :
      (.invited invitedBy email :: earlier) <:+ past → Rooted adminEmails earlier invitedBy →
      Rooted adminEmails past email

lemma Rooted.mono {adminEmails : List String} {past past' : List TrailEvent} {email : String}
    (h : Rooted adminEmails past email) (hsub : past <:+ past') :
    Rooted adminEmails past' email := by
  cases h with
  | bootstrap h => exact .bootstrap h
  | invited hmem hby => exact .invited (hmem.trans hsub) hby

/-- A verified identity of the user has the address. -/
def OwnsAddress (cfg : AccessConfig) (userId : Uuid) (email : String) (w : AccessWorld) : Prop :=
  ∃ i ∈ w.identities, i.userId = userId ∧ i.verified = true ∧
    i.email.map cfg.totp.lower = some email

/-- A code was accepted for the address, against the secret of the operator. -/
def Accepted (cfg : AccessConfig) (operatorId : Uuid) (email : String) (code : Option TotpVerdict)
    (w : AccessWorld) : Prop :=
  ∃ o ∈ w.door.operators, o.id = operatorId ∧ cfg.totp.lower o.email = email ∧
    ∃ v ∈ w.door.verdicts, code = some v ∧ v.ok = true ∧ v.email = email ∧
      ∃ key, totpKey cfg.totp = .ok key ∧
        decryptTotpSecret cfg.totp key o.totpSecret = .ok v.secret

/-- What lies behind a pass, with the history before it. -/
structure Proven (cfg : AccessConfig) (w : AccessWorld) (p : OperatorPass)
    (past : List TrailEvent) : Prop where
  own : OwnsAddress cfg p.userId p.email w
  rooted : Rooted cfg.adminEmails past p.email
  enabled : p.disabledAt = none
  session : ∃ o ∈ w.door.opened, o.operatorId = p.operatorId ∧ o.tokenHash = p.tokenHash ∧
    o.email = p.email ∧ o.openedAt ≤ p.time ∧ p.time < o.openedAt + minutes 30 ∧
      Accepted cfg p.operatorId p.email o.code w

/-! ## The invariant -/

/-- Every pass is proven, everybody who invites and every member goes back to `ADMIN_EMAILS`, and
every session was opened for an operator whose code was accepted. -/
structure AccessOk (cfg : AccessConfig) (w : AccessWorld) : Prop where
  passes : ∀ p past, (.passed p :: past) <:+ w.trail → Proven cfg w p past
  invitations : ∀ invitedBy email past, (.invited invitedBy email :: past) <:+ w.trail →
    Rooted cfg.adminEmails past invitedBy
  members : ∀ m ∈ w.members, m.revokedAt = none →
    ∃ invitedBy past, (.invited invitedBy (cfg.totp.lower m.email) :: past) <:+ w.trail
  ids : (w.door.operators.map (·.id)).Nodup
  sessions : ∀ s ∈ w.door.sessions, ∃ o ∈ w.door.opened, o.operatorId = s.operatorId ∧
    o.tokenHash = s.tokenHash ∧ s.expiresAt = o.openedAt + minutes 30 ∧ o.openedAt ≤ w.clock ∧
      Accepted cfg s.operatorId o.email o.code w

/-- History grows, and operators keep their addresses and their secrets. -/
structure AccessLater (w w' : AccessWorld) : Prop where
  trail : w.trail <:+ w'.trail
  verdicts : w.door.verdicts ⊆ w'.door.verdicts
  opened : w.door.opened ⊆ w'.door.opened
  identities : w.identities ⊆ w'.identities
  operators : ∀ o ∈ w.door.operators, ∃ o' ∈ w'.door.operators,
    o'.id = o.id ∧ o'.email = o.email ∧ o'.totpSecret = o.totpSecret
  clock : w.clock ≤ w'.clock

/-- What a request relies on: besides, nobody else compares a code in its name. -/
structure AccessRely (tid : ℕ) (w w' : AccessWorld) : Prop extends AccessLater w w' where
  own : lastCompared tid w'.door.verdicts = lastCompared tid w.door.verdicts

/-- The request has had a code accepted, and has compared none since. -/
def HasAccepted (cfg : AccessConfig) (tid : ℕ) (operatorId : Uuid) (email : String)
    (w : AccessWorld) : Prop :=
  Accepted cfg operatorId email (lastCompared tid w.door.verdicts) w

/-- Sessions are looked for with one's own address, invitations are made by somebody who has
passed, and sessions are opened for an operator whose code the request has just had accepted. -/
def AccessContract (cfg : AccessConfig) (tid : ℕ) (_ : AccessRequest) (_ : Unit) (op : AccessOp)
    (w : AccessWorld) : Prop :=
  match op with
  | .selectSession userId _ email => OwnsAddress cfg userId email w
  | .upsertMember _ invitedBy => ∃ p, .passed p ∈ w.trail ∧ p.email = invitedBy
  | .door (.insertSession email operatorId _) => HasAccepted cfg tid operatorId email w
  | _ => True

section Invariant

variable {cfg : AccessConfig} {w w' w'' : AccessWorld} {op : AccessOp} {ω : AccessOracle}
  {r : op.Res} {userId operatorId : Uuid} {email : String} {tid : ℕ} {code : Option TotpVerdict}

namespace AccessLater

lemma refl (w : AccessWorld) : AccessLater w w where
  trail := List.suffix_refl _
  verdicts := List.Subset.refl _
  opened := List.Subset.refl _
  identities := List.Subset.refl _
  operators o ho := ⟨o, ho, rfl, rfl, rfl⟩
  clock := le_rfl

lemma trans (h : AccessLater w w') (h' : AccessLater w' w'') : AccessLater w w'' where
  trail := h.trail.trans h'.trail
  verdicts := List.Subset.trans h.verdicts h'.verdicts
  opened := List.Subset.trans h.opened h'.opened
  identities := List.Subset.trans h.identities h'.identities
  operators o ho := by
    obtain ⟨o', ho', hid, hemail, hsecret⟩ := h.operators o ho
    obtain ⟨o'', ho'', hid', hemail', hsecret'⟩ := h'.operators o' ho'
    exact ⟨o'', ho'', hid'.trans hid, hemail'.trans hemail, hsecret'.trans hsecret⟩
  clock := h.clock.trans h'.clock

/-- Nothing changes but members and sessions. -/
lemma of_same (htrail : w'.trail = w.trail) (hverdicts : w'.door.verdicts = w.door.verdicts)
    (hopened : w'.door.opened = w.door.opened) (hidentities : w'.identities = w.identities)
    (hoperators : w'.door.operators = w.door.operators) (hclock : w'.clock = w.clock) :
    AccessLater w w' where
  trail := htrail ▸ List.suffix_refl _
  verdicts := hverdicts ▸ List.Subset.refl _
  opened := hopened ▸ List.Subset.refl _
  identities := hidentities ▸ List.Subset.refl _
  operators o ho := ⟨o, hoperators ▸ ho, rfl, rfl, rfl⟩
  clock := hclock ▸ le_rfl

end AccessLater

lemma OwnsAddress.later (h : OwnsAddress cfg userId email w) (hlater : AccessLater w w') :
    OwnsAddress cfg userId email w' :=
  h.imp fun _ hi => ⟨hlater.identities hi.1, hi.2⟩

lemma Accepted.later (h : Accepted cfg operatorId email code w) (hlater : AccessLater w w') :
    Accepted cfg operatorId email code w' := by
  obtain ⟨o, ho, hid, hlower, v, hv, hcode, hok, hsame, key, hkey, hsecret⟩ := h
  obtain ⟨o', ho', hid', hemail, hpacked⟩ := hlater.operators o ho
  exact ⟨o', ho', hid'.trans hid, hemail ▸ hlower, v, hlater.verdicts hv, hcode, hok, hsame, key,
    hkey, hpacked ▸ hsecret⟩

lemma Proven.later {p : OperatorPass} {past : List TrailEvent} (h : Proven cfg w p past)
    (hlater : AccessLater w w') : Proven cfg w' p past where
  own := h.own.later hlater
  rooted := h.rooted
  enabled := h.enabled
  session := by
    obtain ⟨o, ho, hid, hhash, hemail, hbefore, hwithin, haccepted⟩ := h.session
    exact ⟨o, hlater.opened ho, hid, hhash, hemail, hbefore, hwithin, haccepted.later hlater⟩

/-- **Every operation only adds to what passes rest on.** -/
lemma accessLater_of_exec (h : execAccess cfg tid op ω w = some (r, w')) : AccessLater w w' := by
  cases op with
  | selectEmails | selectInvited | existsOperator | randomBytes | selectOperatorEmail
  | selectMembers | selectMember =>
      cases h
      exact .refl w
  | selectSession userId tokenHash email =>
      simp only [execAccess] at h
      split at h
      · cases h
        exact .refl w
      · split at h
        · cases h
          exact .refl w
        · cases h
          exact { AccessLater.refl w with trail := List.suffix_cons _ _ }
  | deleteSession | revokeMember | deleteSessionsOf =>
      cases h
      exact .of_same rfl rfl rfl rfl rfl rfl
  | insertOperator email secret =>
      simp only [execAccess] at h
      split at h
      · cases h
        exact .refl w
      · cases h
        exact { AccessLater.refl w with
          operators := fun o ho => ⟨o, List.mem_cons_of_mem _ ho, rfl, rfl, rfl⟩ }
  | upsertMember email invitedBy =>
      cases h
      exact { AccessLater.refl w with trail := List.suffix_cons _ _ }
  | door op =>
      obtain ⟨⟨x, door⟩, he, hres⟩ := Option.map_eq_some_iff.mp h
      cases hres
      cases op with
      | totpIsLocked | selectOperator | recordTotpFailure | clearTotpFailures | newSessionToken =>
          cases he
          exact .of_same rfl rfl rfl rfl rfl rfl
      | totpOk =>
          cases he
          exact { AccessLater.refl w with verdicts := List.subset_cons_self _ _ }
      | insertSession =>
          simp only [execLockout] at he
          split at he
          · cases he
            exact .refl w
          · cases he
            exact { AccessLater.refl w with opened := List.subset_cons_self _ _ }

/-- Only a comparison of the request's own changes the last code it has compared. -/
lemma lastCompared_of_exec (h : execAccess cfg tid op ω w = some (r, w')) {i : ℕ}
    (hcase : i ≠ tid ∨ ∀ secret e c, op ≠ .door (.totpOk secret e c)) :
    lastCompared i w'.door.verdicts = lastCompared i w.door.verdicts := by
  cases op with
  | selectEmails | selectInvited | existsOperator | randomBytes | selectOperatorEmail
  | selectMembers | selectMember | deleteSession | revokeMember | deleteSessionsOf
  | upsertMember =>
      cases h
      rfl
  | selectSession =>
      simp only [execAccess] at h
      split at h
      · cases h
        rfl
      · split at h
        · cases h
          rfl
        · cases h
          rfl
  | insertOperator =>
      simp only [execAccess] at h
      split at h
      · cases h
        rfl
      · cases h
        rfl
  | door op =>
      obtain ⟨⟨x, door⟩, he, hres⟩ := Option.map_eq_some_iff.mp h
      cases hres
      cases op with
      | totpIsLocked | selectOperator | recordTotpFailure | clearTotpFailures | newSessionToken =>
          cases he
          rfl
      | totpOk secret e c =>
          cases he
          have hne : i ≠ tid := hcase.resolve_right fun hall => hall secret e c rfl
          exact List.find?_cons_of_neg (by simpa using hne.symm)
      | insertSession =>
          simp only [execLockout] at he
          split at he
          · cases he
            rfl
          · cases he
            rfl

lemma accessRely_of_exec (h : execAccess cfg tid op ω w = some (r, w')) {i : ℕ} (hne : i ≠ tid) :
    AccessRely i w w' :=
  ⟨accessLater_of_exec h, lastCompared_of_exec h (.inl hne)⟩

lemma accessLater_of_move (e : AccessMove) (w : AccessWorld) :
    AccessLater w (moveAccess e w) := by
  cases e with
  | tick d d' => exact { AccessLater.refl w with clock := Nat.le_add_right _ _ }
  | identity row => exact { AccessLater.refl w with identities := List.subset_cons_self _ _ }
  | disable operatorId disabledAt =>
      refine { AccessLater.refl w with operators := fun o ho => ?_ }
      refine ⟨_, List.mem_map_of_mem ho, ?_⟩
      split
      · exact ⟨rfl, rfl, rfl⟩
      · exact ⟨rfl, rfl, rfl⟩

lemma accessRely_of_move (e : AccessMove) (w : AccessWorld) (i : ℕ) :
    AccessRely i w (moveAccess e w) :=
  ⟨accessLater_of_move e w, by cases e <;> rfl⟩

/-- What leaves the history alone, and adds neither members nor sessions, keeps the invariant. -/
lemma AccessOk.quiet (h : AccessOk cfg w) (hlater : AccessLater w w')
    (htrail : w'.trail = w.trail)
    (hmembers : ∀ m ∈ w'.members, m.revokedAt = none →
      ∃ m₀ ∈ w.members, m₀.revokedAt = none ∧ m₀.email = m.email)
    (hids : (w'.door.operators.map (·.id)).Nodup)
    (hsessions : w'.door.sessions ⊆ w.door.sessions) : AccessOk cfg w' where
  passes p past hp := (h.passes p past (htrail ▸ hp)).later hlater
  invitations invitedBy email past hp := h.invitations invitedBy email past (htrail ▸ hp)
  members m hm hlive := by
    obtain ⟨m₀, hm₀, hlive₀, hemail⟩ := hmembers m hm hlive
    rw [htrail, ← hemail]
    exact h.members m₀ hm₀ hlive₀
  ids := hids
  sessions s hs := by
    obtain ⟨o, ho, hid, hhash, hexpires, hopened, haccepted⟩ := h.sessions s (hsessions hs)
    exact ⟨o, hlater.opened ho, hid, hhash, hexpires, hopened.trans hlater.clock,
      haccepted.later hlater⟩

/-- What writes one event down keeps the invariant if the event is right. -/
lemma AccessOk.event (h : AccessOk cfg w) (hlater : AccessLater w w') {e : TrailEvent}
    (htrail : w'.trail = e :: w.trail) (hpassed : ∀ p, e = .passed p → Proven cfg w p w.trail)
    (hinvited : ∀ invitedBy email, e = .invited invitedBy email →
      Rooted cfg.adminEmails w.trail invitedBy)
    (hmembers : ∀ m ∈ w'.members, m.revokedAt = none →
      m ∈ w.members ∨ ∃ invitedBy, e = .invited invitedBy (cfg.totp.lower m.email))
    (hdoor : w'.door = w.door) : AccessOk cfg w' where
  passes p past hp := by
    rcases List.suffix_cons_iff.mp (htrail ▸ hp) with heq | hp
    · obtain ⟨rfl, rfl⟩ := List.cons.inj heq
      exact (hpassed p rfl).later hlater
    · exact (h.passes p past hp).later hlater
  invitations invitedBy email past hp := by
    rcases List.suffix_cons_iff.mp (htrail ▸ hp) with heq | hp
    · obtain ⟨rfl, rfl⟩ := List.cons.inj heq
      exact hinvited invitedBy email rfl
    · exact h.invitations invitedBy email past hp
  members m hm hlive := by
    rcases hmembers m hm hlive with hm | ⟨invitedBy, rfl⟩
    · obtain ⟨invitedBy, past, hp⟩ := h.members m hm hlive
      exact ⟨invitedBy, past, hp.trans hlater.trail⟩
    · exact ⟨invitedBy, w.trail, htrail ▸ List.suffix_refl _⟩
  ids := hdoor ▸ h.ids
  sessions s hs := by
    obtain ⟨o, ho, hid, hhash, hexpires, hopened, haccepted⟩ := h.sessions s (hdoor ▸ hs)
    exact ⟨o, hlater.opened ho, hid, hhash, hexpires, hopened.trans hlater.clock,
      haccepted.later hlater⟩

lemma AccessOk.fresh (now clock : Time) (identities : List IdentityEmail) :
    AccessOk cfg (.fresh now clock identities) where
  passes _ _ hp := by simp [AccessWorld.fresh] at hp
  invitations _ _ _ hp := by simp [AccessWorld.fresh] at hp
  members _ hm := absurd hm List.not_mem_nil
  ids := List.nodup_nil
  sessions _ hs := absurd hs List.not_mem_nil

/-- Whoever is on one of the lists goes back to `ADMIN_EMAILS`. -/
lemma AccessOk.rooted_of_entitled (h : AccessOk cfg w) (hon : w.entitled cfg email = true) :
    Rooted cfg.adminEmails w.trail email := by
  simp only [AccessWorld.entitled, Bool.or_eq_true, List.contains_eq_mem, decide_eq_true_eq,
    List.any_eq_true, Bool.and_eq_true, Option.isNone_iff_eq_none] at hon
  rcases hon with hadmin | ⟨m, hm, hemail, hlive⟩
  · exact .bootstrap hadmin
  · obtain ⟨invitedBy, past, hinvited⟩ := h.members m hm hlive
    rw [hemail] at hinvited
    exact .invited hinvited (h.invitations _ _ _ hinvited)

/-- **What the join of `require_operator` finds has been proven.** -/
lemma AccessOk.proven_of_session (h : AccessOk cfg w) {tokenHash : List UInt8}
    {o : OperatorAccount} (hfound : w.session cfg tokenHash email = some o)
    (henabled : o.disabledAt = none) (howns : OwnsAddress cfg userId email w) :
    Proven cfg w ⟨userId, o.id, email, tokenHash, w.clock, o.disabledAt⟩ w.trail := by
  simp only [AccessWorld.session, Option.bind_eq_bind, Option.bind_eq_some_iff] at hfound
  obtain ⟨s, hs, a, ha, hentitled⟩ := hfound
  split at hentitled
  · rename_i hcond
    cases hentitled
    simp only [Bool.and_eq_true, decide_eq_true_eq] at hcond
    have hhash := List.find?_some hs
    have hid := List.find?_some ha
    simp only [Bool.and_eq_true, decide_eq_true_eq] at hhash hid
    obtain ⟨opening, hopening, hopid, hophash, hexpires, hbefore, haccepted⟩ :=
      h.sessions s (List.mem_of_find?_eq_some hs)
    -- The operator whose code was accepted is the one found: operators have different ids.
    obtain ⟨o', ho', hid', hlower, hcode⟩ := haccepted
    obtain rfl : o' = o := List.inj_on_of_nodup_map h.ids ho' (List.mem_of_find?_eq_some ha)
      (hid'.trans hid.symm)
    have hsame : opening.email = email := hlower.symm.trans hcond.1
    rw [hsame] at hcode
    refine ⟨howns, h.rooted_of_entitled hcond.2, henabled, opening, hopening, ?_, ?_, hsame,
      hbefore, ?_, o', ho', rfl, hcond.1, hcode⟩
    · exact hopid.trans hid.symm
    · exact hophash.trans hhash.1
    · exact hexpires ▸ hhash.2
  · cases hentitled

/-- **Each operation within its contract keeps the invariant.** -/
lemma AccessOk.exec (h : AccessOk cfg w) {req : AccessRequest}
    (hC : AccessContract cfg tid req () op w) (he : execAccess cfg tid op ω w = some (r, w')) :
    AccessOk cfg w' := by
  have hlater := accessLater_of_exec he
  have hsame : ∀ m ∈ w.members, m.revokedAt = none →
      ∃ m₀ ∈ w.members, m₀.revokedAt = none ∧ m₀.email = m.email := fun m hm hlive =>
    ⟨m, hm, hlive, rfl⟩
  cases op with
  | selectEmails | selectInvited | existsOperator | randomBytes | selectOperatorEmail
  | selectMembers | selectMember =>
      cases he
      exact h
  | selectSession userId tokenHash email =>
      simp only [execAccess] at he
      split at he
      · cases he
        exact h
      · rename_i o hfound
        split at he
        · cases he
          exact h
        · rename_i henabled
          cases he
          have hproven := h.proven_of_session hfound (by simpa using henabled) hC
          exact h.event hlater rfl (fun _ heq => by cases heq; exact hproven)
            (fun _ _ heq => by cases heq) (fun m hm _ => .inl hm) rfl
  | deleteSession tokenHash operatorId | deleteSessionsOf email =>
      cases he
      exact h.quiet hlater rfl hsame h.ids fun _ hs => List.mem_of_mem_filter hs
  | insertOperator email secret =>
      simp only [execAccess] at he
      split at he
      · cases he
        exact h
      · rename_i hnew
        cases he
        refine h.quiet hlater rfl hsame (List.nodup_cons.mpr ⟨fun hmem => ?_, h.ids⟩)
          (List.Subset.refl _)
        obtain ⟨o, ho, hid⟩ := List.mem_map.mp hmem
        have hid : o.id = ω.fresh := hid
        exact hnew (List.any_eq_true.mpr ⟨o, ho, by simp [hid]⟩)
  | upsertMember email invitedBy =>
      cases he
      obtain ⟨p, hp, rfl⟩ := hC
      -- Who invites has passed, and is rooted in the history before that.
      obtain ⟨newer, older, htrail⟩ := List.append_of_mem hp
      have hsuffix : (.passed p :: older) <:+ w.trail := ⟨newer, htrail.symm⟩
      have hrooted : Rooted cfg.adminEmails w.trail p.email :=
        (h.passes p older hsuffix).rooted.mono ((List.suffix_cons _ _).trans hsuffix)
      refine h.event hlater rfl (fun _ heq => by cases heq) (fun _ _ heq => ?_)
        (fun m hm _ => ?_) rfl
      · cases heq
        exact hrooted
      · rcases List.mem_cons.mp hm with rfl | hm
        · exact .inr ⟨p.email, rfl⟩
        · exact .inl (List.mem_of_mem_filter hm)
  | revokeMember email =>
      cases he
      refine h.quiet hlater rfl (fun m hm hlive => ?_) h.ids (List.Subset.refl _)
      obtain ⟨m₀, hm₀, rfl⟩ := List.mem_map.mp hm
      split at hlive
      · cases hlive
      · rename_i hno
        exact ⟨m₀, hm₀, hlive, by rw [if_neg hno]⟩
  | door op =>
      obtain ⟨⟨x, door⟩, hexec, hres⟩ := Option.map_eq_some_iff.mp he
      cases hres
      cases op with
      | totpIsLocked | selectOperator | totpOk | recordTotpFailure | clearTotpFailures
      | newSessionToken =>
          cases hexec
          exact h.quiet hlater rfl hsame h.ids (List.Subset.refl _)
      | insertSession email operatorId tokenHash =>
          simp only [execLockout] at hexec
          split at hexec
          · cases hexec
            exact h
          · cases hexec
            refine ⟨fun p past hp => (h.passes p past hp).later hlater, h.invitations, h.members,
              h.ids, fun s hs => ?_⟩
            rcases List.mem_cons.mp hs with rfl | hs
            · have haccepted : HasAccepted cfg tid operatorId email w := hC
              exact ⟨_, List.mem_cons_self, rfl, rfl, rfl, le_rfl, haccepted.later hlater⟩
            · obtain ⟨o, ho, hid, hhash, hexpires, hopened, haccepted⟩ := h.sessions s hs
              exact ⟨o, List.mem_cons_of_mem _ ho, hid, hhash, hexpires, hopened,
                haccepted.later hlater⟩

lemma AccessOk.move (h : AccessOk cfg w) (e : AccessMove) : AccessOk cfg (moveAccess e w) := by
  have hlater := accessLater_of_move e w
  cases e with
  | tick | identity =>
      exact h.quiet hlater rfl (fun m hm hlive => ⟨m, hm, hlive, rfl⟩) h.ids (List.Subset.refl _)
  | disable operatorId disabledAt =>
      refine h.quiet hlater rfl (fun m hm hlive => ⟨m, hm, hlive, rfl⟩) ?_ (List.Subset.refl _)
      have hids : (w.door.operators.map fun o =>
          if o.id = operatorId then { o with disabledAt := disabledAt } else o).map (·.id) =
          w.door.operators.map (·.id) := by
        rw [List.map_map]
        refine List.map_congr_left fun o _ => ?_
        simp only [Function.comp_apply]
        split <;> rfl
      exact hids ▸ h.ids

/-! ## The endpoints keep their contracts -/

/-- What is safe in any interleaving. -/
abbrev AccessSafe (cfg : AccessConfig) (tid : ℕ) (req : AccessRequest) {β : Type}
    (Q : β → AccessWorld → Prop) : AccessProg β → AccessWorld → Prop :=
  Safe (access cfg) (AccessOk cfg) AccessRely anyOp (AccessContract cfg) tid req () Q

variable {req : AccessRequest}

/-- An operation that owes nothing, with what is known before it. -/
lemma safe_call {β : Type} {Q : β → AccessWorld → Prop} {k : op.Res → AccessProg β}
    (hC : ∀ w', AccessRely tid w w' → AccessContract cfg tid req () op w')
    (hk : ∀ w' ω r w'', AccessOk cfg w' → AccessRely tid w w' →
      execAccess cfg tid op ω w' = some (r, w'') → AccessSafe cfg tid req Q (k r) w'') :
    AccessSafe cfg tid req Q (.call op k) w :=
  fun w' hI hR ω _ => ⟨hC w' hR, fun r w'' he => hk w' ω r w'' hI hR he⟩

/-- **`authorise` answers with an address of the caller's own.** -/
lemma safe_authorise (user : Option Uuid) : AccessSafe cfg tid req
    (fun r w => ∀ email, r = .ok email → OwnsAddress cfg (user.getD 0) email w)
    (authorise cfg user) w := by
  rcases user with _ | userId
  · intro email h
    cases h
  · have howns : ∀ {w₁ : AccessWorld} {email : String},
        email ∈ ((w₁.identities.filter fun i => i.userId = userId && i.verified).filterMap
          fun i => i.email.map cfg.totp.lower) → OwnsAddress cfg userId email w₁ := by
      intro w₁ email hmem
      obtain ⟨i, hi, hemail⟩ := List.mem_filterMap.mp hmem
      obtain ⟨hi, hmine⟩ := List.mem_filter.mp hi
      simp only [Bool.and_eq_true, decide_eq_true_eq] at hmine
      exact ⟨i, hi, hmine.1, hmine.2, hemail⟩
    unfold authorise
    simp only [Prog.perform_bind]
    refine safe_call (fun _ _ => trivial) fun w₁ ω emails w₂ _ _ he => ?_
    cases he
    rcases hfind : List.find? (fun email => cfg.adminEmails.contains email) _ with _ | email
    · simp only
      refine safe_call (fun _ _ => trivial) fun w₂ ω invited w₃ _ hlater he => ?_
      cases he
      rcases hinvited : List.find? _ w₂.members with _ | m
      · intro email h
        cases h
      · intro email h
        cases h
        have hlive := List.find?_some hinvited
        simp only [Bool.and_eq_true, List.contains_eq_mem, decide_eq_true_eq] at hlive
        exact (howns hlive.2).later hlater.toAccessLater
    · intro email' h
      cases h
      exact howns (List.mem_of_find?_eq_some hfind)

/-- Somebody has passed as the operator. -/
def Passed (operatorId : Uuid) (w : AccessWorld) : Prop :=
  ∃ p, .passed p ∈ w.trail ∧ p.operatorId = operatorId

/-- **`require_operator` answers with an operator who has passed.** -/
lemma safe_requireOperator (user : Option Uuid) (presented : String) :
    AccessSafe cfg tid req (fun r w => ∀ id, r = .ok id → Passed id w)
      (requireOperator cfg user presented) w := by
  unfold requireOperator
  refine (safe_authorise user).bind fun r w₁ howns => ?_
  rcases r with e | email
  · intro id h
    cases h
  · simp only [Prog.perform_bind]
    split
    · intro id h
      cases h
    · refine safe_call (fun w₂ hlater => (howns email rfl).later hlater.toAccessLater)
        fun w₂ ω row w₃ _ _ he => ?_
      simp only [execAccess] at he
      split at he
      · cases he
        intro id h
        cases h
      · rename_i o _
        split at he
        · rename_i hdisabled
          cases he
          obtain ⟨since, hsince⟩ := Option.isSome_iff_exists.mp hdisabled
          simp only [hsince]
          intro id h
          cases h
        · cases he
          intro id h
          cases h
          exact ⟨_, List.mem_cons_self, rfl⟩

/-- A program none of whose operations owes anything. -/
lemma safe_of_every {β : Type} {p : AccessProg β}
    (hp : p.Every fun op => ∀ w, AccessContract cfg tid req () op w) :
    AccessSafe cfg tid req (fun _ _ => True) p w := by
  induction p generalizing w with
  | ret a => trivial
  | call op k ih =>
      exact safe_call (fun w' _ => hp.1 w') fun _ _ r _ _ _ _ => ih r (hp.2 r)

lemma HasAccepted.rely (h : HasAccepted cfg tid operatorId email w) (hR : AccessRely tid w w') :
    HasAccepted cfg tid operatorId email w' := by
  unfold HasAccepted
  rw [hR.own]
  exact Accepted.later h hR.toAccessLater

lemma HasAccepted.exec (h : HasAccepted cfg tid operatorId email w)
    (hop : ∀ secret e c, op ≠ .door (.totpOk secret e c))
    (he : execAccess cfg tid op ω w = some (r, w')) : HasAccepted cfg tid operatorId email w' :=
  h.rely ⟨accessLater_of_exec he, lastCompared_of_exec he (.inr hop)⟩

/-- An operator whose code was accepted may be given a session. -/
lemma safe_letOperatorIn {β : Type} {f : SessionResult → AccessProg β}
    (hf : ∀ r w, AccessSafe cfg tid req (fun _ _ => True) (f r) w)
    (haccepted : HasAccepted cfg tid operatorId email w) :
    AccessSafe cfg tid req (fun _ _ => True)
      ((letOperatorIn cfg.totp email operatorId).lift AccessOp.door (fun _ r => r) >>= f) w := by
  refine safe_call (fun _ _ => trivial) fun w₁ _ _ w₂ _ hR₁ he₁ => ?_
  have haccepted := (haccepted.rely hR₁).exec (by simp) he₁
  refine safe_call (fun _ _ => trivial) fun w₃ _ token w₄ _ hR₂ he₂ => ?_
  have haccepted := (haccepted.rely hR₂).exec (by simp) he₂
  refine safe_call (fun w₅ hR₃ => haccepted.rely hR₃) fun _ _ row _ _ _ _ => ?_
  rcases row with _ | expiresAt
  · exact hf _ _
  · exact hf _ _

/-- A code that has been compared is the last one. -/
lemma exec_totpOk {secret : List UInt8} {code : String} {ok : Bool}
    (h : execAccess cfg tid (.door (.totpOk secret email code)) ω w = some (ok, w')) :
    ∃ v ∈ w'.door.verdicts, lastCompared tid w'.door.verdicts = some v ∧ v.ok = ok ∧
      v.email = email ∧ v.secret = secret := by
  cases h
  exact ⟨_, List.mem_cons_self, List.find?_cons_of_pos (by simp), rfl, rfl, rfl⟩

/-- **A session is opened only for an operator whose code was accepted.** -/
lemma safe_createSession {β : Type} {f : SessionResult → AccessProg β} (request : SessionRequest)
    (hf : ∀ r w, AccessSafe cfg tid req (fun _ _ => True) (f r) w) :
    AccessSafe cfg tid req (fun _ _ => True)
      ((createSession cfg.totp request).lift AccessOp.door (fun _ r => r) >>= f) w := by
  obtain ⟨authorised, totp⟩ := request
  rcases authorised with e | email
  · exact hf _ _
  · unfold createSession
    simp only [Prog.perform_bind, Prog.lift_call, Prog.call_bind]
    refine safe_call (fun _ _ => trivial) fun w₁ _ locked w₂ _ _ _ => ?_
    rcases locked with _ | _
    · refine safe_call (fun _ _ => trivial) fun w₃ _ row w₄ _ _ he => ?_
      cases he
      rcases hfind : List.find? _ w₃.door.operators with _ | o
      · simp only
        exact safe_call (fun _ _ => trivial) fun _ _ _ _ _ _ _ => hf _ _
      · simp only
        have ho := List.mem_of_find?_eq_some hfind
        have hlower : cfg.totp.lower o.email = email := by simpa using List.find?_some hfind
        simp only [Option.map_some]
        split
        · exact hf _ _
        · unfold checkTotp
          split
          · exact hf _ _
          · rename_i key hkey
            split
            · exact hf _ _
            · rename_i secret hsecret
              simp only [Prog.perform_bind, Prog.lift_call]
              refine safe_call (fun _ _ => trivial) fun w₄ _ ok w₅ _ hlater he => ?_
              obtain ⟨v, hv, hlast, hok, hmine, rfl⟩ := exec_totpOk he
              rcases ok with _ | _
              · exact safe_call (fun _ _ => trivial) fun _ _ _ _ _ _ _ => hf _ _
              · refine safe_letOperatorIn hf ?_
                obtain ⟨o', ho', hid, hemail, hpacked⟩ :=
                  (hlater.toAccessLater.trans (accessLater_of_exec he)).operators o ho
                exact ⟨o', ho', hid, hemail ▸ hlower, v, hv, hlast, hok, hmine, key, hkey,
                  hpacked ▸ hsecret⟩
    · exact hf _ _

/-- Who has passed as an operator has that operator's address. -/
lemma AccessOk.passed_email (h : AccessOk cfg w) {o : OperatorAccount}
    (hpassed : Passed operatorId w) (ho : o ∈ w.door.operators) (hid : o.id = operatorId) :
    ∃ p, .passed p ∈ w.trail ∧ p.email = cfg.totp.lower o.email := by
  obtain ⟨p, hp, rfl⟩ := hpassed
  obtain ⟨newer, older, htrail⟩ := List.append_of_mem hp
  obtain ⟨_, -, -, -, -, -, -, o', ho', hid', hlower, -⟩ :=
    (h.passes p older ⟨newer, htrail.symm⟩).session
  obtain rfl : o' = o := List.inj_on_of_nodup_map h.ids ho' ho (hid'.trans hid.symm)
  exact ⟨p, hp, hlower.symm⟩

lemma safe_inviteMember (user : Option Uuid) (presented invited : String) :
    AccessSafe cfg tid req (fun _ _ => True) (inviteMember cfg user presented invited) w := by
  unfold inviteMember
  refine (safe_requireOperator user presented).bind fun r w₁ hpassed => ?_
  rcases r with e | operatorId
  · trivial
  · simp only [Prog.perform_bind]
    split
    · trivial
    · refine safe_call (fun _ _ => trivial) fun w₂ _ row w₃ hI hlater he => ?_
      cases he
      rcases hfind : List.find? _ w₂.door.operators with _ | o
      · trivial
      · have hmine : ∃ p, .passed p ∈ w₂.trail ∧ p.email = cfg.totp.lower o.email := by
          obtain ⟨p, hp, hid⟩ := hpassed operatorId rfl
          refine hI.passed_email ⟨p, hlater.trail.subset hp, hid⟩
            (List.mem_of_find?_eq_some hfind) ?_
          simpa using List.find?_some hfind
        simp only [Option.map_some]
        split
        · trivial
        · refine safe_call (fun _ _ => trivial) fun w₃ _ existing w₄ _ hlater he => ?_
          have hmine : ∀ w₅, AccessRely tid w₄ w₅ →
              ∃ p, .passed p ∈ w₅.trail ∧ p.email = cfg.totp.lower o.email := fun w₅ hlater' =>
            hmine.imp fun p hp => ⟨hlater'.trail.subset
              ((accessLater_of_exec he).trail.subset (hlater.trail.subset hp.1)), hp.2⟩
          split
          · trivial
          · exact safe_call hmine fun _ _ _ _ _ _ _ => trivial

/-- **Every request keeps its contracts.** -/
lemma safe_accessProgram (req : AccessRequest) :
    AccessSafe cfg tid req (fun _ _ => True) (accessProgram cfg req) w := by
  obtain ⟨user, presented, call⟩ := req
  unfold accessProgram
  cases call with
  | adminMe =>
      refine (safe_authorise user).bind fun r w₁ _ => safe_of_every ?_
      rcases r with e | email
      · trivial
      · exact ⟨fun _ => trivial, fun _ => trivial⟩
  | enrollOperator =>
      refine (safe_authorise user).bind fun r w₁ _ => safe_of_every ?_
      rcases r with e | email
      · trivial
      · simp only [Prog.perform_bind]
        split
        · trivial
        · refine ⟨fun _ => trivial, fun secret => ?_⟩
          beta_reduce
          split
          · trivial
          · refine ⟨fun _ => trivial, fun nonce => ?_⟩
            beta_reduce
            split
            · trivial
            · refine ⟨fun _ => trivial, fun id => ?_⟩
              rcases id with _ | id <;> trivial
  | createSession totp =>
      refine (safe_authorise user).bind fun r w₁ _ => safe_createSession _ fun r w₂ => ?_
      rcases r with e | session <;> trivial
  | deleteSession =>
      refine (safe_requireOperator user presented).bind fun r w₁ _ => safe_of_every ?_
      rcases r with e | operatorId
      · trivial
      · refine ⟨fun _ => trivial, fun deleted => ?_⟩
        exact iteInduction (fun _ => trivial) fun _ => trivial
  | listMembers =>
      refine (safe_requireOperator user presented).bind fun r w₁ _ => safe_of_every ?_
      rcases r with e | operatorId
      · trivial
      · exact ⟨fun _ => trivial, fun _ => trivial⟩
  | inviteMember email => exact safe_inviteMember user presented email
  | revokeMember email =>
      refine (safe_requireOperator user presented).bind fun r w₁ _ => safe_of_every ?_
      rcases r with e | operatorId
      · trivial
      · simp only [Prog.perform_bind]
        split
        · trivial
        · refine ⟨fun _ => trivial, fun updated => ?_⟩
          exact iteInduction (fun _ => trivial) fun _ => ⟨fun _ => trivial, fun _ => trivial⟩
  | act =>
      refine (safe_requireOperator user presented).bind fun r w₁ _ => ?_
      rcases r with e | operatorId <;> trivial

lemma keeps_access (cfg : AccessConfig) :
    Keeps (access cfg) (AccessOk cfg) AccessRely anyOp (AccessContract cfg) where
  refl _ w := ⟨.refl w, rfl⟩
  trans h h' := ⟨h.toAccessLater.trans h'.toAccessLater, h'.own.trans h.own⟩
  env {e w w'} hI h := by
    cases h
    exact ⟨hI.move e, fun i => accessRely_of_move e w i⟩
  op hI _ hC h := ⟨hI.exec hC h, fun _ hne => accessRely_of_exec h hne⟩
  spawn tid req w _ := safe_accessProgram req

end Invariant

/-! ## A deployment -/

/-- One address may act, and nothing is hidden. -/
def soleAdmin : AccessConfig where
  totp := stubTotp
  adminEmails := ["ops@example.test"]
  encrypt _ _ plaintext := .ok plaintext
  otpauthUrl _ _ := .ok "otpauth://totp/Naivolt"

/-- The user behind it, and another one. -/
def twoIdentities : List IdentityEmail :=
  [⟨7, some "ops@example.test", true⟩, ⟨8, some "b@example.test", true⟩]

/-- A request of a user, with the answers to its operations. -/
def serveAccess (tid : ℕ) (user : Uuid) (presented : String) (call : AccessCall)
    (answers : List AccessOracle) : List (Act AccessOracle AccessMove AccessRequest) :=
  .spawn tid ⟨some user, presented, call⟩ :: answers.map (.resume tid)

/-- The admin enrols and opens a session with the right code. -/
def adminIn : List (Act AccessOracle AccessMove AccessRequest) :=
  serveAccess 0 7 "" .enrollOperator
      [{}, { bytes := List.replicate 20 1 }, { bytes := List.replicate 12 0 }, { fresh := 1 }] ++
    serveAccess 1 7 "" (.createSession "428193")
      [{}, {}, {}, {}, {}, { door := { token := "t" } }, {}]

/-- The other user is invited and enrols.  While a session is being opened for them, and a request
of theirs has been authorised, the admin revokes the invitation. -/
def memberOut : List (Act AccessOracle AccessMove AccessRequest) :=
  adminIn ++ serveAccess 2 7 "t" (.inviteMember "b@example.test") [{}, {}, {}, {}, {}] ++
    serveAccess 3 8 "" .enrollOperator [{}, {}, { bytes := List.replicate 20 2 },
      { bytes := List.replicate 12 0 }, { fresh := 2 }] ++
    serveAccess 4 8 "" (.createSession "428193")
      [{}, {}, {}, {}, {}, {}, { door := { token := "u" } }] ++
    serveAccess 5 8 "u" .act [{}, {}] ++
    serveAccess 6 7 "t" (.revokeMember "b@example.test") [{}, {}, {}, {}] ++
    [.resume 4 {}]

/-- The state after that, with the session open. -/
def afterRevocation : Sys AccessOp AccessOp.Res AccessWorld AccessRequest Unit AccessAnswer :=
  ((access soleAdmin).run (fun _ _ => true) (Sys.idle (.fresh 0 0 twoIdentities)) memberOut).elim
    (Sys.idle (.fresh 0 0 [])) id

/-! ## Revocations -/

/-- No invitation of the address is carried out. -/
def NotInvited (cfg : AccessConfig) (email : String) (_ : ℕ) (_ : AccessRequest) (_ : Unit)
    (op : AccessOp) (_ : AccessOracle) (_ : AccessWorld) : Prop :=
  match op with
  | .upsertMember e _ => cfg.totp.lower e ≠ email
  | _ => True

instance (cfg : AccessConfig) (email : String) (tid : ℕ) (req : AccessRequest) (b : Unit)
    (op : AccessOp) (ω : AccessOracle) (w : AccessWorld) :
    Decidable (NotInvited cfg email tid req b op ω w) := by
  unfold NotInvited
  split <;> infer_instance

/-- The address is on neither list, and nobody has passed with it since the history was `before`. -/
structure ShutOut (cfg : AccessConfig) (email : String) (before : List TrailEvent)
    (w : AccessWorld) : Prop where
  out : w.entitled cfg email = false
  since : ∃ newer, w.trail = newer ++ before ∧ ∀ p, .passed p ∈ newer → p.email ≠ email

section Revocation

variable {cfg : AccessConfig} {email : String} {before : List TrailEvent} {w w' : AccessWorld}
  {op : AccessOp} {ω : AccessOracle} {r : op.Res}

/-- What leaves history alone and puts nobody on the list keeps an address out. -/
lemma ShutOut.quiet (h : ShutOut cfg email before w) (htrail : w'.trail = w.trail)
    (hmembers : ∀ m ∈ w'.members, m.revokedAt = none → m ∈ w.members) :
    ShutOut cfg email before w' where
  out := by
    have hout := h.out
    simp only [AccessWorld.entitled, Bool.or_eq_false_iff, List.any_eq_false, Bool.and_eq_true,
      decide_eq_true_eq, Option.isNone_iff_eq_none] at hout ⊢
    exact ⟨hout.1, fun m hm hlive => hout.2 m (hmembers m hm hlive.2) hlive⟩
  since := htrail ▸ h.since

/-- Somebody else does something that is entered into the history. -/
lemma ShutOut.since_cons (h : ShutOut cfg email before w) {x : TrailEvent}
    (hx : ∀ p, x = .passed p → p.email ≠ email) :
    ∃ newer, x :: w.trail = newer ++ before ∧ ∀ p, .passed p ∈ newer → p.email ≠ email := by
  obtain ⟨newer, htrail, hnone⟩ := h.since
  refine ⟨x :: newer, by rw [htrail, List.cons_append], fun p hp => ?_⟩
  rcases List.mem_cons.mp hp with heq | hp
  · exact hx p heq.symm
  · exact hnone p hp

/-- What the join of `require_operator` finds is on one of the lists. -/
lemma entitled_of_session {tokenHash : List UInt8} {o : OperatorAccount}
    (h : w.session cfg tokenHash email = some o) : w.entitled cfg email = true := by
  simp only [AccessWorld.session, Option.bind_eq_bind, Option.bind_eq_some_iff] at h
  obtain ⟨_, -, _, -, h⟩ := h
  split at h
  · rename_i hcond
    exact (Bool.and_eq_true _ _ ▸ hcond).2
  · cases h

lemma ShutOut.exec (h : ShutOut cfg email before w) {tid : ℕ} {req : AccessRequest}
    (hg : NotInvited cfg email tid req () op ω w) (he : execAccess cfg tid op ω w = some (r, w')) :
    ShutOut cfg email before w' := by
  cases op with
  | selectEmails | selectInvited | existsOperator | randomBytes | selectOperatorEmail
  | selectMembers | selectMember | deleteSession | deleteSessionsOf =>
      cases he
      exact h.quiet rfl fun _ hm _ => hm
  | selectSession userId tokenHash e =>
      simp only [execAccess] at he
      split at he
      · cases he
        exact h
      · rename_i o hfound
        split at he
        · cases he
          exact h
        · cases he
          refine ⟨h.out, h.since_cons fun p hp => ?_⟩
          cases hp
          -- Whoever passes is on a list.
          rintro rfl
          exact Bool.false_ne_true (h.out.symm.trans (entitled_of_session hfound))
  | insertOperator e secret =>
      simp only [execAccess] at he
      split at he
      · cases he
        exact h
      · cases he
        exact h.quiet rfl fun _ hm _ => hm
  | upsertMember e invitedBy =>
      cases he
      refine ⟨?_, h.since_cons fun p hp => (by cases hp)⟩
      have hout := h.out
      simp only [AccessWorld.entitled, Bool.or_eq_false_iff, List.any_eq_false, Bool.and_eq_true,
        decide_eq_true_eq, Option.isNone_iff_eq_none] at hout ⊢
      refine ⟨hout.1, fun m hm hlive => ?_⟩
      rcases List.mem_cons.mp hm with rfl | hm
      · exact hg hlive.1
      · exact hout.2 m (List.mem_of_mem_filter hm) hlive
  | revokeMember e =>
      cases he
      refine h.quiet rfl fun m hm hlive => ?_
      obtain ⟨m₀, hm₀, rfl⟩ := List.mem_map.mp hm
      split at hlive
      · cases hlive
      · rename_i hno
        rwa [if_neg hno]
  | door op =>
      obtain ⟨_, -, hres⟩ := Option.map_eq_some_iff.mp he
      cases hres
      exact h.quiet rfl fun _ hm _ => hm

end Revocation

end Naivolt
