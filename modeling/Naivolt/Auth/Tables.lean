import Naivolt.Auth.Session
import Naivolt.Auth.Identity
import Naivolt.Foundation.ReadCommitted

/-!
# The accounts database

The tables behind sign-in — users, identities, wallets, one-time codes, refresh tokens — and the
SQL statements the handlers of the API send, as they behave at READ COMMITTED: what a statement
reads it reads from its snapshot, a row it locks or changes it finds as it is by then, and a row
or key it writes it keeps locked to the end of its transaction.

What the program does not decide comes from the schedule through an `AuthOracle`: the clock,
fresh identifiers, random secrets, the answers of the signer and of the notifier.
-/

namespace Naivolt

open Foundation

/-! ## Tables -/

/-- A row of `users`. -/
structure User where
  phone : Option String
  email : Option String
  addressIndex : ℕ
  kycTier : ℕ := 0
  hasPin : Bool := false
  displayName : Option String := none
  avatarSeed : Option String := none
  /-- In days since the epoch. -/
  dateOfBirth : Option ℤ := none
  deriving DecidableEq

/-- `DerivedAddress`. -/
structure DerivedAddress where
  chain : Chain
  address : String
  derivationPath : String
  deriving DecidableEq

/-- What an `UPDATE users` sets; a field that is none keeps its value. -/
structure UserPatch where
  displayName : Option String := none
  avatarSeed : Option String := none
  email : Option String := none
  dateOfBirth : Option ℤ := none
  deriving DecidableEq

/-- The row with `COALESCE(new, old)` in every patched column. -/
def UserPatch.apply (p : UserPatch) (u : User) : User :=
  { u with
    displayName := p.displayName <|> u.displayName,
    avatarSeed := p.avatarSeed <|> u.avatarSeed,
    email := p.email <|> u.email,
    dateOfBirth := p.dateOfBirth <|> u.dateOfBirth }

/-- The committed tables. -/
structure AuthDb where
  users : Table Uuid User
  identities : Table Uuid Identity
  wallets : List (Uuid × DerivedAddress)
  challenges : Table Uuid OtpChallenge
  sessions : Table Uuid Session

/-- A freshly migrated database. -/
def AuthDb.empty : AuthDb := ⟨.empty, .empty, [], .empty, .empty⟩

/-! ## Writes and locks -/

/-- What a statement writes. -/
inductive AuthWrite where
  | user (id : Uuid) (row : User)
  | editUser (id : Uuid) (patch : UserPatch)
  | identity (id : Uuid) (row : Identity)
  | wallet (userId : Uuid) (address : DerivedAddress)
  | challenge (id : Uuid) (row : OtpChallenge)
  | dropChallenge (id : Uuid)
  | attempt (id : Uuid) (attempts : ℤ) (consumedAt : Option Time)
  | session (id : Uuid) (row : Session)
  | rotated (id : Uuid) (time : Time)
  | revoked (id : Uuid) (time : Time)

/-- What a write makes of the tables; none is a primary key that is taken. -/
def AuthWrite.apply (db : AuthDb) : AuthWrite → Option AuthDb
  | .user id row => (db.users.insert id row).map fun t => { db with users := t }
  | .editUser id patch => some { db with users := db.users.modify id patch.apply }
  | .identity id row => (db.identities.insert id row).map fun t => { db with identities := t }
  | .wallet userId address => some { db with wallets := (userId, address) :: db.wallets }
  | .challenge id row => (db.challenges.insert id row).map fun t => { db with challenges := t }
  | .dropChallenge id => some { db with challenges := db.challenges.erase id }
  | .attempt id attempts consumedAt => some { db with
      challenges := db.challenges.modify id fun c =>
        { c with attempts := attempts, consumedAt := consumedAt } }
  | .session id row => (db.sessions.insert id row).map fun t => { db with sessions := t }
  | .rotated id time => some { db with
      sessions := db.sessions.modify id fun s => { s with rotatedAt := some time } }
  | .revoked id time => some { db with
      sessions := db.sessions.modify id fun s => { s with revokedAt := some time } }

/-- A row, or a key of a unique index. -/
inductive AuthLock where
  | user (id : Uuid)
  | userPhone (phone : String)
  | userEmail (email : String)
  | identity (id : Uuid)
  | providerSubject (provider : Provider) (subject : String)
  | walletOwner (userId : Uuid) (chain : Chain)
  | walletAddress (chain : Chain) (address : String)
  | challenge (id : Uuid)
  | liveCode (destination : String)
  | session (id : Uuid)
  | tokenHash (hash : String)
  /-- A random identifier that names a family from now on. -/
  | family (id : Uuid)
  deriving DecidableEq

/-! ## Statements -/

/-- One statement of a handler, or one call to another service while a transaction is open. -/
inductive AuthOp where
  | clock
  -- one-time codes
  | lastSent (destination : String)
  | randomCode
  | hashCode (code : String)
  | dropChallenges (destination : String)
  | insertChallenge (row : OtpChallenge)
  | sendCode (destination : String) (channel : Channel) (code : String)
  | selectChallenge (destination : String)
  | saveAttempt (id : Uuid) (attempts : ℤ) (consumedAt : Option Time)
  -- identities and users
  | bySubject (provider : Provider) (subject : String)
  | byVerifiedEmail (email : String)
  | byVerifiedPhone (phone : String)
  | attachIdentity (userId : Uuid) (claim : IdentityClaim)
  | insertUser (phone email : Option String)
  | addressIndex (userId : Uuid)
  | deriveAll (index : ℕ)
  | insertWallet (userId : Uuid) (address : DerivedAddress)
  | loadUser (userId : Uuid)
  | updateUser (userId : Uuid) (patch : UserPatch)
  | selectTier (userId : Uuid)
  -- refresh tokens
  | selectSession (hash : String)
  | setRotated (id : Uuid) (now : Time)
  | revokeFamily (familyId : Uuid) (now : Time)
  | revokeFamilyOf (hash : String) (now : Time)
  | randomSecret
  | newFamily
  | insertSession (userId : Uuid) (token : RefreshToken)
  | signAccess (userId sessionId : Uuid) (tier : ℕ) (now : Time)

/-- What a statement answers.  A false or absent answer of an insert is a constraint violated, of
a call a failure of the other service. -/
abbrev AuthOp.Res : AuthOp → Type
  | .clock => Time
  | .lastSent _ => Option Time
  | .randomCode | .randomSecret => String
  | .hashCode _ | .signAccess .. => Option String
  | .dropChallenges _ | .saveAttempt .. | .attachIdentity .. | .setRotated .. |
    .revokeFamily .. => Unit
  | .insertChallenge _ | .sendCode .. | .insertWallet .. | .updateUser .. |
    .insertSession .. => Bool
  | .selectChallenge _ => Option (Uuid × OtpChallenge)
  | .bySubject .. | .byVerifiedEmail _ | .byVerifiedPhone _ | .insertUser .. |
    .revokeFamilyOf .. => Option Uuid
  | .addressIndex _ | .selectTier _ => Option ℕ
  | .deriveAll _ => Option (List DerivedAddress)
  | .loadUser _ => Option User
  | .selectSession _ => Option (Uuid × Session)
  | .newFamily => Uuid

/-- What the program does not decide. -/
structure AuthOracle where
  now : Time := 0
  uuid : Uuid := 0
  /-- The next value of the identity column `address_index`. -/
  index : ℕ := 0
  /-- Random text, or text made from it: a code, a salted hash, a secret, a signature. -/
  text : Option String := none
  derived : Option (List DerivedAddress) := none
  sent : Bool := true

/-- The family a presented token belongs to. -/
def familyOf (db : AuthDb) (hash : String) : Option Uuid :=
  (db.sessions.rows.find? fun r => r.2.refreshTokenHash = hash).map (·.2.familyId)

/-- The rows `… WHERE family_id = f AND revoked_at IS NULL` selects. -/
def revocable (db : AuthDb) (familyId : Uuid) : List Uuid :=
  (db.sessions.rows.filter fun r => r.2.familyId = familyId ∧ r.2.revokedAt = none).map (·.1)

/-- `UPDATE sessions SET revoked_at = now WHERE family_id = f AND revoked_at IS NULL`: the rows
the snapshot shows are locked, and changed if they still qualify. -/
def revoke (familyId : Uuid) (now : Time) (seen current : AuthDb) :
    List AuthWrite × List AuthLock :=
  (((revocable seen familyId).filter (· ∈ revocable current familyId)).map (.revoked · now),
    (revocable seen familyId).map .session)

/-- The unconsumed codes for a destination. -/
def liveCodes (db : AuthDb) (destination : String) : List Uuid :=
  (db.challenges.rows.filter fun r =>
    r.2.destination = destination ∧ r.2.consumedAt = none).map (·.1)

/-- The user of the first identity that meets a condition. -/
def userWith (db : AuthDb) (p : Identity → Bool) : Option Uuid :=
  (db.identities.rows.find? fun r => p r.2).map (·.2.userId)

/-- A value of a nullable unique column is taken by another row. -/
def takenBy (users : Table Uuid User) (column : User → Option String) (value : Option String)
    (except : Option Uuid) : Bool :=
  value.isSome && users.rows.any fun r => column r.2 = value && some r.1 ≠ except

/-- What each statement does. -/
def execAuth (ω : AuthOracle) (seen current : AuthDb) :
    (op : AuthOp) → Option (op.Res × List AuthWrite × List AuthLock)
  | .clock => some (ω.now, [], [])
  | .lastSent destination =>
      let row := (seen.challenges.rows.filter fun r =>
        r.2.destination = destination ∧ (current.challenges.get? r.1).isSome).argmax
          (·.2.lastSentAt)
      some (row.map (·.2.lastSentAt), [], (row.map fun r => AuthLock.challenge r.1).toList)
  | .randomCode => ω.text.map fun t => (t, [], [])
  | .hashCode _ => some (ω.text, [], [])
  | .dropChallenges destination =>
      some ((), ((liveCodes seen destination).filter (· ∈ liveCodes current destination)).map
        .dropChallenge, (liveCodes seen destination).map .challenge)
  | .insertChallenge row =>
      if (current.challenges.get? ω.uuid).isSome || !(liveCodes current row.destination).isEmpty
      then some (false, [], [])
      else some (true, [.challenge ω.uuid row],
        [.challenge ω.uuid, .liveCode row.destination])
  | .sendCode .. => some (ω.sent, [], [])
  | .selectChallenge destination =>
      match (liveCodes seen destination).head? with
      | none => some (none, [], [])
      | some id =>
        if id ∈ liveCodes current destination then
          some ((current.challenges.get? id).map fun c => (id, c), [], [.challenge id])
        else some (none, [], [.challenge id])
  | .saveAttempt id attempts consumedAt =>
      some ((), [.attempt id attempts consumedAt], [.challenge id])
  | .bySubject provider subject =>
      some (userWith seen fun i => i.provider = provider && i.subject = subject, [], [])
  | .byVerifiedEmail email =>
      some (userWith seen fun i => i.email = some email && i.verifiedAt.isSome, [], [])
  | .byVerifiedPhone phone =>
      some (userWith seen fun i => i.phone = some phone && i.verifiedAt.isSome, [], [])
  | .attachIdentity userId claim =>
      if (userWith current fun i =>
          i.provider = claim.provider && i.subject = claim.subject).isSome then
        some ((), [], [])
      else some ((), [.identity ω.uuid (claim.row userId ω.now)],
        [.identity ω.uuid, .providerSubject claim.provider claim.subject])
  | .insertUser phone email =>
      if (phone.isNone && email.isNone) || 2 ^ 31 ≤ ω.index ||
        (current.users.get? ω.uuid).isSome || takenBy current.users User.phone phone none ||
        takenBy current.users User.email email none
      then some (none, [], [])
      else some (some ω.uuid, [.user ω.uuid ⟨phone, email, ω.index, 0, false, none, none, none⟩],
        .user ω.uuid :: (phone.toList.map .userPhone ++ email.toList.map .userEmail))
  | .addressIndex userId => some ((seen.users.get? userId).map (·.addressIndex), [], [])
  | .deriveAll _ => some (ω.derived, [], [])
  | .insertWallet userId address =>
      if current.wallets.any fun w => w.2.chain = address.chain &&
        (w.1 = userId || w.2.address = address.address)
      then some (false, [], [])
      else some (true, [.wallet userId address], [.walletOwner userId address.chain,
        .walletAddress address.chain address.address])
  | .loadUser userId => some (seen.users.get? userId, [], [])
  | .selectTier userId => some ((seen.users.get? userId).map (·.kycTier), [], [])
  | .updateUser userId patch =>
      if takenBy current.users User.email patch.email (some userId) then some (false, [], [])
      else some (true, [.editUser userId patch],
        .user userId :: patch.email.toList.map .userEmail)
  | .selectSession hash =>
      match seen.sessions.rows.find? fun r => r.2.refreshTokenHash = hash with
      | none => some (none, [], [])
      | some r =>
        some ((current.sessions.get? r.1).map fun s => (r.1, s), [], [.session r.1])
  | .setRotated id now => some ((), [.rotated id now], [.session id])
  | .revokeFamily familyId now => some ((), revoke familyId now seen current)
  | .revokeFamilyOf hash now =>
      match familyOf seen hash with
      | none => some (none, [], [])
      | some familyId => some (some familyId, revoke familyId now seen current)
  | .randomSecret => ω.text.map fun t => (t, [], [])
  | .newFamily =>
      -- `Uuid::new_v4` does not repeat
      if current.sessions.rows.any fun r => r.2.familyId = ω.uuid then none
      else some (ω.uuid, [], [.family ω.uuid])
  | .insertSession userId token =>
      if (current.sessions.get? ω.uuid).isSome ||
        current.sessions.rows.any fun r => r.2.refreshTokenHash = token.hash
      then some (false, [], [])
      else some (true, [.session ω.uuid (token.row userId)],
        [.session ω.uuid, .tokenHash token.hash])
  | .signAccess .. => some (ω.text, [], [])

/-! ## What a statement writes -/

/-- What a statement may write. -/
inductive AuthOp.Writes : AuthOp → AuthWrite → Prop where
  | dropChallenges {destination : String} {id : Uuid} :
      Writes (.dropChallenges destination) (.dropChallenge id)
  | insertChallenge {row : OtpChallenge} {id : Uuid} :
      Writes (.insertChallenge row) (.challenge id row)
  | saveAttempt {id : Uuid} {attempts : ℤ} {consumedAt : Option Time} :
      Writes (.saveAttempt id attempts consumedAt) (.attempt id attempts consumedAt)
  | attachIdentity {userId id : Uuid} {claim : IdentityClaim} {now : Time} :
      Writes (.attachIdentity userId claim) (.identity id (claim.row userId now))
  | insertUser {phone email : Option String} {id : Uuid} {row : User} :
      Writes (.insertUser phone email) (.user id row)
  | insertWallet {userId : Uuid} {address : DerivedAddress} :
      Writes (.insertWallet userId address) (.wallet userId address)
  | updateUser {userId : Uuid} {patch : UserPatch} :
      Writes (.updateUser userId patch) (.editUser userId patch)
  | setRotated {id : Uuid} {now : Time} : Writes (.setRotated id now) (.rotated id now)
  | revokeFamily {familyId id : Uuid} {now : Time} :
      Writes (.revokeFamily familyId now) (.revoked id now)
  | revokeFamilyOf {hash : String} {id : Uuid} {now : Time} :
      Writes (.revokeFamilyOf hash now) (.revoked id now)
  | insertSession {userId id : Uuid} {token : RefreshToken} :
      Writes (.insertSession userId token) (.session id (token.row userId))

lemma writes_of_exec {op : AuthOp} {ω : AuthOracle} {seen current : AuthDb} {r : op.Res}
    {ws : List AuthWrite} {ls : List AuthLock}
    (h : execAuth ω seen current op = some (r, ws, ls)) : ∀ w ∈ ws, op.Writes w := by
  intro w hw
  cases op with
  | randomCode | randomSecret =>
      obtain ⟨t, -, h⟩ := Option.map_eq_some_iff.mp h
      cases h
      cases hw
  | dropChallenges d =>
      cases h
      obtain ⟨i, -, rfl⟩ := List.mem_map.mp hw
      constructor
  | insertChallenge row | attachIdentity u c | insertUser ph em | insertWallet u a
  | updateUser u patch | newFamily | insertSession u t =>
      simp only [execAuth] at h
      split at h <;> cases h
      all_goals
        first
        | (cases hw; done)
        | (cases List.mem_singleton.mp hw; constructor)
  | selectChallenge d | selectSession hash =>
      simp only [execAuth] at h
      split at h
      · cases h
        cases hw
      · first
        | (split at h <;> cases h <;> cases hw)
        | (cases h; cases hw)
  | saveAttempt | setRotated =>
      cases h
      cases List.mem_singleton.mp hw
      constructor
  | revokeFamily f now =>
      cases h
      obtain ⟨i, -, rfl⟩ := List.mem_map.mp hw
      constructor
  | revokeFamilyOf hash now =>
      simp only [execAuth] at h
      split at h <;> cases h
      · cases hw
      · obtain ⟨i, -, rfl⟩ := List.mem_map.mp hw
        constructor
  | _ =>
      cases h
      cases hw

end Naivolt
