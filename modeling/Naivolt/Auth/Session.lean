import Naivolt.Core

/-!
# Refresh tokens

The `session` module of the auth crate.  A login starts a *family* of refresh tokens: each token
is exchanged for its successor, which belongs to the same family.  The database holds the hash of
a token, never the token, with the times at which it was exchanged (`rotatedAt`) and at which its
family was revoked (`revokedAt`).

`evaluateRefresh` decides what a presented token means.  Reuse is looked at before expiry and
revocation, so a token that has been exchanged is always evidence of theft.
-/

namespace Naivolt

/-- A row of `sessions`: one refresh token. -/
structure Session where
  userId : Uuid
  familyId : Uuid
  refreshTokenHash : String
  expiresAt : Time
  rotatedAt : Option Time := none
  revokedAt : Option Time := none
  deriving DecidableEq

namespace Session

/-- The token has been neither exchanged nor revoked. -/
def Unspent (s : Session) : Prop := s.rotatedAt = none ∧ s.revokedAt = none

instance (s : Session) : Decidable s.Unspent := inferInstanceAs (Decidable (_ ∧ _))

/-- The token is neither consumed, revoked nor expired at a time. -/
def Live (s : Session) (now : Time) : Prop := s.Unspent ∧ now < s.expiresAt

instance (s : Session) (now : Time) : Decidable (s.Live now) :=
  inferInstanceAs (Decidable (_ ∧ _))

end Session

/-- `RefreshOutcome`: what the caller must do with a presented token. -/
inductive RefreshOutcome where
  | rotate (userId familyId : Uuid)
  | reuseDetected (familyId : Uuid)
  | rejected
  deriving DecidableEq

/-- `evaluate_refresh`. -/
def evaluateRefresh (session : Session) (now : Time) : RefreshOutcome :=
  if session.rotatedAt.isSome then .reuseDetected session.familyId
  else if session.revokedAt.isSome || session.expiresAt ≤ now then .rejected
  else .rotate session.userId session.familyId

/-- Exactly the live tokens are exchanged, for one of their own user and family. -/
lemma evaluateRefresh_eq_rotate {s : Session} {now : Time} {userId familyId : Uuid} :
    evaluateRefresh s now = .rotate userId familyId ↔
      s.Live now ∧ userId = s.userId ∧ familyId = s.familyId := by
  rcases s with ⟨u, f, h, e, rot, rev⟩
  rcases rot with _ | rot <;> rcases rev with _ | rev <;>
    simp [evaluateRefresh, Session.Live, Session.Unspent]
  by_cases he : e ≤ now
  · simp [he, Nat.not_lt.mpr he]
  · simp [he, Nat.lt_of_not_le he, eq_comm]

/-- Reuse is detected exactly of the tokens that have been exchanged. -/
lemma evaluateRefresh_eq_reuseDetected {s : Session} {now : Time} {familyId : Uuid} :
    evaluateRefresh s now = .reuseDetected familyId ↔
      s.rotatedAt.isSome ∧ familyId = s.familyId := by
  rcases s with ⟨u, f, h, e, rot, rev⟩
  rcases rot with _ | rot <;> rcases rev with _ | rev <;>
    simp [evaluateRefresh, eq_comm]
  all_goals split <;> simp

/-- `REFRESH_TTL_DAYS`, as a span of time. -/
def refreshTtl : Time := hours (30 * 24)

/-- A freshly minted refresh token: the secret to hand out, and what is stored. -/
structure RefreshToken where
  secret : String
  hash : String
  familyId : Uuid
  expiresAt : Time
  deriving DecidableEq

/-- `issue_refresh`, given the random secret and the family, and the hash function. -/
def issueRefresh (hashRefresh : String → String) (secret : String) (familyId : Uuid)
    (now : Time) : RefreshToken :=
  ⟨secret, hashRefresh secret, familyId, now + refreshTtl⟩

/-- The row of a token, as `INSERT INTO sessions` writes it. -/
def RefreshToken.row (t : RefreshToken) (userId : Uuid) : Session :=
  { userId := userId, familyId := t.familyId, refreshTokenHash := t.hash,
    expiresAt := t.expiresAt }

@[simp] lemma RefreshToken.row_familyId (t : RefreshToken) (userId : Uuid) :
    (t.row userId).familyId = t.familyId := rfl

end Naivolt
