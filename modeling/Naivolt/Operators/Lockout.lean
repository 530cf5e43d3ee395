import Naivolt.Numbers.Suppliers
import Naivolt.Foundation.Actors
import Naivolt.Foundation.Window

/-!
# The operators' codes

`create_session` of `admin_recovery.rs`, the lockout it consults, and what it uses of
`operator.rs`.  The lockout is a map in memory, from an address to the times of its failures.  A
request looks at it first and enters its own failure last; in between it awaits the database and
compares the code, and other requests do the same (`many_at_once`).

The failures that are entered and the requests in between are what a window of the library bounds
(`Window.Kept`), so the lockout holds in the runs in which every look leaves room for those that
are still to be entered (`totp_lockout_holds`).  A code that is accepted wipes the failures of its
address, and what has been wiped counts for the window as well.
-/

namespace Naivolt

open Foundation Foundation.Machine

/-! ## Codes -/

/-- `lockout_window`. -/
def lockoutWindow : Time := minutes 15

/-- The failures from which on an address is locked out. -/
def maxTotpFailures : ℕ := 5

/-- What the program is configured with, and what it uses of other crates and the database. -/
structure TotpConfig where
  /-- `OPERATOR_TOTP_KEY`. -/
  operatorTotpKey : Option (List UInt8)
  /-- `to_lowercase`. -/
  toLowercase : String → String
  /-- `lower` of the database. -/
  lower : String → String
  /-- AES-256-GCM, from key, nonce and ciphertext. -/
  decrypt : List UInt8 → List UInt8 → List UInt8 → Except String (List UInt8)
  /-- `TOTP::new` of a secret and an account name with `check_current` of a code.  None is a
  secret or a name that it refuses, or a clock it cannot read. -/
  checkCurrent : List UInt8 → String → String → Time → Option Bool
  sha256 : String → List UInt8

/-- What the operators' endpoints refuse with. -/
inductive SessionRefusal where
  | refused (e : ApiError)
  | unauthorized
  | totpLocked
  | operatorDisabled
  deriving DecidableEq

/-- `bad_totp`. -/
def badTotp : SessionRefusal := .refused (.badRequest "that code isn't right")

/-- `totp_key`. -/
def totpKey (cfg : TotpConfig) : Except ApiError (List UInt8) :=
  match cfg.operatorTotpKey with
  | some key => .ok key
  | none => .error (.internal "OPERATOR_TOTP_KEY is not set")

/-- `decrypt_totp_secret`. -/
def decryptTotpSecret (cfg : TotpConfig) (key packed : List UInt8) :
    Except ApiError (List UInt8) :=
  if packed.length < 13 then .error (.internal "totp secret blob is too short")
  else if key.length < 32 then
    .error (.internal "OPERATOR_TOTP_KEY must be at least 32 bytes")
  else
    match cfg.decrypt (key.take 32) (packed.take 12) (packed.drop 12) with
    | .ok secret => .ok secret
    | .error e => .error (.internal e)

/-- `totp_ok`. -/
def totpOk (cfg : TotpConfig) (secret : List UInt8) (email code : String) (now : Time) : Bool :=
  (cfg.checkCurrent secret email code now).getD false

/-! ## The lockout -/

/-- A row of `operators`. -/
structure OperatorAccount where
  id : Uuid
  email : String
  totpSecret : List UInt8
  disabledAt : Option Time

/-- A row of `operator_sessions`. -/
structure OperatorSession where
  operatorId : Uuid
  tokenHash : List UInt8
  expiresAt : Time
  deriving DecidableEq

/-- A code compared with a secret, the number of the request that did, the verdict, and whether its
address was locked out then. -/
structure TotpVerdict where
  request : ℕ
  email : String
  secret : List UInt8
  time : Time
  ok : Bool
  locked : Bool
  deriving DecidableEq

/-- The last code that a request has compared. -/
def lastCompared (request : ℕ) (verdicts : List TotpVerdict) : Option TotpVerdict :=
  verdicts.find? fun v => v.request = request

/-- A session that was opened, the last code its request had compared, and whether its address was
locked out then. -/
structure SessionOpening where
  code : Option TotpVerdict
  email : String
  operatorId : Uuid
  tokenHash : List UInt8
  openedAt : Time
  locked : Bool
  deriving DecidableEq

/-- The monotonic clock, `totp_lockouts`, and the two tables.  A key without an entry has no
failures.  The last three fields are history: the codes compared, the failures that were wiped, and
the sessions opened. -/
structure LockoutWorld where
  now : Time
  totpLockouts : String → List Time
  operators : List OperatorAccount
  sessions : List OperatorSession
  verdicts : List TotpVerdict
  wiped : String → List Time
  opened : List SessionOpening

namespace LockoutWorld

/-- A process that has just been started. -/
def fresh (now : Time) (operators : List OperatorAccount) (sessions : List OperatorSession) :
    LockoutWorld where
  now := now
  totpLockouts _ := []
  operators := operators
  sessions := sessions
  verdicts := []
  wiped _ := []
  opened := []

/-- The failures that `retain` leaves. -/
def retained (w : LockoutWorld) (key : String) : List Time :=
  (w.totpLockouts key).filter fun failure => w.now - failure < lockoutWindow

/-- The address has as many failures as it may. -/
def lockedOut (w : LockoutWorld) (key : String) : Bool :=
  maxTotpFailures ≤ (w.retained key).length

/-- `stamps.retain`. -/
def retain (w : LockoutWorld) (key : String) : LockoutWorld :=
  { w with totpLockouts := Function.update w.totpLockouts key (w.retained key) }

/-- `push(Instant::now())`. -/
def push (w : LockoutWorld) (key : String) : LockoutWorld :=
  { w with totpLockouts := Function.update w.totpLockouts key (w.totpLockouts key ++ [w.now]) }

/-- `map.remove`. -/
def wipe (w : LockoutWorld) (key : String) : LockoutWorld :=
  { w with
    totpLockouts := Function.update w.totpLockouts key []
    wiped := Function.update w.wiped key (w.totpLockouts key ++ w.wiped key) }

/-- A code is compared. -/
def judge (w : LockoutWorld) (request : ℕ) (key email : String) (secret : List UInt8)
    (ok : Bool) : LockoutWorld :=
  { w with verdicts := ⟨request, email, secret, w.now, ok, w.lockedOut key⟩ :: w.verdicts }

end LockoutWorld

/-- What the program does not decide. -/
structure LockoutOracle where
  /-- The time of day. -/
  clock : Time := 0
  token : String := ""

inductive LockoutOp where
  | totpIsLocked (email : String)
  /-- `SELECT id, totp_secret, disabled_at FROM operators`. -/
  | selectOperator (email : String)
  | totpOk (secret : List UInt8) (email code : String)
  | recordTotpFailure (email : String)
  | clearTotpFailures (email : String)
  | newSessionToken
  /-- `INSERT INTO operator_sessions`; the address is for the record. -/
  | insertSession (email : String) (operatorId : Uuid) (tokenHash : List UInt8)

abbrev LockoutOp.Res : LockoutOp → Type
  | totpIsLocked _ => Bool
  | selectOperator _ => Option (Uuid × List UInt8 × Option Time)
  | totpOk .. => Bool
  | recordTotpFailure _ => Unit
  | clearTotpFailures _ => Unit
  | newSessionToken => String
  | insertSession .. => Option Time

/-- What each operation does. -/
def execLockout (cfg : TotpConfig) (tid : ℕ) :
    (op : LockoutOp) → LockoutOracle → LockoutWorld → Option (op.Res × LockoutWorld)
  | .totpIsLocked email, _, w =>
      let key := cfg.toLowercase email
      some (w.lockedOut key, w.retain key)
  | .selectOperator email, _, w =>
      some ((w.operators.find? fun o => cfg.lower o.email = email).map fun o =>
        (o.id, o.totpSecret, o.disabledAt), w)
  | .totpOk secret email code, ω, w =>
      let ok := totpOk cfg secret email code ω.clock
      some (ok, w.judge tid (cfg.toLowercase email) email secret ok)
  | .recordTotpFailure email, _, w => some ((), w.push (cfg.toLowercase email))
  | .clearTotpFailures email, _, w => some ((), w.wipe (cfg.toLowercase email))
  | .newSessionToken, ω, w => some (ω.token, w)
  | .insertSession email operatorId tokenHash, ω, w =>
      if w.sessions.any fun s => s.tokenHash = tokenHash then some (none, w)
      else
        let expiresAt := ω.clock + minutes 30
        some (some expiresAt, { w with
          sessions := ⟨operatorId, tokenHash, expiresAt⟩ :: w.sessions
          opened := ⟨lastCompared tid w.verdicts, email, operatorId, tokenHash, ω.clock,
            w.lockedOut (cfg.toLowercase email)⟩ :: w.opened })

/-- What happens besides: time passes, operators are enrolled and disabled, sessions end. -/
inductive LockoutMove where
  | tick (d : Time)
  | tables (operators : List OperatorAccount) (sessions : List OperatorSession)

def moveLockout : LockoutMove → LockoutWorld → LockoutWorld
  | .tick d, w => { w with now := w.now + d }
  | .tables operators sessions, w => { w with operators := operators, sessions := sessions }

/-! ## The endpoint -/

abbrev LockoutProg (α : Type) := Prog LockoutOp LockoutOp.Res α

/-- A request, with what `authorise` has made of its headers. -/
structure SessionRequest where
  authorised : Except SessionRefusal String
  totp : String

/-- `SessionResponse`. -/
structure SessionResponse where
  token : String
  expiresAt : Time
  deriving DecidableEq

abbrev SessionResult := Except SessionRefusal SessionResponse

/-- `create_session` once the code is accepted. -/
def letOperatorIn (cfg : TotpConfig) (email : String) (operatorId : Uuid) :
    LockoutProg SessionResult := do
  Prog.perform (LockoutOp.clearTotpFailures email)
  let token ← Prog.perform LockoutOp.newSessionToken
  match ← Prog.perform (LockoutOp.insertSession email operatorId (cfg.sha256 token)) with
  | none => pure (.error (.refused (.internal "duplicate key value")))
  | some expiresAt => pure (.ok ⟨token, expiresAt⟩)

/-- `create_session` once the operator is found. -/
def checkTotp (cfg : TotpConfig) (email totp : String) (operatorId : Uuid) (packed : List UInt8) :
    LockoutProg SessionResult :=
  match totpKey cfg with
  | .error e => pure (.error (.refused e))
  | .ok key =>
    match decryptTotpSecret cfg key packed with
    | .error e => pure (.error (.refused e))
    | .ok secret => do
      if ← Prog.perform (LockoutOp.totpOk secret email (trimText totp)) then
        letOperatorIn cfg email operatorId
      else
        Prog.perform (LockoutOp.recordTotpFailure email)
        pure (.error badTotp)

/-- `create_session`. -/
def createSession (cfg : TotpConfig) (req : SessionRequest) : LockoutProg SessionResult :=
  match req.authorised with
  | .error e => pure (.error e)
  | .ok email => do
    if ← Prog.perform (LockoutOp.totpIsLocked email) then
      pure (.error .totpLocked)
    else
      match ← Prog.perform (LockoutOp.selectOperator email) with
      | none =>
        Prog.perform (LockoutOp.recordTotpFailure email)
        pure (.error badTotp)
      | some (id, packed, disabledAt) =>
        if disabledAt.isSome then pure (.error .operatorDisabled)
        else checkTotp cfg email req.totp id packed

/-- Any number of verification requests. -/
def operatorDoor (cfg : TotpConfig) : Machine LockoutOp LockoutOp.Res LockoutOracle LockoutMove
    LockoutWorld SessionRequest Unit SessionResult where
  exec tid op ω w := execLockout cfg tid op ω w
  env e w := some (moveLockout e w)
  program := createSession cfg
  stamp _ := ()

abbrev DoorState := Sys LockoutOp LockoutOp.Res LockoutWorld SessionRequest Unit SessionResult
abbrev DoorTask := Task LockoutOp LockoutOp.Res SessionRequest Unit SessionResult
abbrev DoorAct := Act LockoutOracle LockoutMove SessionRequest

/-! ## What is required -/

/-- The lockout holds for an address: no window with more failing codes than it may have, and no
code accepted and no session opened while it is locked out. -/
structure LockoutHolds (cfg : TotpConfig) (email : String) (w : LockoutWorld) : Prop where
  limited : ∀ t, (w.verdicts.countP fun v => !v.ok &&
    cfg.toLowercase v.email = cfg.toLowercase email && t ≤ v.time && v.time < t + lockoutWindow) ≤
      maxTotpFailures
  accepted : ∀ v ∈ w.verdicts, cfg.toLowercase v.email = cfg.toLowercase email → v.ok = true →
    v.locked = false
  opened : ∀ o ∈ w.opened, cfg.toLowercase o.email = cfg.toLowercase email →
    o.locked = false

/-- The operations at whose `await` a request can be dropped.  The rest it performs in one go. -/
def LockoutOp.Awaited : LockoutOp → Prop
  | .totpIsLocked _ | .selectOperator _ | .insertSession .. => True
  | _ => False

instance : DecidablePred LockoutOp.Awaited := fun op => by
  unfold LockoutOp.Awaited
  split <;> infer_instance

/-- Requests are dropped only where they wait. -/
def DroppedWaiting (s : DoorState) : DoorAct → Prop
  | .drop tid =>
      match s.task tid with
      | some ⟨_, _, .call op _⟩ => op.Awaited
      | _ => True
  | _ => True

instance (s : DoorState) (a : DoorAct) : Decidable (DroppedWaiting s a) := by
  unfold DroppedWaiting
  split
  · split <;> infer_instance
  · infer_instance

/-- The request is past its look at the lockout, and not through. -/
def PastLook {α : Type} : LockoutProg α → Prop
  | .ret _ => False
  | .call (.totpIsLocked _) _ => False
  | .call _ _ => True

/-- The key under which the failures of a request are entered. -/
def SessionRequest.key (cfg : TotpConfig) (req : SessionRequest) : Option String :=
  req.authorised.toOption.map cfg.toLowercase

/-- The task serves a request for the address that is past its look. -/
def InBetween (cfg : TotpConfig) (key : String) (task : ℕ → Option DoorTask) (tid : ℕ) : Prop :=
  ∃ t, task tid = some t ∧ t.req.key cfg = some key ∧ PastLook t.prog

/-- Whoever finds the address not locked out leaves room for the failures that are still to be
entered, and counts those that have been wiped. -/
def LeavesRoom (cfg : TotpConfig) (key : String) (s : DoorState) : DoorAct → Prop
  | .resume tid _ =>
      match s.task tid with
      | some ⟨_, _, .call (.totpIsLocked email) _⟩ =>
          cfg.toLowercase email = key → s.world.lockedOut key = false →
            ∀ T : Finset ℕ, (∀ i ∈ T, InBetween cfg key s.task i) →
              (Window.live lockoutWindow s.world.now
                (s.world.totpLockouts key ++ s.world.wiped key)).length + T.card < maxTotpFailures
      | _ => True
  | _ => True

/-! ## The shape of a request -/

section Shape

variable {α : Type}

/-- What a request for the address does after an operation: nothing when it is locked out, and the
entry of its failure when its code is wrong. -/
def FollowedBy (email : String) : (op : LockoutOp) → (op.Res → LockoutProg α) → Prop
  | .totpIsLocked e, k => e = email ∧ ∃ a, k true = .ret a
  | .selectOperator e, _ => e = email
  | .totpOk _ e _, k =>
      e = email ∧ ∃ a, k false = .call (.recordTotpFailure email) fun _ => .ret a
  | .recordTotpFailure e, k => e = email ∧ ∃ a, k () = .ret a
  | .clearTotpFailures e, _ => e = email
  | .newSessionToken, _ => True
  | .insertSession e _ _, _ => e = email

/-- Every operation of the program is followed as it should be. -/
def Orderly (email : String) : LockoutProg α → Prop
  | .ret _ => True
  | .call op k => FollowedBy email op k ∧ ∀ r, Orderly email (k r)

lemma orderly_letOperatorIn (cfg : TotpConfig) (email : String) (operatorId : Uuid) :
    Orderly email (letOperatorIn cfg email operatorId) := by
  refine ⟨rfl, fun _ => ⟨trivial, fun token => ⟨rfl, fun expiresAt => ?_⟩⟩⟩
  rcases expiresAt with _ | expiresAt <;> trivial

lemma orderly_checkTotp (cfg : TotpConfig) (email totp : String) (operatorId : Uuid)
    (packed : List UInt8) : Orderly email (checkTotp cfg email totp operatorId packed) := by
  unfold checkTotp
  split
  · trivial
  · split
    · trivial
    · refine ⟨⟨rfl, _, rfl⟩, fun ok => ?_⟩
      rcases ok with _ | _
      · exact ⟨⟨rfl, _, rfl⟩, fun _ => trivial⟩
      · exact orderly_letOperatorIn cfg email operatorId

/-- The task does what its request asks for. -/
def Proper (t : DoorTask) : Prop :=
  match t.req.authorised with
  | .ok email => Orderly email t.prog
  | .error _ => ∃ a, t.prog = .ret a

lemma proper_createSession (cfg : TotpConfig) (req : SessionRequest) :
    Proper ⟨req, (), createSession cfg req⟩ := by
  obtain ⟨authorised, totp⟩ := req
  rcases authorised with e | email
  · exact ⟨_, rfl⟩
  · refine ⟨⟨rfl, _, rfl⟩, fun locked => ?_⟩
    rcases locked with _ | _
    · refine ⟨rfl, fun row => ?_⟩
      rcases row with _ | ⟨id, packed, disabledAt⟩
      · exact ⟨⟨rfl, _, rfl⟩, fun _ => trivial⟩
      · rcases disabledAt with _ | disabledAt
        · exact orderly_checkTotp cfg email totp id packed
        · trivial
    · trivial

/-- What is known of a task at its next operation. -/
lemma Proper.next {t : DoorTask} {op : LockoutOp} {k : op.Res → LockoutProg SessionResult}
    (h : Proper t) (hprog : t.prog = .call op k) : ∃ email, t.req.authorised = .ok email ∧
      FollowedBy email op k ∧ ∀ r, Orderly email (k r) := by
  obtain ⟨⟨authorised, totp⟩, b, prog⟩ := t
  obtain rfl : prog = .call op k := hprog
  rcases authorised with e | email
  · obtain ⟨a, ha⟩ := h
    cases ha
  · exact ⟨email, rfl, h.1, h.2⟩

lemma Proper.of_orderly {req : SessionRequest} {b : Unit} {p : LockoutProg SessionResult}
    {email : String} (hreq : req.authorised = .ok email) (h : Orderly email p) :
    Proper ⟨req, b, p⟩ := by
  simp only [Proper, hreq]
  exact h

end Shape

/-! ## Requests in between -/

/-- The request is about to enter a failure. -/
def Entering {α : Type} : LockoutProg α → Prop
  | .call (.recordTotpFailure _) _ => True
  | _ => False

/-- The task serves a request for the address that is about to enter a failure. -/
def Owes (cfg : TotpConfig) (key : String) (task : ℕ → Option DoorTask) (tid : ℕ) : Prop :=
  ∃ t, task tid = some t ∧ t.req.key cfg = some key ∧ Entering t.prog

section Between

variable {cfg : TotpConfig} {key : String} {s : DoorState} {tid j : ℕ} {req : SessionRequest}
  {b : Unit} {op : LockoutOp} {k : op.Res → LockoutProg SessionResult} {t : DoorTask}

lemma Owes.inBetween (h : Owes cfg key s.task j) : InBetween cfg key s.task j := by
  obtain ⟨t, ht, hkey, hentering⟩ := h
  refine ⟨t, ht, hkey, ?_⟩
  unfold Entering at hentering
  split at hentering
  · rename_i hprog
    rw [hprog]
    trivial
  · exact hentering.elim

/-- Who is in between after a task has gone on: the others, and perhaps it. -/
lemma inBetween_setTask (h : InBetween cfg key (s.setTask tid (some t)).task j) :
    (j = tid ∧ t.req.key cfg = some key ∧ PastLook t.prog) ∨
      (j ≠ tid ∧ InBetween cfg key s.task j) := by
  obtain ⟨u, hu, hkey, hpast⟩ := h
  rw [Sys.setTask_task] at hu
  split at hu
  · cases hu
    exact .inl ⟨‹_›, hkey, hpast⟩
  · exact .inr ⟨‹_›, u, hu, hkey, hpast⟩

lemma owes_setTask_of_ne (hne : j ≠ tid) (h : Owes cfg key s.task j) :
    Owes cfg key (s.setTask tid (some t)).task j := by
  obtain ⟨u, hu, howes⟩ := h
  exact ⟨u, by rw [Sys.setTask_task, if_neg hne, hu], howes⟩

/-- A task that was in between puts nobody else there. -/
lemma inBetween_of_past (ht : s.task tid = some ⟨req, b, .call op k⟩)
    (hpast : PastLook (.call op k)) {p : LockoutProg SessionResult} :
    ∀ j, InBetween cfg key (s.setTask tid (some ⟨req, b, p⟩)).task j →
      InBetween cfg key s.task j := by
  intro j hj
  rcases inBetween_setTask hj with ⟨rfl, hkey, -⟩ | ⟨-, hj⟩
  · exact ⟨_, ht, hkey, hpast⟩
  · exact hj

/-- A task that owed nothing takes nothing off what is owed. -/
lemma owes_of_not_entering (ht : s.task tid = some ⟨req, b, .call op k⟩)
    (hnot : req.key cfg = some key → ¬Entering (.call op k)) :
    ∀ j, Owes cfg key s.task j → Owes cfg key (s.setTask tid (some t)).task j := by
  intro j hj
  refine owes_setTask_of_ne ?_ hj
  rintro rfl
  obtain ⟨u, hu, hkey, hentering⟩ := hj
  cases ht.symm.trans hu
  exact hnot hkey hentering

end Between

/-! ## What one operation does to the lockout -/

/-- The times of the failing codes of an address. -/
def failures (cfg : TotpConfig) (key : String) (w : LockoutWorld) : List Time :=
  (w.verdicts.filter fun v => !v.ok && cfg.toLowercase v.email = key).map (·.time)

/-- The failures of an address that are entered, and those that have been wiped. -/
def entered (key : String) (w : LockoutWorld) : List Time := w.totpLockouts key ++ w.wiped key

/-- The bookkeeping of the window for an address, over the requests in progress. -/
def WindowKept (cfg : TotpConfig) (key : String) (w : LockoutWorld)
    (task : ℕ → Option DoorTask) : Prop :=
  Window.Kept lockoutWindow maxTotpFailures w.now (failures cfg key w) (entered key w)
    (InBetween cfg key task) (Owes cfg key task)

section Steps

variable {cfg : TotpConfig} {key email : String} {s : DoorState} {w w' : LockoutWorld} {tid : ℕ}
  {req : SessionRequest} {b : Unit} {op : LockoutOp} {ω : LockoutOracle}
  {k : op.Res → LockoutProg SessionResult} {r : op.Res}

lemma live_retained (w : LockoutWorld) (key : String) :
    w.retained key = Window.live lockoutWindow w.now (w.totpLockouts key) :=
  Window.filter_sub_lt (by decide) w.now _

/-- Who is past the look finds the address not locked out. -/
lemma not_lockedOut_of_inBetween (h : WindowKept cfg key s.world s.task)
    (htid : InBetween cfg key s.task tid) : s.world.lockedOut key = false := by
  have hlive := h.live_lt htid
  have hsplit : Window.live lockoutWindow s.world.now (entered key s.world) =
      s.world.retained key ++ Window.live lockoutWindow s.world.now (s.world.wiped key) := by
    rw [live_retained, entered, Window.live, List.filter_append]
    rfl
  rw [hsplit, List.length_append] at hlive
  simp only [LockoutWorld.lockedOut, decide_eq_false_iff_not]
  omega

/-- The look forgets nothing that still counts. -/
lemma since_entered_retain {t : ℕ} (ht : w.now < t + lockoutWindow) (key₀ : String) :
    Window.since (entered key (w.retain key₀)) t = Window.since (entered key w) t := by
  simp only [entered, LockoutWorld.retain, Window.since_append]
  by_cases hkey : key = key₀
  · subst hkey
    rw [Function.update_self, live_retained, Window.since_live _ ht]
  · rw [Function.update_of_ne hkey]

/-- An entered failure counts from now on. -/
lemma since_entered_push (w : LockoutWorld) (key : String) (t : ℕ) :
    Window.since (entered key (w.push key)) t =
      Window.since (entered key w) t + if t ≤ w.now then 1 else 0 := by
  simp only [entered, LockoutWorld.push, Window.since_append, Function.update_self,
    Window.since_cons, Window.since_nil]
  omega

lemma entered_push_of_ne {key₀ : String} (hne : key₀ ≠ key) :
    entered key (w.push key₀) = entered key w := by
  simp only [entered, LockoutWorld.push]
  rw [Function.update_of_ne hne.symm]

/-- Wiping moves the failures from one place to the other. -/
lemma entered_wipe (w : LockoutWorld) (key key₀ : String) :
    entered key (w.wipe key₀) = entered key w := by
  simp only [entered, LockoutWorld.wipe]
  by_cases hkey : key = key₀
  · subst hkey
    rw [Function.update_self, Function.update_self, List.nil_append]
  · rw [Function.update_of_ne hkey, Function.update_of_ne hkey]

lemma failures_judge_false (hmine : cfg.toLowercase email = key) (request : ℕ) (key₀ : String)
    (secret : List UInt8) :
    failures cfg key (w.judge request key₀ email secret false) = w.now :: failures cfg key w := by
  simp [failures, LockoutWorld.judge, hmine]

lemma failures_judge (ok : Bool) (h : ok = true ∨ cfg.toLowercase email ≠ key) (request : ℕ)
    (key₀ : String) (secret : List UInt8) :
    failures cfg key (w.judge request key₀ email secret ok) = failures cfg key w := by
  rcases h with rfl | h
  · simp [failures, LockoutWorld.judge]
  · simp [failures, LockoutWorld.judge, h]

/-- **Each operation of a request keeps the window**, if the look leaves room. -/
lemma WindowKept.exec (h : WindowKept cfg key s.world s.task)
    (ht : s.task tid = some ⟨req, b, .call op k⟩) (hreq : req.authorised = .ok email)
    (hfollows : FollowedBy email op k) (hroom : LeavesRoom cfg key s (.resume tid ω))
    (he : execLockout cfg tid op ω s.world = some (r, w')) :
    WindowKept cfg key w' (s.setTask tid (some ⟨req, b, k r⟩)).task := by
  have hkey : req.key cfg = some (cfg.toLowercase email) := by rw [SessionRequest.key, hreq]; rfl
  have hmine : ∀ {t : DoorTask}, t.req = req → t.req.key cfg = some key →
      cfg.toLowercase email = key := fun hq hk =>
    Option.some.inj (hkey.symm.trans (hq ▸ hk))
  -- All operations but the look leave nobody in between who was not there before, and all but the
  -- entry leave what is owed.
  have hothers : PastLook (.call op k) → ∀ j,
      InBetween cfg key (s.setTask tid (some ⟨req, b, k r⟩)).task j →
        InBetween cfg key s.task j := fun hpast => inBetween_of_past ht hpast
  have howes : ¬Entering (.call op k) → ∀ j, Owes cfg key s.task j →
      Owes cfg key (s.setTask tid (some ⟨req, b, k r⟩)).task j := fun hnot =>
    owes_of_not_entering ht fun _ => hnot
  cases op with
  | totpIsLocked e =>
      cases he
      obtain ⟨rfl, a, hthrough⟩ := hfollows
      suffices hkept : WindowKept cfg key s.world
          (s.setTask tid (some ⟨req, b, k (s.world.lockedOut (cfg.toLowercase e))⟩)).task from
        hkept.prune fun t ht => since_entered_retain ht _
      rcases hlocked : s.world.lockedOut (cfg.toLowercase e) with _ | _
      · by_cases hsame : cfg.toLowercase e = key
        · have hadmit : ∀ T : Finset ℕ, (∀ i ∈ T, InBetween cfg key s.task i) →
              (Window.live lockoutWindow s.world.now (entered key s.world)).length + T.card <
                maxTotpFailures := by
            simp only [LeavesRoom, ht] at hroom
            exact hroom hsame (hsame ▸ hlocked)
          have hadmits : ∀ j, InBetween cfg key (s.setTask tid (some ⟨req, b, k false⟩)).task j →
              j = tid ∨ InBetween cfg key s.task j := fun j hj =>
            (inBetween_setTask hj).imp And.left And.right
          exact (h.looked hadmit hadmits).mono (fun _ hj => hj) (hlocked ▸ howes id)
        · refine h.mono (fun j hj => ?_) (hlocked ▸ howes id)
          rcases inBetween_setTask hj with ⟨-, hk, -⟩ | ⟨-, hj⟩
          · exact absurd (hmine rfl hk) hsame
          · exact hj
      · refine h.mono (fun j hj => ?_) (hlocked ▸ howes id)
        rcases inBetween_setTask hj with ⟨-, -, hp⟩ | ⟨-, hj⟩
        · rw [hthrough] at hp
          exact hp.elim
        · exact hj
  | selectOperator e | newSessionToken =>
      cases he
      exact h.mono (hothers trivial) (howes id)
  | totpOk secret e code =>
      cases he
      obtain ⟨rfl, a, hwrong⟩ := hfollows
      have hothers := hothers trivial
      have howes := howes id
      unfold WindowKept
      rcases hok : totpOk cfg secret e code ω.clock with _ | _
      · rw [hok, hwrong] at hothers howes
        rw [hwrong]
        by_cases hsame : cfg.toLowercase e = key
        · have hbetween : InBetween cfg key s.task tid := ⟨_, ht, hsame ▸ hkey, trivial⟩
          have hnot : ¬Owes cfg key s.task tid := by
            rintro ⟨u, hu, -, hentering⟩
            cases ht.symm.trans hu
            exact hentering
          have hspends : ∀ j, j = tid ∨ Owes cfg key s.task j → Owes cfg key (s.setTask tid
              (some ⟨req, b, .call (.recordTotpFailure e) fun _ => .ret a⟩)).task j := by
            rintro j (rfl | hj)
            · exact ⟨⟨req, b, .call (.recordTotpFailure e) fun _ => .ret a⟩,
                by rw [Sys.setTask_task, if_pos rfl], hsame ▸ hkey, trivial⟩
            · exact howes j hj
          rw [failures_judge_false hsame]
          exact (h.spend hbetween hnot (fun _ => Owes.inBetween) hspends).mono hothers
            fun _ hj => hj
        · rw [failures_judge _ (.inr hsame)]
          exact h.mono hothers howes
      · rw [hok] at hothers howes
        rw [failures_judge _ (.inl rfl)]
        exact h.mono hothers howes
  | recordTotpFailure e =>
      cases he
      obtain ⟨rfl, a, hthrough⟩ := hfollows
      by_cases hsame : cfg.toLowercase e = key
      · subst hsame
        refine h.enter ⟨_, ht, hkey, trivial⟩ (fun j hj => ?_)
          (fun j hne hj => owes_setTask_of_ne hne hj) fun t _ => since_entered_push _ _ t
        rcases inBetween_setTask hj with ⟨-, -, hp⟩ | hj
        · rw [hthrough] at hp
          exact hp.elim
        · exact hj
      · unfold WindowKept
        rw [entered_push_of_ne hsame]
        exact h.mono (hothers trivial) (owes_of_not_entering ht fun hk =>
          absurd (Option.some.inj (hkey.symm.trans hk)) hsame)
  | clearTotpFailures e =>
      cases he
      unfold WindowKept
      rw [entered_wipe]
      exact h.mono (hothers trivial) (howes id)
  | insertSession e operatorId tokenHash =>
      simp only [execLockout] at he
      split at he
      · cases he
        exact h.mono (hothers trivial) (howes id)
      · cases he
        exact h.mono (hothers trivial) (howes id)

/-! ## The lockout over a run -/

/-- Every task does what its request asks for, the window of the address is kept, and nothing was
accepted or opened while it was locked out. -/
structure DoorOk (cfg : TotpConfig) (key : String) (s : DoorState) : Prop where
  proper : ∀ tid t, s.task tid = some t → Proper t
  window : WindowKept cfg key s.world s.task
  accepted : ∀ v ∈ s.world.verdicts, cfg.toLowercase v.email = key → v.ok = true →
    v.locked = false
  opened : ∀ o ∈ s.world.opened, cfg.toLowercase o.email = key → o.locked = false

lemma DoorOk.idle (now : Time) (operators : List OperatorAccount)
    (sessions : List OperatorSession) :
    DoorOk cfg key (Sys.idle (.fresh now operators sessions)) where
  proper _ _ ht := by cases ht
  window := (Window.Kept.init _ _ _).mono (fun _ h => (by obtain ⟨t, ht, -⟩ := h; cases ht))
    fun _ h => h.elim
  accepted _ hv := absurd hv List.not_mem_nil
  opened _ ho := absurd ho List.not_mem_nil

/-- A request of the address that is past its look finds it not locked out, so what is accepted and
opened then is not held against the lockout. -/
lemma DoorOk.exec_history (h : DoorOk cfg key s) (ht : s.task tid = some ⟨req, b, .call op k⟩)
    (hreq : req.authorised = .ok email) (hfollows : FollowedBy email op k)
    (he : execLockout cfg tid op ω s.world = some (r, w')) :
    (∀ v ∈ w'.verdicts, cfg.toLowercase v.email = key → v.ok = true → v.locked = false) ∧
      ∀ o ∈ w'.opened, cfg.toLowercase o.email = key → o.locked = false := by
  have hfree : PastLook (.call op k) → cfg.toLowercase email = key →
      s.world.lockedOut key = false := by
    intro hpast hsame
    refine not_lockedOut_of_inBetween h.window ⟨_, ht, ?_, hpast⟩
    rw [SessionRequest.key, hreq, ← hsame]
    rfl
  cases op with
  | totpIsLocked | selectOperator | recordTotpFailure | clearTotpFailures | newSessionToken =>
      cases he
      exact ⟨h.accepted, h.opened⟩
  | totpOk secret e code =>
      cases he
      obtain ⟨rfl, -⟩ := hfollows
      refine ⟨fun v hv hsame hok => ?_, h.opened⟩
      rcases List.mem_cons.mp hv with rfl | hv
      · have hsame : cfg.toLowercase e = key := hsame
        exact hsame ▸ hfree trivial hsame
      · exact h.accepted v hv hsame hok
  | insertSession e operatorId tokenHash =>
      obtain rfl : e = email := hfollows
      simp only [execLockout] at he
      split at he
      · cases he
        exact ⟨h.accepted, h.opened⟩
      · cases he
        refine ⟨h.accepted, fun o ho hsame => ?_⟩
        rcases List.mem_cons.mp ho with rfl | ho
        · have hsame : cfg.toLowercase e = key := hsame
          exact hsame ▸ hfree trivial hsame
        · exact h.opened o ho hsame

/-- **One move.** -/
lemma DoorOk.step (h : DoorOk cfg key s) {s' : DoorState} {a : DoorAct}
    (hwaiting : DroppedWaiting s a) (hroom : LeavesRoom cfg key s a)
    (hs : (operatorDoor cfg).step s a = some s') : DoorOk cfg key s' := by
  obtain ⟨w', task'⟩ := s'
  rcases step_cases hs with ⟨e, rfl, hw, htask⟩ | ⟨tid, req, rfl, hspawn⟩ |
    ⟨tid, ω, req, b, op, k, r, rfl, ht, hw, htask⟩ | ⟨tid, rfl, hdrop⟩
  · cases hw
    obtain rfl : task' = s.task := htask
    rcases e with d | ⟨operators, sessions⟩
    · exact ⟨h.proper, h.window.tick (Nat.le_add_right _ _), h.accepted, h.opened⟩
    · exact ⟨h.proper, h.window, h.accepted, h.opened⟩
  · cases hspawn
    have hfree : s.task tid = none := by
      simp only [Machine.step] at hs
      split at hs
      · cases hs
      · assumption
    refine ⟨fun i t hi => ?_, ?_, h.accepted, h.opened⟩
    · simp only at hi
      split at hi
      · cases hi
        exact proper_createSession cfg req
      · exact h.proper i t hi
    · refine h.window.mono (fun j hj => ?_) fun j hj => owes_setTask_of_ne ?_ hj
      · rcases inBetween_setTask hj with ⟨-, -, hpast⟩ | ⟨-, hj⟩
        · -- Its first operation is the look.
          obtain ⟨authorised, totp⟩ := req
          rcases authorised with e | email <;> exact hpast.elim
        · exact hj
      · rintro rfl
        obtain ⟨t, ht, -⟩ := hj
        cases hfree.symm.trans ht
  · obtain rfl : task' = (s.setTask tid (some ⟨req, b, k r⟩)).task := htask
    have hproper := h.proper tid _ ht
    obtain ⟨email, hreq, hfollows, hrest⟩ := hproper.next rfl
    obtain ⟨haccepted, hopened⟩ := h.exec_history ht hreq hfollows hw
    refine ⟨fun i t hi => ?_, h.window.exec ht hreq hfollows hroom hw, haccepted, hopened⟩
    rw [Sys.setTask_task] at hi
    split at hi
    · cases hi
      exact .of_orderly hreq (hrest r)
    · exact h.proper i t hi
  · cases hdrop
    refine ⟨fun i t hi => ?_, ?_, h.accepted, h.opened⟩
    · simp only at hi
      split at hi
      · cases hi
      · exact h.proper i t hi
    · refine h.window.mono (fun j hj => ?_) fun j hj => ?_
      · obtain ⟨t, ht, hbetween⟩ := hj
        simp only at ht
        split at ht
        · cases ht
        · exact ⟨t, ht, hbetween⟩
      · -- What is dropped waits, so it is not about to enter a failure.
        obtain ⟨t, ht, hkey, hentering⟩ := hj
        have hne : j ≠ tid := by
          rintro rfl
          unfold Entering at hentering
          split at hentering
          · rename_i hprog
            obtain ⟨req, b, p⟩ := t
            obtain rfl := hprog
            simp only [DroppedWaiting, ht] at hwaiting
            exact hwaiting
          · exact hentering
        exact ⟨t, by simp only [if_neg hne, ht], hkey, hentering⟩

end Steps

/-- **When the lockout holds.**  In every interleaving of any number of verification requests, in a
process that has just been started: if whoever finds the address not locked out leaves room for the
failures that are still to be entered and for those of the window that an accepted code has wiped,
then no window of the lockout sees more failing codes than the configured maximum, and no code is
accepted and no session opened while the address is locked out. -/
theorem totp_lockout_holds (cfg : TotpConfig) (email : String) (now : Time)
    (operators : List OperatorAccount) (sessions : List OperatorSession) {s : DoorState}
    (h : (operatorDoor cfg).Reachable
      (fun s a => DroppedWaiting s a ∧ LeavesRoom cfg (cfg.toLowercase email) s a)
      (Sys.idle (.fresh now operators sessions)) s) :
    LockoutHolds cfg email s.world := by
  have hok : DoorOk cfg (cfg.toLowercase email) s := by
    induction h with
    | init => exact .idle now operators sessions
    | step _ hg hs ih => exact ih.step hg.1 hg.2 hs
  refine ⟨fun t => ?_, hok.accepted, hok.opened⟩
  have hlimited := hok.window.limited t
  rw [Window.within, failures, List.countP_map, List.countP_filter] at hlimited
  refine le_trans (List.countP_mono_left fun v _ hv => ?_) hlimited
  simp only [Bool.and_eq_true, Bool.not_eq_true', decide_eq_true_eq, Function.comp_apply] at hv ⊢
  exact ⟨⟨hv.1.2, hv.2⟩, hv.1.1⟩

/-- A code that is right is `428193`, and nothing is hidden. -/
def stubTotp : TotpConfig where
  operatorTotpKey := some (List.replicate 32 0)
  toLowercase s := s
  lower s := s
  decrypt _ _ ciphertext := .ok ciphertext
  checkCurrent _ _ code _ := some (code = "428193")
  sha256 token := token.toList.map fun c => UInt8.ofNat c.toNat

/-- One operator is enrolled. -/
def oneOperator : LockoutWorld := .fresh 0 [⟨1, "ops@example.test", List.replicate 32 0, none⟩] []

/-- A request of the operator with this code. -/
def asking (code : String) : SessionRequest := ⟨.ok "ops@example.test", code⟩

/-- The operator mistypes the code. -/
theorem totp_lockout_holds_mistyped : ∃ s : DoorState,
    s.world.verdicts.map (·.ok) = [false] ∧ LockoutHolds stubTotp "ops@example.test" s.world := by
  have hasked : (operatorDoor stubTotp).Reachable
      (fun s a => DroppedWaiting s a ∧ LeavesRoom stubTotp "ops@example.test" s a)
      (Sys.idle oneOperator) (Sys.idle oneOperator) := .init
  have hspawned := hasked.step (a := .spawn 0 (asking "428194")) ⟨trivial, trivial⟩ rfl
  have halone : ∀ T : Finset ℕ, (∀ i ∈ T, InBetween stubTotp "ops@example.test"
      ((Sys.idle oneOperator : DoorState).setTask 0 (some ⟨asking "428194", (),
        createSession stubTotp (asking "428194")⟩)).task i) → T = ∅ := by
    refine fun T hT => Finset.eq_empty_of_forall_notMem fun i hi => ?_
    rcases inBetween_setTask (hT i hi) with ⟨-, -, hpast⟩ | ⟨-, t, ht, -⟩
    · exact hpast
    · cases ht
  have hlooked := hspawned.step (a := .resume 0 {}) ⟨trivial, fun _ _ T hT => by
    rw [halone T hT]
    decide⟩ rfl
  have hfound := hlooked.step (a := .resume 0 {}) ⟨trivial, trivial⟩ rfl
  have hcompared := hfound.step (a := .resume 0 {}) ⟨trivial, trivial⟩ rfl
  have hentered := hcompared.step (a := .resume 0 {}) ⟨trivial, trivial⟩ rfl
  exact ⟨_, rfl, totp_lockout_holds stubTotp "ops@example.test" 0 _ [] hentered⟩

/-- Six requests look before any of them has entered its failure. -/
theorem many_at_once : ¬ ∀ (cfg : TotpConfig) (email : String) (now : Time)
    (operators : List OperatorAccount) (sessions : List OperatorSession) (s : DoorState),
      (operatorDoor cfg).Reachable DroppedWaiting (Sys.idle (.fresh now operators sessions)) s →
      LockoutHolds cfg email s.world := by
  intro hall
  obtain ⟨s, hreach, hmany⟩ := exists_reachable_of_run (operatorDoor stubTotp) DroppedWaiting
    (Sys.idle oneOperator)
    ((List.range 6).flatMap (fun i => [.spawn i (asking "428194"), .resume i {}, .resume i {}]) ++
      (List.range 6).map fun i => .resume i {})
    (fun s => maxTotpFailures < s.world.verdicts.countP fun v => !v.ok &&
      stubTotp.toLowercase v.email = stubTotp.toLowercase "ops@example.test" && 0 ≤ v.time &&
        v.time < 0 + lockoutWindow) (by decide +kernel)
  exact absurd ((hall stubTotp "ops@example.test" 0 _ [] s hreach).limited 0) (not_le.mpr hmany)

end Naivolt
