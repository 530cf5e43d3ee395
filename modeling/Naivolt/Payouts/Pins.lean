import Naivolt.Payouts.Replay
import Naivolt.Foundation.Metering
import Naivolt.Foundation.Supervised

/-!
# The PIN

The `pin` module of the auth crate, the comparison that `create_payout` makes with the stored hash,
and `set_pin` of `user_routes.rs`.  `MAX_PIN_ATTEMPTS` is there, but nothing counts: a wrong PIN is
answered and forgotten, and `set_pin` replaces a PIN without asking for the one it replaces.

`Guarded` is what a second factor owes its user: no more wrong PINs compared than that, and no
payout unless the PIN that the user had set was among those compared.  Each payout request compares
one PIN at most, so the first part holds for as long as no more wrong ones are sent
(`Metered.meter_le`); and while nobody replaces the PIN, a comparison that succeeds is of the PIN
itself, so the second part holds too (`pin_guards`).
-/

namespace Naivolt

open Foundation Foundation.Machine

/-! ## PINs -/

/-- `PIN_LENGTH`. -/
def pinLength : ℕ := 6

/-- `MAX_PIN_ATTEMPTS`. -/
def maxPinAttempts : ℕ := 5

/-- `PinError`, without the failures of the hash function. -/
inductive PinError where
  | wrongFormat
  | tooCommon
  deriving DecidableEq

/-- Its `Display`. -/
def PinError.message : PinError → String
  | .wrongFormat => "PIN must be exactly 6 digits"
  | .tooCommon => "that PIN is too easy to guess, please choose another"

/-- Each digit is followed by the one that `next` says. -/
def runsOn (next : ℕ → ℕ) (digits : List ℕ) : Bool :=
  (digits.zip digits.tail).all fun d => d.2 = next d.1

/-- `validate_pin_strength`. -/
def validatePinStrength (pin : String) : Except PinError Unit :=
  if pin.utf8ByteSize ≠ pinLength || !pin.toList.all Char.isDigit then .error .wrongFormat
  else
    let digits := pin.toList.map fun c => c.toNat - '0'.toNat
    -- 000000, 111111, …
    if digits.all (· = digits.headD 0) then .error .tooCommon
    -- 123456 and 654321, and any other run of consecutive digits.
    else if runsOn (· + 1) digits || runsOn (· + 1) digits.reverse then .error .tooCommon
    -- Repeated pairs and triples: 121212, 123123.
    else if digits.take 2 = (digits.drop 2).take 2 && (digits.drop 2).take 2 = digits.drop 4 then
      .error .tooCommon
    else if digits.take 3 = digits.drop 3 then .error .tooCommon
    -- Years.
    else if (digits.take 2 = [1, 9] || digits.take 2 = [2, 0]) &&
        1940 ≤ Nat.ofDigits 10 (digits.take 4).reverse &&
        Nat.ofDigits 10 (digits.take 4).reverse ≤ 2030 && digits.drop 4 = [0, 0] then
      .error .tooCommon
    else .ok ()

/-- Argon2id, as `hash_pin` and `verify_pin` use it.  None is a hash that cannot be read. -/
structure Argon2 where
  hash (salt pin : String) : String
  verify (pin hash : String) : Option Bool

/-- A PIN verifies against its own hash and no other PIN does. -/
def Argon2.Faithful (argon : Argon2) : Prop :=
  ∀ salt pin pin', argon.verify pin' (argon.hash salt pin) = some (decide (pin' = pin))

/-! ## The backend with its PINs -/

/-- A PIN compared with a stored hash, and the verdict. -/
structure Comparison where
  userId : Uuid
  pin : String
  matched : Bool
  deriving DecidableEq

/-- The backend, `users.pin_hash`, and what has been compared. -/
structure PinWorld where
  backend : World
  pins : Uuid → Option String
  compared : List Comparison

/-- What the program does not decide. -/
structure PinOracle where
  base : Oracle := {}
  salt : String := ""

inductive PinOp where
  /-- `SELECT pin_hash, kyc_tier FROM users`. -/
  | selectUser (userId : Uuid)
  | verifyPin (userId : Uuid) (pin hash : String)
  | hashPin (pin : String)
  /-- `UPDATE users SET pin_hash`. -/
  | setPin (userId : Uuid) (hash : String)
  | backend (op : Op)

abbrev PinOp.Res : PinOp → Type
  | selectUser _ => Option String × KycTier
  | verifyPin .. => Option Bool
  | hashPin _ => String
  | setPin .. => Unit
  | backend op => op.Res

/-- What each operation does. -/
def execPins (cfg : Config) (argon : Argon2) (tid : ℕ) :
    (op : PinOp) → PinOracle → PinWorld → Option (op.Res × PinWorld)
  | .selectUser userId, _, w => some ((w.pins userId, w.backend.tiers userId), w)
  | .verifyPin userId pin hash, _, w =>
      let verdict := argon.verify pin hash
      some (verdict, { w with compared := ⟨userId, pin, verdict = some true⟩ :: w.compared })
  | .hashPin pin, ω, w => some (argon.hash ω.salt pin, w)
  | .setPin userId hash, _, w =>
      some ((), { w with pins := Function.update w.pins userId (some hash) })
  | .backend op, ω, w =>
      (exec cfg tid op ω.base w.backend).map fun r => (r.1, { w with backend := r.2 })

/-- The operation that `create_payout` alone performs. -/
def Op.reserves : Op → Bool
  | .payouts (.reserve ..) => true
  | _ => false

/-- What happens besides payout requests and `set_pin`: the job that sends payouts, and whatever
else the backend does, for whomever. -/
inductive PinMove where
  | paying (move : PayingMove)
  | ran (tid : ℕ) (op : Op) (ω : Oracle)

def movePins (cfg : Config) : PinMove → PinWorld → Option PinWorld
  | .paying move, w => (execPaying move w.backend).map fun b => { w with backend := b }
  | .ran tid op ω, w =>
      if op.reserves then none
      else (exec cfg tid op ω w.backend).map fun r => { w with backend := r.2 }

/-! ## The endpoints -/

abbrev PinProg (α : Type) := Prog PinOp PinOp.Res α

/-- A handler of the backend. -/
abbrev PinProg.handler {α : Type} (p : Handler α) : PinProg α := p.lift .backend fun _ r => r

/-- `create_payout` after its PIN has been found right. -/
def payOut (userId : Uuid) (key : String) (body : CreatePayoutBody) (tier : KycTier) :
    Handler Result := do
  let used ← Handler.payouts (.usedToday userId)
  match checkPayout tier body.amountNgn used with
  | .error e => pure (.error e)
  | .ok () =>
    match ← Handler.payouts (.resolveDestination userId body) with
    | .error e => pure (.error e)
    | .ok bank =>
      match ← Handler.payouts (.reserve userId key body.amountNgn bank) with
      | .error e => pure (.error e)
      | .ok (id, p) => pure (.ok (.payout id p))

/-- It is the handler of the backend from there on. -/
lemma createPayout_eq (userId : Uuid) (key : String) (body : CreatePayoutBody) :
    createPayout userId key body =
      (match checkAmount body with
      | .error e => pure (.error e)
      | .ok () => do
        let user ← Handler.payouts (.readUser userId)
        match checkPin user with
        | .error e => pure (.error e)
        | .ok () => payOut userId key body user.tier) := rfl

/-- `create_payout`. -/
def createPayoutPinned (userId : Uuid) (key pin : String) (body : CreatePayoutBody) :
    PinProg Result :=
  match checkAmount body with
  | .error e => pure (.error e)
  | .ok () => do
    let (pinHash, tier) ← Prog.perform (PinOp.selectUser userId)
    match pinHash with
    | none => pure (.error (.badRequest "Set a PIN before withdrawing."))
    | some hash =>
      match ← Prog.perform (PinOp.verifyPin userId pin hash) with
      | none => pure (.error (.internal "hashing failed"))
      | some false => pure (.error (.pinInvalid 0))
      | some true => PinProg.handler (payOut userId key body tier)

/-- `set_pin`. -/
def setPin (userId : Uuid) (pin : String) : PinProg Result :=
  match validatePinStrength pin with
  | .error e => pure (.error (.badRequest e.message))
  | .ok () => do
    let hash ← Prog.perform (PinOp.hashPin pin)
    Prog.perform (PinOp.setPin userId hash)
    pure (.ok .done)

inductive PinRequest where
  | createPayout (userId : Uuid) (key pin : String) (body : CreatePayoutBody)
  | setPin (userId : Uuid) (pin : String)

/-- Any number of payout requests and changes of PINs, beside everything else. -/
def pinned (cfg : Config) (argon : Argon2) :
    Machine PinOp PinOp.Res PinOracle PinMove PinWorld PinRequest Unit Result where
  exec tid op ω w := execPins cfg argon tid op ω w
  env := movePins cfg
  program
    | .createPayout userId key pin body => createPayoutPinned userId key pin body
    | .setPin userId pin => Naivolt.setPin userId pin
  stamp _ := ()

abbrev PinState := Sys PinOp PinOp.Res PinWorld PinRequest Unit Result
abbrev PinAct := Act PinOracle PinMove PinRequest

/-! ## What is required -/

/-- The PIN has been compared for the user. -/
def Compared (userId : Uuid) (pin : String) (w : PinWorld) : Prop :=
  ∃ c ∈ w.compared, c.userId = userId ∧ c.pin = pin

instance (userId : Uuid) (pin : String) (w : PinWorld) : Decidable (Compared userId pin w) := by
  unfold Compared
  infer_instance

/-- A second factor: a bound on the wrong PINs that are compared, and no new payout unless the PIN
the user had set has been compared. -/
structure Guarded (userId : Uuid) (pin : String) (w₀ w : PinWorld) : Prop where
  limited : w.compared.countP (fun c => c.userId = userId && !c.matched) ≤ maxPinAttempts
  proven : ∀ id p, w.backend.payouts.get? id = some p → p.userId = userId →
    w₀.backend.payouts.get? id = none → Compared userId pin w

/-- The operation does not replace the PIN of the user. -/
def KeepsPin (userId : Uuid) (_ : ℕ) (_ : PinRequest) (_ : Unit) (op : PinOp) (_ : PinOracle)
    (_ : PinWorld) : Prop :=
  match op with
  | .setPin u _ => u ≠ userId
  | _ => True

instance (userId : Uuid) (tid : ℕ) (req : PinRequest) (b : Unit) (op : PinOp) (ω : PinOracle)
    (w : PinWorld) : Decidable (KeepsPin userId tid req b op ω w) := by
  unfold KeepsPin
  split <;> infer_instance

/-- How many PINs other than the user's the request may bring to a comparison. -/
def guesses (userId : Uuid) (pin : String) : PinRequest → ℕ
  | .createPayout u _ guess body =>
      if u = userId ∧ guess ≠ pin ∧ checkAmount body = .ok () then 1 else 0
  | .setPin .. => 0

/-! ## How many wrong PINs are compared -/

/-- The operation compares a PIN other than the user's. -/
def PinOp.Guesses (userId : Uuid) (pin : String) : PinOp → Prop
  | .verifyPin u guess _ => u = userId ∧ guess ≠ pin
  | _ => False

instance (userId : Uuid) (pin : String) : DecidablePred (PinOp.Guesses userId pin) := fun op => by
  cases op <;> unfold PinOp.Guesses <;> infer_instance

/-- The comparisons of PINs other than the user's. -/
def guessed (userId : Uuid) (pin : String) (w : PinWorld) : ℕ :=
  w.compared.countP fun c => c.userId = userId && c.pin ≠ pin

section Meter

variable {cfg : Config} {argon : Argon2} {userId : Uuid} {pin : String}

lemma every_handler {α : Type} (p : Handler α) :
    (PinProg.handler p).Every fun op => ¬op.Guesses userId pin := by
  refine ((Prog.every_true p).lift ..).mono ?_
  rintro op ⟨o, rfl, -⟩ h
  exact h

/-- **A payout request compares one PIN at most.** -/
lemma createPayoutPinned_atMost (u : Uuid) (key guess : String) (body : CreatePayoutBody) :
    (createPayoutPinned u key guess body).AtMost (PinOp.Guesses userId pin)
      (guesses userId pin (.createPayout u key guess body)) := by
  unfold createPayoutPinned
  split
  · trivial
  · rename_i hamount
    simp only [Prog.perform_bind]
    refine ⟨fun h => h.elim, fun row => ?_⟩
    obtain ⟨pinHash, tier⟩ := row
    rcases pinHash with _ | hash
    · trivial
    · refine ⟨fun h => ?_, fun r => ?_⟩
      · rw [if_neg (show ¬(PinOp.selectUser u).Guesses userId pin from id), guesses,
          if_pos ⟨h.1, h.2, hamount⟩]
        exact Nat.one_pos
      · rcases r with _ | _ | _
        · trivial
        · trivial
        · exact (every_handler (payOut u key body tier)).atMost _

lemma setPin_atMost (u : Uuid) (new : String) :
    (Naivolt.setPin u new).AtMost (PinOp.Guesses userId pin) 0 := by
  unfold Naivolt.setPin
  split
  · trivial
  · exact ⟨fun h => h.elim, fun _ => ⟨fun h => h.elim, fun _ => trivial⟩⟩

lemma metered_pinned : Metered (pinned cfg argon) (PinOp.Guesses userId pin) (guessed userId pin)
    (guesses userId pin) where
  env {e w w'} h := by
    cases e with
    | paying move =>
        obtain ⟨b, -, rfl⟩ := Option.map_eq_some_iff.mp h
        exact le_rfl
    | ran tid op ω =>
        simp only [pinned, movePins] at h
        split at h
        · cases h
        · obtain ⟨r, -, rfl⟩ := Option.map_eq_some_iff.mp h
          exact le_rfl
  exec {tid op ω r w w'} h := by
    cases op with
    | verifyPin u guess hash =>
        cases h
        simp only [guessed, List.countP_cons, PinOp.Guesses, Bool.and_eq_true, decide_eq_true_eq,
          ne_eq]
        exact le_rfl
    | selectUser | hashPin | setPin =>
        cases h
        exact Nat.le_add_right _ _
    | backend op =>
        obtain ⟨x, -, hres⟩ := Option.map_eq_some_iff.mp h
        cases hres
        exact Nat.le_add_right _ _
  program req := by
    cases req with
    | createPayout u key guess body => exact createPayoutPinned_atMost u key guess body
    | setPin u new => exact setPin_atMost u new

end Meter

/-! ## What is proved before a payout -/

/-- The PIN stands, the verdicts on the user's PINs were right, and new payouts were proven. -/
structure PinBooks (userId : Uuid) (pin hash : String) (w₀ w : PinWorld) : Prop where
  stored : w.pins userId = some hash
  verdicts : ∀ c ∈ w.compared, c.userId = userId → c.matched = decide (c.pin = pin)
  proven : ∀ id p, w.backend.payouts.get? id = some p → p.userId = userId →
    w₀.backend.payouts.get? id = none → Compared userId pin w

/-- What is compared stays recorded. -/
def ComparedLater (_ : ℕ) (w w' : PinWorld) : Prop := ∀ c ∈ w.compared, c ∈ w'.compared

/-- The user's PIN is compared with the hash of the PIN, and is compared before a reservation. -/
def PinContract (userId : Uuid) (pin hash : String) (_ : ℕ) (_ : PinRequest) (_ : Unit) (op : PinOp)
    (w : PinWorld) : Prop :=
  match op with
  | .verifyPin u _ h => u = userId → h = hash
  | .backend op => ∀ key amount bank, op = .payouts (.reserve userId key amount bank) →
      Compared userId pin w
  | _ => True

section Books

variable {cfg : Config} {argon : Argon2} {tid : ℕ} {ω : Oracle} {userId : Uuid}
  {pin hash : String} {w₀ w w' : PinWorld}

lemma Compared.later (h : Compared userId pin w) (hlater : ∀ c ∈ w.compared, c ∈ w'.compared) :
    Compared userId pin w' :=
  h.imp fun c hc => ⟨hlater c hc.1, hc.2⟩

/-- A payout that was not there was reserved by its user. -/
lemma payout_of_exec {op : Op} {r : op.Res} {b b' : World}
    (h : exec cfg tid op ω b = some (r, b')) {id : Uuid} {p : Payout}
    (hp : b'.payouts.get? id = some p) : b.payouts.get? id = some p ∨
      ∃ key amount bank, op = .payouts (.reserve p.userId key amount bank) := by
  cases (exec_move h).2 with
  | @payouts pop r db es hexec =>
      cases pop with
      | reserve u key amount bank =>
          rcases reservePayout_cases hexec with ⟨rfl, rfl⟩ |
            ⟨payoutId, journalId, referenceId, journal, posted, ledger, -, -, -, -, -,
              ⟨existing, -, hsame, -⟩ | ⟨-, hinsert, -⟩⟩
          · exact .inl hp
          · rw [show ((b.draw ω).putPayouts db es).payouts = b.payouts from hsame] at hp
            exact .inl hp
          · have hp' : db.payouts.get? id = some p := hp
            rw [Table.get?_insert hinsert] at hp'
            split at hp'
            · cases hp'
              exact .inr ⟨key, amount, bank, rfl⟩
            · exact .inl hp'
      | _ =>
          cases hexec
          exact .inl hp
  | _ => exact .inl hp

/-- The job that sends payouts makes none. -/
lemma payout_of_paying {move : PayingMove} {b b' : World} (h : execPaying move b = some b')
    {id : Uuid} {p : Payout} (hp : b'.payouts.get? id = some p) :
    ∃ p₀, b.payouts.get? id = some p₀ ∧ p₀.userId = p.userId := by
  cases move with
  | env e =>
      obtain ⟨now, wallets, tiers, -, rfl⟩ := execEnv_eq h
      exact ⟨p, hp, rfl⟩
  | moved payout status =>
      cases h
      simp only [Table.get?_modify] at hp
      split at hp
      · obtain ⟨p₀, hp₀, rfl⟩ := Option.map_eq_some_iff.mp hp
        exact ⟨p₀, hp₀, rfl⟩
      · exact ⟨p, hp, rfl⟩

/-- The rest of the backend makes no payout, so the books stand. -/
lemma PinBooks.backend (hI : PinBooks userId pin hash w₀ w) {b : World}
    (hpayouts : ∀ id p, b.payouts.get? id = some p → p.userId = userId →
      (∃ p₀, w.backend.payouts.get? id = some p₀ ∧ p₀.userId = userId) ∨ Compared userId pin w) :
    PinBooks userId pin hash w₀ { w with backend := b } where
  stored := hI.stored
  verdicts := hI.verdicts
  proven id p hp hu hnew := by
    rcases hpayouts id p hp hu with ⟨p₀, hp₀, hu₀⟩ | hc
    · exact hI.proven id p₀ hp₀ hu₀ hnew
    · exact hc

lemma comparedLater_of_exec {op : PinOp} {ω : PinOracle} {r : op.Res}
    (h : execPins cfg argon tid op ω w = some (r, w')) : ComparedLater tid w w' := by
  intro c hc
  cases op with
  | verifyPin u guess stored =>
      cases h
      exact List.mem_cons_of_mem _ hc
  | selectUser | hashPin | setPin =>
      cases h
      exact hc
  | backend op =>
      obtain ⟨x, -, hres⟩ := Option.map_eq_some_iff.mp h
      cases hres
      exact hc

/-- **Each operation within its contract keeps the books.** -/
lemma PinBooks.exec (hfaithful : argon.Faithful) {salt : String}
    (hI : PinBooks userId pin (argon.hash salt pin) w₀ w) {req : PinRequest} {op : PinOp}
    {ω : PinOracle} {r : op.Res} (hkeeps : KeepsPin userId tid req () op ω w)
    (hC : PinContract userId pin (argon.hash salt pin) tid req () op w)
    (h : execPins cfg argon tid op ω w = some (r, w')) :
    PinBooks userId pin (argon.hash salt pin) w₀ w' := by
  cases op with
  | selectUser u | hashPin p =>
      cases h
      exact hI
  | verifyPin u guess stored =>
      cases h
      refine ⟨hI.stored, fun c hc hu => ?_, fun id p hp hpu hnew => ?_⟩
      · rcases List.mem_cons.mp hc with rfl | hc
        · obtain rfl : stored = argon.hash salt pin := hC hu
          simp [hfaithful salt pin guess]
        · exact hI.verdicts c hc hu
      · obtain ⟨c, hc, heq⟩ := hI.proven id p hp hpu hnew
        exact ⟨c, List.mem_cons_of_mem _ hc, heq⟩
  | setPin u new =>
      cases h
      refine ⟨?_, hI.verdicts, hI.proven⟩
      have hne : userId ≠ u := fun heq => hkeeps heq.symm
      simp only [Function.update_of_ne hne]
      exact hI.stored
  | backend op =>
      obtain ⟨⟨x, b⟩, he, hres⟩ := Option.map_eq_some_iff.mp h
      cases hres
      refine hI.backend fun id p hp hu => ?_
      rcases payout_of_exec he hp with hold | ⟨key, amount, bank, rfl⟩
      · exact .inl ⟨p, hold, hu⟩
      · exact .inr (hC key amount bank (hu ▸ rfl))

lemma PinBooks.env (hI : PinBooks userId pin hash w₀ w) {e : PinMove}
    (h : movePins cfg e w = some w') :
    PinBooks userId pin hash w₀ w' ∧ ∀ tid, ComparedLater tid w w' := by
  cases e with
  | paying move =>
      obtain ⟨b, he, rfl⟩ := Option.map_eq_some_iff.mp h
      refine ⟨hI.backend fun id p hp hu => ?_, fun _ c hc => hc⟩
      obtain ⟨p₀, hp₀, hu₀⟩ := payout_of_paying he hp
      exact .inl ⟨p₀, hp₀, hu₀.trans hu⟩
  | ran tid op ω =>
      simp only [movePins] at h
      split at h
      · cases h
      · rename_i hno
        obtain ⟨⟨x, b⟩, he, rfl⟩ := Option.map_eq_some_iff.mp h
        refine ⟨hI.backend fun id p hp hu => ?_, fun _ c hc => hc⟩
        rcases payout_of_exec he hp with hold | ⟨key, amount, bank, rfl⟩
        · exact .inl ⟨p, hold, hu⟩
        · exact absurd rfl hno

/-! ### The programs keep their contracts -/

/-- What is safe while the user's PIN stands. -/
abbrev PinSafe (cfg : Config) (argon : Argon2) (userId : Uuid) (pin hash : String)
    (w₀ : PinWorld) (tid : ℕ) (req : PinRequest) {β : Type} (Q : β → PinWorld → Prop) :
    PinProg β → PinWorld → Prop :=
  Safe (pinned cfg argon) (PinBooks userId pin hash w₀) ComparedLater (KeepsPin userId)
    (PinContract userId pin hash) tid req () Q

/-- `create_payout` reserves for its own user. -/
lemma every_payOut (u : Uuid) (key : String) (body : CreatePayoutBody) (tier : KycTier) :
    (payOut u key body tier).Every fun op => ∀ v key amount bank,
      op = .payouts (.reserve v key amount bank) → v = u := by
  unfold payOut
  simp only [Prog.perform_bind]
  refine ⟨fun _ _ _ _ h => (by cases h), fun used => ?_⟩
  beta_reduce
  rcases checkPayout tier body.amountNgn used with e | -
  · trivial
  · refine ⟨fun _ _ _ _ h => (by cases h), fun destination => ?_⟩
    rcases destination with e | bank
    · trivial
    · refine ⟨fun _ _ _ _ h => (by cases h; rfl), fun reserved => ?_⟩
      rcases reserved with e | ⟨id, p⟩
      · trivial
      · trivial

/-- A user whose PIN has been compared may be paid out. -/
lemma safe_payOut {salt : String} {req : PinRequest} {u : Uuid} {key : String}
    {body : CreatePayoutBody} {tier : KycTier} (hu : u = userId → Compared userId pin w) :
    PinSafe cfg argon userId pin (argon.hash salt pin) w₀ tid req (fun _ _ => True)
      (PinProg.handler (payOut u key body tier)) w := by
  have hA : Lasting (pinned cfg argon) (PinBooks userId pin (argon.hash salt pin) w₀) ComparedLater
      (PinContract userId pin (argon.hash salt pin)) tid req ()
      (fun w => u = userId → Compared userId pin w) := by
    refine ⟨fun hlater h heq => (h heq).later hlater, fun _ _ he h heq => ?_⟩
    exact (h heq).later (comparedLater_of_exec he)
  refine (Safe.of_lasting hA (((every_payOut u key body tier).lift ..).mono ?_) hu).mono
    fun _ _ _ => trivial
  rintro op ⟨o, rfl, ho⟩ w - hw key amount bank rfl
  exact hw (ho _ _ _ _ rfl).symm

/-- **A payout request compares the user's PIN before it reserves.** -/
lemma safe_createPayoutPinned (hfaithful : argon.Faithful) {salt : String} {req : PinRequest}
    {u : Uuid} {key guess : String} {body : CreatePayoutBody} :
    PinSafe cfg argon userId pin (argon.hash salt pin) w₀ tid req (fun _ _ => True)
      (createPayoutPinned u key guess body) w := by
  unfold createPayoutPinned
  split
  · trivial
  · simp only [Prog.perform_bind]
    intro w₁ hI₁ _ ω _
    refine ⟨trivial, fun row w₂ he => ?_⟩
    cases he
    rcases hpin : w₁.pins u with _ | stored
    · simp only
      trivial
    · simp only
      intro w₂ hI₂ _ ω _
      have hstored : u = userId → stored = argon.hash salt pin := by
        rintro rfl
        exact Option.some.inj (hpin.symm.trans hI₁.stored)
      refine ⟨hstored, fun verdict w₃ he => ?_⟩
      cases he
      rcases hverdict : argon.verify guess stored with _ | _ | _
      · simp only
        trivial
      · simp only
        trivial
      · simp only
        refine safe_payOut fun heq => ?_
        rw [hstored heq, hfaithful] at hverdict
        exact ⟨_, List.mem_cons_self, heq, of_decide_eq_true (Option.some.inj hverdict)⟩

lemma safe_setPin {salt : String} {req : PinRequest} {u : Uuid} {new : String} :
    PinSafe cfg argon userId pin (argon.hash salt pin) w₀ tid req (fun _ _ => True)
      (Naivolt.setPin u new) w := by
  unfold Naivolt.setPin
  split
  · trivial
  · intro _ _ _ _ _
    refine ⟨trivial, fun _ _ _ => ?_⟩
    intro _ _ _ _ _
    exact ⟨trivial, fun _ _ _ => trivial⟩

lemma keeps_pinned (hfaithful : argon.Faithful) {salt : String} :
    Keeps (pinned cfg argon) (PinBooks userId pin (argon.hash salt pin) w₀) ComparedLater
      (KeepsPin userId) (PinContract userId pin (argon.hash salt pin)) where
  refl _ _ _ hc := hc
  trans h h' c hc := h' c (h c hc)
  env hI he := hI.env he
  op hI hkeeps hC he :=
    ⟨hI.exec hfaithful hkeeps hC he, fun _ _ c hc => comparedLater_of_exec he c hc⟩
  spawn tid req w _ := by
    cases req with
    | createPayout u key guess body => exact safe_createPayoutPinned hfaithful
    | setPin u new => exact safe_setPin

end Books

/-! ## The second factor -/

/-- **When the PIN is a second factor.**  From any state in which a user has set a PIN, and for any
schedule of payout requests, changes of PINs and whatever else the backend does: if no `set_pin` of
the user is carried out, and at most `MAX_PIN_ATTEMPTS` payout requests of the user pass the checks
of the amount with another PIN than the user's, then no more wrong PINs than that are compared, and
a payout of the user is created only if their PIN has been compared. -/
theorem pin_guards (cfg : Config) {argon : Argon2} (hfaithful : argon.Faithful) {userId : Uuid}
    {pin salt : String} {w₀ : PinWorld} (hset : w₀.pins userId = some (argon.hash salt pin))
    (hnone : w₀.compared = []) {as : List PinAct} {s : PinState}
    (hrun : (pinned cfg argon).run (fun s a => decide (onOps (KeepsPin userId) s a)) (Sys.idle w₀)
      as = some s)
    (hfew : (as.map (spent (guesses userId pin))).sum ≤ maxPinAttempts) :
    Guarded userId pin w₀ s.world := by
  have hreach : (pinned cfg argon).Reachable (onOps (KeepsPin userId)) (Sys.idle w₀) s :=
    reachable_of_run (fun _ _ => of_decide_eq_true) .init hrun
  have h₀ : PinBooks userId pin (argon.hash salt pin) w₀ w₀ :=
    ⟨hset, fun c hc => by simp [hnone] at hc, fun id p hp _ hnew => by simp [hp] at hnew⟩
  have hbooks := ((keeps_pinned hfaithful).holds h₀ (fun _ => rfl) hreach).1
  refine ⟨?_, hbooks.proven⟩
  calc s.world.compared.countP (fun c => c.userId = userId && !c.matched)
      ≤ guessed userId pin s.world := List.countP_mono_left fun c hc hwrong => by
        simp only [Bool.and_eq_true, decide_eq_true_eq, Bool.not_eq_true'] at hwrong ⊢
        refine ⟨hwrong.1, ?_⟩
        have hverdict := hbooks.verdicts c hc hwrong.1
        rw [hwrong.2] at hverdict
        simpa using hverdict.symm
    _ ≤ guessed userId pin w₀ + (as.map (spent (guesses userId pin))).sum :=
        metered_pinned.meter_le hrun
    _ = (as.map (spent (guesses userId pin))).sum := by simp [guessed, hnone]
    _ ≤ maxPinAttempts := hfew

/-- A hash function that hides nothing. -/
def plainArgon : Argon2 := ⟨fun _ pin => pin, fun pin hash => some (decide (pin = hash))⟩

/-- A user who has topped up ₦5 000 and set a PIN. -/
def pinSet : PinWorld where
  backend := ((payingBackend stubConfig).run (fun _ _ => true) (initial 0 [])
    (.env (.env (.setTier 7 .tier1)) :: atRest (topUp 0 7 100 101 102 5000))).elim (.fresh 0 [])
    (·.world)
  pins u := if u = 7 then some "428193" else none
  compared := []

/-- A request with the answers to its operations. -/
def servePinned (tid : ℕ) (req : PinRequest) (answers : List PinOracle) : List PinAct :=
  .spawn tid req :: answers.map (.resume tid)

/-- A payout request of the user for ₦1 000, refused for its PIN. -/
def wrongPin (tid : ℕ) (guess : String) : List PinAct :=
  servePinned tid (.createPayout 7 "once" guess ⟨1000, 0, 9⟩) [{}, {}]

/-- The same, paid out. -/
def rightPin (tid : ℕ) (pin : String) : List PinAct :=
  servePinned tid (.createPayout 7 "once" pin ⟨1000, 0, 9⟩)
    [{}, {}, {}, { base := { destination := .ok 9 } }, { base := { fresh := [200, 201, 202] } }]

/-- The user mistypes once. -/
theorem pin_guards_mistyped : ∃ s : PinState, (∃ p, s.world.backend.payouts.get? 200 = some p ∧
    p.userId = 7) ∧ Guarded 7 "428193" pinSet s.world := by
  obtain ⟨s, hrun, hpaid⟩ := (Option.any_eq_true _ _).mp (show
    ((pinned stubConfig plainArgon).run (fun s a => decide (onOps (KeepsPin 7) s a))
      (Sys.idle pinSet) (wrongPin 0 "428194" ++ rightPin 1 "428193")).any (fun s =>
        (s.world.backend.payouts.get? 200).any fun p => p.userId = 7) = true by decide +kernel)
  obtain ⟨p, hp, hu⟩ := (Option.any_eq_true _ _).mp hpaid
  have hset : pinSet.pins 7 = some (plainArgon.hash "" "428193") := rfl
  exact ⟨s, ⟨p, hp, of_decide_eq_true hu⟩,
    pin_guards stubConfig (fun _ _ _ => rfl) hset rfl hrun (by decide)⟩

/-- Somebody replaces the PIN, and is paid out with the new one. -/
theorem pin_replaced : ¬ ∀ (cfg : Config) (argon : Argon2), argon.Faithful →
    ∀ (userId : Uuid) (pin salt : String) (w₀ : PinWorld),
      w₀.pins userId = some (argon.hash salt pin) → w₀.compared = [] →
      ∀ (as : List PinAct) (s : PinState),
        (pinned cfg argon).run (fun _ _ => true) (Sys.idle w₀) as = some s →
        Guarded userId pin w₀ s.world := by
  intro hall
  obtain ⟨s, hrun, hpaid⟩ := (Option.any_eq_true _ _).mp (show
    ((pinned stubConfig plainArgon).run (fun _ _ => true) (Sys.idle pinSet)
      (servePinned 0 (.setPin 7 "918273") [{}, {}] ++ rightPin 1 "918273")).any (fun s =>
        (s.world.backend.payouts.get? 200).any fun p =>
          p.userId = 7 && (pinSet.backend.payouts.get? 200).isNone &&
            decide (¬Compared 7 "428193" s.world)) = true by decide +kernel)
  obtain ⟨p, hp, hno⟩ := (Option.any_eq_true _ _).mp hpaid
  simp only [Bool.and_eq_true, decide_eq_true_eq, Option.isNone_iff_eq_none] at hno
  obtain ⟨⟨hu, hnew⟩, hno⟩ := hno
  have hguarded :=
    hall stubConfig plainArgon (fun _ _ _ => rfl) 7 "428193" "" pinSet rfl rfl _ s hrun
  exact hno (hguarded.proven 200 p hp hu hnew)

end Naivolt
