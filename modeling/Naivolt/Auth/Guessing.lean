import Naivolt.Auth.Codes

/-!
# How often a code can be guessed

A verification compares the presented code with the hash of the live challenge, under the lock of
its row, and commits the attempt with its refusal.  So parallel guesses take turns, and each finds
the attempts of those before it.

What is committed is the `UPDATE` that follows the comparison.  A request that is lost in between
has compared a guess and left no trace of it (`guesses_lost`).  In the runs that lose no wrong
guess, `otp_guessing_bounded` holds.
-/

namespace Naivolt

open Foundation Database

/-! ## What happens to a challenge -/

/-- The challenge of an attempt, and when it was consumed. -/
def AuthWrite.attempted : AuthWrite → Option (Uuid × Option Time)
  | .attempt id _ consumedAt => some (id, consumedAt)
  | _ => none

/-- The challenge a row is entered under. -/
def AuthWrite.issued : AuthWrite → Option (Uuid × OtpChallenge)
  | .challenge id row => some (id, row)
  | _ => none

/-- A transaction of the accounts service in progress. -/
abbrev AccountsTxn := Txn AuthOp AuthOp.Res AuthDb AuthWrite AuthLock AuthAnswer

/-- A move of the accounts service, with the state it was made in. -/
abbrev AccountsMoment := Moment AuthOp AuthOp.Res AuthOracle AuthDb AuthWrite AuthLock AuthRequest
  AuthAnswer

/-- The challenge with whose hash the transaction has compared a wrong code: it goes on to save
the attempt, or has saved it, and answers that the code is wrong. -/
def wrongGuess (t : AccountsTxn) : Option Uuid :=
  match t.rest with
  | .call (.saveAttempt id _ _) k =>
      match k () with
      | .ret (.otpRefused (.otpInvalid _)) => some id
      | _ => none
  | .ret (.otpRefused (.otpInvalid _)) => (t.writes.findSome? AuthWrite.attempted).map (·.1)
  | _ => none

def guessOf (s : AccountsStore) (tid : ℕ) : Option Uuid := (s.live.get? tid).bind wrongGuess

/-- In this move a wrong code is compared with the hash of the challenge. -/
def Compares (cfg : AuthConfig) (id : Uuid) (x : AccountsMoment) : Bool :=
  match x.2 with
  | .perform tid _ => guessOf x.1 tid ≠ some id &&
      ((accounts cfg).step x.1 x.2).any fun s' => guessOf s' tid = some id
  | _ => false

/-- The challenge that is entered by this move, with its row. -/
def issuedBy (x : AccountsMoment) : Option (Uuid × OtpChallenge) :=
  match x.2 with
  | .commit tid => (x.1.live.get? tid).bind fun t => t.writes.findSome? AuthWrite.issued
  | _ => none

def Issues (id : Uuid) (x : AccountsMoment) : Bool := (issuedBy x).any (·.1 = id)

/-- The challenge that a request succeeds with in this move, and the time it goes by. -/
def openedBy (x : AccountsMoment) : Option (Uuid × Option Time) :=
  match x.2 with
  | .commit tid => (x.1.live.get? tid).bind fun t =>
      match t.rest with
      | .ret (.signedIn ..) => t.writes.findSome? AuthWrite.attempted
      | _ => none
  | _ => none

def Opens (id : Uuid) (x : AccountsMoment) : Bool := (openedBy x).any (·.1 = id)

/-- No transaction is rolled back that has compared a wrong code. -/
def NoGuessLost (s : AccountsStore) : TxnMove AuthOracle AuthRequest → Prop
  | .rollback tid => guessOf s tid = none
  | _ => True

instance (s : AccountsStore) (m : TxnMove AuthOracle AuthRequest) :
    Decidable (NoGuessLost s m) := by
  unfold NoGuessLost
  split <;> infer_instance

/-! ## An attempt is saved before anything else is written -/

/-- The statement saves an attempt. -/
def AuthOp.Saves : AuthOp → Prop
  | .saveAttempt .. => True
  | _ => False

/-- An attempt is only ever saved by a transaction that has written nothing before. -/
def SavesFirst : AuthTxn AuthAnswer → List AuthWrite → Prop
  | .ret _, _ => True
  | .call op k, ws => (op.Saves → ws = []) ∧
      ∀ r ws', (∀ w ∈ ws', op.Writes w) → SavesFirst (k r) (ws ++ ws')

lemma savesFirst_of_within {O : AuthOp → Prop} {A : AuthAnswer → Prop} {p : AuthTxn AuthAnswer}
    (hO : ∀ op, O op → ¬ op.Saves) (hp : p.Within O A) (ws : List AuthWrite) : SavesFirst p ws := by
  induction p generalizing ws with
  | ret a => trivial
  | call op k ih =>
      exact ⟨fun h => absurd h (hO op hp.1), fun r ws' _ => ih r (hp.2 r) (ws ++ ws')⟩

lemma AuthOp.Codeless.not_saves {op : AuthOp} (h : op.Codeless) : ¬ op.Saves := by
  cases op with
  | saveAttempt => exact h.elim
  | _ => exact id

lemma AuthOp.Aside.not_saves {op : AuthOp} (h : op.Aside) : ¬ op.Saves := by
  cases op with
  | saveAttempt => exact h.elim
  | _ => exact id

lemma savesFirst_verifyOtp (cfg : AuthConfig) (input code : String) :
    SavesFirst (Naivolt.verifyOtp cfg input code) [] := by
  unfold Naivolt.verifyOtp
  split
  · trivial
  · rename_i identifier _
    have hnil : ∀ {op : AuthOp} {ws : List AuthWrite}, (∀ w, ¬ op.Writes w) →
        (∀ w ∈ ws, op.Writes w) → ws = [] := fun hno h =>
      List.eq_nil_iff_forall_not_mem.mpr fun w hw => hno w (h w hw)
    refine ⟨False.elim, fun now ws hws => ?_⟩
    obtain rfl := hnil (fun w h => by cases h) hws
    refine ⟨False.elim, fun row ws hws => ?_⟩
    obtain rfl := hnil (fun w h => by cases h) hws
    rcases row with _ | ⟨id, challenge⟩
    · trivial
    · refine ⟨fun _ => rfl, fun _ ws _ => ?_⟩
      simp only
      split
      · trivial
      · exact savesFirst_of_within (fun _ h => h.not_saves) (codeless_signIn cfg _ now) _

lemma savesFirst_program (cfg : AuthConfig) (req : AuthRequest) :
    SavesFirst (authProgram cfg req) [] := by
  cases req with
  | requestOtp input =>
      exact savesFirst_of_within (fun _ h => h.not_saves) (within_requestOtp cfg input) []
  | verifyOtp input code => exact savesFirst_verifyOtp cfg input code
  | google verified =>
      exact savesFirst_of_within (fun _ h => h.not_saves) (codeless_googleSignIn cfg verified) []
  | refresh presented =>
      exact savesFirst_of_within (fun _ h => h.not_saves) (codeless_refresh cfg presented) []
  | logout presented =>
      exact savesFirst_of_within (fun _ h => h.not_saves) (codeless_logout cfg presented) []
  | updateMe userId body =>
      exact savesFirst_of_within (fun _ h => h.not_saves) (codeless_updateMe cfg userId body) []

/-! ## A compared guess -/

/-- What is said of the codes, for runs of any statements. -/
abbrev codes (cfg : AuthConfig) : Discipline (accounts cfg) anyStatement :=
  codeDiscipline cfg anyStatement

/-- Every transaction saves an attempt before it writes anything else. -/
def AllSaveFirst (s : AccountsStore) : Prop :=
  ∀ tid t, s.live.get? tid = some t → SavesFirst t.rest t.writes

section Guess

variable {cfg : AuthConfig} {s s' : AccountsStore} {tid : ℕ} {t : AccountsTxn} {id : Uuid}

lemma guessOf_eq_some : guessOf s tid = some id ↔
    ∃ t, s.live.get? tid = some t ∧ wrongGuess t = some id := Option.bind_eq_some_iff

/-- The two places in which a transaction can be that has compared a wrong code. -/
lemma wrongGuess_cases (h : wrongGuess t = some id) :
    (∃ left, t.rest = .ret (.otpRefused (.otpInvalid left)) ∧
      (t.writes.findSome? AuthWrite.attempted).map (·.1) = some id) ∨
    ∃ n consumedAt k left, t.rest = .call (.saveAttempt id n consumedAt) k ∧
      k () = .ret (.otpRefused (.otpInvalid left)) := by
  obtain ⟨rest, writes, locks, snapshot⟩ := t
  unfold wrongGuess at h
  split at h
  · rename_i i n c k hrest
    split at h
    · cases h
      exact .inr ⟨n, c, k, _, hrest, ‹_›⟩
    · cases h
  · exact .inl ⟨_, ‹_›, h⟩
  · cases h

/-- **A wrong guess is backed by a place in the row**: its transaction has locked the challenge,
which is live and has an attempt left, and is to count one more. -/
lemma guess_facts (hok : StoreOk (codes cfg) s) (hfirst : AllSaveFirst s)
    (ht : s.live.get? tid = some t) (hg : wrongGuess t = some id) :
    ∃ c, s.committed.challenges.get? id = some c ∧ c.consumedAt = none ∧
      c.attempts + 1 ≤ maxAttempts ∧ .challenge id ∈ t.locks ∧
      ∀ a, t.rest = .ret a → t.writes = [.attempt id (c.attempts + 1) none] := by
  have hsave := hfirst tid t ht
  obtain ⟨rest, writes, locks, snapshot⟩ := t
  rcases wrongGuess_cases hg with ⟨left, hrest, hid⟩ | ⟨n, consumedAt, k, left, hrest, hk⟩ <;>
    cases hrest
  · obtain ⟨i, c, n, rfl, rfl, hget, hlive, -, hmax, hn⟩ := hok.post ht
    obtain rfl : i = id := by simpa [AuthWrite.attempted] using hid
    obtain rfl := hn left rfl
    exact ⟨c, hget, hlive, hmax, by simp, fun _ _ => rfl⟩
  · obtain rfl : writes = [] := hsave.1 trivial
    have hsaved : (accounts cfg).statement (.saveAttempt id n consumedAt) {} [] s.committed
        s.committed = some ((), [.attempt id n consumedAt], [.challenge id]) := rfl
    have hpost := (hok.course tid _ ht).ahead hok.committed trivial hsaved
    rw [hk] at hpost
    obtain ⟨i, c, m, hws, hls, hget, hlive, -, hmax, hm⟩ :=
      hpost s.committed (.refl _ _) hok.committed
    obtain ⟨rfl, rfl, rfl⟩ : id = i ∧ n = m ∧ consumedAt = none := by simpa using hws
    obtain rfl := hm left rfl
    refine ⟨c, hget, hlive, hmax, ?_, fun a ha => by cases ha⟩
    have hls : locks ++ [AuthLock.challenge id] = [.challenge id] ++ [.challenge id] := hls
    obtain rfl : locks = [.challenge id] := List.append_inj_left' hls rfl
    simp

/-- Two transactions never have a wrong guess at one challenge. -/
lemma guess_unique (hok : StoreOk (codes cfg) s) (hfirst : AllSaveFirst s) {tid' : ℕ}
    (h : guessOf s tid = some id) {t' : AccountsTxn} (ht' : s.live.get? tid' = some t')
    (hlock : .challenge id ∈ t'.locks) : tid = tid' := by
  obtain ⟨t, ht, hg⟩ := guessOf_eq_some.mp h
  obtain ⟨-, -, -, -, hl, -⟩ := guess_facts hok hfirst ht hg
  by_contra hne
  exact hok.exclusive tid t tid' t' ht ht' hne _ hl hlock

end Guess

/-! ## The tally of a challenge -/

/-- The wrong guesses at a challenge and its successes, against its row: every wrong guess is
counted there, but for one that is yet to be committed, and a success has consumed it. -/
structure Tally (id : Uuid) (wrong opened : ℕ) (s : AccountsStore) : Prop where
  bounded : (wrong : ℤ) ≤ maxAttempts
  once : opened ≤ 1
  counted : ∀ c, s.committed.challenges.get? id = some c → (wrong : ℤ) ≤ c.attempts ∨
    (wrong : ℤ) ≤ c.attempts + 1 ∧ ∃ tid, guessOf s tid = some id
  consumed : ∀ c, s.committed.challenges.get? id = some c → opened = 1 → c.consumedAt ≠ none

section Tally

variable {cfg : AuthConfig} {s s' : AccountsStore} {tid : ℕ} {t : AccountsTxn} {id : Uuid}
  {wrong opened : ℕ}

/-- Nothing becomes of the challenge, and no wrong guess is forgotten. -/
lemma Tally.frame (h : Tally id wrong opened s)
    (hrow : s'.committed.challenges.get? id = s.committed.challenges.get? id)
    (hguess : ∀ tid, guessOf s tid = some id → guessOf s' tid = some id) :
    Tally id wrong opened s' := by
  refine ⟨h.bounded, h.once, fun c hc => ?_, fun c hc => h.consumed c (hrow ▸ hc)⟩
  exact (h.counted c (hrow ▸ hc)).imp_right fun ⟨hle, i, hi⟩ => ⟨hle, i, hguess i hi⟩

/-- Whoever has locked the challenge, and has no wrong guess at it, finds all of them counted. -/
lemma Tally.settled (h : Tally id wrong opened s) (hok : StoreOk (codes cfg) s)
    (hfirst : AllSaveFirst s) (ht : s.live.get? tid = some t) (hlock : .challenge id ∈ t.locks)
    (hno : guessOf s tid ≠ some id) {c : OtpChallenge}
    (hc : s.committed.challenges.get? id = some c) : (wrong : ℤ) ≤ c.attempts := by
  rcases h.counted c hc with hle | ⟨-, i, hi⟩
  · exact hle
  · exact absurd (guess_unique hok hfirst hi ht hlock ▸ hi) hno

/-- A statement is executed. -/
lemma Tally.perform (h : Tally id wrong opened s) (hok' : StoreOk (codes cfg) s')
    (hfirst : AllSaveFirst s) (hfirst' : AllSaveFirst s') {op : AuthOp}
    {k : op.Res → AuthTxn AuthAnswer} {writes writes' : List AuthWrite}
    {locks locks' : List AuthLock} {snapshot seen current : AuthDb} {ω : AuthOracle} {r : op.Res}
    (ht : s.live.get? tid = some ⟨.call op k, writes, locks, some snapshot⟩)
    (he : execAuth ω seen current op = some (r, writes', locks'))
    (hc : s'.committed = s.committed)
    (hlive : s'.live = s.live.modify tid fun _ =>
      ⟨k r, writes ++ writes', locks ++ locks', none⟩) :
    Tally id (wrong + if guessOf s tid ≠ some id ∧ guessOf s' tid = some id then 1 else 0)
      opened s' := by
  have hother : ∀ i, i ≠ tid → guessOf s' i = guessOf s i := fun i hi => by
    simp [guessOf, hlive, Table.get?_modify, hi]
  have hself : s'.live.get? tid = some ⟨k r, writes ++ writes', locks ++ locks', none⟩ := by
    simp [hlive, Table.get?_modify, ht]
  have hrow : s'.committed.challenges.get? id = s.committed.challenges.get? id := by rw [hc]
  split_ifs with hnew
  · -- The challenge is locked, so every other guess at it is counted by now.
    obtain ⟨t', ht', hg⟩ := guessOf_eq_some.mp hnew.2
    obtain ⟨c, hget, -, hmax, hlock, -⟩ := guess_facts hok' hfirst' ht' hg
    have hle : (wrong : ℤ) ≤ c.attempts := by
      rcases h.counted c (hrow ▸ hget) with hle | ⟨-, i, hi⟩
      · exact hle
      · have hne : i ≠ tid := fun heq => hnew.1 (heq ▸ hi)
        exact absurd (guess_unique hok' hfirst' ((hother i hne).trans hi) ht' hlock) hne
    refine ⟨by omega, h.once, fun c' hc' => ?_, fun c' hc' => h.consumed c' (hrow ▸ hc')⟩
    cases hget.symm.trans hc'
    exact .inr ⟨by omega, tid, hnew.2⟩
  · refine h.frame hrow fun i hi => ?_
    by_cases hne : i = tid
    · subst hne
      by_contra hlost
      -- What has been compared is saved next, and is answered after that.
      obtain ⟨t', ht', hg⟩ := guessOf_eq_some.mp hi
      cases ht.symm.trans ht'
      rcases wrongGuess_cases hg with ⟨left, hrest, -⟩ | ⟨n, consumedAt, k', left, hrest, hk⟩
      · cases hrest
      · cases hrest
        obtain rfl : writes = [] := (hfirst i _ ht).1 trivial
        cases he
        exact hlost (guessOf_eq_some.mpr ⟨_, hself, by simp [wrongGuess, hk, AuthWrite.attempted]⟩)
    · exact (hother i hne).trans hi

/-- A transaction commits that leaves the challenge as it is, or deletes it. -/
lemma Tally.commit_aside (h : Tally id wrong opened s) (hlive : s'.live = s.live.erase tid)
    (hno : guessOf s tid ≠ some id)
    (hrow : ∀ c, s'.committed.challenges.get? id = some c →
      s.committed.challenges.get? id = some c) : Tally id wrong opened s' := by
  refine ⟨h.bounded, h.once, fun c hc => ?_, fun c hc => h.consumed c (hrow c hc)⟩
  refine (h.counted c (hrow c hc)).imp_right fun ⟨hle, i, hi⟩ => ⟨hle, i, ?_⟩
  have hne : i ≠ tid := by
    rintro rfl
    exact hno hi
  simpa [guessOf, hlive, Table.get?_erase, hne] using hi

/-- A refusal commits. -/
lemma Tally.commit_refused (h : Tally id wrong opened s) (hok : StoreOk (codes cfg) s)
    (hfirst : AllSaveFirst s) {e : AuthError} {writes : List AuthWrite}
    {locks : List AuthLock} {snapshot : Option AuthDb}
    (ht : s.live.get? tid = some ⟨.ret (.otpRefused e), writes, locks, snapshot⟩)
    (hview : (accounts cfg).view writes s.committed = some s'.committed)
    (hlive : s'.live = s.live.erase tid) : Tally id wrong opened s' := by
  obtain ⟨i, c, n, rfl, rfl, hget, hfresh, hle, -, hn⟩ := hok.post ht
  have hrow := view_attempt (by simp) hview id
  by_cases hi : id = i
  · subst hi
    rw [if_pos rfl, hget, Option.map_some] at hrow
    have hcount : (wrong : ℤ) ≤ n := by
      by_cases hg : guessOf s tid = some id
      · obtain ⟨t, ht', hg⟩ := guessOf_eq_some.mp hg
        cases ht.symm.trans ht'
        rcases wrongGuess_cases hg with ⟨left, hrest, -⟩ | ⟨_, _, _, _, hrest, -⟩ <;> cases hrest
        have := hn left rfl
        rcases h.counted c hget with hw | ⟨hw, -⟩ <;> omega
      · exact (h.settled hok hfirst ht (by simp) hg hget).trans hle
    refine ⟨h.bounded, h.once, fun c' hc' => ?_, fun c' hc' hopen => ?_⟩
    · cases hrow.symm.trans hc'
      exact .inl hcount
    · exact absurd hfresh (h.consumed c hget hopen)
  · rw [if_neg hi] at hrow
    refine h.commit_aside hlive (fun hg => hi ?_) fun c' hc' => hrow ▸ hc'
    obtain ⟨t, ht', hg⟩ := guessOf_eq_some.mp hg
    cases ht.symm.trans ht'
    rcases wrongGuess_cases hg with ⟨_, -, hid⟩ | ⟨_, _, _, _, hrest, -⟩
    · simpa [AuthWrite.attempted] using hid.symm
    · cases hrest

/-- Writes that leave the codes alone attempt none. -/
lemma findSome_attempted_of_codeless {ws : List AuthWrite} (hws : ∀ w ∈ ws, w.Codeless) :
    ws.findSome? AuthWrite.attempted = none := by
  refine List.findSome?_eq_none_iff.mpr fun w hw => ?_
  cases w with
  | attempt => exact (hws _ hw).elim
  | _ => rfl

/-- A success commits: it finds the challenge in time, live and with an attempt left. -/
lemma Tally.commit_signedIn (h : Tally id wrong opened s) (hok : StoreOk (codes cfg) s)
    (hfirst : AllSaveFirst s) {u : Uuid} {new : Bool} {user : User} {token : RefreshToken}
    {access : String} {writes : List AuthWrite} {locks : List AuthLock} {snapshot : Option AuthDb}
    (ht : s.live.get? tid =
      some ⟨.ret (.signedIn u new user token access), writes, locks, snapshot⟩)
    (hview : (accounts cfg).view writes s.committed = some s'.committed)
    (hlive : s'.live = s.live.erase tid) :
    Tally id wrong (opened + if Opens id (s, .commit tid) then 1 else 0) s' ∧
      (Opens id (s, .commit tid) = true → ∃ c now, openedBy (s, .commit tid) = some (id, some now) ∧
        s.committed.challenges.get? id = some c ∧ c.Accepts now ∧ (wrong : ℤ) < maxAttempts ∧
        opened = 0) := by
  have hopened : openedBy (s, .commit tid) = writes.findSome? AuthWrite.attempted := by
    simp [openedBy, ht]
  have hno : guessOf s tid ≠ some id := by simp [guessOf, ht, wrongGuess]
  rcases hok.post ht with hquiet | ⟨i, c, now, rest, rfl, hrest, hlock, hget, haccepts⟩
  · rw [findSome_attempted_of_codeless hquiet] at hopened
    simp only [Opens, hopened, Option.any_none, Bool.false_eq_true, ↓reduceIte, add_zero,
      false_imp_iff, and_true]
    exact h.commit_aside hlive hno fun c hc => by rwa [view_codeless hquiet hview] at hc
  · have hrow := view_attempt hrest hview id
    have hopened : openedBy (s, .commit tid) = some (i, some now) := hopened.trans rfl
    by_cases hi : i = id
    · subst hi
      rw [if_pos rfl, hget, Option.map_some] at hrow
      have hopen : Opens i (s, .commit tid) = true := by simp [Opens, hopened]
      have hcount := h.settled hok hfirst ht hlock hno hget
      have hzero : opened = 0 := by
        have hne : opened ≠ 1 := fun hone => h.consumed c hget hone haccepts.1
        have := h.once
        omega
      rw [if_pos hopen]
      refine ⟨⟨h.bounded, by omega, fun c' hc' => ?_, fun c' hc' _ => ?_⟩, fun _ =>
        ⟨c, now, hopened, hget, haccepts, hcount.trans_lt haccepts.2.1, hzero⟩⟩ <;>
        cases hrow.symm.trans hc'
      · exact .inl (by dsimp only; omega)
      · simp
    · have hopen : Opens id (s, .commit tid) = false := by simp [Opens, hopened, hi]
      simp only [hopen, Bool.false_eq_true, ↓reduceIte, add_zero, false_imp_iff, and_true]
      rw [if_neg (Ne.symm hi)] at hrow
      exact h.commit_aside hlive hno fun c' hc' => hrow ▸ hc'

/-- What a success in this move is worth. -/
def OpensWell (id : Uuid) (wrong opened : ℕ) (x : AccountsMoment) : Prop :=
  Opens id x = true → ∃ c now, openedBy x = some (id, some now) ∧
    x.1.committed.challenges.get? id = some c ∧ c.Accepts now ∧ (wrong : ℤ) < maxAttempts ∧
    opened = 0

/-- Any transaction commits that does not enter the challenge. -/
lemma Tally.commit (h : Tally id wrong opened s) (hok : StoreOk (codes cfg) s)
    (hfirst : AllSaveFirst s) {a : AuthAnswer} {writes : List AuthWrite}
    {locks : List AuthLock} {snapshot : Option AuthDb}
    (ht : s.live.get? tid = some ⟨.ret a, writes, locks, snapshot⟩) (hcommits : a.commits = true)
    (hview : (accounts cfg).view writes s.committed = some s'.committed)
    (hlive : s'.live = s.live.erase tid) (hissue : Issues id (s, .commit tid) = false) :
    Tally id wrong (opened + if Opens id (s, .commit tid) then 1 else 0) s' ∧
      OpensWell id wrong opened (s, .commit tid) := by
  have hpost := hok.post ht
  have hclosed (hne : ∀ u new user token access, a ≠ .signedIn u new user token access) :
      Opens id (s, .commit tid) = false := by
    cases a with
    | signedIn u new user token access => exact absurd rfl (hne u new user token access)
    | _ => simp [Opens, openedBy, ht]
  have hno (hne : ∀ e, a ≠ .otpRefused e) : guessOf s tid ≠ some id := by
    cases a with
    | otpRefused e => exact absurd rfl (hne e)
    | _ => simp [guessOf, ht, wrongGuess]
  cases a with
  | failed e => cases hcommits
  | signedIn u new user token access => exact h.commit_signedIn hok hfirst ht hview hlive
  | otpRefused e =>
      rw [OpensWell, hclosed (by simp)]
      exact ⟨h.commit_refused hok hfirst ht hview hlive, by simp⟩
  | codeSent =>
      obtain ⟨drops, i, row, rfl, -⟩ := hpost
      rw [OpensWell, hclosed (by simp)]
      refine ⟨h.commit_aside hlive (hno (by simp)) fun c hc => ?_, by simp⟩
      have hissued : issuedBy (s, .commit tid) = some (i, row) := by
        simp only [issuedBy, ht, Option.bind_some, List.findSome?_append]
        rw [List.findSome?_eq_none_iff.mpr (by simp [AuthWrite.issued])]
        rfl
      have hi : id ≠ i := by
        rintro rfl
        simp [Issues, hissued] at hissue
      rw [view_issue hview, if_neg hi] at hc
      split at hc
      · cases hc
      · exact hc
  | refreshed | reuseDetected | loggedOut | updated =>
      rw [OpensWell, hclosed (by simp)]
      refine ⟨h.commit_aside hlive (hno (by simp)) fun c hc => ?_, by simp⟩
      rwa [view_codeless hpost hview] at hc

/-- **One move**, if it loses no wrong guess and does not enter the challenge anew. -/
lemma Tally.step (h : Tally id wrong opened s) (hok : StoreOk (codes cfg) s)
    (hfirst : AllSaveFirst s) (hok' : StoreOk (codes cfg) s') (hfirst' : AllSaveFirst s')
    {m : TxnMove AuthOracle AuthRequest} (hg : NoGuessLost s m)
    (hissue : Issues id (s, m) = false) (hs : (accounts cfg).step s m = some s') :
    Tally id (wrong + if Compares cfg id (s, m) then 1 else 0)
        (opened + if Opens id (s, m) then 1 else 0) s' ∧
      OpensWell id wrong opened (s, m) := by
  rcases step_cases hs with ⟨tid, req, rfl, hc, hlive⟩ | ⟨tid, rfl, hc, hlive⟩ |
    ⟨tid, op, k, writes, locks, snapshot, ω, r, writes', locks', rfl, ht, hexec, -, hc, hlive⟩ |
    ⟨tid, a, writes, locks, snapshot, rfl, ht, hcommits, hview, hlive⟩ | ⟨tid, rfl, hc, hlive⟩
  · refine ⟨h.frame (by rw [hc]) fun i hi => ?_, by simp [OpensWell, Opens, openedBy]⟩
    have hne : i ≠ tid := by
      rintro rfl
      simp [guessOf, (Table.insert_eq_some hlive).1] at hi
    simpa [guessOf, Table.get?_insert hlive, hne] using hi
  · refine ⟨h.frame (by rw [hc]) fun i hi => ?_, by simp [OpensWell, Opens, openedBy]⟩
    obtain ⟨t, ht, hg⟩ := guessOf_eq_some.mp hi
    refine guessOf_eq_some.mpr ?_
    rw [hlive, Table.get?_modify, ht]
    split
    · exact ⟨_, rfl, hg⟩
    · exact ⟨t, rfl, hg⟩
  · obtain ⟨seen, current, -, -, he⟩ := statement_eq_some.mp hexec
    have hcompares : (Compares cfg id (s, .perform tid ω) = true) ↔
        guessOf s tid ≠ some id ∧ guessOf s' tid = some id := by
      simp [Compares, hs]
    have hopens : Opens id (s, .perform tid ω) = false := by simp [Opens, openedBy]
    refine ⟨?_, by simp [OpensWell, hopens]⟩
    simp only [hopens, Bool.false_eq_true, ↓reduceIte, add_zero, hcompares]
    exact h.perform hok' hfirst hfirst' ht he hc hlive
  · simpa [Compares] using h.commit hok hfirst ht hcommits hview hlive hissue
  · refine ⟨h.commit_aside hlive ?_ fun c hc' => hc ▸ hc', by simp [OpensWell, Opens, openedBy]⟩
    rw [show guessOf s tid = none from hg]
    simp

end Tally

/-! ## Along a run -/

section Run

variable {cfg : AuthConfig} {s s' : AccountsStore}

lemma AllSaveFirst.step (h : AllSaveFirst s) {m : TxnMove AuthOracle AuthRequest}
    (hs : (accounts cfg).step s m = some s') : AllSaveFirst s' := by
  intro i t ht
  rcases step_cases hs with ⟨tid, req, rfl, -, hlive⟩ | ⟨tid, rfl, -, hlive⟩ |
    ⟨tid, op, k, writes, locks, snapshot, ω, r, writes', locks', rfl, htxn, hexec, -, -, hlive⟩ |
    ⟨tid, a, writes, locks, snapshot, rfl, -, -, -, hlive⟩ | ⟨tid, rfl, -, hlive⟩
  · rw [Table.get?_insert hlive] at ht
    split at ht
    · cases ht
      exact savesFirst_program cfg req
    · exact h i t ht
  · rw [hlive, Table.get?_modify] at ht
    split at ht
    · obtain ⟨t', ht', rfl⟩ := Option.map_eq_some_iff.mp ht
      exact h i t' ht'
    · exact h i t ht
  · rw [hlive, Table.get?_modify] at ht
    split at ht
    · rename_i hi
      rw [hi, htxn] at ht
      cases ht
      obtain ⟨seen, current, -, -, he⟩ := statement_eq_some.mp hexec
      exact (h tid _ htxn).2 r writes' (writes_of_exec he)
    · exact h i t ht
  all_goals
    rw [hlive, Table.get?_erase] at ht
    split at ht
    · cases ht
    · exact h i t ht

lemma allSaveFirst_of_reachable {G : AccountsStore → TxnMove AuthOracle AuthRequest → Prop}
    (h : (accounts cfg).Reachable G (.quiet .empty) s) : AllSaveFirst s := by
  induction h with
  | init => exact fun tid t ht => by cases ht
  | step _ _ hs ih => exact ih.step hs

lemma codesOk_of_reachable {G : AccountsStore → TxnMove AuthOracle AuthRequest → Prop}
    (h : (accounts cfg).Reachable G (.quiet .empty) s) : StoreOk (codes cfg) s :=
  (StoreOk.quiet fun id c hc => by cases hc).reachable
    (h.mono fun s m _ => onStatements_anyStatement s m)

/-- The tally along a run that does not enter the challenge anew. -/
lemma tally_of_path {s₁ : AccountsStore} {h : List AccountsMoment} {id : Uuid}
    (hreach : (accounts cfg).Reachable NoGuessLost (.quiet .empty) s₁)
    (hpath : (accounts cfg).Path NoGuessLost s₁ h s)
    (hone : ∀ x ∈ h, Issues id x = false) :
    Tally id (h.countP (Compares cfg id)) (h.countP (Opens id)) s ∧
      ∀ h₁ x h₂, h = h₁ ++ x :: h₂ →
        OpensWell id (h₁.countP (Compares cfg id)) (h₁.countP (Opens id)) x := by
  induction hpath with
  | init =>
      refine ⟨⟨by simp [maxAttempts], by simp, fun c hc => .inl ?_, by simp⟩, by simp⟩
      simpa using ((codesOk_of_reachable hreach).committed id c hc).1
  | @step h s s' m hp hg hs ih =>
      obtain ⟨htally, hwell⟩ := ih fun x hx => hone x (List.mem_append_left _ hx)
      have hr := hreach.trans hp.reachable
      have hr' := hr.step hg hs
      have hstep := htally.step (codesOk_of_reachable hr) (allSaveFirst_of_reachable hr)
        (codesOk_of_reachable hr') (allSaveFirst_of_reachable hr') hg
        (hone _ (by simp)) hs
      refine ⟨by simpa [List.countP_append, List.countP_singleton] using hstep.1, ?_⟩
      intro h₁ x h₂ heq
      rcases List.eq_nil_or_concat h₂ with rfl | ⟨h₂, y, rfl⟩
      · obtain ⟨rfl, hx⟩ := List.append_inj' heq rfl
        cases hx
        exact hstep.2
      · have heq' : h ++ [(s, m)] = (h₁ ++ x :: h₂) ++ [y] := by simpa using heq
        exact hwell h₁ x h₂ (List.append_inj' heq' rfl).1

end Run

/-- **The guesses at a code are bounded**, in the runs that lose no wrong guess: from one entry of
a challenge to the next, at most `maxAttempts` wrong codes are compared with it, at most one
request succeeds with it, and whichever does finds it unconsumed, not exhausted and, by the time it
read when it came in, not expired. -/
theorem otp_guessing_bounded (cfg : AuthConfig) {h h₁ h₂ : List AccountsMoment}
    {s : AccountsStore} (hrun : (accounts cfg).Path NoGuessLost (.quiet .empty) h s)
    (hsplit : h = h₁ ++ h₂) (id : Uuid) (hone : ∀ x ∈ h₂, Issues id x = false) :
    (h₂.countP (Compares cfg id) : ℤ) ≤ maxAttempts ∧ h₂.countP (Opens id) ≤ 1 ∧
      ∀ h₃ x h₄, h₂ = h₃ ++ x :: h₄ → Opens id x = true →
        ∃ c now, openedBy x = some (id, some now) ∧
          x.1.committed.challenges.get? id = some c ∧ c.Accepts now ∧
          (h₃.countP (Compares cfg id) : ℤ) < maxAttempts ∧ h₃.countP (Opens id) = 0 := by
  subst hsplit
  obtain ⟨s₁, hp₁, hp₂⟩ := hrun.split
  obtain ⟨htally, hwell⟩ := tally_of_path hp₁.reachable hp₂ hone
  exact ⟨htally.bounded, htally.once, fun h₃ x h₄ heq hx => hwell h₃ x h₄ heq hx⟩

/-! ## Guesses that are lost -/

/-- The hash that is stored for the code 123456. -/
def adasHash : String := "$argon2id$v=19$m=19456,t=2,p=1$c2FsdHNhbHQ$1n2Yk0bQ"

/-- A deployment that sends codes.  `verifyCode` is Argon2 on the one hash its runs use. -/
def otpAuth : AuthConfig :=
  { webAuth with verifyCode := fun hash code =>
      if hash = adasHash then some (code = "123456") else none }

def adasEmail : String := "ada@example.com"

/-- A code is sent to her at time 100, as challenge 1. -/
def adaAsks (tid : ℕ) : List (TxnMove AuthOracle AuthRequest) :=
  TxnMove.served tid (.requestOtp adasEmail)
    [{ now := 100 }, { now := 100 }, { text := some "123456" }, { text := some adasHash },
      { now := 100 }, { uuid := 1 }, { now := 100 }]

/-- A wrong code is compared, and the connection goes away before the attempt is saved. -/
def guessAndHangUp (tid : ℕ) : List (TxnMove AuthOracle AuthRequest) :=
  TxnMove.begun tid (.verifyOtp adasEmail "000000") [{ now := 200 }, { now := 200 }] ++
    [.rollback tid]

/-- A wrong code is compared, and refused. -/
def guessAndWait (tid : ℕ) : List (TxnMove AuthOracle AuthRequest) :=
  TxnMove.served tid (.verifyOtp adasEmail "000000")
    [{ now := 200 }, { now := 200 }, { now := 200 }]

/-- **Six wrong codes are compared with one challenge**, by requests that are lost before they
save the attempt. -/
theorem guesses_lost : ∃ h₁ h₂ s, (accounts otpAuth).Path unguarded (.quiet .empty) (h₁ ++ h₂) s ∧
    (∀ x ∈ h₂, Issues 1 x = false) ∧ maxAttempts < (h₂.countP (Compares otpAuth 1) : ℤ) := by
  obtain ⟨h, s, hp, hone, hcount⟩ := exists_path_of_record (accounts otpAuth) unguarded
    (.quiet .empty) (adaAsks 0 ++ (List.range 6).flatMap fun i => guessAndHangUp (i + 1))
    (fun h _ => (h.drop (adaAsks 0).length).all (fun x => Issues 1 x = false) = true ∧
      maxAttempts < ((h.drop (adaAsks 0).length).countP (Compares otpAuth 1) : ℤ))
    (by decide +kernel)
  refine ⟨h.take (adaAsks 0).length, h.drop (adaAsks 0).length, s, ?_, fun x hx => ?_, hcount⟩
  · rwa [List.take_append_drop]
  · exact of_decide_eq_true (List.all_eq_true.mp hone x hx)

/-- Five wrong codes are compared and refused, and then no more. -/
theorem otp_guessing_bounded_refused : ∃ h₁ h₂ s,
    (accounts otpAuth).Path NoGuessLost (.quiet .empty) (h₁ ++ h₂) s ∧
    s.answer 6 = some (.otpRefused .otpExpired) ∧
    (h₂.countP (Compares otpAuth 1) : ℤ) = maxAttempts ∧
    (h₂.countP (Compares otpAuth 1) : ℤ) ≤ maxAttempts := by
  obtain ⟨h, s, hp, hone, hans, hcount⟩ := exists_path_of_record (accounts otpAuth) NoGuessLost
    (.quiet .empty) (adaAsks 0 ++ (List.range 5).flatMap (fun i => guessAndWait (i + 1)) ++
      TxnMove.begun 6 (.verifyOtp adasEmail "123456")
        [{ now := 300 }, { now := 300 }, { now := 300 }])
    (fun h s => (h.drop (adaAsks 0).length).all (fun x => Issues 1 x = false) = true ∧
      s.answer 6 = some (.otpRefused .otpExpired) ∧
      ((h.drop (adaAsks 0).length).countP (Compares otpAuth 1) : ℤ) = maxAttempts)
    (by decide +kernel)
  rw [← List.take_append_drop (adaAsks 0).length h] at hp
  exact ⟨_, _, s, hp, hans, hcount, (otp_guessing_bounded otpAuth hp rfl 1 fun x hx =>
    of_decide_eq_true (List.all_eq_true.mp hone x hx)).1⟩

end Naivolt
