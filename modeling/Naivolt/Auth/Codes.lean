import Naivolt.Auth.Exchanges
import Naivolt.Foundation.Histories

/-!
# One-time codes under concurrency

What the transactions of the accounts service do to `otp_challenges`.  A verification reads the
live challenge under the lock of its row and writes the attempt back before it goes on, so what it
writes is the successor of what it read (`codeDiscipline`).  A request for a code takes the lock
of every row it deletes and of the row it enters.
-/

namespace Naivolt

open Foundation Database

/-! ## Writes to the codes -/

/-- A write that leaves the codes alone. -/
def AuthWrite.Codeless : AuthWrite → Prop
  | .challenge .. | .dropChallenge _ | .attempt .. => False
  | _ => True

/-- The statements that leave the codes alone. -/
def AuthOp.Codeless : AuthOp → Prop
  | .dropChallenges _ | .insertChallenge _ | .saveAttempt .. => False
  | _ => True

lemma codeless_writes {op : AuthOp} {ω : AuthOracle} {seen current : AuthDb} {r : op.Res}
    {ws : List AuthWrite} {ls : List AuthLock} (hop : op.Codeless)
    (h : execAuth ω seen current op = some (r, ws, ls)) : ∀ w ∈ ws, w.Codeless := by
  intro w hw
  cases writes_of_exec h w hw with
  | dropChallenges | insertChallenge | saveAttempt => exact hop.elim
  | _ => trivial

lemma challenges_of_codeless {db db' : AuthDb} {w : AuthWrite} (hw : w.Codeless)
    (h : AuthWrite.apply db w = some db') : db'.challenges = db.challenges := by
  cases w with
  | challenge id row | dropChallenge id | attempt id n c => exact hw.elim
  | user id row | identity id row | session id row =>
      obtain ⟨t, -, rfl⟩ := Option.map_eq_some_iff.mp h
      rfl
  | editUser id patch | wallet userId address | rotated id now | revoked id now =>
      cases h
      rfl

section View

variable {cfg : AuthConfig} {ws : List AuthWrite} {db db' : AuthDb}

lemma view_codeless (hws : ∀ w ∈ ws, w.Codeless) (h : (accounts cfg).view ws db = some db') :
    db'.challenges = db.challenges := by
  induction ws generalizing db with
  | nil =>
      cases h
      rfl
  | cons w ws ih =>
      obtain ⟨db₁, h₁, h₂⟩ := Option.bind_eq_some_iff.mp (view_cons ▸ h)
      rw [ih (fun w' hw' => hws w' (List.mem_cons_of_mem _ hw')) h₂,
        challenges_of_codeless (hws w List.mem_cons_self) h₁]

/-- What an attempt makes of the codes. -/
lemma view_attempt {id : Uuid} {n : ℤ} {consumedAt : Option Time}
    (hws : ∀ w ∈ ws, w.Codeless)
    (h : (accounts cfg).view (.attempt id n consumedAt :: ws) db = some db') (i : Uuid) :
    db'.challenges.get? i = if i = id then
      (db.challenges.get? i).map fun c => { c with attempts := n, consumedAt := consumedAt }
      else db.challenges.get? i := by
  obtain ⟨db₁, h₁, h₂⟩ := Option.bind_eq_some_iff.mp (view_cons ▸ h)
  cases h₁
  rw [view_codeless hws h₂, Table.get?_modify]

/-- What a new code makes of the codes. -/
lemma view_issue {drops : List Uuid} {id : Uuid} {row : OtpChallenge}
    (h : (accounts cfg).view (drops.map .dropChallenge ++ [.challenge id row]) db = some db')
    (i : Uuid) :
    db'.challenges.get? i = if i = id then some row
      else if i ∈ drops then none else db.challenges.get? i := by
  induction drops generalizing db with
  | nil =>
      obtain ⟨db₁, h₁, h₂⟩ := Option.bind_eq_some_iff.mp (view_cons ▸ h)
      cases h₂
      obtain ⟨t, ht, rfl⟩ := Option.map_eq_some_iff.mp h₁
      simp [Table.get?_insert ht]
  | cons j drops ih =>
      obtain ⟨db₁, h₁, h₂⟩ := Option.bind_eq_some_iff.mp (view_cons ▸ h)
      cases h₁
      rw [ih h₂, Table.get?_erase]
      by_cases hij : i = j <;> simp [hij]

/-- A new code is entered under an identifier that is free by then. -/
lemma view_issue_free {drops : List Uuid} {id : Uuid} {row : OtpChallenge}
    (h : (accounts cfg).view (drops.map .dropChallenge ++ [.challenge id row]) db = some db') :
    id ∈ drops ∨ db.challenges.get? id = none := by
  induction drops generalizing db with
  | nil =>
      obtain ⟨db₁, h₁, -⟩ := Option.bind_eq_some_iff.mp (view_cons ▸ h)
      obtain ⟨t, ht, -⟩ := Option.map_eq_some_iff.mp h₁
      exact .inr (Table.insert_eq_some ht).1
  | cons j drops ih =>
      obtain ⟨db₁, h₁, h₂⟩ := Option.bind_eq_some_iff.mp (view_cons ▸ h)
      cases h₁
      rcases ih h₂ with hmem | hfree
      · exact .inl (List.mem_cons_of_mem _ hmem)
      · rw [Table.get?_erase] at hfree
        split at hfree
        · rename_i hid
          exact .inl (by simp [hid])
        · exact .inr hfree

end View

/-! ## The discipline -/

/-- No code was tried more often than it may be. -/
def CodesOk (db : AuthDb) : Prop :=
  ∀ id c, db.challenges.get? id = some c → 0 ≤ c.attempts ∧ c.attempts ≤ maxAttempts

/-- What a transaction may rely on: what it has locked stays. -/
def CodesLater (locks : List AuthLock) (db db' : AuthDb) : Prop :=
  ∀ id, .challenge id ∈ locks → db'.challenges.get? id = db.challenges.get? id

lemma CodesLater.refl (locks : List AuthLock) (db : AuthDb) : CodesLater locks db db :=
  fun _ _ => rfl

lemma CodesLater.trans {locks : List AuthLock} {db₁ db₂ db₃ : AuthDb}
    (h : CodesLater locks db₁ db₂) (h' : CodesLater locks db₂ db₃) : CodesLater locks db₁ db₃ :=
  fun id hid => (h' id hid).trans (h id hid)

/-- The challenge accepts a code at this time. -/
def OtpChallenge.Accepts (c : OtpChallenge) (now : Time) : Prop :=
  c.consumedAt = none ∧ c.attempts < maxAttempts ∧ now ≤ c.expiresAt

/-- What a transaction has done to the codes by the time it answers. -/
def Judged (a : AuthAnswer) (writes : List AuthWrite) (locks : List AuthLock) (db : AuthDb) :
    Prop :=
  match a with
  | .codeSent => ∃ (drops : List Uuid) (id : Uuid) (row : OtpChallenge),
      writes = drops.map .dropChallenge ++ [.challenge id row] ∧
      row.attempts = 0 ∧ .challenge id ∈ locks ∧ ∀ i ∈ drops, .challenge i ∈ locks ∧
        ∃ c, db.challenges.get? i = some c ∧ c.destination = row.destination
  | .otpRefused e => ∃ id c n, writes = [.attempt id n none] ∧
      locks = [.challenge id, .challenge id] ∧ db.challenges.get? id = some c ∧
      c.consumedAt = none ∧ c.attempts ≤ n ∧ n ≤ maxAttempts ∧
      ∀ left, e = .otpInvalid left → n = c.attempts + 1
  | .signedIn .. => (∀ w ∈ writes, w.Codeless) ∨ ∃ id c now rest,
      writes = .attempt id (c.attempts + 1) (some now) :: rest ∧ (∀ w ∈ rest, w.Codeless) ∧
      .challenge id ∈ locks ∧ db.challenges.get? id = some c ∧ c.Accepts now
  | .failed _ => True
  | _ => ∀ w ∈ writes, w.Codeless

section Commit

variable {cfg : AuthConfig} {a : AuthAnswer} {writes : List AuthWrite} {locks : List AuthLock}
  {db db' : AuthDb}

/-- A commit changes no code that its transaction has not locked. -/
lemma Judged.kept (hpost : Judged a writes locks db) (hc : a.commits = true)
    (hview : (accounts cfg).view writes db = some db') {i : Uuid}
    (hi : .challenge i ∉ locks) : db'.challenges.get? i = db.challenges.get? i := by
  cases a with
  | failed e => cases hc
  | codeSent =>
      obtain ⟨drops, id, row, rfl, -, hid, hdrops⟩ := hpost
      rw [view_issue hview, if_neg (by rintro rfl; exact hi hid), if_neg fun h => hi (hdrops i h).1]
  | otpRefused e =>
      obtain ⟨id, c, n, rfl, rfl, -⟩ := hpost
      rw [view_attempt (by simp) hview, if_neg (fun h => hi (by simp [h]))]
  | signedIn u new user token access =>
      rcases hpost with hquiet | ⟨id, c, now, rest, rfl, hrest, hid, -⟩
      · rw [view_codeless hquiet hview]
      · rw [view_attempt hrest hview, if_neg (by rintro rfl; exact hi hid)]
  | refreshed | reuseDetected | loggedOut | updated => rw [view_codeless hpost hview]

lemma Judged.ok (hpost : Judged a writes locks db) (hc : a.commits = true) (hok : CodesOk db)
    (hview : (accounts cfg).view writes db = some db') : CodesOk db' := by
  have hquiet : (∀ w ∈ writes, w.Codeless) → CodesOk db' := fun h id c hget =>
    hok id c (view_codeless h hview ▸ hget)
  intro i c' hc'
  cases a with
  | failed e => cases hc
  | codeSent =>
      obtain ⟨drops, id, row, rfl, hrow, -⟩ := hpost
      rw [view_issue hview] at hc'
      split at hc'
      · cases hc'
        simp [hrow, maxAttempts]
      · split at hc'
        · cases hc'
        · exact hok i c' hc'
  | otpRefused e =>
      obtain ⟨id, c, n, rfl, rfl, hget, -, hle, hmax, -⟩ := hpost
      rw [view_attempt (by simp) hview] at hc'
      split at hc'
      · rename_i heq
        rw [heq, hget] at hc'
        cases hc'
        exact ⟨(hok id c hget).1.trans hle, hmax⟩
      · exact hok i c' hc'
  | signedIn u new user token access =>
      rcases hpost with h | ⟨id, c, now, rest, rfl, hrest, -, hget, -, hlt, -⟩
      · exact hquiet h i c' hc'
      · rw [view_attempt hrest hview] at hc'
        split at hc'
        · rename_i heq
          rw [heq, hget] at hc'
          cases hc'
          have := (hok id c hget).1
          exact ⟨by dsimp only; omega, by dsimp only; omega⟩
        · exact hok i c' hc'
  | refreshed | reuseDetected | loggedOut | updated => exact hquiet hpost i c' hc'

end Commit

/-! ## The transactions -/

section Wp

variable {cfg : AuthConfig} {Q : AuthOp → AuthOracle → List AuthWrite → AuthDb → AuthDb → Prop}
  {β : Type} {Post : β → List AuthWrite → List AuthLock → AuthDb → Prop}
  {writes : List AuthWrite} {locks : List AuthLock} {db : AuthDb}

/-- The weakest precondition of statements under the discipline of the codes. -/
abbrev CodeWp (cfg : AuthConfig)
    (Q : AuthOp → AuthOracle → List AuthWrite → AuthDb → AuthDb → Prop) :
    (β → List AuthWrite → List AuthLock → AuthDb → Prop) → AuthTxn β → List AuthWrite →
      List AuthLock → AuthDb → Prop :=
  Wp (accounts cfg) Q CodesOk CodesLater

/-- The rule for one statement. -/
lemma code_call {op : AuthOp} {k : op.Res → AuthTxn β}
    (h : ∀ ω seen current r ws ls db', CodesLater locks db db' → CodesOk db' →
      (accounts cfg).view writes db' = some current →
      execAuth ω seen current op = some (r, ws, ls) →
      CodeWp cfg Q Post (k r) (writes ++ ws) (locks ++ ls) db') :
    CodeWp cfg Q Post (.call op k) writes locks db := by
  intro d₁ d₂ hR₁ hI₁ hR₂ hI₂ ω r ws ls _ he
  obtain ⟨seen, current, -, hcur, he⟩ := statement_eq_some.mp he
  exact h ω seen current r ws ls d₂ (hR₁.trans hR₂) hI₂ hcur he

/-- The rule for a result. -/
lemma code_ret {b : β} (h : ∀ db', CodesLater locks db db' → Post b writes locks db') :
    CodeWp cfg Q Post (.ret b) writes locks db := fun db' hR _ => h db' hR

/-- The rule for statements that leave the codes alone, after what was written to them. -/
lemma code_within {A : β → Prop} {p : AuthTxn β} (first rest : List AuthWrite)
    (hp : p.Within AuthOp.Codeless A) (hrest : ∀ w ∈ rest, w.Codeless) :
    CodeWp cfg Q (fun b ws ls db' => A b ∧ (∃ rest, ws = first ++ rest ∧ ∀ w ∈ rest, w.Codeless) ∧
      (∀ l ∈ locks, l ∈ ls) ∧ CodesLater locks db db') p (first ++ rest) locks db := by
  induction p generalizing rest locks db with
  | ret b => exact code_ret fun db' hR => ⟨hp, ⟨rest, rfl, hrest⟩, fun _ hl => hl, hR⟩
  | call op k ih =>
      refine code_call fun ω seen current r ws ls db' hR _ _ he => ?_
      rw [List.append_assoc]
      refine (ih r _ (hp.2 r) (fun w hw => (List.mem_append.mp hw).elim (hrest w)
        (codeless_writes hp.1 he w))).mono fun b ws' ls' db'' _ ⟨hb, hws, hls, hR'⟩ => ?_
      exact ⟨hb, hws, fun l hl => hls l (List.mem_append_left _ hl), hR.trans fun id hid =>
        hR' id (List.mem_append_left _ hid)⟩

end Wp

/-! ### Programs that leave the codes alone -/

lemma codeless_issueRefreshToken (cfg : AuthConfig) (familyId : Option Uuid) (now : Time) :
    (issueRefreshToken cfg familyId now).Within AuthOp.Codeless anyResult := by
  simp only [issueRefreshToken, sql, Prog.perform_bind]
  refine ⟨trivial, fun secret => ?_⟩
  cases familyId with
  | none => exact ⟨trivial, fun _ => trivial⟩
  | some f => trivial

lemma codeless_startSession (cfg : AuthConfig) (userId : Uuid) (tier : ℕ) (now : Time) :
    (startSession cfg userId tier now).Within AuthOp.Codeless anyResult := by
  refine (codeless_issueRefreshToken cfg none now).bind fun token _ => ⟨trivial, fun ok => ?_⟩
  cases ok with
  | false => trivial
  | true => exact ⟨trivial, fun access => by cases access <;> trivial⟩

/-- How a sign-in may end. -/
def AuthAnswer.EndsSignIn : AuthAnswer → Prop
  | .signedIn .. | .failed _ => True
  | _ => False

lemma codeless_openSession (cfg : AuthConfig) (userId : Uuid) (new : Bool) (now : Time) :
    (openSession cfg userId new now).Within AuthOp.Codeless AuthAnswer.EndsSignIn := by
  simp only [openSession, sql, Prog.perform_bind]
  refine ⟨trivial, fun user => ?_⟩
  cases user with
  | none => trivial
  | some user =>
      refine (codeless_startSession cfg userId user.kycTier now).bind fun r _ => ?_
      rcases r with _ | ⟨access, token⟩ <;> trivial

lemma AuthOp.Resolving.codeless {op : AuthOp} (h : op.Resolving) : op.Codeless := by
  cases op with
  | dropChallenges | insertChallenge | saveAttempt => exact h.elim
  | _ => trivial

lemma codeless_signIn (cfg : AuthConfig) (claim : IdentityClaim) (now : Time) :
    (signIn cfg claim now).Within AuthOp.Codeless AuthAnswer.EndsSignIn := by
  refine ((within_lookupMatches claim).mono (fun _ h => h.codeless) fun _ h => h).bind
    fun found _ => ?_
  rcases resolve claim found with userId | userId | _ | ⟨a, b⟩
  · exact codeless_openSession cfg userId false now
  · exact ⟨trivial, fun _ => codeless_openSession cfg userId false now⟩
  · refine ((within_createUser claim).mono (fun _ h => h.codeless) fun _ h => h).bind fun r _ => ?_
    cases r with
    | none => trivial
    | some userId => exact codeless_openSession cfg userId true now
  · trivial

lemma codeless_googleSignIn (cfg : AuthConfig) (verified : Option OidcClaims) :
    (googleSignIn cfg verified).Within AuthOp.Codeless AuthAnswer.EndsSignIn := by
  unfold googleSignIn
  split
  · trivial
  · split
    · trivial
    · split
      · exact ⟨trivial, fun now => codeless_signIn cfg _ now⟩
      · trivial

/-- An answer of a request that has nothing to do with codes. -/
def AuthAnswer.Unrelated : AuthAnswer → Prop
  | .refreshed .. | .reuseDetected _ | .loggedOut _ | .updated | .failed _ => True
  | _ => False

lemma codeless_refresh (cfg : AuthConfig) (presented : Option String) :
    (Naivolt.refresh cfg presented).Within AuthOp.Codeless AuthAnswer.Unrelated := by
  simp only [Naivolt.refresh, sql, Prog.perform_bind]
  refine ⟨trivial, fun now => ?_⟩
  cases presented with
  | none => trivial
  | some secret =>
      refine ⟨trivial, fun row => ?_⟩
      rcases row with _ | ⟨id, stored⟩
      · trivial
      · rcases hverdict : evaluateRefresh stored now with ⟨userId, familyId⟩ | familyId | _ <;>
          simp only [hverdict]
        · simp only [rotate, sql, Prog.perform_bind]
          refine ⟨trivial, fun _ => ⟨trivial, fun tier => ?_⟩⟩
          cases tier with
          | none => trivial
          | some tier =>
              refine (codeless_issueRefreshToken cfg (some familyId) now).bind fun next _ => ?_
              refine ⟨trivial, fun ok => ?_⟩
              cases ok with
              | false => trivial
              | true => exact ⟨trivial, fun access => by cases access <;> trivial⟩
        · exact ⟨trivial, fun _ => trivial⟩
        · trivial

lemma codeless_logout (cfg : AuthConfig) (presented : Option String) :
    (Naivolt.logout cfg presented).Within AuthOp.Codeless AuthAnswer.Unrelated := by
  cases presented with
  | none => trivial
  | some secret => exact ⟨trivial, fun _ => ⟨trivial, fun _ => trivial⟩⟩

lemma codeless_updateMe (cfg : AuthConfig) (userId : Uuid) (body : UpdateMeBody) :
    (Naivolt.updateMe cfg userId body).Within AuthOp.Codeless AuthAnswer.Unrelated := by
  simp only [Naivolt.updateMe, sql, Prog.perform_bind]
  refine ⟨trivial, fun now => ?_⟩
  beta_reduce
  split
  · trivial
  · exact ⟨trivial, fun ok => by cases ok <;> trivial⟩

/-! ### Verifying a code -/

section Requests

variable {cfg : AuthConfig} {Q : AuthOp → AuthOracle → List AuthWrite → AuthDb → AuthDb → Prop}
  {db : AuthDb}

/-- A program that leaves the codes alone. -/
lemma code_unrelated {p : AuthTxn AuthAnswer} {A : AuthAnswer → Prop}
    (hp : p.Within AuthOp.Codeless A) (hA : ∀ a ws ls d, A a → (∀ w ∈ ws, w.Codeless) →
      Judged a ws ls d) : CodeWp cfg Q Judged p [] [] db :=
  (code_within [] [] hp (by simp)).mono
    fun a ws ls d _ ⟨ha, ⟨rest, hws, hrest⟩, _⟩ => hA a ws ls d ha (by simpa [hws] using hrest)

lemma AuthAnswer.Unrelated.judged {a : AuthAnswer} {ws : List AuthWrite} {ls : List AuthLock}
    {d : AuthDb} (ha : a.Unrelated) (hws : ∀ w ∈ ws, w.Codeless) : Judged a ws ls d := by
  cases a with
  | failed e => trivial
  | refreshed | reuseDetected | loggedOut | updated => exact hws
  | codeSent | otpRefused | signedIn => exact ha.elim

lemma AuthAnswer.EndsSignIn.judged {a : AuthAnswer} {ws : List AuthWrite} {ls : List AuthLock}
    {d : AuthDb} (ha : a.EndsSignIn) (hws : ∀ w ∈ ws, w.Codeless) : Judged a ws ls d := by
  cases a with
  | failed e => trivial
  | signedIn => exact .inl hws
  | refreshed | reuseDetected | loggedOut | updated | codeSent | otpRefused => exact ha.elim

/-- How a code is judged, and what the challenge is left as. -/
lemma OtpChallenge.verify_cases (verifyCode : String → String → Option Bool) (c : OtpChallenge)
    (code : String) (now : Time) :
    (c.Accepts now ∧ c.verify verifyCode code now =
      (.ok (), { c with attempts := c.attempts + 1, consumedAt := some now })) ∨
    (c.consumedAt = none ∧ c.attempts < maxAttempts ∧ ∃ e, c.verify verifyCode code now =
      (.error e, { c with attempts := c.attempts + 1 })) ∨
    ∃ e, (∀ left, e.toError ≠ .otpInvalid left) ∧ c.verify verifyCode code now = (.error e, c) := by
  unfold OtpChallenge.verify
  split
  · exact .inr (.inr ⟨_, by simp [OtpError.toError], rfl⟩)
  · rename_i hused
    split
    · exact .inr (.inr ⟨_, by simp [OtpError.toError], rfl⟩)
    · rename_i hexpired
      split
      · exact .inr (.inr ⟨_, by simp [OtpError.toError], rfl⟩)
      · rename_i hleft
        have hfresh : c.consumedAt = none := by simpa using hused
        rcases verifyCode c.codeHash code with _ | _ | _
        · exact .inr (.inl ⟨hfresh, not_le.mp hleft, _, rfl⟩)
        · exact .inr (.inl ⟨hfresh, not_le.mp hleft, _, rfl⟩)
        · exact .inl ⟨⟨hfresh, not_le.mp hleft, not_lt.mp hexpired⟩, rfl⟩

/-- What the lookup of a live challenge finds, it has locked. -/
lemma exec_selectChallenge {ω : AuthOracle} {seen current : AuthDb} {d : String} {id : Uuid}
    {c : OtpChallenge} {ws : List AuthWrite} {ls : List AuthLock}
    (h : execAuth ω seen current (.selectChallenge d) = some (some (id, c), ws, ls)) :
    ws = [] ∧ ls = [.challenge id] ∧ current.challenges.get? id = some c ∧
      c.destination = d ∧ c.consumedAt = none := by
  simp only [execAuth] at h
  split at h
  · cases h
  · split at h
    · rename_i i _ hlive
      obtain ⟨hrow, hrest⟩ := Prod.mk.inj (Option.some.inj h)
      cases hrest
      obtain ⟨c', hc', heq⟩ := Option.map_eq_some_iff.mp hrow
      cases heq
      obtain ⟨⟨j, c'⟩, hmem, rfl⟩ := List.mem_map.mp hlive
      obtain ⟨hmem, hcond⟩ := List.mem_filter.mp hmem
      cases hc'.symm.trans (Table.get?_eq_some_iff.mpr hmem)
      have hcond := of_decide_eq_true hcond
      exact ⟨rfl, rfl, hc', hcond.1, hcond.2⟩
    · cases h

lemma judged_verifyOtp {input code : String} :
    CodeWp cfg Q Judged (Naivolt.verifyOtp cfg input code) [] [] db := by
  unfold Naivolt.verifyOtp
  split
  · exact code_ret fun _ _ => trivial
  · rename_i identifier hinput
    refine code_call fun _ _ _ now ws ls db₁ _ _ _ he => ?_
    obtain ⟨rfl, rfl⟩ := silent_clock _ _ _ _ _ _ he
    refine code_call fun ω seen current row ws ls db₂ _ hI₂ hcur he => ?_
    cases hcur
    rcases row with _ | ⟨id, challenge⟩
    · exact code_ret fun _ _ => trivial
    -- The row is read under its lock, and is the same when the attempt is written.
    obtain ⟨rfl, rfl, hget, -, hlive⟩ := exec_selectChallenge he
    have hverify := challenge.verify_cases cfg.verifyCode code now
    dsimp only
    refine code_call fun ω₃ seen₃ current₃ _ ws ls db₃ hR₃ hI₃ _ he => ?_
    cases he
    have hget₃ : db₃.challenges.get? id = some challenge := (hR₃ id (by simp)).trans hget
    rcases hverify with ⟨haccepts, hv⟩ | ⟨-, hlt, e, hv⟩ | ⟨e, hne, hv⟩ <;> simp only [hv]
    · refine Wp.mono ?_ (code_within [_] []
        (codeless_signIn cfg (.fromVerifiedOtp identifier) now) (by simp))
      rintro a ws ls d - ⟨ha, ⟨rest, rfl, hrest⟩, hls, hR⟩
      cases a with
      | failed e => trivial
      | signedIn u new user token access =>
          exact .inr ⟨id, challenge, now, rest, rfl, hrest, hls _ (by simp),
            (hR id (by simp)).trans hget₃, haccepts⟩
      | refreshed | reuseDetected | loggedOut | updated | codeSent | otpRefused => exact ha.elim
    · refine code_ret fun d hR => ⟨id, challenge, challenge.attempts + 1, by simp [hlive],
        by simp, (hR id (by simp)).trans hget₃, hlive, by omega, by omega, fun _ _ => rfl⟩
    · have hmax := (hI₃ id _ hget₃).2
      refine code_ret fun d hR => ⟨id, challenge, challenge.attempts, by simp [hlive],
        by simp, (hR id (by simp)).trans hget₃, hlive, le_rfl, hmax, fun m h => ?_⟩
      exact absurd h (hne m)

/-! ### Sending a code -/

/-- A request for a code, once the cooldown is over. -/
def issueCode (cfg : AuthConfig) (identifier : Identifier) (now : Time) : AuthTxn AuthAnswer := do
  let code ← match cfg.devOtpCode with
    | some fixed => pure fixed
    | none => sql .randomCode
  match ← sql (.hashCode code) with
  | none => pure (.failed .internal)
  | some codeHash => do
    let challenge := OtpChallenge.new identifier codeHash now
    sql (.dropChallenges identifier.subject)
    if ← sql (.insertChallenge challenge) then
      if ← sql (.sendCode challenge.destination challenge.channel code) then pure .codeSent
      else pure (.failed .internal)
    else pure (.failed .internal)

/-- `request_otp` is its cooldown, and then the sending of the code. -/
lemma requestOtp_eq (cfg : AuthConfig) (input : String) : Naivolt.requestOtp cfg input =
    match parseIdentifier input with
    | .error e => pure (.failed e.toError)
    | .ok identifier => .call .clock fun now => .call (.lastSent identifier.subject) fun existing =>
        match (existing.map fun (lastSentAt : Time) =>
          ((now : ℤ) - (lastSentAt : ℤ)).tdiv (seconds 1 : ℕ)).filter
            (· < (resendCooldownSeconds : ℤ)) with
        | some elapsed => pure (.failed (.otpThrottled (resendCooldownSeconds - elapsed)))
        | none => issueCode cfg identifier now := by
  unfold Naivolt.requestOtp
  rcases parseIdentifier input with e | identifier <;> rfl

/-- The codes that are deleted are locked, and are of the destination. -/
lemma exec_dropChallenges {ω : AuthOracle} {seen current : AuthDb} {d : String}
    {ws : List AuthWrite} {ls : List AuthLock} {r : Unit}
    (h : execAuth ω seen current (.dropChallenges d) = some (r, ws, ls)) :
    ∃ drops : List Uuid, ws = drops.map .dropChallenge ∧ ∀ i ∈ drops, .challenge i ∈ ls ∧
      ∃ c, current.challenges.get? i = some c ∧ c.destination = d := by
  cases h
  refine ⟨_, rfl, fun i hi => ?_⟩
  obtain ⟨hseen, hcurrent⟩ := List.mem_filter.mp hi
  obtain ⟨⟨j, c⟩, hmem, rfl⟩ := List.mem_map.mp (of_decide_eq_true hcurrent)
  obtain ⟨hmem, hcond⟩ := List.mem_filter.mp hmem
  exact ⟨List.mem_map.mpr ⟨_, hseen, rfl⟩, c, Table.get?_eq_some_iff.mpr hmem,
    (of_decide_eq_true hcond).1⟩

/-- A code that is entered is locked. -/
lemma exec_insertChallenge {ω : AuthOracle} {seen current : AuthDb} {row : OtpChallenge}
    {ws : List AuthWrite} {ls : List AuthLock}
    (h : execAuth ω seen current (.insertChallenge row) = some (true, ws, ls)) :
    ∃ id, ws = [.challenge id row] ∧ .challenge id ∈ ls := by
  simp only [execAuth] at h
  split at h
  · cases h
  · cases h
    exact ⟨ω.uuid, rfl, by simp⟩

lemma judged_issueCode {identifier : Identifier} {now : Time} {locks : List AuthLock} :
    CodeWp cfg Q Judged (issueCode cfg identifier now) [] locks db := by
  have hhash : ∀ (code : String) (db₁ : AuthDb) (locks : List AuthLock),
      CodeWp cfg Q Judged (.call (.hashCode code) fun hash => match hash with
        | none => pure (.failed .internal)
        | some codeHash => do
          let challenge := OtpChallenge.new identifier codeHash now
          sql (.dropChallenges identifier.subject)
          if ← sql (.insertChallenge challenge) then
            if ← sql (.sendCode challenge.destination challenge.channel code) then pure .codeSent
            else pure (.failed .internal)
          else pure (.failed .internal)) [] locks db₁ := by
    intro code db₁ locks
    refine code_call fun ω₁ _ _ hash ws ls db₂ _ _ _ he => ?_
    cases he
    cases ω₁.text with
    | none => exact code_ret fun _ _ => trivial
    | some codeHash =>
        refine code_call fun ω seen current r ws ls db₃ _ _ hcur he => ?_
        cases hcur
        obtain ⟨drops, rfl, hdrops⟩ := exec_dropChallenges he
        refine code_call fun ω seen current₄ ok ws ls db₄ hR₄ _ _ he => ?_
        have hdrops₄ : ∀ i ∈ drops, ∃ c, db₄.challenges.get? i = some c ∧
            c.destination = identifier.subject := by
          intro i hi
          obtain ⟨hlock, c, hc, hdest⟩ := hdrops i hi
          exact ⟨c, (hR₄ i (by simp [hlock])).trans hc, hdest⟩
        cases ok with
        | false => exact code_ret fun _ _ => trivial
        | true =>
            refine code_call fun ω₅ _ _ sent ws ls db₅ hR₅ _ _ he' => ?_
            cases he'
            cases ω₅.sent with
            | false => exact code_ret fun _ _ => trivial
            | true =>
                obtain ⟨id, rfl, hid⟩ := exec_insertChallenge he
                refine code_ret fun db₆ hR₆ => ⟨drops, id, .new identifier codeHash now,
                  by simp, rfl, by simp [hid], fun i hi => ?_⟩
                obtain ⟨c, hc, hdest⟩ := hdrops₄ i hi
                have hlock := (hdrops i hi).1
                exact ⟨by simp [hlock], c, (hR₆ i (by simp [hlock])).trans
                  ((hR₅ i (by simp [hlock])).trans hc), hdest⟩
  unfold issueCode
  split
  · exact hhash _ _ _
  · refine code_call fun _ _ _ code ws ls db₁ _ _ _ he => ?_
    obtain ⟨t, -, ht⟩ := Option.map_eq_some_iff.mp he
    cases ht
    exact hhash code _ _

lemma judged_requestOtp {input : String} :
    CodeWp cfg Q Judged (Naivolt.requestOtp cfg input) [] [] db := by
  rw [requestOtp_eq]
  split
  · exact code_ret fun _ _ => trivial
  · refine code_call fun _ _ _ now ws ls db₁ _ _ _ he => ?_
    obtain ⟨rfl, rfl⟩ := silent_clock _ _ _ _ _ _ he
    refine code_call fun _ _ _ existing ws ls db₂ _ _ _ he => ?_
    cases he
    split
    · exact code_ret fun _ _ => trivial
    · exact judged_issueCode

lemma judged_googleSignIn {verified : Option OidcClaims} :
    CodeWp cfg Q Judged (googleSignIn cfg verified) [] [] db :=
  code_unrelated (codeless_googleSignIn cfg verified) fun _ _ _ _ ha hws => ha.judged hws

lemma judged_refresh {presented : Option String} :
    CodeWp cfg Q Judged (Naivolt.refresh cfg presented) [] [] db :=
  code_unrelated (codeless_refresh cfg presented) fun _ _ _ _ ha hws => ha.judged hws

lemma judged_logout {presented : Option String} :
    CodeWp cfg Q Judged (Naivolt.logout cfg presented) [] [] db :=
  code_unrelated (codeless_logout cfg presented) fun _ _ _ _ ha hws => ha.judged hws

lemma judged_updateMe {userId : Uuid} {body : UpdateMeBody} :
    CodeWp cfg Q Judged (Naivolt.updateMe cfg userId body) [] [] db :=
  code_unrelated (codeless_updateMe cfg userId body) fun _ _ _ _ ha hws => ha.judged hws

lemma judged_program (req : AuthRequest) :
    CodeWp cfg Q Judged (authProgram cfg req) [] [] db := by
  cases req with
  | requestOtp input => exact judged_requestOtp
  | verifyOtp input code => exact judged_verifyOtp
  | google verified => exact judged_googleSignIn
  | refresh presented => exact judged_refresh
  | logout presented => exact judged_logout
  | updateMe userId body => exact judged_updateMe

end Requests

lemma Judged.leaves {cfg : AuthConfig} {a : AuthAnswer} {writes : List AuthWrite}
    {locks : List AuthLock} {db : AuthDb} (hok : CodesOk db) (hpost : Judged a writes locks db)
    (hc : a.commits = true) : Leaves (accounts cfg) CodesOk CodesLater writes locks db :=
  fun _ hview => ⟨hpost.ok hc hok hview, fun _ hdisjoint _ hi =>
    hpost.kept hc hview fun hlock => hdisjoint _ hlock hi⟩

/-- **The transactions keep to what is said of the codes.** -/
def codeDiscipline (cfg : AuthConfig)
    (Q : AuthOp → AuthOracle → List AuthWrite → AuthDb → AuthDb → Prop) :
    Discipline (accounts cfg) Q where
  inv := CodesOk
  rely := CodesLater
  post := Judged
  refl := .refl
  trans := .trans
  starts req _ _ := judged_program req
  commits hI hpost hc := hpost.leaves hI hc

end Naivolt
