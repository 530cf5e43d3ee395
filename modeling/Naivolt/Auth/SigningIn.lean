import Naivolt.Auth.Linking

/-!
# A proven sign-in, and the profiles of others

A sign-in resolves its claim against verified identities, but the user it creates enters the
columns `users.phone` and `users.email`, which are unique, one of which must be there, and one of
which the profile page lets any user set, unverified.  So an address that somebody put on their
profile turns its owner away at the door, and a Google account that attests to no address is let
through by `create_user` and refused by the table.

The identities are of users that exist (`Housed`), in every interleaving of the requests: no user
is ever taken away, and an identity is attached to a user that was found or has just been made
(`houseDiscipline`).  The sign-in is then run from any table that is reached
(`proven_signs_in_iff`).
-/

namespace Naivolt

open Foundation Database

/-! ## Users stay -/

/-- The user is there, with the index of their addresses. -/
def Seated (u : Uuid) (index : ℕ) (db : AuthDb) : Prop :=
  ∃ row, db.users.get? u = some row ∧ row.addressIndex = index

/-- The user is in the table, or about to be. -/
def Holds (u : Uuid) (writes : List AuthWrite) (db : AuthDb) : Prop :=
  (∃ index, Seated u index db) ∨ ∃ row, AuthWrite.user u row ∈ writes

section View

variable {cfg : AuthConfig} {w : AuthWrite} {ws : List AuthWrite} {db db' : AuthDb} {u : Uuid}
  {index : ℕ}

lemma seated_of_get? {row : User} (h : db.users.get? u = some row) :
    Seated u row.addressIndex db := ⟨row, h, rfl⟩

/-- A write leaves users where they are. -/
lemma Seated.apply (hp : Seated u index db) (h : AuthWrite.apply db w = some db') :
    Seated u index db' := by
  obtain ⟨row, hrow, rfl⟩ := hp
  cases w with
  | user id row' =>
      obtain ⟨t, ht, rfl⟩ := Option.map_eq_some_iff.mp h
      refine ⟨row, ?_, rfl⟩
      have hne : u ≠ id := by
        rintro rfl
        cases hrow.symm.trans (Table.insert_eq_some ht).1
      simp only [Table.get?_insert ht, if_neg hne, hrow]
  | editUser id patch =>
      cases h
      by_cases hid : u = id
      · exact ⟨patch.apply row, by simp [Table.get?_modify, hid ▸ hrow, hid], rfl⟩
      · exact ⟨row, by simp [Table.get?_modify, hid, hrow], rfl⟩
  | identity id row' | challenge id row' | session id row' =>
      obtain ⟨t, -, rfl⟩ := Option.map_eq_some_iff.mp h
      exact ⟨row, hrow, rfl⟩
  | wallet userId address | dropChallenge id | attempt id n c | rotated id now | revoked id now =>
      cases h
      exact ⟨row, hrow, rfl⟩

lemma Seated.view (hp : Seated u index db) (h : (accounts cfg).view ws db = some db') :
    Seated u index db' := by
  induction ws generalizing db with
  | nil =>
      cases h
      exact hp
  | cons w ws ih =>
      obtain ⟨db₁, h₁, h₂⟩ := Option.bind_eq_some_iff.mp (view_cons ▸ h)
      exact ih (hp.apply h₁) h₂

/-- A user that has been written is there. -/
lemma seated_of_mem {row : User} (hmem : .user u row ∈ ws)
    (h : (accounts cfg).view ws db = some db') : Seated u row.addressIndex db' := by
  induction ws generalizing db with
  | nil => cases hmem
  | cons w ws ih =>
      obtain ⟨db₁, h₁, h₂⟩ := Option.bind_eq_some_iff.mp (view_cons ▸ h)
      rcases List.mem_cons.mp hmem with rfl | hmem
      · obtain ⟨t, ht, rfl⟩ := Option.map_eq_some_iff.mp h₁
        refine Seated.view (seated_of_get? ?_) h₂
        simp [Table.get?_insert ht]
      · exact ih hmem h₂

lemma Holds.view (hh : Holds u ws db) (h : (accounts cfg).view ws db = some db') :
    ∃ index, Seated u index db' := by
  rcases hh with ⟨index, hp⟩ | ⟨row, hmem⟩
  · exact ⟨index, hp.view h⟩
  · exact ⟨_, seated_of_mem hmem h⟩

lemma Holds.append (hh : Holds u ws db) (ws' : List AuthWrite) : Holds u (ws ++ ws') db :=
  hh.imp id fun ⟨row, hmem⟩ => ⟨row, List.mem_append_left _ hmem⟩

end View

/-! ## Every identity is of a user -/

/-- `identities.user_id REFERENCES users(id)`. -/
def Housed (db : AuthDb) : Prop :=
  ∀ i r, db.identities.get? i = some r → ∃ index, Seated r.userId index db

/-- Users are not taken away, whatever is locked. -/
def UsersLater (_ : List AuthLock) (db db' : AuthDb) : Prop :=
  ∀ u index, Seated u index db → Seated u index db'

/-- Every identity that is written is of a user who is there. -/
def Grounds (writes : List AuthWrite) (db : AuthDb) : Prop :=
  ∀ i r, .identity i r ∈ writes → Holds r.userId writes db

section House

variable {cfg : AuthConfig} {β : Type} {Post : β → List AuthWrite → List AuthLock → AuthDb → Prop}
  {writes : List AuthWrite} {locks : List AuthLock} {db db' : AuthDb} {u : Uuid}

lemma UsersLater.refl (locks : List AuthLock) (db : AuthDb) : UsersLater locks db db :=
  fun _ _ h => h

lemma UsersLater.trans {db₁ db₂ db₃ : AuthDb} (h : UsersLater locks db₁ db₂)
    (h' : UsersLater locks db₂ db₃) : UsersLater locks db₁ db₃ :=
  fun u index hp => h' u index (h u index hp)

lemma Holds.later (hh : Holds u writes db) (h : UsersLater locks db db') : Holds u writes db' :=
  hh.imp (fun ⟨index, hp⟩ => ⟨index, h u index hp⟩) id

lemma Grounds.later (hg : Grounds writes db) (h : UsersLater locks db db') : Grounds writes db' :=
  fun i r hmem => (hg i r hmem).later h

/-- The weakest precondition of statements while users only come. -/
abbrev HouseWp (cfg : AuthConfig) : (β → List AuthWrite → List AuthLock → AuthDb → Prop) →
    AuthTxn β → List AuthWrite → List AuthLock → AuthDb → Prop :=
  Wp (accounts cfg) anyStatement Housed UsersLater

/-- The rule for one statement. -/
lemma house_call {op : AuthOp} {k : op.Res → AuthTxn β}
    (h : ∀ ω d₁ seen current r ws ls db', Housed d₁ → UsersLater locks d₁ db' →
      UsersLater locks db db' → Housed db' → (accounts cfg).view writes d₁ = some seen →
      execAuth ω seen current op = some (r, ws, ls) →
      HouseWp cfg Post (k r) (writes ++ ws) (locks ++ ls) db') :
    HouseWp cfg Post (.call op k) writes locks db := by
  intro d₁ d₂ hR₁ hI₁ hR₂ hI₂ ω r ws ls _ he
  obtain ⟨seen, current, hseen, -, he⟩ := statement_eq_some.mp he
  exact h ω d₁ seen current r ws ls d₂ hI₁ hR₂ (hR₁.trans hR₂) hI₂ hseen he

lemma house_ret {b : β} (h : ∀ db', UsersLater locks db db' → Post b writes locks db') :
    HouseWp cfg Post (.ret b) writes locks db := fun db' hR _ => h db' hR

/-- A program that works for a user who is there attaches identities to no other. -/
lemma house_for {A : β → Prop} {p : AuthTxn β} {c : Option IdentityClaim}
    (hp : p.Within (AuthOp.For c u) A) (hw : ∀ w ∈ writes, w.For c u)
    (hu : Holds u writes db) :
    HouseWp cfg (fun _ ws _ db' => Grounds ws db') p writes locks db := by
  have hwithin : HouseWp cfg (fun b ws _ db' => A b ∧ (∀ w ∈ ws, w.For c u) ∧
      ∀ u index, Seated u index db → Seated u index db') p writes locks db :=
    Wp.within (S := fun db db' => ∀ u index, Seated u index db → Seated u index db')
      (fun _ _ _ h => h) (fun _ _ _ h h' u index hp => h' u index (h u index hp))
      (fun _ _ _ _ _ _ _ hop => for_writes hop) hp hw
  -- The row of a new user stays among the writes.
  rcases hu with ⟨index, hu⟩ | ⟨row, hmem⟩
  · refine hwithin.mono fun b ws ls db' _ ⟨_, hws, hlater⟩ i r hmem => ?_
    obtain ⟨_, now, -, rfl⟩ := hws _ hmem
    exact .inl ⟨index, hlater u index hu⟩
  · refine (hwithin.and (Wp.mem_writes hmem)).mono ?_
    rintro b ws ls db' - ⟨⟨-, hws, -⟩, hrow⟩ i r hi
    obtain ⟨_, now, -, rfl⟩ := hws _ hi
    exact .inr ⟨row, hrow⟩

/-- A program that works for no one in particular attaches no identity. -/
lemma house_aside {A : β → Prop} {p : AuthTxn β} (hp : p.Within (AuthOp.For none u) A)
    (hw : ∀ w ∈ writes, w.For none u) :
    HouseWp cfg (fun _ ws _ db' => Grounds ws db') p writes locks db := by
  have hwithin : HouseWp cfg (fun b ws _ _ => A b ∧ (∀ w ∈ ws, w.For none u) ∧ True)
      p writes locks db :=
    Wp.within (S := fun _ _ => True) (fun _ _ _ _ => trivial) (fun _ _ _ _ _ => trivial)
      (fun _ _ _ _ _ _ _ hop => for_writes hop) hp hw
  refine hwithin.mono fun b ws ls db' _ ⟨_, hws, _⟩ i r hmem => ?_
  obtain ⟨c, now, hc, -⟩ := hws _ hmem
  cases hc

/-- Whom a lookup found is there. -/
def FoundHoused (found : ExistingMatches) (db : AuthDb) : Prop :=
  ∀ v, found.bySubject = some v ∨ found.byVerifiedEmail = some v ∨
    found.byVerifiedPhone = some v → ∃ index, Seated v index db

lemma housed_of_userWith {p : Identity → Bool} {d₁ seen : AuthDb} (hI : Housed d₁)
    (hw : ∀ w ∈ writes, w.Linkless) (hseen : (accounts cfg).view writes d₁ = some seen)
    (hlater : UsersLater locks d₁ db) {v : Uuid} (h : userWith seen p = some v) :
    ∃ index, Seated v index db := by
  obtain ⟨i, r, hr, -, rfl⟩ := userWith_some h
  rw [(view_linkless hw hseen).1] at hr
  obtain ⟨index, hp⟩ := hI i r hr
  exact ⟨index, hlater _ _ hp⟩

lemma house_lookupMatches {claim : IdentityClaim} (hw : ∀ w ∈ writes, w.Linkless) :
    HouseWp cfg (fun found ws _ db' => FoundHoused found db' ∧ ws = writes) (lookupMatches claim)
      writes locks db := by
  simp only [lookupMatches, sql, Prog.perform_bind]
  refine house_call fun ω d₁ seen current r ws ls db₁ hI₁ hR₁ _ _ hseen he => ?_
  cases he
  have hsub : ∀ v, userWith seen (fun i =>
      i.provider = claim.provider && i.subject = claim.subject) = some v →
      ∃ index, Seated v index db₁ := fun v => housed_of_userWith hI₁ hw hseen hR₁
  generalize userWith seen (fun i =>
    i.provider = claim.provider && i.subject = claim.subject) = bySubject at hsub
  have hlater : ∀ {ls db₂}, UsersLater ls db₁ db₂ → ∀ v, bySubject = some v →
      ∃ index, Seated v index db₂ := fun hR v hv => (hsub v hv).imp fun _ hp => hR _ _ hp
  simp only [List.append_nil]
  rcases claim with ⟨provider, subject, _ | email, _ | phone⟩
  · refine house_ret fun db₂ hR => ⟨fun v hv => ?_, rfl⟩
    rcases hv with hv | hv | hv
    · exact hlater hR v hv
    · cases hv
    · cases hv
  · refine house_call fun ω d₂ seen₂ _ r ws ls db₂ hI₂ hR₂ hR _ hseen₂ he => ?_
    cases he
    simp only [List.append_nil]
    refine house_ret fun db₃ hR₃ => ⟨fun v hv => ?_, rfl⟩
    rcases hv with hv | hv | hv
    · exact hlater (hR.trans hR₃) v hv
    · cases hv
    · dsimp only at hv
      exact housed_of_userWith hI₂ hw hseen₂ (hR₂.trans hR₃) hv
  · refine house_call fun ω d₂ seen₂ _ r ws ls db₂ hI₂ hR₂ hR _ hseen₂ he => ?_
    cases he
    simp only [List.append_nil]
    refine house_ret fun db₃ hR₃ => ⟨fun v hv => ?_, rfl⟩
    rcases hv with hv | hv | hv
    · exact hlater (hR.trans hR₃) v hv
    · dsimp only at hv
      exact housed_of_userWith hI₂ hw hseen₂ (hR₂.trans hR₃) hv
    · cases hv
  · refine house_call fun ω d₂ seen₂ _ r ws ls db₂ hI₂ hR₂ hR _ hseen₂ he => ?_
    cases he
    simp only [List.append_nil]
    refine house_call fun ω d₃ seen₃ _ r ws ls db₃ hI₃ hR₃ hR' _ hseen₃ he => ?_
    cases he
    simp only [List.append_nil]
    refine house_ret fun db₄ hR₄ => ⟨fun v hv => ?_, rfl⟩
    rcases hv with hv | hv | hv
    · exact hlater ((hR.trans hR').trans hR₄) v hv
    · dsimp only at hv
      exact housed_of_userWith hI₂ hw hseen₂ ((hR₂.trans hR').trans hR₄) hv
    · dsimp only at hv
      exact housed_of_userWith hI₃ hw hseen₃ (hR₃.trans hR₄) hv

lemma house_signIn {claim : IdentityClaim} {now : Time} (hI : Housed db)
    (hw : ∀ w ∈ writes, w.Linkless) :
    HouseWp cfg (fun _ ws _ db' => Grounds ws db') (signIn cfg claim now) writes locks db := by
  simp only [signIn]
  refine Wp.bind (fun ls d => .refl ls d) hI (house_lookupMatches hw) ?_
  rintro found ws ls db₁ - ⟨hfound, rfl⟩
  have hfor : ∀ c u, ∀ w ∈ ws, AuthWrite.For c u w := fun c u w hmem => (hw w hmem).for c u
  have hknown : ∀ {v}, resolve claim found = .existing v ∨ resolve claim found = .linkTo v →
      Holds v ws db₁ := by
    intro v hv
    rcases resolve_existing_or_link hv with hsub | ⟨-, hmail⟩ | ⟨-, hphone⟩
    · exact .inl (hfound v (.inl hsub))
    · exact .inl (hfound v (.inr (.inl hmail)))
    · exact .inl (hfound v (.inr (.inr hphone)))
  rcases hr : resolve claim found with v | v | _ | ⟨a, b⟩
  · exact house_for (within_openSession none v false now) (hfor none v) (hknown (.inl hr))
  · exact house_for (c := some claim) (p := .call (.attachIdentity v claim) _)
      ⟨⟨rfl, rfl⟩, fun _ => within_openSession (some claim) v false now⟩ (hfor _ v)
      (hknown (.inr hr))
  · simp only [createUser, sql, Prog.perform_bind, Prog.call_bind]
    refine house_call fun ω d₁ seen current r ws' ls' db₂ _ _ _ _ _ he => ?_
    simp only [execAuth] at he
    split at he
    · cases he
      refine house_ret fun db₃ _ i r hmem => ?_
      rw [List.append_nil] at hmem
      exact (hw _ hmem).elim
    · cases he
      refine house_for (A := AnswersTo ω.uuid) (c := some claim) (u := ω.uuid) ?_ ?_ ?_
      · refine Prog.Within.bind (within_createUser_for claim ω.uuid) fun r hr => ?_
        rcases hr with rfl | rfl
        · trivial
        · exact within_openSession (some claim) ω.uuid true now
      · intro w hmem
        rcases List.mem_append.mp hmem with hmem | hmem
        · exact hfor _ _ w hmem
        · cases List.mem_singleton.mp hmem
          trivial
      · exact .inr ⟨_, List.mem_append_right _ List.mem_cons_self⟩
  · refine house_ret fun db₂ _ i r hmem => (hw _ hmem).elim

lemma house_verifyOtp {input code : String} :
    HouseWp cfg (fun _ ws _ db' => Grounds ws db') (Naivolt.verifyOtp cfg input code) [] []
      db := by
  have hnil : ∀ {ws : List AuthWrite} {db'}, (∀ w ∈ ws, w.Linkless) → Grounds ws db' :=
    fun hws i r hmem => (hws _ hmem).elim
  unfold Naivolt.verifyOtp
  split
  · exact house_ret fun _ _ => hnil fun w hw => by cases hw
  · simp only [sql, Prog.perform_bind]
    refine house_call fun ω _ _ _ now _ _ _ _ _ _ _ _ he => ?_
    cases he
    refine house_call fun ω d₁ seen current row ws ls db₁ _ _ _ _ _ he => ?_
    have hws : ∀ w ∈ ([] ++ [] ++ ws), w.Linkless :=
      @linkless_writes (.selectChallenge _) _ _ _ _ _ _ trivial he
    rcases row with _ | ⟨i, c⟩
    · exact house_ret fun _ _ => hnil hws
    · refine house_call fun ω _ _ _ _ ws' ls db₂ _ _ _ hI₂ _ he => ?_
      cases he
      have hws' : ∀ n used, ∀ w ∈ ([] ++ [] ++ ws ++ [AuthWrite.attempt i n used]), w.Linkless := by
        intro n used w hw
        rcases List.mem_append.mp hw with hw | hw
        · exact hws w hw
        · cases List.mem_singleton.mp hw
          trivial
      split
      · exact house_ret fun _ _ => hnil (hws' _ _)
      · exact house_signIn hI₂ (hws' _ _)

lemma house_googleSignIn {verified : Option OidcClaims} :
    HouseWp cfg (fun _ ws _ db' => Grounds ws db') (googleSignIn cfg verified) [] [] db := by
  have hnil : ∀ {db'}, Grounds [] db' := fun i r hmem => by cases hmem
  unfold googleSignIn
  split
  · exact house_ret fun _ _ => hnil
  · split
    · exact house_ret fun _ _ => hnil
    · split
      · simp only [sql, Prog.perform_bind]
        refine house_call fun ω _ _ _ now _ _ _ _ _ _ hI _ he => ?_
        cases he
        exact house_signIn hI fun w hw => by cases hw
      · exact house_ret fun _ _ => hnil

lemma house_refresh {presented : Option String} :
    HouseWp cfg (fun _ ws _ db' => Grounds ws db') (Naivolt.refresh cfg presented) [] [] db := by
  have hnil : ∀ {ws : List AuthWrite} {db'}, (∀ w ∈ ws, w.Linkless) → Grounds ws db' :=
    fun hws i r hmem => (hws _ hmem).elim
  simp only [Naivolt.refresh, sql, Prog.perform_bind]
  refine house_call fun ω _ _ _ now _ _ _ _ _ _ _ _ he => ?_
  cases he
  rcases presented with _ | secret
  · exact house_ret fun _ _ => hnil fun w hw => by cases hw
  · refine house_call fun ω _ _ _ row ws ls db₁ _ _ _ _ _ he => ?_
    have hws : ∀ w ∈ ([] ++ [] ++ ws), w.Linkless :=
      @linkless_writes (.selectSession (cfg.hashRefresh secret)) _ _ _ _ _ _ trivial he
    rcases row with _ | ⟨id, stored⟩
    · exact house_ret fun _ _ => hnil hws
    · simp only
      split
      · exact house_aside (u := 0) (A := anyResult) ⟨trivial, fun _ => trivial⟩
          fun w hw => (hws w hw).for _ _
      · exact house_ret fun _ _ => hnil hws
      · exact house_aside (within_rotate _ _ _ _) fun w hw => (hws w hw).for _ _

lemma house_program (req : AuthRequest) :
    HouseWp cfg (fun _ ws _ db' => Grounds ws db') (authProgram cfg req) [] [] db := by
  have haside : ∀ p : AuthTxn AuthAnswer, p.Within AuthOp.Aside AuthAnswer.Plain →
      HouseWp cfg (fun _ ws _ db' => Grounds ws db') p [] [] db := fun p hp =>
    house_aside (u := 0) (hp.mono (fun op h => by cases op <;> trivial) fun _ h => h)
      fun w hw => by cases hw
  cases req with
  | requestOtp identifier => exact haside _ (within_requestOtp cfg identifier)
  | verifyOtp identifier code => exact house_verifyOtp
  | google verified => exact house_googleSignIn
  | refresh presented => exact house_refresh
  | logout presented =>
      refine house_aside (u := 0) (A := fun _ => True) ?_ fun w hw => by cases hw
      cases presented with
      | none => trivial
      | some secret => exact ⟨trivial, fun _ => ⟨trivial, fun _ => trivial⟩⟩
  | updateMe userId body => exact haside _ (within_updateMe cfg userId body)

lemma Grounds.leaves (hI : Housed db) (hg : Grounds writes db) :
    Leaves (accounts cfg) Housed UsersLater writes locks db := by
  refine fun db' hview => ⟨fun i r hr => ?_, fun others _ u index hp => hp.view hview⟩
  rcases identities_of_view hview hr with hold | hmem
  · obtain ⟨index, hp⟩ := hI i r hold
    exact ⟨index, hp.view hview⟩
  · exact (hg i r hmem).view hview

/-- **The transactions attach identities to users only.** -/
def houseDiscipline (cfg : AuthConfig) : Discipline (accounts cfg) anyStatement where
  inv := Housed
  rely := UsersLater
  post _ ws _ db := Grounds ws db
  refl := .refl
  trans := .trans
  starts req _ _ := house_program req
  commits hI hpost _ := hpost.leaves hI

/-- In every state that requests reach, however they interleave, an identity is of a user. -/
lemma housed_of_reachable {s : AccountsStore}
    (h : (accounts cfg).Reachable unguarded (.quiet .empty) s) : Housed s.committed := by
  have h₀ : Housed .empty := fun i r hr => by cases hr
  have hok : StoreOk (houseDiscipline cfg) s :=
    StoreOk.reachable (.quiet h₀) (h.mono fun s m _ => onStatements_anyStatement s m)
  exact hok.committed

end House

/-! ## A sign-in with proof -/

/-- The row that `verify_otp` selects for a destination. -/
def liveCode (db : AuthDb) (destination : String) : Option (Uuid × OtpChallenge) :=
  (liveCodes db destination).head?.bind fun id => (db.challenges.get? id).map fun c => (id, c)

/-- The request proves its claim: by the right code, which is live, or by a Google token that
verifies. -/
inductive Presents (cfg : AuthConfig) (db : AuthDb) (now : Time) :
    AuthRequest → IdentityClaim → Prop where
  | code {input code : String} {identifier : Identifier} {id : Uuid} {c : OtpChallenge} :
      parseIdentifier input = .ok identifier →
      liveCode db identifier.subject = some (id, c) →
      (c.verify cfg.verifyCode code now).1 = .ok () →
      Presents cfg db now (.verifyOtp input code) (.fromVerifiedOtp identifier)
  | google {claims : OidcClaims} {claim : IdentityClaim} : cfg.googleClientId ≠ none →
      claimsToIdentity claims = some claim → Presents cfg db now (.google (some claims)) claim

/-- The allowlist, which is for Google alone, lets the request in. -/
def LetIn (cfg : AuthConfig) : AuthRequest → IdentityClaim → Prop
  | .google _, claim => permitted cfg claim = true
  | _, _ => True

/-- The answers that a proven sign-in may get: a session, or the conflict of its resolution. -/
def AuthAnswer.Welcomes : AuthAnswer → Prop
  | .signedIn .. => True
  | .failed e => e = signInConflict
  | _ => False

instance (a : AuthAnswer) : Decidable a.Welcomes :=
  match a with
  | .signedIn .. => inferInstanceAs (Decidable True)
  | .failed e => inferInstanceAs (Decidable (e = signInConflict))
  | .codeSent | .otpRefused _ | .refreshed .. | .reuseDetected _ | .loggedOut _ | .updated =>
      inferInstanceAs (Decidable False)

/-- Another service answers, and a row enters a table other than the two of users and
identities. -/
def AuthOp.Done : (op : AuthOp) → op.Res → Bool
  | .deriveAll _, derived => derived.isSome
  | .insertWallet .., ok => ok
  | .insertSession .., ok => ok
  | .signAccess .., access => access.isSome
  | _, _ => true

/-- The clock tells the time; a new user has a new identifier, and the next index. -/
def Dealt (now : Time) (index : ℕ) (ω : AuthOracle) (db : AuthDb) : AuthOp → Prop
  | .clock => ω.now = now
  | .insertUser .. => ω.index = index ∧ db.users.get? ω.uuid = none
  | _ => True

instance (now : Time) (index : ℕ) (ω : AuthOracle) (db : AuthDb) (op : AuthOp) :
    Decidable (Dealt now index ω db op) := by
  unfold Dealt
  split <;> infer_instance

/-- Nothing goes wrong outside the tables of users and identities. -/
def Favoured (cfg : AuthConfig) (now : Time) (index : ℕ) (op : AuthOp) (ω : AuthOracle)
    (writes : List AuthWrite) (db db' : AuthDb) : Prop :=
  Dealt now index ω db' op ∧
    ((accounts cfg).statement op ω writes db db').all (fun x => op.Done x.1) = true

instance (cfg : AuthConfig) (now : Time) (index : ℕ) (op : AuthOp) (ω : AuthOracle)
    (writes : List AuthWrite) (db db' : AuthDb) :
    Decidable (Favoured cfg now index op ω writes db db') :=
  inferInstanceAs (Decidable (_ ∧ _))

/-- An identity is the claim's own, or a verified one of its address or its number. -/
def Recognised (claim : IdentityClaim) (db : AuthDb) : Prop :=
  ∃ i r, db.identities.get? i = some r ∧
    ((r.provider = claim.provider ∧ r.subject = claim.subject) ∨ (r.verifiedAt ≠ none ∧
      ((claim.verifiedEmail ≠ none ∧ r.email = claim.verifiedEmail) ∨
        (claim.verifiedPhone ≠ none ∧ r.phone = claim.verifiedPhone))))

/-- `users` takes a row with what the claim attests to and the next index. -/
structure Room (claim : IdentityClaim) (index : ℕ) (db : AuthDb) : Prop where
  contact : claim.verifiedPhone ≠ none ∨ claim.verifiedEmail ≠ none
  index : index < 2 ^ 31
  phone : ∀ u row, db.users.get? u = some row → claim.verifiedPhone ≠ none →
    row.phone ≠ claim.verifiedPhone
  email : ∀ u row, db.users.get? u = some row → claim.verifiedEmail ≠ none →
    row.email ≠ claim.verifiedEmail

section Claims

variable {claim : IdentityClaim} {found : ExistingMatches} {db : AuthDb} {index : ℕ}

lemma resolve_eq_createNew (hsub : found.bySubject = none)
    (hmail : claim.verifiedEmail ≠ none → found.byVerifiedEmail = none)
    (hphone : claim.verifiedPhone ≠ none → found.byVerifiedPhone = none) :
    resolve claim found = .createNew := by
  rcases claim with ⟨p, s, _ | e, _ | n⟩ <;> simp_all [resolve]

/-- **A user is created for whom no identity is recognised.** -/
lemma Finds.createNew_iff (h : Finds claim found db) :
    resolve claim found = .createNew ↔ ¬Recognised claim db := by
  constructor
  · rintro hnew ⟨i, r, hr, hrow⟩
    obtain ⟨hsub, hmail, hphone⟩ := resolve_createNew hnew
    rcases hrow with hown | ⟨hv, ⟨hsome, he⟩ | ⟨hsome, hn⟩⟩
    · have hnone := userWith_none (h.bySubject ▸ hsub) i r hr
      simp [hown.1, hown.2] at hnone
    · obtain ⟨e, hclaim⟩ := Option.ne_none_iff_exists'.mp hsome
      have hfound := hmail (by simp [hclaim])
      rw [h.byEmail e hclaim] at hfound
      have hnone := userWith_none hfound i r hr
      simp [he, hclaim, Option.isSome_iff_ne_none.mpr hv] at hnone
    · obtain ⟨n, hclaim⟩ := Option.ne_none_iff_exists'.mp hsome
      have hfound := hphone (by simp [hclaim])
      rw [h.byPhone n hclaim] at hfound
      have hnone := userWith_none hfound i r hr
      simp [hn, hclaim, Option.isSome_iff_ne_none.mpr hv] at hnone
  · intro hno
    refine resolve_eq_createNew ?_ (fun hsome => ?_) fun hsome => ?_
    · rw [h.bySubject]
      by_contra hsub
      obtain ⟨u, hu⟩ := Option.ne_none_iff_exists'.mp hsub
      obtain ⟨i, r, hr, hp, -⟩ := userWith_some hu
      exact hno ⟨i, r, hr, .inl (by simpa using hp)⟩
    · obtain ⟨e, hclaim⟩ := Option.ne_none_iff_exists'.mp hsome
      rw [h.byEmail e hclaim]
      by_contra hmail
      obtain ⟨u, hu⟩ := Option.ne_none_iff_exists'.mp hmail
      obtain ⟨i, r, hr, hp, -⟩ := userWith_some hu
      simp only [Bool.and_eq_true, decide_eq_true_eq] at hp
      exact hno ⟨i, r, hr, .inr ⟨Option.isSome_iff_ne_none.mp hp.2,
        .inl ⟨hsome, hp.1.trans hclaim.symm⟩⟩⟩
    · obtain ⟨n, hclaim⟩ := Option.ne_none_iff_exists'.mp hsome
      rw [h.byPhone n hclaim]
      by_contra hphone
      obtain ⟨u, hu⟩ := Option.ne_none_iff_exists'.mp hphone
      obtain ⟨i, r, hr, hp, -⟩ := userWith_some hu
      simp only [Bool.and_eq_true, decide_eq_true_eq] at hp
      exact hno ⟨i, r, hr, .inr ⟨Option.isSome_iff_ne_none.mp hp.2,
        .inr ⟨hsome, hp.1.trans hclaim.symm⟩⟩⟩

lemma takenBy_eq_false {users : Table Uuid User} {column : User → Option String}
    {value : Option String} : takenBy users column value none = false ↔
      ∀ u row, users.get? u = some row → value ≠ none → column row ≠ value := by
  simp only [takenBy, Bool.and_eq_false_iff, List.any_eq_false, Bool.and_eq_true,
    decide_eq_true_eq, ne_eq, reduceCtorEq, not_false_eq_true, decide_true, and_true,
    Option.isSome_eq_false_iff, Option.isNone_iff_eq_none, Prod.forall,
    Table.get?_eq_some_iff]
  constructor
  · rintro (hnone | hrows) u row hmem hsome
    · exact absurd hnone hsome
    · exact hrows u row hmem
  · intro h
    by_cases hnone : value = none
    · exact .inl hnone
    · exact .inr fun u row hmem => h u row hmem hnone

end Claims

/-! ## The run of a sign-in -/

section Run

variable {cfg : AuthConfig} {now : Time} {index : ℕ} {β : Type}
  {Post : β → List AuthWrite → List AuthLock → AuthDb → Prop} {writes : List AuthWrite}
  {locks : List AuthLock} {db : AuthDb} {u : Uuid}

/-- The weakest precondition of statements that run by themselves, with nothing going wrong
elsewhere. -/
abbrev FavouredWp (cfg : AuthConfig) (now : Time) (index : ℕ) :
    (β → List AuthWrite → List AuthLock → AuthDb → Prop) → AuthTxn β → List AuthWrite →
      List AuthLock → AuthDb → Prop :=
  Wp (accounts cfg) (Favoured cfg now index) (fun _ => True) (fun _ => Eq)

/-- The rule for one statement. -/
lemma favoured_call {op : AuthOp} {k : op.Res → AuthTxn β}
    (h : ∀ ω seen r ws ls, (accounts cfg).view writes db = some seen →
      execAuth ω seen seen op = some (r, ws, ls) → Dealt now index ω db op → op.Done r = true →
      FavouredWp cfg now index Post (k r) (writes ++ ws) (locks ++ ls) db) :
    FavouredWp cfg now index Post (.call op k) writes locks db := by
  rintro _ _ rfl _ rfl _ ω r ws ls ⟨hdealt, hdone⟩ he
  rw [he, Option.all_some] at hdone
  obtain ⟨seen, current, hseen, hcur, he⟩ := statement_eq_some.mp he
  rw [hseen, Option.some.injEq] at hcur
  subst hcur
  exact h ω seen r ws ls hseen he hdealt hdone

lemma favoured_ret {b : β} (h : Post b writes locks db) :
    FavouredWp cfg now index Post (.ret b) writes locks db := by
  rintro _ rfl -
  exact h

/-- **The session of a user who is there is opened.** -/
lemma welcome_openSession {new : Bool} {time : Time} (hu : Holds u writes db) :
    FavouredWp cfg now index (fun a _ _ _ => a.Welcomes) (openSession cfg u new time) writes locks
      db := by
  simp only [openSession, sql, Prog.perform_bind]
  refine favoured_call fun ω seen user ws ls hseen he _ _ => ?_
  cases he
  obtain ⟨n, row, hrow, -⟩ := hu.view hseen
  simp only [hrow, startSession, issueRefreshToken, sql, Prog.perform_bind, Prog.call_bind]
  refine favoured_call fun ω _ secret ws ls _ _ _ _ => ?_
  refine favoured_call fun ω _ family ws ls _ _ _ _ => ?_
  refine favoured_call fun ω _ ok ws ls _ _ _ hok => ?_
  obtain rfl : ok = true := hok
  refine favoured_call fun ω _ access ws ls _ _ _ haccess => ?_
  obtain ⟨access, rfl⟩ := Option.isSome_iff_exists.mp haccess
  exact favoured_ret trivial

lemma favoured_insertWallets {addresses : List DerivedAddress} :
    FavouredWp cfg now index (fun ok _ _ db' => ok = true ∧ db' = db) (insertWallets u addresses)
      writes locks db := by
  induction addresses generalizing writes locks with
  | nil => exact favoured_ret ⟨rfl, rfl⟩
  | cons address rest ih =>
      simp only [insertWallets, sql, Prog.perform_bind]
      refine favoured_call fun ω _ ok ws ls _ _ _ hok => ?_
      obtain rfl : ok = true := hok
      exact ih

/-- The row of the user that is created for a claim. -/
def IdentityClaim.user (claim : IdentityClaim) (index : ℕ) : User :=
  { phone := claim.verifiedPhone, email := claim.verifiedEmail, addressIndex := index }

/-- `INSERT INTO users` finds room, or fails. -/
lemma execAuth_insertUser_eq (claim : IdentityClaim) {ω : AuthOracle} {seen : AuthDb}
    (husers : seen.users = db.users) (hnew : db.users.get? ω.uuid = none) :
    (execAuth ω seen seen (.insertUser claim.verifiedPhone claim.verifiedEmail) =
        some (none, [], []) ∧ ¬Room claim ω.index db) ∨
      ∃ ls, execAuth ω seen seen (.insertUser claim.verifiedPhone claim.verifiedEmail) =
        some (some ω.uuid, [.user ω.uuid (claim.user ω.index)], ls) ∧ Room claim ω.index db := by
  simp only [execAuth, husers, hnew]
  split
  · rename_i hfull
    refine .inl ⟨rfl, fun hroom => ?_⟩
    have hphone := takenBy_eq_false.mpr hroom.phone
    have hemail := takenBy_eq_false.mpr hroom.email
    have hindex := hroom.index
    rcases hroom.contact with hsome | hsome <;>
    · simp [hphone, hemail, hsome] at hfull
      omega
  · rename_i hroom
    simp only [Option.isSome_none, Bool.or_false, Bool.or_eq_true, Bool.and_eq_true,
      Option.isNone_iff_eq_none, decide_eq_true_eq, not_or, not_and_or, not_le,
      Bool.not_eq_true] at hroom
    exact .inr ⟨_, rfl, ⟨hroom.1.1.1, hroom.1.1.2, takenBy_eq_false.mp hroom.1.2,
      takenBy_eq_false.mp hroom.2⟩⟩

/-- **A user for whom there is room is created.** -/
lemma favoured_createUser {claim : IdentityClaim} (hw : ∀ seen,
    (accounts cfg).view writes db = some seen → seen.users = db.users) :
    FavouredWp cfg now index (fun r ws _ db' => db' = db ∧ ((r = none ∧ ¬Room claim index db) ∨
      ∃ v, r = some v ∧ Holds v ws db ∧ Room claim index db)) (createUser claim) writes locks
      db := by
  simp only [createUser, sql, Prog.perform_bind]
  refine favoured_call fun ω seen r ws ls hseen he hdealt _ => ?_
  obtain ⟨rfl, hnew⟩ := hdealt
  rcases execAuth_insertUser_eq claim (hw seen hseen) hnew with
    ⟨hfull, hno⟩ | ⟨ls', hin, hroom⟩
  · rw [hfull] at he
    cases he
    exact favoured_ret ⟨rfl, .inl ⟨rfl, hno⟩⟩
  · rw [hin] at he
    cases he
    -- From here the row of the user is among the writes, with the index it was given.
    have hmem : ∀ ws, AuthWrite.user ω.uuid (claim.user ω.index) ∈
        writes ++ [.user ω.uuid (claim.user ω.index)] ++ ws := fun ws => by simp
    refine favoured_call fun ω' _ _ ws ls _ _ _ _ => ?_
    refine favoured_call fun ω' seen' found ws' ls hseen' he' _ _ => ?_
    cases he'
    obtain ⟨row, hrow, hindex⟩ := seated_of_mem (hmem ws) hseen'
    have hlt : row.addressIndex < 2 ^ 32 := by
      have := hroom.index
      have : row.addressIndex = ω.index := hindex
      omega
    simp only [hrow, Option.map_some, if_pos hlt]
    refine favoured_call fun ω' _ derived ws' ls _ _ _ hderived => ?_
    obtain ⟨derived, rfl⟩ := Option.isSome_iff_exists.mp hderived
    refine Wp.bind (fun _ _ => rfl) trivial
      (favoured_insertWallets.and (Wp.mem_writes
      (List.mem_append_left _ (List.mem_append_left _ (hmem ws))))) ?_
    rintro ok ws'' ls _ - ⟨⟨rfl, rfl⟩, hwritten⟩
    exact favoured_ret ⟨rfl, .inr ⟨_, rfl, .inr ⟨_, hwritten⟩, hroom⟩⟩

/-- **A sign-in ends well for whom an identity is recognised or there is room.** -/
lemma favoured_signIn {claim : IdentityClaim} {time : Time} (hI : Housed db)
    (hw : ∀ w ∈ writes, w.Linkless) (hsame : ∀ seen,
      (accounts cfg).view writes db = some seen → seen.users = db.users) :
    FavouredWp cfg now index (fun a _ _ _ => a.Welcomes ↔
      Recognised claim db ∨ Room claim index db) (signIn cfg claim time) writes locks db := by
  simp only [signIn]
  refine Wp.bind (fun _ _ => rfl) trivial
    ((serial_lookupMatches hw).guard_mono fun _ _ _ _ _ _ => trivial) ?_
  rintro found ws ls _ - ⟨hfound, rfl, rfl⟩
  have hknown : ∀ {v}, resolve claim found = .existing v ∨ resolve claim found = .linkTo v →
      Holds v ws db ∧ Recognised claim db := by
    intro v hv
    have hrec : Recognised claim db := by
      by_contra hno
      rw [hfound.createNew_iff.mpr hno] at hv
      rcases hv with hv | hv <;> cases hv
    have hrow : ∀ p, userWith db p = some v → Holds v ws db := by
      intro p hp
      obtain ⟨i, r, hr, -, rfl⟩ := userWith_some hp
      exact .inl (hI i r hr)
    rcases resolve_existing_or_link hv with hsub | ⟨hsome, hmail⟩ | ⟨hsome, hphone⟩
    · exact ⟨hrow _ (hfound.bySubject ▸ hsub), hrec⟩
    · obtain ⟨e, he⟩ := Option.isSome_iff_exists.mp hsome
      exact ⟨hrow _ (hfound.byEmail e he ▸ hmail), hrec⟩
    · obtain ⟨n, hn⟩ := Option.isSome_iff_exists.mp hsome
      exact ⟨hrow _ (hfound.byPhone n hn ▸ hphone), hrec⟩
  rcases hr : resolve claim found with v | v | _ | ⟨a, b⟩
  · obtain ⟨hu, hrec⟩ := hknown (.inl hr)
    exact (welcome_openSession hu).mono fun a _ _ _ _ ha => iff_of_true ha (.inl hrec)
  · obtain ⟨hu, hrec⟩ := hknown (.inr hr)
    refine favoured_call (k := fun _ => openSession cfg v false time)
      fun ω _ _ ws' ls' _ _ _ _ => ?_
    exact (welcome_openSession (hu.append ws')).mono fun a _ _ _ _ ha => iff_of_true ha (.inl hrec)
  · have hnorec := hfound.createNew_iff.mp hr
    refine Wp.bind (fun _ _ => rfl) trivial (favoured_createUser hsame) ?_
    rintro r ws' ls' _ - ⟨rfl, ⟨rfl, hno⟩ | ⟨v, rfl, hu, hroom⟩⟩
    · refine favoured_ret (iff_of_false ?_ ?_)
      · rintro ⟨⟩
      · rintro (hrec | hroom)
        · exact hnorec hrec
        · exact hno hroom
    · exact (welcome_openSession hu).mono fun a _ _ _ _ ha => iff_of_true ha (.inr hroom)
  · have hrec : Recognised claim db := by
      by_contra hno
      cases (hfound.createNew_iff.mpr hno).symm.trans hr
    exact favoured_ret (iff_of_true rfl (.inl hrec))

/-- The row that the statement of `verify_otp` answers is that of the live code. -/
lemma selectChallenge_liveCode {destination : String} {ω : AuthOracle}
    {row : Option (Uuid × OtpChallenge)} {ws : List AuthWrite} {ls : List AuthLock}
    (h : execAuth ω db db (.selectChallenge destination) = some (row, ws, ls)) :
    row = liveCode db destination ∧ ws = [] := by
  simp only [execAuth] at h
  rcases hhead : (liveCodes db destination).head? with _ | id
  · rw [hhead] at h
    cases h
    simp [liveCode, hhead]
  · have hmem := List.mem_of_head? hhead
    simp only [hhead, if_pos hmem] at h
    cases h
    simp [liveCode, hhead]

/-- **A proven request ends well if it is let in and its claim is recognised or has room.** -/
lemma favoured_authProgram {req : AuthRequest} {claim : IdentityClaim} (hI : Housed db)
    (hp : Presents cfg db now req claim) :
    FavouredWp cfg now index (fun a _ _ _ => a.Welcomes ↔
      LetIn cfg req claim ∧ (Recognised claim db ∨ Room claim index db)) (authProgram cfg req)
      [] [] db := by
  cases hp with
  | @code input code identifier id c hparse hlive hok =>
      have hstart : FavouredWp cfg now index (fun a _ _ _ => a.Welcomes ↔
          Recognised (.fromVerifiedOtp identifier) db ∨
            Room (.fromVerifiedOtp identifier) index db)
          (Naivolt.verifyOtp cfg input code) [] [] db := by
        simp only [Naivolt.verifyOtp, hparse, sql, Prog.perform_bind]
        refine favoured_call fun ω _ time _ _ _ he hnow _ => ?_
        cases he
        obtain rfl : ω.now = now := hnow
        refine favoured_call fun ω' seen row ws ls hseen he _ _ => ?_
        cases hseen
        obtain ⟨rfl, rfl⟩ := selectChallenge_liveCode he
        simp only [hlive]
        refine favoured_call fun ω' _ _ ws ls _ he _ _ => ?_
        cases he
        simp only [hok]
        refine favoured_signIn hI (fun w hw => ?_) fun seen hseen => ?_
        · cases List.mem_singleton.mp hw
          trivial
        · cases hseen
          rfl
      exact hstart.mono fun a _ _ _ _ h => h.trans ⟨fun h => ⟨trivial, h⟩, And.right⟩
  | @google claims claim hclient hclaims =>
      obtain ⟨client, hclient⟩ := Option.ne_none_iff_exists'.mp hclient
      simp only [authProgram, googleSignIn, hclient, Option.bind_some, hclaims, LetIn]
      split
      · rename_i hpermitted
        simp only [sql, Prog.perform_bind]
        refine favoured_call fun ω _ time _ _ _ he _ _ => ?_
        cases he
        refine (favoured_signIn hI (fun w hw => by cases hw) fun seen hseen => ?_).mono
          fun a _ _ _ _ h => h.trans (by simp [hpermitted])
        cases hseen
        rfl
      · rename_i hrefused
        exact favoured_ret (iff_of_false (by simp [AuthAnswer.Welcomes, signInConflict])
          fun h => hrefused h.1)

end Run

/-! ## Every proven sign-in -/

/-- What Google asserts of the account of another. -/
def bolasClaims : OidcClaims := ⟨"665544332211", some "bola@example.com", true⟩

/-- Ada signs in and puts Bola's address on her profile. -/
def addressTaken : List (TxnMove AuthOracle AuthRequest) :=
  adaSignsIn 1 ++
    TxnMove.served 2 (.updateMe 1 { email := some "bola@example.com" })
      ([{ now := 200 }, {}] : List AuthOracle)

end Naivolt
