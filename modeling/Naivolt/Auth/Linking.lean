import Naivolt.Auth.Exchanges

/-!
# Whose account a sign-in opens

Sign-ins by one-time code and by Google, and profile updates, taken one after another in any
order.  `LinksOk` is the invariant of the identities: every row is verified, addresses are stored
in their normal form, and an address or a number leads to one user.

A sign-in looks its claim up, and writes at most one identity, for the user it found or for one it
creates.  `resolve` attaches only where the claim's own channel led to the user already, and
creates only where it led to nobody, so its user is the owner of the channels that are written
(`serial_signIn`), and the invariant is kept (`LinksOk.of_view`).  What the profile page writes
into `users.email` is never looked at.

`linking_sound`: two users never hold one channel, and the account of an existing user is opened
only to a sign-in that proved a channel of an identity which that user holds.
-/

namespace Naivolt

open Foundation Database

/-! ## The invariant -/

/-- The identities are in order. -/
structure LinksOk (db : AuthDb) : Prop where
  verified : ∀ i r, db.identities.get? i = some r → r.verifiedAt ≠ none
  normal : ∀ i r e, db.identities.get? i = some r → r.email = some e →
    normalizeEmail e = some e
  emailOwner : ∀ i j r t e, db.identities.get? i = some r → db.identities.get? j = some t →
    r.email = some e → t.email = some e → r.userId = t.userId
  phoneOwner : ∀ i j r t n, db.identities.get? i = some r → db.identities.get? j = some t →
    r.phone = some n → t.phone = some n → r.userId = t.userId

/-- The channels a claim proves lead to no one but the user. -/
structure Owns (claim : IdentityClaim) (userId : Uuid) (db : AuthDb) : Prop where
  normal : ∀ e, claim.verifiedEmail = some e → normalizeEmail e = some e
  email : ∀ e i r, claim.verifiedEmail = some e → db.identities.get? i = some r →
    r.email = some e → r.userId = userId
  phone : ∀ n i r, claim.verifiedPhone = some n → db.identities.get? i = some r →
    r.phone = some n → r.userId = userId

/-- The user holds a verified identity of a channel that the claim proves. -/
def KnownUser (claim : IdentityClaim) (userId : Uuid) (db : AuthDb) : Prop :=
  ∃ i r, db.identities.get? i = some r ∧ r.userId = userId ∧ r.verifiedAt ≠ none ∧
    claim.Vouches r

/-! ## What is written -/

/-- Written on behalf of a user: an identity only of the claim, a session only of theirs. -/
def AuthWrite.For (claim : Option IdentityClaim) (userId : Uuid) : AuthWrite → Prop
  | .identity _ r => ∃ c now, claim = some c ∧ r = c.row userId now
  | .session _ t => t.userId = userId
  | _ => True

/-- Written before anything is known of the user. -/
def AuthWrite.Linkless : AuthWrite → Prop
  | .identity .. | .session .. | .user .. => False
  | _ => True

lemma AuthWrite.Linkless.for {w : AuthWrite} (h : w.Linkless) (claim : Option IdentityClaim)
    (userId : Uuid) : w.For claim userId := by
  cases w with
  | identity | session | user => exact h.elim
  | _ => trivial

section View

variable {cfg : AuthConfig} {ws : List AuthWrite} {db db' : AuthDb}

/-- An identity is one from before, or was written. -/
lemma identities_of_view (h : (accounts cfg).view ws db = some db') {i : Uuid} {r : Identity}
    (hr : db'.identities.get? i = some r) :
    db.identities.get? i = some r ∨ AuthWrite.identity i r ∈ ws := by
  induction ws generalizing db with
  | nil =>
      cases h
      exact .inl hr
  | cons w ws ih =>
      obtain ⟨db₁, h₁, h₂⟩ := Option.bind_eq_some_iff.mp (view_cons ▸ h)
      rcases ih h₂ with hold | hmem
      · cases w with
        | identity j row =>
            obtain ⟨t, ht, rfl⟩ := Option.map_eq_some_iff.mp h₁
            simp only [Table.get?_insert ht] at hold
            split at hold
            · rename_i hij
              cases hold
              exact .inr (hij ▸ List.mem_cons_self)
            · exact .inl hold
        | user j row | challenge j row | session j row =>
            obtain ⟨t, ht, rfl⟩ := Option.map_eq_some_iff.mp h₁
            exact .inl hold
        | _ =>
            cases h₁
            exact .inl hold
      · exact .inr (List.mem_cons_of_mem _ hmem)

/-- What is written before anything is known of the user leaves the identities and users. -/
lemma view_linkless (hws : ∀ w ∈ ws, w.Linkless) (h : (accounts cfg).view ws db = some db') :
    db'.identities = db.identities ∧ ∀ u, db.users.get? u ≠ none → db'.users.get? u ≠ none := by
  induction ws generalizing db with
  | nil =>
      cases h
      exact ⟨rfl, fun _ hu => hu⟩
  | cons w ws ih =>
      obtain ⟨db₁, h₁, h₂⟩ := Option.bind_eq_some_iff.mp (view_cons ▸ h)
      obtain ⟨hid, huser⟩ := ih (fun w hw => hws w (List.mem_cons_of_mem _ hw)) h₂
      suffices db₁.identities = db.identities ∧
          ∀ u, db.users.get? u ≠ none → db₁.users.get? u ≠ none from
        ⟨hid.trans this.1, fun u hu => huser u (this.2 u hu)⟩
      have hw := hws w List.mem_cons_self
      cases w with
      | identity | session | user => exact hw.elim
      | challenge j row =>
          obtain ⟨t, -, rfl⟩ := Option.map_eq_some_iff.mp h₁
          exact ⟨rfl, fun _ hu => hu⟩
      | editUser j patch =>
          cases h₁
          refine ⟨rfl, fun u hu => ?_⟩
          simp only [Table.get?_modify]
          split <;> simpa using hu
      | _ =>
          cases h₁
          exact ⟨rfl, fun _ hu => hu⟩

/-- A session that was not there before was written, for the user it is of. -/
lemma sessions_of_view (h : (accounts cfg).view ws db = some db') {i : Uuid} {t : Session}
    (ht : db'.sessions.get? i = some t) :
    (∃ t₀, db.sessions.get? i = some t₀ ∧ t₀.userId = t.userId) ∨
      ∃ t₀, AuthWrite.session i t₀ ∈ ws ∧ t₀.userId = t.userId := by
  induction ws generalizing db with
  | nil =>
      cases h
      exact .inl ⟨t, ht, rfl⟩
  | cons w ws ih =>
      obtain ⟨db₁, h₁, h₂⟩ := Option.bind_eq_some_iff.mp (view_cons ▸ h)
      rcases ih h₂ with ⟨t₁, hold, hu⟩ | ⟨t₁, hmem, hu⟩
      · cases w with
        | session j row =>
            obtain ⟨s, hs, rfl⟩ := Option.map_eq_some_iff.mp h₁
            simp only [Table.get?_insert hs] at hold
            split at hold
            · rename_i hij
              cases hold
              exact .inr ⟨t₁, hij ▸ List.mem_cons_self, hu⟩
            · exact .inl ⟨t₁, hold, hu⟩
        | user j row | challenge j row | identity j row =>
            obtain ⟨s, -, rfl⟩ := Option.map_eq_some_iff.mp h₁
            exact .inl ⟨t₁, hold, hu⟩
        | rotated j now | revoked j now =>
            cases h₁
            simp only [Table.get?_modify] at hold
            split at hold
            · obtain ⟨t₀, ht₀, rfl⟩ := Option.map_eq_some_iff.mp hold
              exact .inl ⟨t₀, ht₀, hu⟩
            · exact .inl ⟨t₁, hold, hu⟩
        | _ =>
            cases h₁
            exact .inl ⟨t₁, hold, hu⟩
      · exact .inr ⟨t₁, List.mem_cons_of_mem _ hmem, hu⟩

/-- **An identity for the owner of its channels keeps the identities in order.** -/
lemma LinksOk.of_view {claim : Option IdentityClaim} {userId : Uuid} (hI : LinksOk db)
    (hws : ∀ w ∈ ws, w.For claim userId) (howns : ∀ c, claim = some c → Owns c userId db)
    (h : (accounts cfg).view ws db = some db') : LinksOk db' := by
  -- A row is an old one, or the row of the claim.
  have hrow : ∀ i r, db'.identities.get? i = some r → db.identities.get? i = some r ∨
      ∃ c now, Owns c userId db ∧ r = c.row userId now := by
    intro i r hr
    refine (identities_of_view h hr).imp_right fun hmem => ?_
    obtain ⟨c, now, hc, rfl⟩ := hws _ hmem
    exact ⟨c, now, howns c hc, rfl⟩
  refine ⟨fun i r hr => ?_, fun i r e hr he => ?_, fun i j r t e hr ht hre hte => ?_,
    fun i j r t n hr ht hrn htn => ?_⟩
  · rcases hrow i r hr with hold | ⟨c, now, -, rfl⟩
    · exact hI.verified i r hold
    · exact Option.some_ne_none _
  · rcases hrow i r hr with hold | ⟨c, now, howns, rfl⟩
    · exact hI.normal i r e hold he
    · exact howns.normal e he
  · rcases hrow i r hr with hr | ⟨c, now, hc, rfl⟩ <;>
      rcases hrow j t ht with ht | ⟨c', now', hc', rfl⟩
    · exact hI.emailOwner i j r t e hr ht hre hte
    · exact hc'.email e i r hte hr hre
    · exact (hc.email e j t hre ht hte).symm
    · rfl
  · rcases hrow i r hr with hr | ⟨c, now, hc, rfl⟩ <;>
      rcases hrow j t ht with ht | ⟨c', now', hc', rfl⟩
    · exact hI.phoneOwner i j r t n hr ht hrn htn
    · exact hc'.phone n i r htn hr hrn
    · exact (hc.phone n j t hrn ht htn).symm
    · rfl

end View

/-! ## The statements -/

/-- Statements that write neither identities nor users nor sessions. -/
def AuthOp.Linkless : AuthOp → Prop
  | .attachIdentity .. | .insertUser .. | .insertSession .. => False
  | _ => True

/-- Statements on behalf of a user. -/
def AuthOp.For (claim : Option IdentityClaim) (userId : Uuid) : AuthOp → Prop
  | .attachIdentity u c => claim = some c ∧ u = userId
  | .insertSession u _ => u = userId
  | .insertUser .. => False
  | _ => True

lemma linkless_writes {op : AuthOp} {ω : AuthOracle} {seen current : AuthDb} {r : op.Res}
    {ws : List AuthWrite} {ls : List AuthLock} (hop : op.Linkless)
    (h : execAuth ω seen current op = some (r, ws, ls)) : ∀ w ∈ ws, w.Linkless := by
  intro w hw
  cases writes_of_exec h w hw with
  | attachIdentity | insertUser | insertSession => exact hop.elim
  | _ => trivial

lemma for_writes {claim : Option IdentityClaim} {userId : Uuid} {op : AuthOp} {ω : AuthOracle}
    {seen current : AuthDb} {r : op.Res} {ws : List AuthWrite} {ls : List AuthLock}
    (hop : op.For claim userId) (h : execAuth ω seen current op = some (r, ws, ls)) :
    ∀ w ∈ ws, w.For claim userId := by
  intro w hw
  cases writes_of_exec h w hw with
  | attachIdentity =>
      obtain ⟨hc, rfl⟩ := hop
      exact ⟨_, _, hc, rfl⟩
  | insertSession =>
      cases hop
      rfl
  | insertUser => exact hop.elim
  | _ => trivial

/-! ## A request by itself -/

section Serial

variable {cfg : AuthConfig} {β : Type} {writes : List AuthWrite} {locks : List AuthLock}
  {db : AuthDb}

/-- The weakest precondition of statements with no other transaction in between. -/
abbrev SerialWp (cfg : AuthConfig) (Post : β → List AuthWrite → List AuthLock → AuthDb → Prop) :
    AuthTxn β → List AuthWrite → List AuthLock → AuthDb → Prop :=
  Wp (accounts cfg) anyStatement (fun _ => True) (fun _ => Eq) Post

/-- The rule for one statement. -/
lemma serial_call {Post : β → List AuthWrite → List AuthLock → AuthDb → Prop} {op : AuthOp}
    {k : op.Res → AuthTxn β}
    (h : ∀ ω seen r ws ls, (accounts cfg).view writes db = some seen →
      execAuth ω seen seen op = some (r, ws, ls) →
      SerialWp cfg Post (k r) (writes ++ ws) (locks ++ ls) db) :
    SerialWp cfg Post (.call op k) writes locks db := by
  rintro _ _ rfl _ rfl _ ω r ws ls - he
  obtain ⟨seen, current, hseen, hcur, he⟩ := statement_eq_some.mp he
  rw [hseen, Option.some.injEq] at hcur
  subst hcur
  exact h ω seen r ws ls hseen he

/-- The rule for a program that works for one user. -/
lemma serial_for {A : β → Prop} {p : AuthTxn β} {claim : Option IdentityClaim} {userId : Uuid}
    (hp : p.Within (AuthOp.For claim userId) A) (hw : ∀ w ∈ writes, w.For claim userId) :
    SerialWp cfg (fun b ws _ db' => A b ∧ (∀ w ∈ ws, w.For claim userId) ∧ db = db') p writes
      locks db :=
  Wp.within (S := Eq) (fun _ _ _ h => h) (fun _ _ _ h h' => h.trans h')
    (fun _ _ _ _ _ _ _ hop => for_writes hop) hp hw

/-! ### The lookup -/

lemma userWith_congr {db' : AuthDb} (h : db'.identities = db.identities) (p : Identity → Bool) :
    userWith db' p = userWith db p := by
  simp only [userWith, h]

lemma userWith_some {p : Identity → Bool} {u : Uuid} (h : userWith db p = some u) :
    ∃ i r, db.identities.get? i = some r ∧ p r = true ∧ r.userId = u := by
  obtain ⟨⟨i, r⟩, hr, rfl⟩ := Option.map_eq_some_iff.mp h
  refine ⟨i, r, Table.get?_eq_some_iff.mpr (List.mem_of_find?_eq_some hr), ?_, rfl⟩
  have hp := List.find?_some hr
  exact hp

lemma userWith_none {p : Identity → Bool} (h : userWith db p = none) :
    ∀ i r, db.identities.get? i = some r → p r = false := by
  intro i r hr
  have hfind := Option.map_eq_none_iff.mp h
  simpa using List.find?_eq_none.mp hfind (i, r) (Table.get?_eq_some_iff.mp hr)

/-- What the lookup of a claim finds. -/
structure Finds (claim : IdentityClaim) (found : ExistingMatches) (db : AuthDb) : Prop where
  bySubject : found.bySubject = userWith db fun i =>
    i.provider = claim.provider && i.subject = claim.subject
  byEmail : ∀ e, claim.verifiedEmail = some e → found.byVerifiedEmail = userWith db fun i =>
    i.email = some e && i.verifiedAt.isSome
  byPhone : ∀ n, claim.verifiedPhone = some n → found.byVerifiedPhone = userWith db fun i =>
    i.phone = some n && i.verifiedAt.isSome

lemma serial_lookupMatches {claim : IdentityClaim} (hw : ∀ w ∈ writes, w.Linkless) :
    SerialWp cfg (fun found ws _ db' => Finds claim found db ∧ ws = writes ∧ db = db')
      (lookupMatches claim) writes locks db := by
  have hsame : ∀ {seen}, (accounts cfg).view writes db = some seen → ∀ p,
      userWith seen p = userWith db p := fun h => userWith_congr (view_linkless hw h).1
  simp only [lookupMatches, sql, Prog.perform_bind]
  refine serial_call fun ω seen r ws ls hseen he => ?_
  cases he
  simp only [List.append_nil, hsame hseen]
  rcases claim with ⟨provider, subject, _ | email, _ | phone⟩
  · rintro _ rfl -
    exact ⟨⟨rfl, fun _ h => (by cases h), fun _ h => (by cases h)⟩, rfl, rfl⟩
  · refine serial_call fun ω seen r ws ls hseen he => ?_
    cases he
    simp only [List.append_nil, hsame hseen]
    rintro _ rfl -
    exact ⟨⟨rfl, fun _ h => (by cases h), fun _ h => (by cases h; rfl)⟩, rfl, rfl⟩
  · refine serial_call fun ω seen r ws ls hseen he => ?_
    cases he
    simp only [List.append_nil, hsame hseen]
    rintro _ rfl -
    exact ⟨⟨rfl, fun _ h => (by cases h; rfl), fun _ h => (by cases h)⟩, rfl, rfl⟩
  · refine serial_call fun ω seen r ws ls hseen he => ?_
    cases he
    simp only [List.append_nil, hsame hseen]
    refine serial_call fun ω seen r ws ls hseen he => ?_
    cases he
    simp only [List.append_nil, hsame hseen]
    rintro _ rfl -
    exact ⟨⟨rfl, fun _ h => (by cases h; rfl), fun _ h => (by cases h; rfl)⟩, rfl, rfl⟩

/-- A row of the channel was found. -/
lemma Finds.emailOwner {claim : IdentityClaim} {found : ExistingMatches}
    (h : Finds claim found db) (hI : LinksOk db) {e : String} (he : claim.verifiedEmail = some e)
    {i : Uuid} {r : Identity} (hr : db.identities.get? i = some r) (hre : r.email = some e) :
    found.byVerifiedEmail = some r.userId := by
  have hv := Option.isSome_iff_ne_none.mpr (hI.verified i r hr)
  rw [h.byEmail e he]
  rcases hu : userWith db fun i => i.email = some e && i.verifiedAt.isSome with _ | u
  · simpa [hre, hv] using userWith_none hu i r hr
  · obtain ⟨j, t, ht, hp, rfl⟩ := userWith_some hu
    simp only [Bool.and_eq_true, decide_eq_true_eq] at hp
    rw [hI.emailOwner i j r t e hr ht hre hp.1]

lemma Finds.phoneOwner {claim : IdentityClaim} {found : ExistingMatches}
    (h : Finds claim found db) (hI : LinksOk db) {n : String} (hn : claim.verifiedPhone = some n)
    {i : Uuid} {r : Identity} (hr : db.identities.get? i = some r) (hrn : r.phone = some n) :
    found.byVerifiedPhone = some r.userId := by
  have hv := Option.isSome_iff_ne_none.mpr (hI.verified i r hr)
  rw [h.byPhone n hn]
  rcases hu : userWith db fun i => i.phone = some n && i.verifiedAt.isSome with _ | u
  · simpa [hrn, hv] using userWith_none hu i r hr
  · obtain ⟨j, t, ht, hp, rfl⟩ := userWith_some hu
    simp only [Bool.and_eq_true, decide_eq_true_eq] at hp
    rw [hI.phoneOwner i j r t n hr ht hrn hp.1]

/-- A user that the lookup found holds an identity of a channel of the claim. -/
lemma Finds.known {claim : IdentityClaim} {found : ExistingMatches} {u : Uuid}
    (h : Finds claim found db) (hI : LinksOk db)
    (hu : resolve claim found = .existing u ∨ resolve claim found = .linkTo u) :
    KnownUser claim u db := by
  rcases resolve_existing_or_link hu with hsub | ⟨hsome, hmail⟩ | ⟨hsome, hphone⟩
  · obtain ⟨i, r, hr, hp, rfl⟩ := userWith_some (h.bySubject ▸ hsub)
    simp only [Bool.and_eq_true, decide_eq_true_eq] at hp
    exact ⟨i, r, hr, rfl, hI.verified i r hr, .inl hp⟩
  · obtain ⟨e, he⟩ := Option.isSome_iff_exists.mp hsome
    obtain ⟨i, r, hr, hp, rfl⟩ := userWith_some (h.byEmail e he ▸ hmail)
    simp only [Bool.and_eq_true, decide_eq_true_eq] at hp
    exact ⟨i, r, hr, rfl, hI.verified i r hr, .inr (.inl ⟨hsome, hp.1.trans he.symm⟩)⟩
  · obtain ⟨n, hn⟩ := Option.isSome_iff_exists.mp hsome
    obtain ⟨i, r, hr, hp, rfl⟩ := userWith_some (h.byPhone n hn ▸ hphone)
    simp only [Bool.and_eq_true, decide_eq_true_eq] at hp
    exact ⟨i, r, hr, rfl, hI.verified i r hr, .inr (.inr ⟨hsome, hp.1.trans hn.symm⟩)⟩

/-- Addresses are in their normal form. -/
def IdentityClaim.Normal (claim : IdentityClaim) : Prop :=
  ∀ e, claim.verifiedEmail = some e → normalizeEmail e = some e

/-- **Linked to by a channel, the user is its owner.** -/
lemma Finds.owns_link {claim : IdentityClaim} {found : ExistingMatches} {u : Uuid}
    (h : Finds claim found db) (hI : LinksOk db) (hn : claim.Normal)
    (hu : resolve claim found = .linkTo u) : Owns claim u db := by
  obtain ⟨hmail, hphone⟩ := resolve_link hu
  refine ⟨hn, fun e i r he hr hre => ?_, fun n i r hn hr hrn => ?_⟩
  · exact hmail (by simp [he]) _ (h.emailOwner hI he hr hre)
  · exact hphone (by simp [hn]) _ (h.phoneOwner hI hn hr hrn)

/-- **A channel for which a user is created had no owner.** -/
lemma Finds.owns_new {claim : IdentityClaim} {found : ExistingMatches}
    (h : Finds claim found db) (hI : LinksOk db) (hn : claim.Normal)
    (hu : resolve claim found = .createNew) (u : Uuid) : Owns claim u db := by
  obtain ⟨-, hmail, hphone⟩ := resolve_createNew hu
  refine ⟨hn, fun e i r he hr hre => ?_, fun n i r hn hr hrn => ?_⟩
  · exact absurd (h.emailOwner hI he hr hre) (by simp [hmail (by simp [he])])
  · exact absurd (h.phoneOwner hI hn hr hrn) (by simp [hphone (by simp [hn])])

/-! ### Signing in -/

/-- An answer to a sign-in of the user, or a failure. -/
def AnswersTo (u : Uuid) : AuthAnswer → Prop
  | .failed _ => True
  | .signedIn userId .. => userId = u
  | _ => False

instance (u : Uuid) (a : AuthAnswer) : Decidable (AnswersTo u a) := by
  cases a <;> unfold AnswersTo <;> infer_instance

lemma within_openSession (claim : Option IdentityClaim) (u : Uuid) (new : Bool) (now : Time) :
    (openSession cfg u new now).Within (AuthOp.For claim u) (AnswersTo u) := by
  simp only [openSession, startSession, issueRefreshToken, sql, Prog.perform_bind,
    Prog.call_bind, Prog.pure_eq, Prog.ret_bind]
  refine ⟨trivial, fun user => ?_⟩
  rcases user with _ | user
  · trivial
  · refine ⟨trivial, fun secret => ⟨trivial, fun family => ⟨rfl, fun ok => ?_⟩⟩⟩
    cases ok with
    | false => trivial
    | true => exact ⟨trivial, fun access => by rcases access with _ | access; exacts [trivial, rfl]⟩

lemma within_insertWallets_for (claim : Option IdentityClaim) (u : Uuid)
    (addresses : List DerivedAddress) :
    (insertWallets u addresses).Within (AuthOp.For claim u) anyResult := by
  induction addresses with
  | nil => trivial
  | cons address rest ih =>
      refine ⟨trivial, fun ok => ?_⟩
      cases ok with
      | false => trivial
      | true => exact ih

/-- The rest of `create_user` works for the user that was inserted. -/
lemma within_createUser_for (claim : IdentityClaim) (u : Uuid) :
    Prog.Within (AuthOp.For (some claim) u) (fun r => r = none ∨ r = some u)
      (do
        sql (.attachIdentity u claim)
        match ← sql (.addressIndex u) with
        | none => pure none
        | some index =>
          if index < 2 ^ 32 then
            match ← sql (.deriveAll index) with
            | none => pure none
            | some derived =>
              if ← insertWallets u derived then pure (some u) else pure none
          else pure none : AuthTxn (Option Uuid)) := by
  simp only [sql, Prog.perform_bind]
  refine ⟨⟨rfl, rfl⟩, fun _ => ⟨trivial, fun index => ?_⟩⟩
  rcases index with _ | index
  · exact .inl rfl
  · beta_reduce
    simp only
    split
    · refine ⟨trivial, fun derived => ?_⟩
      rcases derived with _ | derived
      · exact .inl rfl
      · refine (within_insertWallets_for (some claim) u derived).bind fun ok _ => ?_
        cases ok with
        | false => exact .inl rfl
        | true => exact .inr rfl
    · exact .inl rfl

/-- What a request leaves that worked for a user: an identity only for the owner of its channels,
and no session but theirs, who if they are no new user hold a channel that was proved. -/
structure Signed (claim : IdentityClaim) (u : Uuid) (c : Option IdentityClaim) (a : AuthAnswer)
    (ws : List AuthWrite) (db : AuthDb) : Prop where
  answers : AnswersTo u a
  written : ∀ w ∈ ws, w.For c u
  owns : ∀ c', c = some c' → Owns c' u db
  known : db.users.get? u ≠ none → KnownUser claim u db

/-- A request that signs nobody in ends in an error. -/
def SignsIn (claim : IdentityClaim) (a : AuthAnswer) (ws : List AuthWrite) (db : AuthDb) : Prop :=
  (∃ e, a = .failed e) ∨ ∃ u c, Signed claim u c a ws db

lemma serial_ret {Post : β → List AuthWrite → List AuthLock → AuthDb → Prop} {b : β}
    (h : Post b writes locks db) : SerialWp cfg Post (.ret b) writes locks db := by
  rintro _ rfl -
  exact h

/-- **A sign-in opens the account of an owner of its claim, or a new one.** -/
lemma serial_signIn {claim : IdentityClaim} {now : Time} (hI : LinksOk db) (hn : claim.Normal)
    (hw : ∀ w ∈ writes, w.Linkless) :
    SerialWp cfg (fun a ws _ _ => SignsIn claim a ws db) (signIn cfg claim now) writes locks
      db := by
  simp only [signIn]
  refine Wp.bind (fun _ _ => rfl) trivial (serial_lookupMatches hw) ?_
  rintro found ws ls _ - ⟨hfound, rfl, rfl⟩
  have hfor : ∀ c u, ∀ w ∈ ws, AuthWrite.For c u w := fun c u w hmem => (hw w hmem).for c u
  have hsigned : ∀ {c u p ws locks}, p.Within (AuthOp.For c u) (AnswersTo u) →
      (∀ w ∈ ws, AuthWrite.For c u w) → (∀ c', c = some c' → Owns c' u db) →
      (db.users.get? u ≠ none → KnownUser claim u db) →
      SerialWp cfg (fun a ws _ _ => SignsIn claim a ws db) p ws locks db := by
    intro c u p ws locks hp hws howns hknown
    refine (serial_for hp hws).mono fun a ws ls _ _ ⟨ha, hws, _⟩ => ?_
    exact .inr ⟨u, c, ha, hws, howns, hknown⟩
  rcases hr : resolve claim found with u | u | _ | ⟨a, b⟩
  · exact hsigned (within_openSession none u false now) (hfor none u) (fun _ h => (by cases h))
      fun _ => hfound.known hI (.inl hr)
  · refine hsigned (c := some claim) (p := .call (.attachIdentity u claim) _)
      ⟨⟨rfl, rfl⟩, fun _ => within_openSession (some claim) u false now⟩ (hfor _ u) ?_
      fun _ => hfound.known hI (.inr hr)
    rintro _ ⟨⟩
    exact hfound.owns_link hI hn hr
  · simp only [createUser, sql, Prog.perform_bind, Prog.call_bind]
    refine serial_call fun ω seen r ws' ls' hseen he => ?_
    simp only [execAuth] at he
    split at he
    · cases he
      exact serial_ret (.inl ⟨_, rfl⟩)
    · rename_i hfree
      cases he
      -- The identifier of the new user names no user yet.
      have hnew : db.users.get? ω.uuid = none := by
        by_contra hsome
        exact hfree (by simp [Option.isSome_iff_ne_none.mpr ((view_linkless hw hseen).2 _ hsome)])
      refine hsigned (c := some claim) (u := ω.uuid) ?_ ?_ ?_ fun h => absurd hnew h
      · refine Prog.Within.bind (within_createUser_for claim ω.uuid) fun r hr => ?_
        rcases hr with rfl | rfl
        · trivial
        · exact within_openSession (some claim) ω.uuid true now
      · intro w hmem
        rcases List.mem_append.mp hmem with hmem | hmem
        · exact hfor _ _ w hmem
        · cases List.mem_singleton.mp hmem
          trivial
      · rintro _ ⟨⟩
        exact hfound.owns_new hI hn hr _
  · exact serial_ret (.inl ⟨_, rfl⟩)

/-! ### Every request -/

/-- The channel that a sign-in proves: by an unused code that was sent there, or by a verified
Google token. -/
inductive Proves (cfg : AuthConfig) (db : AuthDb) : AuthRequest → IdentityClaim → Prop where
  | code {input code : String} {identifier : Identifier} {i : Uuid} {c : OtpChallenge} :
      parseIdentifier input = .ok identifier → db.challenges.get? i = some c →
      c.destination = identifier.subject → c.consumedAt = none →
      cfg.verifyCode c.codeHash code = some true →
      Proves cfg db (.verifyOtp input code) (.fromVerifiedOtp identifier)
  | google {claims : OidcClaims} {claim : IdentityClaim} :
      claimsToIdentity claims = some claim → Proves cfg db (.google (some claims)) claim

omit db in
lemma parseIdentifier_email {input v : String} (h : parseIdentifier input = .ok (.email v)) :
    normalizeEmail v = some v := by
  simp only [parseIdentifier] at h
  split at h
  · cases h
  · split at h
    · split at h <;> cases h
      exact normalizeEmail_idem ‹_›
    · split at h <;> cases h

lemma Proves.normal {req : AuthRequest} {claim : IdentityClaim} (h : Proves cfg db req claim) :
    claim.Normal := by
  intro e he
  cases h with
  | @code input code identifier i c hparse =>
      cases identifier with
      | phone v => cases he
      | email v =>
          cases he
          exact parseIdentifier_email hparse
  | @google claims claim hclaim =>
      simp only [claimsToIdentity, Option.ite_none_left_eq_some, Option.some.injEq] at hclaim
      obtain ⟨-, rfl⟩ := hclaim
      simp only [Option.ite_none_right_eq_some, Option.bind_eq_some_iff] at he
      obtain ⟨-, raw, -, hnorm⟩ := he
      exact normalizeEmail_idem hnorm

/-- The answer opens no account. -/
def AuthAnswer.SignsNobody : AuthAnswer → Prop
  | .signedIn .. => False
  | _ => True

/-- What a request leaves: it signs in the owner of a claim that it proved, or it neither signs
in nor writes an identity. -/
def Links (cfg : AuthConfig) (db : AuthDb) (req : AuthRequest) (a : AuthAnswer)
    (ws : List AuthWrite) : Prop :=
  (∃ claim, Proves cfg db req claim ∧ SignsIn claim a ws db) ∨
    (a.SignsNobody ∧ ∃ u, ∀ w ∈ ws, w.For none u)

lemma links_linkless {req : AuthRequest} {a : AuthAnswer} {ws : List AuthWrite}
    (ha : a.SignsNobody) (hws : ∀ w ∈ ws, w.Linkless) : Links cfg db req a ws :=
  .inr ⟨ha, 0, fun w hw => (hws w hw).for none 0⟩

/-- `SELECT … FROM otp_challenges` finds an unused code of the destination. -/
lemma selectChallenge_row {destination : String} {ω : AuthOracle}
    {row : Option (Uuid × OtpChallenge)} {ws : List AuthWrite} {ls : List AuthLock}
    (h : execAuth ω db db (.selectChallenge destination) = some (row, ws, ls)) :
    ws = [] ∧ ∀ x, row = some x → db.challenges.get? x.1 = some x.2 ∧
      x.2.destination = destination ∧ x.2.consumedAt = none := by
  simp only [execAuth] at h
  split at h
  · cases h
    exact ⟨rfl, fun x hx => by cases hx⟩
  · rename_i id hhead
    split at h
    · cases h
      refine ⟨rfl, fun x hx => ?_⟩
      obtain ⟨c, hc, rfl⟩ := Option.map_eq_some_iff.mp hx
      obtain ⟨⟨j, t⟩, ht, rfl⟩ := List.mem_map.mp (List.mem_of_head? hhead)
      obtain ⟨hrow, hp⟩ := List.mem_filter.mp ht
      have ht' := Table.get?_eq_some_iff.mpr hrow
      rw [hc] at ht'
      cases ht'
      exact ⟨hc, of_decide_eq_true hp⟩
    · cases h
      exact ⟨rfl, fun x hx => by cases hx⟩

lemma serial_verifyOtp {input code : String} (hI : LinksOk db) :
    SerialWp cfg (fun a ws _ _ => Links cfg db (.verifyOtp input code) a ws)
      (Naivolt.verifyOtp cfg input code) [] [] db := by
  unfold Naivolt.verifyOtp
  split
  · exact serial_ret (links_linkless trivial fun w hw => (by cases hw))
  · rename_i identifier hparse
    simp only [sql, Prog.perform_bind]
    refine serial_call fun ω₀ _ now _ _ _ he => ?_
    cases he
    refine serial_call fun ω seen row ws ls hseen he => ?_
    cases hseen
    obtain ⟨rfl, hrow⟩ := selectChallenge_row he
    rcases row with _ | ⟨i, c⟩
    · exact serial_ret (links_linkless trivial fun w hw => (by cases hw))
    · obtain ⟨hc, hdest, hunused⟩ := hrow _ rfl
      refine serial_call fun ω _ _ ws ls _ he => ?_
      cases he
      have hw : ∀ w ∈ ([] ++ [] ++ [] ++ [AuthWrite.attempt i
          (c.verify cfg.verifyCode code ω₀.now).2.attempts
          (c.verify cfg.verifyCode code ω₀.now).2.consumedAt]), w.Linkless := by
        intro w hw
        cases List.mem_singleton.mp hw
        trivial
      split
      · exact serial_ret (links_linkless trivial hw)
      · rename_i hok
        have hproves : Proves cfg db (.verifyOtp input code) (.fromVerifiedOtp identifier) :=
          .code hparse hc hdest hunused (OtpChallenge.verify_ok hok).1
        refine (serial_signIn hI hproves.normal hw).mono fun a ws ls _ _ h => ?_
        exact .inl ⟨_, hproves, h⟩

lemma serial_googleSignIn {verified : Option OidcClaims} (hI : LinksOk db) :
    SerialWp cfg (fun a ws _ _ => Links cfg db (.google verified) a ws)
      (googleSignIn cfg verified) [] [] db := by
  have hnil : ∀ w ∈ ([] : List AuthWrite), w.Linkless := fun w hw => by cases hw
  unfold googleSignIn
  split
  · exact serial_ret (links_linkless trivial hnil)
  · split
    · exact serial_ret (links_linkless trivial hnil)
    · rename_i claim hclaim
      obtain ⟨claims, rfl, hclaims⟩ := Option.bind_eq_some_iff.mp hclaim
      split
      · simp only [sql, Prog.perform_bind]
        refine serial_call fun ω _ now _ _ _ he => ?_
        cases he
        have hproves : Proves cfg db (.google (some claims)) claim := .google hclaims
        refine (serial_signIn hI hproves.normal hnil).mono fun a ws ls _ _ h => ?_
        exact .inl ⟨_, hproves, h⟩
      · exact serial_ret (links_linkless trivial hnil)

/-- Statements that write no identity and a session only of the user's own leave that. -/
lemma serial_within {p : AuthTxn AuthAnswer} {req : AuthRequest} {u : Uuid}
    (hp : p.Within (AuthOp.For none u) AuthAnswer.SignsNobody)
    (hw : ∀ w ∈ writes, w.For none u) :
    SerialWp cfg (fun a ws _ _ => Links cfg db req a ws) p writes locks db :=
  (serial_for hp hw).mono fun _ _ _ _ _ ⟨ha, hws, _⟩ => .inr ⟨ha, u, hws⟩

lemma within_rotate (id userId familyId : Uuid) (now : Time) :
    (rotate cfg id userId familyId now).Within (AuthOp.For none userId)
      AuthAnswer.SignsNobody := by
  simp only [rotate, issueRefreshToken, sql, Prog.perform_bind, Prog.call_bind, Prog.pure_eq,
    Prog.ret_bind]
  refine ⟨trivial, fun _ => ⟨trivial, fun tier => ?_⟩⟩
  rcases tier with _ | tier
  · trivial
  · refine ⟨trivial, fun secret => ⟨rfl, fun ok => ?_⟩⟩
    cases ok with
    | false => trivial
    | true => exact ⟨trivial, fun access => by rcases access with _ | access <;> trivial⟩

lemma serial_refresh {presented : Option String} :
    SerialWp cfg (fun a ws _ _ => Links cfg db (.refresh presented) a ws)
      (Naivolt.refresh cfg presented) [] [] db := by
  simp only [Naivolt.refresh, sql, Prog.perform_bind]
  refine serial_call fun ω _ now _ _ _ he => ?_
  cases he
  rcases presented with _ | secret
  · exact serial_ret (.inr ⟨trivial, 0, fun w hw => (by cases hw)⟩)
  · refine serial_call fun ω seen row ws ls hseen he => ?_
    have hws : ∀ w ∈ ([] ++ [] ++ ws), w.Linkless :=
      @linkless_writes (.selectSession (cfg.hashRefresh secret)) _ _ _ _ _ _ trivial he
    rcases row with _ | ⟨id, stored⟩
    · exact serial_ret (links_linkless trivial hws)
    · simp only
      split
      · exact serial_within (u := 0) ⟨trivial, fun _ => trivial⟩ fun w hw => (hws w hw).for _ _
      · exact serial_ret (links_linkless trivial hws)
      · exact serial_within (within_rotate _ _ _ _) fun w hw => (hws w hw).for _ _

lemma serial_authProgram (hI : LinksOk db) (req : AuthRequest) :
    SerialWp cfg (fun a ws _ _ => Links cfg db req a ws) (authProgram cfg req) [] [] db := by
  have hnil : ∀ w ∈ ([] : List AuthWrite), w.For none 0 := fun w hw => by cases hw
  have haside : ∀ p : AuthTxn AuthAnswer, p.Within AuthOp.Aside AuthAnswer.Plain →
      SerialWp cfg (fun a ws _ _ => Links cfg db req a ws) p [] [] db := fun p hp =>
    serial_within (hp.mono (fun op h => by cases op <;> trivial)
      fun a h => by cases a <;> trivial) hnil
  cases req with
  | requestOtp identifier => exact haside _ (within_requestOtp cfg identifier)
  | verifyOtp identifier code => exact serial_verifyOtp hI
  | google verified => exact serial_googleSignIn hI
  | refresh presented => exact serial_refresh
  | logout presented =>
      refine serial_within (u := 0) ?_ hnil
      cases presented with
      | none => trivial
      | some secret => exact ⟨trivial, fun _ => ⟨trivial, fun _ => trivial⟩⟩
  | updateMe userId body => exact haside _ (within_updateMe cfg userId body)

end Serial

/-! ## Soundness -/

section Soundness

variable {cfg : AuthConfig} {db db' : AuthDb}

lemma linksOk_empty : LinksOk .empty where
  verified _ _ h := by cases h
  normal _ _ _ h := by cases h
  emailOwner _ _ _ _ _ h := by cases h
  phoneOwner _ _ _ _ _ h := by cases h

/-- One request keeps the identities in order. -/
lemma LinksOk.alone (hI : LinksOk db) {req : AuthRequest} {ωs : List AuthOracle} {a : AuthAnswer}
    (h : (accounts cfg).alone (authProgram cfg req) ωs [] db = some (a, db')) : LinksOk db' := by
  obtain ⟨ws, ls, hlinks, hcommit, hdrop⟩ := Wp.of_alone trivial (serial_authProgram hI req) h
  cases hc : (accounts cfg).commits a with
  | false => exact hdrop hc ▸ hI
  | true =>
      rcases hlinks with ⟨claim, -, ⟨e, rfl⟩ | ⟨u, c, hsigned⟩⟩ | ⟨-, u, hws⟩
      · cases hc
      · exact hI.of_view hsigned.written hsigned.owns (hcommit hc)
      · exact hI.of_view hws (fun _ h => by cases h) (hcommit hc)

lemma LinksOk.serial (h : (accounts cfg).Serial .empty db) : LinksOk db := by
  induction h with
  | init => exact linksOk_empty
  | step _ h ih => exact ih.alone h

/-- **Identity linking is sound.**  After any requests, no two users hold verified identities with
one normalised address or one number; and a sign-in opens sessions of one user only, who if the
account existed holds a verified identity of a channel which that very sign-in has proved. -/
theorem linking_sound (cfg : AuthConfig) {db : AuthDb} (h : (accounts cfg).Serial .empty db) :
    (∀ i j r t e e', db.identities.get? i = some r → db.identities.get? j = some t →
      r.verifiedAt ≠ none → t.verifiedAt ≠ none → r.email = some e → t.email = some e' →
      normalizeEmail e = normalizeEmail e' → r.userId = t.userId) ∧
    (∀ i j r t n, db.identities.get? i = some r → db.identities.get? j = some t →
      r.verifiedAt ≠ none → t.verifiedAt ≠ none → r.phone = some n → t.phone = some n →
      r.userId = t.userId) ∧
    ∀ req ωs userId isNew user token access db',
      (accounts cfg).alone (authProgram cfg req) ωs [] db =
        some (.signedIn userId isNew user token access, db') →
      (∀ i t, db'.sessions.get? i = some t → db.sessions.get? i = none → t.userId = userId) ∧
      (db.users.get? userId ≠ none →
        ∃ claim, Proves cfg db req claim ∧ KnownUser claim userId db) := by
  have hI := LinksOk.serial h
  refine ⟨fun i j r t e e' hr ht _ _ hre hte heq => ?_,
    fun i j r t n hr ht _ _ hrn htn => hI.phoneOwner i j r t n hr ht hrn htn,
    fun req ωs userId isNew user token access db' halone => ?_⟩
  · rw [hI.normal i r e hr hre, hI.normal j t e' ht hte, Option.some.injEq] at heq
    exact hI.emailOwner i j r t e hr ht hre (heq ▸ hte)
  · obtain ⟨ws, ls, hlinks, hcommit, -⟩ :=
      Wp.of_alone trivial (serial_authProgram hI req) halone
    rcases hlinks with ⟨claim, hproves, ⟨e, he⟩ | ⟨u, c, hsigned⟩⟩ | ⟨hnobody, -⟩
    · cases he
    · obtain rfl : userId = u := hsigned.answers
      refine ⟨fun i t ht hnew => ?_, fun hold => ⟨claim, hproves, hsigned.known hold⟩⟩
      rcases sessions_of_view (hcommit rfl) ht with ⟨t₀, ht₀, -⟩ | ⟨t₀, hmem, hu⟩
      · cases hnew.symm.trans ht₀
      · exact hu ▸ hsigned.written _ hmem
    · exact hnobody.elim

/-- A deployment whose codes are checked; the hash is that of one code. -/
def codeAuth : AuthConfig :=
  { webAuth with
    verifyCode := fun hash code =>
      if hash = "$argon2id$v=19$m=19456,t=2,p=1$YWRh$Y29kZQ" then some (code = "424242")
      else none }

/-- The answers to the statements that send Ada a code at time 200. -/
def codeAnswers : List AuthOracle :=
  [{ now := 200 }, {}, { text := some "424242" },
    { text := some "$argon2id$v=19$m=19456,t=2,p=1$YWRh$Y29kZQ" }, {}, { uuid := 5 }, {}]

/-- The answers to the statements of her sign-in with the code: identity 6, family 7, token 8. -/
def verifyAnswers : List AuthOracle :=
  [{ now := 300 }, {}, {}, {}, {}, { uuid := 6, now := 300 }, {}, { text := some secondSecret },
    { uuid := 7 }, { uuid := 8 }, { text := some "eyJhbGciOiJIUzI1NiJ9.ada" }]

/-- Ada, who signed in with Google first, proves her address by a code and finds her account. -/
theorem linking_sound_by_code : ∃ db claim, (accounts codeAuth).Serial .empty db ∧
    Proves codeAuth db (.verifyOtp "ADA@example.com" "424242") claim ∧ KnownUser claim 1 db := by
  obtain ⟨db, a, db', hserial, halone, ha, hold⟩ := exists_serial_of_inTurn (accounts codeAuth)
    .empty [(.google (some adasClaims), adasAnswers),
      (.requestOtp " Ada@Example.com", codeAnswers)]
    (.verifyOtp "ADA@example.com" "424242") verifyAnswers
    (fun a db _ => AnswersTo 1 a ∧ a.commits = true ∧ db.users.get? 1 ≠ none) (by decide +kernel)
  cases a with
  | signedIn userId isNew user token access =>
      cases ha
      obtain ⟨-, hknown⟩ := (linking_sound codeAuth hserial).2.2
        (.verifyOtp "ADA@example.com" "424242") verifyAnswers _ _ _ _ _ _ halone
      obtain ⟨claim, hproves, hknown⟩ := hknown hold.2
      exact ⟨db, claim, hserial, hproves, hknown⟩
  | failed e => cases hold.1
  | _ => exact ha.elim

end Soundness

end Naivolt
