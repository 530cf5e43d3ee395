import Naivolt.Auth.Rotation

/-!
# Every exchange happens once

The transactions of the accounts service, statement by statement, keep to what
`Naivolt.Auth.Rotation` says of the tokens (`tokenDiscipline`).  The lookup of a refresh locks the
row of the presented token before it is judged, so of two presentations of one token the second is
judged by what the first has left.

`refresh_single_use` draws the conclusion for every interleaving: a token is exchanged at most
once, and a family has at most one token that is neither consumed, revoked nor expired.
-/

namespace Naivolt

open Foundation Database

/-! ## Statements that leave the tokens alone -/

section Wp

variable {cfg : AuthConfig} {Q : AuthOp → AuthOracle → List AuthWrite → AuthDb → AuthDb → Prop}
  {β : Type} {Post : β → List AuthWrite → List AuthLock → AuthDb → Prop}
  {writes : List AuthWrite} {locks : List AuthLock} {db : AuthDb}

/-- The weakest precondition of statements under the discipline of the tokens. -/
abbrev TokenWp (cfg : AuthConfig)
    (Q : AuthOp → AuthOracle → List AuthWrite → AuthDb → AuthDb → Prop) :
    (β → List AuthWrite → List AuthLock → AuthDb → Prop) → AuthTxn β → List AuthWrite →
      List AuthLock → AuthDb → Prop :=
  Wp (accounts cfg) Q TokensOk SessionsLater

/-- The rule for a statement that leaves the tokens alone. -/
lemma wp_quiet {op : AuthOp} {k : op.Res → AuthTxn β} (hop : op.Quiet)
    (h : ∀ r ws ls db', SessionsLater locks db db' → TokensOk db' → (∀ w ∈ ws, w.Quiet) →
      TokenWp cfg Q Post (k r) (writes ++ ws) (locks ++ ls) db') :
    TokenWp cfg Q Post (.call op k) writes locks db := by
  intro d₁ d₂ hR₁ hI₁ hR₂ hI₂ ω r ws ls _ he
  obtain ⟨seen, current, -, -, he⟩ := statement_eq_some.mp he
  exact h r ws ls d₂ (hR₁.trans hR₂) hI₂ (quiet_writes hop he)

/-- The rule for a result. -/
lemma wp_ret {b : β} (h : ∀ db', SessionsLater locks db db' → TokensOk db' →
    Post b writes locks db') : TokenWp cfg Q Post (.ret b) writes locks db :=
  fun db' hR hI => h db' hR hI

lemma quiet_append {ws ws' : List AuthWrite} (h : ∀ w ∈ ws, w.Quiet) (h' : ∀ w ∈ ws', w.Quiet) :
    ∀ w ∈ ws ++ ws', w.Quiet := fun w hw => (List.mem_append.mp hw).elim (h w) (h' w)

end Wp

/-- The rule for a program all of whose statements leave the tokens alone. -/
lemma wp_within {cfg : AuthConfig}
    {Q : AuthOp → AuthOracle → List AuthWrite → AuthDb → AuthDb → Prop} {β : Type} {A : β → Prop}
    {p : AuthTxn β} {writes : List AuthWrite} {locks : List AuthLock} {db : AuthDb}
    (hp : p.Within AuthOp.Quiet A) (hq : ∀ w ∈ writes, w.Quiet) :
    TokenWp cfg Q (fun b ws _ _ => A b ∧ ∀ w ∈ ws, w.Quiet) p writes locks db := by
  refine Wp.mono ?_ (Wp.within (S := fun _ _ => True) (fun _ _ _ _ => trivial)
    (fun _ _ _ _ _ => trivial) (fun op ω seen current r ws ls => quiet_writes) hp hq)
  exact fun b ws ls d _ h => ⟨h.1, h.2.1⟩

/-- Any result. -/
def anyResult {β : Type} (_ : β) : Prop := True

/-- The statements that resolve a claim and create a user. -/
def AuthOp.Resolving : AuthOp → Prop
  | .bySubject .. | .byVerifiedEmail _ | .byVerifiedPhone _ | .attachIdentity .. |
    .insertUser .. | .addressIndex _ | .deriveAll _ | .insertWallet .. => True
  | _ => False

lemma AuthOp.Resolving.quiet {op : AuthOp} (h : op.Resolving) : op.Quiet := by
  cases op with
  | setRotated | revokeFamily | revokeFamilyOf | insertSession => exact h.elim
  | _ => trivial

lemma within_lookupMatches (claim : IdentityClaim) :
    (lookupMatches claim).Within AuthOp.Resolving anyResult := by
  refine ⟨trivial, fun _ => ?_⟩
  rcases claim with ⟨provider, subject, _ | email, _ | phone⟩
  · trivial
  · exact ⟨trivial, fun _ => trivial⟩
  · exact ⟨trivial, fun _ => trivial⟩
  · exact ⟨trivial, fun _ => ⟨trivial, fun _ => trivial⟩⟩

lemma within_insertWallets (userId : Uuid) (addresses : List DerivedAddress) :
    (insertWallets userId addresses).Within AuthOp.Resolving anyResult := by
  induction addresses with
  | nil => trivial
  | cons address rest ih =>
      refine ⟨trivial, fun ok => ?_⟩
      cases ok with
      | false => trivial
      | true => exact ih

lemma within_createUser (claim : IdentityClaim) :
    (createUser claim).Within AuthOp.Resolving anyResult := by
  simp only [createUser, sql, Prog.perform_bind]
  refine ⟨trivial, fun userId => ?_⟩
  rcases userId with _ | userId
  · trivial
  · refine ⟨trivial, fun _ => ⟨trivial, fun index => ?_⟩⟩
    rcases index with _ | index
    · trivial
    · beta_reduce
      simp only
      split
      · refine ⟨trivial, fun derived => ?_⟩
        rcases derived with _ | derived
        · trivial
        · refine (within_insertWallets userId derived).bind fun ok _ => ?_
          cases ok <;> trivial
      · trivial

/-- An answer that says nothing of the tokens. -/
def AuthAnswer.Plain : AuthAnswer → Prop
  | .codeSent | .otpRefused _ | .updated | .failed _ => True
  | _ => False

/-- The statements about one-time codes and profiles. -/
def AuthOp.Aside : AuthOp → Prop
  | .clock | .lastSent _ | .randomCode | .hashCode _ | .dropChallenges _ | .insertChallenge _ |
    .sendCode .. | .updateUser .. => True
  | _ => False

lemma AuthOp.Aside.quiet {op : AuthOp} (h : op.Aside) : op.Quiet := by
  cases op with
  | setRotated | revokeFamily | revokeFamilyOf | insertSession => exact h.elim
  | _ => trivial

lemma within_requestOtp (cfg : AuthConfig) (input : String) :
    (Naivolt.requestOtp cfg input).Within AuthOp.Aside AuthAnswer.Plain := by
  unfold Naivolt.requestOtp
  split
  · trivial
  · simp only [sql, Prog.perform_bind]
    refine ⟨trivial, fun now => ⟨trivial, fun existing => ?_⟩⟩
    beta_reduce
    split
    · trivial
    · split
      · refine ⟨trivial, fun hash => ?_⟩
        rcases hash with _ | hash
        · trivial
        · refine ⟨trivial, fun _ => ⟨trivial, fun ok => ?_⟩⟩
          cases ok with
          | false => trivial
          | true => exact ⟨trivial, fun ok => by cases ok <;> trivial⟩
      · refine ⟨trivial, fun _ => ⟨trivial, fun hash => ?_⟩⟩
        rcases hash with _ | hash
        · trivial
        · refine ⟨trivial, fun _ => ⟨trivial, fun ok => ?_⟩⟩
          cases ok with
          | false => trivial
          | true => exact ⟨trivial, fun ok => by cases ok <;> trivial⟩

lemma within_updateMe (cfg : AuthConfig) (userId : Uuid) (body : UpdateMeBody) :
    (Naivolt.updateMe cfg userId body).Within AuthOp.Aside AuthAnswer.Plain := by
  simp only [Naivolt.updateMe, sql, Prog.perform_bind]
  refine ⟨trivial, fun now => ?_⟩
  beta_reduce
  split
  · trivial
  · exact ⟨trivial, fun ok => by cases ok <;> trivial⟩

lemma AuthAnswer.Plain.established {strict : Bool} {a : AuthAnswer} {writes : List AuthWrite}
    {locks : List AuthLock} {db : AuthDb} (ha : a.Plain) (hq : ∀ w ∈ writes, w.Quiet) :
    Established strict a writes locks db := by
  cases a with
  | codeSent | otpRefused e | updated => exact hq
  | failed e => trivial
  | signedIn | refreshed | reuseDetected | loggedOut => exact ha.elim

/-! ## Opening a session -/

section Requests

variable {cfg : AuthConfig} {Q : AuthOp → AuthOracle → List AuthWrite → AuthDb → AuthDb → Prop}
  {strict : Bool} {writes : List AuthWrite} {locks : List AuthLock} {db : AuthDb}

/-- A statement that neither writes nor locks. -/
def AuthOp.Silent (op : AuthOp) : Prop :=
  ∀ ω seen current r ws ls, execAuth ω seen current op = some (r, ws, ls) → ws = [] ∧ ls = []

lemma silent_signAccess (u sid : Uuid) (tier : ℕ) (now : Time) :
    (AuthOp.signAccess u sid tier now).Silent := fun _ _ _ _ _ _ h => by cases h; exact ⟨rfl, rfl⟩

lemma silent_selectTier (u : Uuid) : (AuthOp.selectTier u).Silent :=
  fun _ _ _ _ _ _ h => by cases h; exact ⟨rfl, rfl⟩

lemma silent_clock : AuthOp.clock.Silent := fun _ _ _ _ _ _ h => by cases h; exact ⟨rfl, rfl⟩

lemma silent_randomSecret : AuthOp.randomSecret.Silent := fun _ _ _ _ _ _ h => by
  obtain ⟨t, -, h⟩ := Option.map_eq_some_iff.mp h
  cases h
  exact ⟨rfl, rfl⟩

/-- The rule for a statement that neither writes nor locks. -/
lemma wp_silent {β : Type} {Post : β → List AuthWrite → List AuthLock → AuthDb → Prop}
    {op : AuthOp} {k : op.Res → AuthTxn β} (hop : op.Silent)
    (h : ∀ r db', SessionsLater locks db db' → TokensOk db' →
      TokenWp cfg Q Post (k r) writes locks db') :
    TokenWp cfg Q Post (.call op k) writes locks db := by
  intro d₁ d₂ hR₁ hI₁ hR₂ hI₂ ω r ws ls _ he
  obtain ⟨seen, current, -, -, he⟩ := statement_eq_some.mp he
  obtain ⟨rfl, rfl⟩ := hop _ _ _ _ _ _ he
  simpa using h r d₂ (hR₁.trans hR₂) hI₂

/-- `INSERT INTO sessions`: refused, or the row enters under the locks of its key and hash. -/
lemma wp_insertSession {β : Type} {Post : β → List AuthWrite → List AuthLock → AuthDb → Prop}
    {userId : Uuid} {token : RefreshToken} {k : Bool → AuthTxn β}
    (hno : ∀ db', SessionsLater locks db db' → TokensOk db' →
      TokenWp cfg Q Post (k false) writes locks db')
    (hyes : ∀ newId db', SessionsLater locks db db' → TokensOk db' → HashFree token.hash db' →
      TokenWp cfg Q Post (k true) (writes ++ [.session newId (token.row userId)])
        (locks ++ [.session newId, .tokenHash token.hash]) db') :
    TokenWp cfg Q Post (.call (.insertSession userId token) k) writes locks db := by
  intro d₁ d₂ hR₁ hI₁ hR₂ hI₂ ω r ws ls _ he
  obtain ⟨seen, current, -, hcur, he⟩ := statement_eq_some.mp he
  simp only [accounts, execAuth] at he
  split at he
  · cases he
    simpa using hno d₂ (hR₁.trans hR₂) hI₂
  · rename_i hfree
    cases he
    refine hyes ω.uuid d₂ (hR₁.trans hR₂) hI₂ ((view_free hcur).1 _ fun i s hs hh => hfree ?_)
    simp only [Bool.or_eq_true, List.any_eq_true, decide_eq_true_eq]
    exact .inr ⟨(i, s), Table.get?_eq_some_iff.mp hs, hh⟩

/-- `start_session` opens a family of its own. -/
lemma wp_startSession {userId : Uuid} {tier : ℕ} {now : Time} (hq : ∀ w ∈ writes, w.Quiet) :
    TokenWp cfg Q (fun r ws ls db => ∀ x ∈ r, Opening x.2 ws ls db)
      (startSession cfg userId tier now) writes locks db := by
  simp only [startSession, issueRefreshToken, sql, Prog.perform_bind, Prog.call_bind]
  refine wp_silent silent_randomSecret fun secret db₁ hR₁ hI₁ => ?_
  -- The name of the family is new, and kept by its lock.
  intro d₁ d₂ hR₂ _ hR₃ hI₃ ω f ws ls _ he
  obtain ⟨seen, current, -, hcur, he⟩ := statement_eq_some.mp he
  simp only [accounts, execAuth] at he
  split at he
  · cases he
  · rename_i hfresh
    cases he
    have hfree : FamilyFree ω.uuid d₂ := by
      refine (view_free hcur).2 _ fun i s hs hf => hfresh ?_
      simp only [List.any_eq_true, decide_eq_true_eq]
      exact ⟨(i, s), Table.get?_eq_some_iff.mp hs, hf⟩
    have hlock : AuthLock.family ω.uuid ∈ locks ++ [.family ω.uuid] := by simp
    simp only [List.append_nil, Prog.pure_eq, Prog.ret_bind]
    refine wp_insertSession (fun db₃ hR₄ hI₄ => ?_) fun newId db₃ hR₄ hI₄ hhash => ?_
    · exact wp_ret fun db₄ _ _ x hx => by cases hx
    · have hopen : Opening (issueRefresh cfg.hashRefresh secret ω.uuid now)
          (writes ++ [.session newId ((issueRefresh cfg.hashRefresh secret ω.uuid now).row userId)])
          (locks ++ [.family ω.uuid] ++ [.session newId,
            .tokenHash (issueRefresh cfg.hashRefresh secret ω.uuid now).hash]) db₃ :=
        ⟨by simp, hhash, by simp [issueRefresh], hR₄.family _ hlock hfree,
          ⟨writes, newId, userId, rfl, hq, by simp⟩⟩
      refine wp_silent (silent_signAccess _ _ _ _) fun access db₄ hR₅ hI₅ => ?_
      cases access with
      | none => exact wp_ret fun db₅ _ _ x hx => by cases hx
      | some access =>
          refine wp_ret fun db₅ hR₆ _ x hx => ?_
          cases hx
          exact (hopen.stable hR₅).stable hR₆

/-- The end of every sign-in. -/
lemma wp_openSession {userId : Uuid} {new : Bool} {now : Time} (hq : ∀ w ∈ writes, w.Quiet) :
    TokenWp cfg Q (Established strict) (openSession cfg userId new now) writes locks db := by
  simp only [openSession, sql, Prog.perform_bind]
  refine wp_quiet trivial fun user ws ls db₁ _ hI₁ hws => ?_
  cases user with
  | none => exact wp_ret fun _ _ _ => trivial
  | some user =>
      refine Wp.bind (fun ls d => .refl ls d) hI₁
        (wp_startSession (quiet_append hq hws)) fun r ws' ls' db₂ _ hr => ?_
      cases r with
      | none => exact wp_ret fun _ _ _ => trivial
      | some x => exact wp_ret fun db₃ hR _ => (hr x rfl).stable hR

lemma wp_signIn {claim : IdentityClaim} {now : Time} (hI : TokensOk db)
    (hq : ∀ w ∈ writes, w.Quiet) :
    TokenWp cfg Q (Established strict) (signIn cfg claim now) writes locks db := by
  refine Wp.bind (fun ls d => .refl ls d) hI 
    (wp_within ((within_lookupMatches claim).mono (fun _ h => h.quiet) fun _ h => h) hq) ?_
  rintro found ws ls db₁ hI₁ ⟨-, hws⟩
  rcases resolve claim found with userId | userId | _ | ⟨a, b⟩
  · exact wp_openSession hws
  · refine wp_quiet trivial fun _ ws' ls' db₂ _ _ hws' => ?_
    exact wp_openSession (quiet_append hws hws')
  · refine Wp.bind (fun ls d => .refl ls d) hI₁
      (wp_within ((within_createUser claim).mono (fun _ h => h.quiet) fun _ h => h) hws) ?_
    rintro r ws ls db₂ - ⟨-, hws⟩
    cases r with
    | none => exact wp_ret fun _ _ _ => trivial
    | some userId => exact wp_openSession hws
  · exact wp_ret fun _ _ _ => trivial

lemma wp_verifyOtp {input code : String} (hq : ∀ w ∈ writes, w.Quiet) :
    TokenWp cfg Q (Established strict) (Naivolt.verifyOtp cfg input code) writes locks db := by
  unfold Naivolt.verifyOtp
  split
  · exact wp_ret fun _ _ _ => trivial
  · refine wp_quiet trivial fun now ws ls db₁ _ _ hws => ?_
    have hq₁ := quiet_append hq hws
    refine wp_quiet trivial fun row ws ls db₂ _ _ hws => ?_
    have hq₂ := quiet_append hq₁ hws
    rcases row with _ | ⟨id, challenge⟩
    · exact wp_ret fun _ _ _ => trivial
    · refine wp_quiet trivial fun _ ws ls db₃ _ hI₃ hws => ?_
      have hq₃ := quiet_append hq₂ hws
      simp only
      split
      · exact wp_ret fun _ _ _ => hq₃
      · exact wp_signIn hI₃ hq₃

lemma wp_googleSignIn {verified : Option OidcClaims} (hq : ∀ w ∈ writes, w.Quiet) :
    TokenWp cfg Q (Established strict) (googleSignIn cfg verified) writes locks db := by
  unfold googleSignIn
  split
  · exact wp_ret fun _ _ _ => trivial
  · split
    · exact wp_ret fun _ _ _ => trivial
    · split
      · refine wp_quiet trivial fun now ws ls db₁ _ hI hws => ?_
        exact wp_signIn hI (quiet_append hq hws)
      · exact wp_ret fun _ _ _ => trivial

/-- `refresh`, once its token was judged to be exchangeable under the lock of its row. -/
lemma wp_rotate {id userId familyId : Uuid} {now : Time} {s : Session}
    (hs : db.sessions.get? id = some s) (hunspent : s.Unspent) (hfam : s.familyId = familyId)
    (hlock : .session id ∈ locks) :
    TokenWp cfg Q (Established strict) (rotate cfg id userId familyId now) [] locks db := by
  simp only [rotate, sql, Prog.perform_bind]
  intro d₁ d₂ hR₁ _ hR₂ hI₂ ω r ws ls _ he
  obtain ⟨seen, current, -, -, he⟩ := statement_eq_some.mp he
  cases he
  have hs₂ : d₂.sessions.get? id = some s := by
    obtain ⟨s', hs', -, hsame⟩ := (hR₁.trans hR₂).kept id s hs
    exact hsame hlock ▸ hs'
  have hlock₂ : AuthLock.session id ∈ locks ++ [.session id] := List.mem_append_left _ hlock
  refine wp_silent (silent_selectTier _) fun tier d₃ hR₃ _ => ?_
  rcases tier with _ | tier
  · exact wp_ret fun _ _ _ => trivial
  · simp only [issueRefreshToken, sql, Prog.perform_bind, Prog.call_bind]
    refine wp_silent silent_randomSecret fun secret d₄ hR₄ _ => ?_
    simp only [Prog.pure_eq, Prog.ret_bind]
    refine wp_insertSession (fun d₅ _ _ => ?_) fun newId d₅ hR₅ _ hfree => ?_
    · exact wp_ret fun _ _ _ => trivial
    · have hs₅ : d₅.sessions.get? id = some s := by
        obtain ⟨s', hs', -, hsame⟩ := ((hR₃.trans hR₄).trans hR₅).kept id s hs₂
        exact hsame hlock₂ ▸ hs'
      have hx : Exchanging id (issueRefresh cfg.hashRefresh secret familyId now)
          [.rotated id now, .session newId
            ((issueRefresh cfg.hashRefresh secret familyId now).row userId)]
          (locks ++ [.session id] ++ [.session newId,
            .tokenHash (issueRefresh cfg.hashRefresh secret familyId now).hash]) d₅ :=
        ⟨⟨s, hs₅, hunspent, hfam⟩, List.mem_append_left _ hlock₂, by simp, hfree,
          ⟨now, newId, userId, rfl, by simp⟩⟩
      refine wp_silent (silent_signAccess _ _ _ _) fun access d₆ hR₆ _ => ?_
      rcases access with _ | access
      · exact wp_ret fun _ _ _ => trivial
      · exact wp_ret fun d₇ hR₇ _ => (hx.stable hR₆).stable hR₇

/-- The statements that revoke a family are only sent on a snapshot with all its tokens. -/
def Shows (familyId : Uuid) (snapshot committed : AuthDb) : Prop :=
  ∀ r ∈ committed.sessions.rows, r.2.familyId = familyId → (snapshot.sessions.get? r.1).isSome

instance (familyId : Uuid) (snapshot committed : AuthDb) :
    Decidable (Shows familyId snapshot committed) := by
  unfold Shows
  infer_instance

/-- A revoking statement is executed on a snapshot that shows every token its family has by
then. -/
def SeesFamily (op : AuthOp) (_ : AuthOracle) (_ : List AuthWrite)
    (snapshot committed : AuthDb) : Prop :=
  match op with
  | .revokeFamily familyId _ => Shows familyId snapshot committed
  | .revokeFamilyOf hash _ =>
      match familyOf snapshot hash with
      | some familyId => Shows familyId snapshot committed
      | none => True
  | _ => True

instance (op : AuthOp) (ω : AuthOracle) (ws : List AuthWrite) (d d' : AuthDb) :
    Decidable (SeesFamily op ω ws d d') := by
  unfold SeesFamily
  split
  · infer_instance
  · split <;> infer_instance
  · infer_instance

lemma mem_revocable {db : AuthDb} {f i : Uuid} :
    i ∈ revocable db f ↔
      ∃ s, db.sessions.get? i = some s ∧ s.familyId = f ∧ s.revokedAt = none := by
  simp only [revocable, List.mem_map, List.mem_filter, decide_eq_true_eq,
    Table.get?_eq_some_iff, Prod.exists, exists_and_right, exists_eq_right]

/-- The `UPDATE` of a family: what it writes is unrevoked and locked, and if it sees every token
it reaches them all. -/
lemma revoke_spec {f : Uuid} {now : Time} {seen current : AuthDb} {locks : List AuthLock}
    (hR : SessionsLater locks seen current) (hf : ¬ FamilyFree f seen)
    (hsees : strict = true → Shows f seen current) :
    Revoking (revoke f now seen current).1 (locks ++ (revoke f now seen current).2) current ∧
      (strict = true → Reaches f (revoke f now seen current).1
        (locks ++ (revoke f now seen current).2) current) ∧
      ∀ i t, AuthWrite.revoked i t ∈ (revoke f now seen current).1 →
        current.sessions.get? i ≠ none := by
  -- A token that is unrevoked by now and was seen, was unrevoked when it was seen.
  have hseen : strict = true → ∀ i s, current.sessions.get? i = some s → s.familyId = f →
      s.revokedAt = none → i ∈ revocable seen f := by
    intro hstrict i s hs hsf hrev
    obtain ⟨s₀, hs₀⟩ := Option.isSome_iff_exists.mp
      (hsees hstrict (i, s) (Table.get?_eq_some_iff.mp hs) hsf)
    have hages := hR.ages hs₀ hs
    exact mem_revocable.mpr ⟨s₀, hs₀, hages.familyId.symm.trans hsf, hages.unrevoked hrev⟩
  refine ⟨⟨_, now, rfl, fun i hi => ?_⟩, fun hstrict => ⟨hR.notFree hf, fun i s hs hsf hrev => ?_,
    fun i s hs hsf hrev => ⟨now, ?_⟩⟩, fun i t hi => ?_⟩
  · obtain ⟨hi₁, hi₂⟩ := List.mem_filter.mp hi
    obtain ⟨s, hs, -, hrev⟩ := mem_revocable.mp (of_decide_eq_true hi₂)
    refine ⟨List.mem_append_right _ (List.mem_map_of_mem hi₁), fun s' hs' => ?_⟩
    rw [hs, Option.some.injEq] at hs'
    exact hs' ▸ hrev
  · exact List.mem_append_right _ (List.mem_map_of_mem (hseen hstrict i s hs hsf hrev))
  · refine List.mem_map_of_mem (List.mem_filter.mpr ⟨hseen hstrict i s hs hsf hrev, ?_⟩)
    exact decide_eq_true (mem_revocable.mpr ⟨s, hs, hsf, hrev⟩)
  · obtain ⟨j, hj, hji⟩ := List.mem_map.mp hi
    cases hji
    obtain ⟨s, hs, -, -⟩ := mem_revocable.mp (of_decide_eq_true (List.mem_filter.mp hj).2)
    simp [hs]

/-- `refresh`. -/
lemma wp_refresh {presented : Option String}
    (hQ : strict = true → ∀ op ω ws d d', Q op ω ws d d' → SeesFamily op ω ws d d') :
    TokenWp cfg Q (Established strict) (Naivolt.refresh cfg presented) [] [] db := by
  simp only [Naivolt.refresh, sql, Prog.perform_bind]
  refine wp_silent silent_clock fun now d₁ _ _ => ?_
  rcases presented with _ | secret
  · exact wp_ret fun _ _ _ => trivial
  · -- The row is locked before it is judged.
    intro d₂ d₃ _ _ _ hI₃ ω row ws ls _ he
    obtain ⟨seen, current, hseen, hcur, he⟩ := statement_eq_some.mp he
    cases hseen
    cases hcur
    simp only [accounts, execAuth] at he
    split at he
    · cases he
      exact wp_ret fun _ _ _ => trivial
    · rename_i r hfind
      rcases hrow : d₃.sessions.get? r.1 with _ | stored
      · rw [hrow] at he
        cases he
        exact wp_ret fun _ _ _ => trivial
      · rw [hrow] at he
        cases he
        simp only [Option.map_some, List.nil_append]
        split
        · -- Reuse: the family is revoked.
          rename_i f heval
          obtain ⟨-, rfl⟩ := evaluateRefresh_eq_reuseDetected.mp heval
          intro d₄ d₅ hR₄ _ hR₅ _ ω' u ws ls hq he
          obtain ⟨seen, current, hseen, hcur, he⟩ := statement_eq_some.mp he
          cases hseen
          cases hcur
          cases he
          have htaken : ¬ FamilyFree stored.familyId d₄ :=
            hR₄.notFree fun hfree => hfree r.1 stored hrow rfl
          obtain ⟨hrev, hreach, hthere⟩ := @revoke_spec strict _ now _ _ _ hR₅ htaken
            fun hstrict => hQ hstrict _ _ _ _ _ hq
          exact wp_ret fun d₆ hR₆ _ =>
            ⟨hrev.stable hR₆ hthere, fun hstrict => (hreach hstrict).stable hR₆⟩
        · exact wp_ret fun _ _ _ => trivial
        · rename_i u f heval
          obtain ⟨⟨hunspent, -⟩, -, rfl⟩ := evaluateRefresh_eq_rotate.mp heval
          exact wp_rotate hrow hunspent rfl (by simp)

/-- `logout`. -/
lemma wp_logout {presented : Option String}
    (hQ : strict = true → ∀ op ω ws d d', Q op ω ws d d' → SeesFamily op ω ws d d') :
    TokenWp cfg Q (Established strict) (Naivolt.logout cfg presented) [] [] db := by
  unfold Naivolt.logout
  rcases presented with _ | secret
  · exact wp_ret fun _ _ _ => fun w hw => by cases hw
  · simp only [sql, Prog.perform_bind]
    refine wp_silent silent_clock fun now d₁ _ _ => ?_
    intro d₂ d₃ _ _ hR₃ _ ω f ws ls hq he
    obtain ⟨seen, current, hseen, hcur, he⟩ := statement_eq_some.mp he
    cases hseen
    cases hcur
    simp only [accounts, execAuth] at he
    split at he
    · cases he
      exact wp_ret fun _ _ _ => fun w hw => by cases hw
    · rename_i f hfam
      cases he
      have htaken : ¬ FamilyFree f d₂ := by
        obtain ⟨r, hr, rfl⟩ := Option.map_eq_some_iff.mp hfam
        exact fun hfree => hfree r.1 r.2 (Table.get?_eq_some_iff.mpr
          (List.mem_of_find?_eq_some hr)) rfl
      obtain ⟨hrev, hreach, hthere⟩ := @revoke_spec strict _ now _ _ _ hR₃ htaken
        fun hstrict => by simpa only [SeesFamily, hfam] using hQ hstrict _ _ _ _ _ hq
      exact wp_ret fun d₄ hR₄ _ =>
        ⟨hrev.stable hR₄ hthere, fun hstrict => (hreach hstrict).stable hR₄⟩

end Requests

/-! ## The discipline -/

lemma wp_authProgram {cfg : AuthConfig} {strict : Bool}
    {Q : AuthOp → AuthOracle → List AuthWrite → AuthDb → AuthDb → Prop}
    (hQ : strict = true → ∀ op ω ws d d', Q op ω ws d d' → SeesFamily op ω ws d d')
    (req : AuthRequest) (db : AuthDb) :
    TokenWp cfg Q (Established strict) (authProgram cfg req) [] [] db := by
  have hnil : ∀ w ∈ ([] : List AuthWrite), w.Quiet := fun w hw => by cases hw
  have haside : ∀ p : AuthTxn AuthAnswer, p.Within AuthOp.Aside AuthAnswer.Plain →
      TokenWp cfg Q (Established strict) p [] [] db := by
    intro p hp
    refine Wp.mono ?_ (wp_within (hp.mono (fun _ => AuthOp.Aside.quiet) fun _ h => h) hnil)
    rintro a ws ls d - ⟨ha, hq⟩
    exact ha.established hq
  cases req with
  | requestOtp identifier => exact haside _ (within_requestOtp cfg identifier)
  | verifyOtp identifier code => exact wp_verifyOtp hnil
  | google verified => exact wp_googleSignIn hnil
  | refresh presented => exact wp_refresh hQ
  | logout presented => exact wp_logout hQ
  | updateMe userId body => exact haside _ (within_updateMe cfg userId body)

/-- **The transactions of the accounts service keep the tokens in order.** -/
def tokenDiscipline (cfg : AuthConfig) (strict : Bool)
    (Q : AuthOp → AuthOracle → List AuthWrite → AuthDb → AuthDb → Prop)
    (hQ : strict = true → ∀ op ω ws d d', Q op ω ws d d' → SeesFamily op ω ws d d') :
    Discipline (accounts cfg) Q where
  inv := TokensOk
  rely := SessionsLater
  post := Established strict
  refl := SessionsLater.refl
  trans h h' := h.trans h'
  starts req db _ := wp_authProgram hQ req db
  commits hI hpost ha := hpost.leaves hI ha

lemma tokensOk_empty : TokensOk .empty where
  oneUnspent _ _ _ _ h := by cases h
  hashesOnce _ _ _ _ h := by cases h

/-! ## Single use -/

/-- A token that has been exchanged is not exchanged again, whatever happens later. -/
lemma exchanged_once {cfg : AuthConfig} {strict : Bool}
    {Q : AuthOp → AuthOracle → List AuthWrite → AuthDb → AuthDb → Prop}
    {hQ : strict = true → ∀ op ω ws d d', Q op ω ws d d' → SeesFamily op ω ws d d'}
    {s s' s'' : AccountsStore} {tid tid' : ℕ} {id : Uuid} {next next' : RefreshToken}
    {access access' : String} (hok : StoreOk (tokenDiscipline cfg strict Q hQ) s)
    (ha : s.answer tid = some (.refreshed id next access))
    (hs : (accounts cfg).step s (.commit tid) = some s')
    (hl : (accounts cfg).Reachable (onStatements Q) s' s'') :
    s''.answer tid' ≠ some (.refreshed id next' access') := by
  intro ha'
  have hok' := (hok.step (m := .commit tid) trivial hs).1
  obtain ⟨-, writes, locks, hpost, hview⟩ := hok.commit ha hs
  obtain ⟨now, newId, userId, rfl, -⟩ := (hpost : Exchanging id next writes locks _).writes
  obtain ⟨t, ht, -, -⟩ := (hpost : Exchanging id next _ locks _).presented
  -- The commit has marked the token as exchanged.
  obtain ⟨t', ht', hrotated⟩ : ∃ t', s'.committed.sessions.get? id = some t' ∧
      t'.rotatedAt ≠ none := by
    obtain ⟨db₁, h₁, h₂⟩ := Option.bind_eq_some_iff.mp (view_cons ▸ hview)
    obtain ⟨db₂, h₂, h₃⟩ := Option.bind_eq_some_iff.mp (view_cons ▸ h₂)
    cases h₁
    obtain ⟨sessions, hins, rfl⟩ := Option.map_eq_some_iff.mp h₂
    have hne : id ≠ newId := by
      rintro rfl
      have hnone := (Table.insert_eq_some hins).1
      simp [ht] at hnone
    rw [← Option.some.inj h₃]
    exact ⟨{ t with rotatedAt := some now }, by simp [Table.get?_insert hins, hne, ht],
      Option.some_ne_none _⟩
  -- It is marked as that for good, and so is not unspent when it is presented again.
  obtain ⟨t'', ht'', hages, -⟩ := (hok'.later hl).kept id t' ht'
  obtain ⟨writes', locks', snapshot', hlive⟩ := Store.answer_eq_some.mp ha'
  obtain ⟨u, hu, hunspent, -⟩ :=
    ((hok'.reachable hl).post hlive : Exchanging id next' writes' locks' _).presented
  rw [ht'', Option.some.injEq] at hu
  subst hu
  exact hrotated ((hages.rotated hrotated).symm.trans hunspent.1)

/-- **Refresh tokens are for single use.**  In every interleaving of requests of any kind, from a
freshly migrated database on: no two tokens share a hash, a family has at most one token that is
neither consumed, revoked nor expired, and once an exchange of a token has been committed no
transaction arrives at exchanging it again. -/
theorem refresh_single_use (cfg : AuthConfig) {s : AccountsStore}
    (h : (accounts cfg).Reachable unguarded (.quiet .empty) s) :
    (∀ i j t u, s.committed.sessions.get? i = some t → s.committed.sessions.get? j = some u →
      t.refreshTokenHash = u.refreshTokenHash → i = j) ∧
    (∀ now i j t u, s.committed.sessions.get? i = some t → s.committed.sessions.get? j = some u →
      t.familyId = u.familyId → t.Live now → u.Live now → i = j) ∧
    ∀ tid id next access s' s'', s.answer tid = some (.refreshed id next access) →
      (accounts cfg).step s (.commit tid) = some s' →
      (accounts cfg).Reachable unguarded s' s'' → ∀ tid' next' access',
        s''.answer tid' ≠ some (.refreshed id next' access') := by
  have hany : ∀ (s : AccountsStore) (m : TxnMove AuthOracle AuthRequest), unguarded s m →
      onStatements anyStatement s m := fun s m _ => onStatements_anyStatement s m
  have hok : StoreOk (tokenDiscipline cfg false anyStatement (fun h => by cases h)) s :=
    (StoreOk.quiet tokensOk_empty).reachable (h.mono hany)
  refine ⟨hok.committed.hashesOnce, fun now i j t u ht hu hfam hlt hlu =>
    hok.committed.oneUnspent i j t u ht hu hfam hlt.1 hlu.1, ?_⟩
  intro tid id next access s' s'' ha hs hl tid' next' access'
  exact exchanged_once hok ha hs (hl.mono hany)

/-- Two presentations of one token: the first is exchanged, and the second, which waited for its
row, detects the reuse. -/
theorem refresh_single_use_twice : ∃ s s' s'' : AccountsStore, s.answer 1 = some (.refreshed 4
      ⟨secondSecret, webAuth.hashRefresh secondSecret, 3, 200 + refreshTtl⟩
      "eyJhbGciOiJIUzI1NiJ9.ada") ∧
    (accounts webAuth).step s (.commit 1) = some s' ∧
    s''.answer 2 = some (.reuseDetected 3) ∧
    ∀ tid next access, s''.answer tid ≠ some (.refreshed 4 next access) := by
  obtain ⟨s, s', s'', hs, hc, hl, ha, ha'⟩ := exists_later_of_run (accounts webAuth) unguarded
    (.quiet .empty)
    (adaSignsIn 0 ++ TxnMove.begun 1 (.refresh (some firstSecret))
        (rotationAnswers 200 secondSecret 5) ++
      TxnMove.begun 2 (.refresh (some firstSecret)) [{ now := 201 }] ++ [.send 2]) (.commit 1)
    [.perform 2 {}, .send 2, .perform 2 {}]
    (fun s _ s'' => s.answer 1 = some (.refreshed 4
        ⟨secondSecret, webAuth.hashRefresh secondSecret, 3, 200 + refreshTtl⟩
        "eyJhbGciOiJIUzI1NiJ9.ada") ∧ s''.answer 2 = some (.reuseDetected 3))
    (by decide +kernel)
  exact ⟨s, s', s'', ha, hc, ha',
    (refresh_single_use webAuth hs).2.2 1 4 _ _ s' s'' ha hc hl⟩

end Naivolt
