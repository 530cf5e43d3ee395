import Naivolt.Auth.Requests

/-!
# Refresh tokens under concurrency

What the transactions of the accounts service may do to `sessions` while others are in progress,
at READ COMMITTED.  A token is exchanged under the lock of its row, so nobody exchanges it again
and its family stays with one unspent token; its successor enters under the lock of its hash.  A
family is opened under a random name, and revoked row by row under the locks of the rows the
revoking statement saw.

`SessionsLater` is what a transaction may rely on: rows stay and keep what is decided about them,
the rows it has locked stay as they are, and — the clause a revocation rests on — a family all of
whose unrevoked tokens it has locked receives no new token, since a successor enters only with its
predecessor locked.
-/

namespace Naivolt

open Foundation Database

/-- A state of the accounts service. -/
abbrev AccountsStore := Store AuthOp AuthOp.Res AuthDb AuthWrite AuthLock AuthAnswer

/-! ## What may become of the tokens -/

/-- A token of a family has at most one unspent successor or self. -/
def OneUnspent (db : AuthDb) : Prop :=
  ∀ i j s t, db.sessions.get? i = some s → db.sessions.get? j = some t →
    s.familyId = t.familyId → s.Unspent → t.Unspent → i = j

/-- A hash names one token. -/
def HashesOnce (db : AuthDb) : Prop :=
  ∀ i j s t, db.sessions.get? i = some s → db.sessions.get? j = some t →
    s.refreshTokenHash = t.refreshTokenHash → i = j

/-- What may become of a token: it may be exchanged or revoked, and a revoked one is left as
it is. -/
structure Session.Ages (s s' : Session) : Prop where
  familyId : s'.familyId = s.familyId
  hash : s'.refreshTokenHash = s.refreshTokenHash
  revoked : s.revokedAt ≠ none → s' = s
  rotated : s.rotatedAt ≠ none → s'.rotatedAt = s.rotatedAt

namespace Session.Ages

variable {s s' s'' : Session}

lemma refl (s : Session) : s.Ages s := ⟨rfl, rfl, fun _ => rfl, fun _ => rfl⟩

lemma trans (h : s.Ages s') (h' : s'.Ages s'') : s.Ages s'' where
  familyId := h'.familyId.trans h.familyId
  hash := h'.hash.trans h.hash
  revoked hs := by
    have := h.revoked hs
    subst this
    exact h'.revoked hs
  rotated hs := (h'.rotated (by rwa [h.rotated hs])).trans (h.rotated hs)

lemma unrevoked (h : s.Ages s') (hs : s'.revokedAt = none) : s.revokedAt = none := by
  by_contra hne
  exact hne (h.revoked hne ▸ hs)

end Session.Ages

/-- No token has the hash. -/
def HashFree (hash : String) (db : AuthDb) : Prop :=
  ∀ i s, db.sessions.get? i = some s → s.refreshTokenHash ≠ hash

/-- No token is of the family. -/
def FamilyFree (familyId : Uuid) (db : AuthDb) : Prop :=
  ∀ i s, db.sessions.get? i = some s → s.familyId ≠ familyId

/-- The locks hold every unrevoked token of the family. -/
def Sealed (familyId : Uuid) (locks : List AuthLock) (db : AuthDb) : Prop :=
  ∀ i s, db.sessions.get? i = some s → s.familyId = familyId → s.revokedAt = none →
    .session i ∈ locks

/-- What a transaction that holds the locks may rely on of the tokens. -/
structure SessionsLater (locks : List AuthLock) (db db' : AuthDb) : Prop where
  kept : ∀ i s, db.sessions.get? i = some s →
    ∃ s', db'.sessions.get? i = some s' ∧ s.Ages s' ∧ (.session i ∈ locks → s' = s)
  hash : ∀ h, .tokenHash h ∈ locks → HashFree h db → HashFree h db'
  family : ∀ f, .family f ∈ locks → FamilyFree f db → FamilyFree f db'
  closed : ∀ f, ¬ FamilyFree f db → Sealed f locks db →
    ∀ i s', db'.sessions.get? i = some s' → s'.familyId = f → db.sessions.get? i ≠ none

namespace SessionsLater

variable {locks : List AuthLock} {db db' db'' : AuthDb}

lemma of_sessions (h : db'.sessions = db.sessions) : SessionsLater locks db db' where
  kept i s hs := ⟨s, by rw [h]; exact hs, .refl s, fun _ => rfl⟩
  hash f _ hf i s hs := hf i s (by rwa [h] at hs)
  family f _ hf i s hs := hf i s (by rwa [h] at hs)
  closed f _ _ i s' hs' _ hnone := by
    rw [h, hnone] at hs'
    cases hs'

lemma refl (locks : List AuthLock) (db : AuthDb) : SessionsLater locks db db := of_sessions rfl

/-- Every token of the family that is there later was there before, or the family was free. -/
lemma ages (h : SessionsLater locks db db') {i : Uuid} {s s' : Session}
    (hs : db.sessions.get? i = some s) (hs' : db'.sessions.get? i = some s') : s.Ages s' := by
  obtain ⟨t, ht, hages, -⟩ := h.kept i s hs
  rw [hs', Option.some.injEq] at ht
  exact ht ▸ hages

lemma notFree (h : SessionsLater locks db db') {f : Uuid} (hf : ¬ FamilyFree f db) :
    ¬ FamilyFree f db' := by
  intro hfree
  refine hf fun i s hs hsf => ?_
  obtain ⟨s', hs', hages, -⟩ := h.kept i s hs
  exact hfree i s' hs' (hages.familyId.trans hsf)

lemma sealed (h : SessionsLater locks db db') {f : Uuid} (hf : ¬ FamilyFree f db)
    (hlocked : Sealed f locks db) : Sealed f locks db' := by
  intro i s' hs' hsf hrev
  rcases hs : db.sessions.get? i with _ | s
  · exact absurd hs (h.closed f hf hlocked i s' hs' hsf)
  · have hages := h.ages hs hs'
    exact hlocked i s hs (hages.familyId.symm.trans hsf) (hages.unrevoked hrev)

lemma trans (h : SessionsLater locks db db') (h' : SessionsLater locks db' db'') :
    SessionsLater locks db db'' where
  kept i s hs := by
    obtain ⟨s', hs', hages, hlock⟩ := h.kept i s hs
    obtain ⟨s'', hs'', hages', hlock'⟩ := h'.kept i s' hs'
    exact ⟨s'', hs'', hages.trans hages', fun hl => (hlock' hl).trans (hlock hl)⟩
  hash f hl hf := h'.hash f hl (h.hash f hl hf)
  family f hl hf := h'.family f hl (h.family f hl hf)
  closed f hf hlocked i s'' hs'' hsf hnone := by
    rcases hs' : db'.sessions.get? i with _ | s'
    · exact h'.closed f (h.notFree hf) (h.sealed hf hlocked) i s'' hs'' hsf hs'
    · exact h.closed f hf hlocked i s' hs' ((h'.ages hs' hs'').familyId.symm.trans hsf) hnone

end SessionsLater

/-! ## What the writes do -/

/-- A write that leaves the tokens alone. -/
def AuthWrite.Quiet : AuthWrite → Prop
  | .session .. | .rotated .. | .revoked .. => False
  | _ => True

lemma sessions_of_quiet {db db' : AuthDb} {w : AuthWrite} (hw : w.Quiet)
    (h : AuthWrite.apply db w = some db') : db'.sessions = db.sessions := by
  cases w with
  | session id row | rotated id now | revoked id now => exact hw.elim
  | user id row | identity id row | challenge id row =>
      obtain ⟨t, -, rfl⟩ := Option.map_eq_some_iff.mp h
      rfl
  | editUser id patch | wallet userId address | dropChallenge id | attempt id n c =>
      cases h
      rfl

variable {cfg : AuthConfig}

lemma view_cons {w : AuthWrite} {ws : List AuthWrite} {db : AuthDb} :
    (accounts cfg).view (w :: ws) db =
      (AuthWrite.apply db w).bind ((accounts cfg).view ws) := rfl

lemma sessions_of_quiets {ws : List AuthWrite} {db db' : AuthDb} (hws : ∀ w ∈ ws, w.Quiet)
    (h : (accounts cfg).view ws db = some db') : db'.sessions = db.sessions := by
  induction ws generalizing db with
  | nil =>
      cases h
      rfl
  | cons w ws ih =>
      obtain ⟨db₁, h₁, h₂⟩ := Option.bind_eq_some_iff.mp (view_cons ▸ h)
      rw [ih (fun w hw => hws w (List.mem_cons_of_mem _ hw)) h₂,
        sessions_of_quiet (hws w List.mem_cons_self) h₁]

/-- Whatever is written, a hash or a family that is free afterwards was free before. -/
lemma apply_free {db db' : AuthDb} {w : AuthWrite} (h : AuthWrite.apply db w = some db') :
    (∀ hash, HashFree hash db' → HashFree hash db) ∧
      (∀ f, FamilyFree f db' → FamilyFree f db) := by
  suffices hkept : ∀ i s, db.sessions.get? i = some s → ∃ s', db'.sessions.get? i = some s' ∧
      s'.familyId = s.familyId ∧ s'.refreshTokenHash = s.refreshTokenHash by
    refine ⟨fun hash hf i s hs => ?_, fun f hf i s hs => ?_⟩ <;>
      obtain ⟨s', hs', hfam, hhash⟩ := hkept i s hs
    · exact hhash ▸ hf i s' hs'
    · exact hfam ▸ hf i s' hs'
  intro i s hs
  by_cases hw : w.Quiet
  · exact ⟨s, by rw [sessions_of_quiet hw h]; exact hs, rfl, rfl⟩
  · cases w with
    | session id row =>
        obtain ⟨t, ht, rfl⟩ := Option.map_eq_some_iff.mp h
        refine ⟨s, ?_, rfl, rfl⟩
        rw [Table.get?_insert ht, if_neg ?_]
        · exact hs
        · rintro rfl
          exact absurd (Table.insert_eq_some ht).1 (by simp [hs])
    | rotated id now | revoked id now =>
        cases h
        simp only [Table.get?_modify, hs]
        split <;> exact ⟨_, rfl, rfl, rfl⟩
    | _ => exact absurd trivial hw

lemma view_free {ws : List AuthWrite} {db db' : AuthDb}
    (h : (accounts cfg).view ws db = some db') :
    (∀ hash, HashFree hash db' → HashFree hash db) ∧
      (∀ f, FamilyFree f db' → FamilyFree f db) := by
  induction ws generalizing db with
  | nil =>
      cases h
      exact ⟨fun _ hf => hf, fun _ hf => hf⟩
  | cons w ws ih =>
      obtain ⟨db₁, h₁, h₂⟩ := Option.bind_eq_some_iff.mp (view_cons ▸ h)
      exact ⟨fun hash hf => (apply_free h₁).1 hash ((ih h₂).1 hash hf),
        fun f hf => (apply_free h₁).2 f ((ih h₂).2 f hf)⟩

/-- The rows a revocation rewrites. -/
lemma view_revoked {ids : List Uuid} {now : Time} {db db' : AuthDb}
    (h : (accounts cfg).view (ids.map (AuthWrite.revoked · now)) db = some db') (i : Uuid) :
    db'.sessions.get? i = if i ∈ ids then
      (db.sessions.get? i).map fun s => { s with revokedAt := some now }
    else db.sessions.get? i := by
  induction ids generalizing db with
  | nil =>
      cases h
      simp
  | cons id ids ih =>
      rw [ih h]
      simp only [Table.get?_modify, List.mem_cons]
      by_cases hi : i = id <;> by_cases hmem : i ∈ ids <;> simp [hi, hmem]
      · rcases db.sessions.get? id <;> simp
      · rw [hi] at hmem
        simp [hmem]

/-! ## What a transaction establishes -/

/-- The answers after which a family is revoked. -/
def AuthAnswer.EndsFamily (a : AuthAnswer) (familyId : Uuid) : Prop :=
  a = .reuseDetected familyId ∨ a = .loggedOut (some familyId)

/-- An exchange: the presented token is unspent and locked, its successor is of its family. -/
structure Exchanging (id : Uuid) (next : RefreshToken) (writes : List AuthWrite)
    (locks : List AuthLock) (db : AuthDb) : Prop where
  presented : ∃ s, db.sessions.get? id = some s ∧ s.Unspent ∧ s.familyId = next.familyId
  locked : .session id ∈ locks
  hash : .tokenHash next.hash ∈ locks
  hashFree : HashFree next.hash db
  writes : ∃ (now : Time) (newId userId : Uuid),
    writes = [.rotated id now, .session newId (next.row userId)] ∧
    .session newId ∈ locks

/-- A revocation: unrevoked rows, locked. -/
structure Revoking (writes : List AuthWrite) (locks : List AuthLock) (db : AuthDb) : Prop where
  writes : ∃ (ids : List Uuid) (now : Time), writes = ids.map (AuthWrite.revoked · now) ∧ ∀ i ∈ ids,
    .session i ∈ locks ∧ ∀ s, db.sessions.get? i = some s → s.revokedAt = none

/-- The revocation reaches every unrevoked token of the family. -/
structure Reaches (familyId : Uuid) (writes : List AuthWrite) (locks : List AuthLock)
    (db : AuthDb) : Prop where
  taken : ¬ FamilyFree familyId db
  locked : Sealed familyId locks db
  written : ∀ i s, db.sessions.get? i = some s → s.familyId = familyId → s.revokedAt = none →
    ∃ now, AuthWrite.revoked i now ∈ writes

/-- The first token of a login, under a family name and a hash of its own. -/
structure Opening (token : RefreshToken) (writes : List AuthWrite) (locks : List AuthLock)
    (db : AuthDb) : Prop where
  hash : .tokenHash token.hash ∈ locks
  hashFree : HashFree token.hash db
  family : .family token.familyId ∈ locks
  familyFree : FamilyFree token.familyId db
  writes : ∃ (quiets : List AuthWrite) (newId userId : Uuid),
    writes = quiets ++ [.session newId (token.row userId)] ∧
    (∀ w ∈ quiets, w.Quiet) ∧ .session newId ∈ locks

/-- What a transaction has established when its statements are through.  With `strict`, the
revoking statements saw every committed token of their family. -/
def Established (strict : Bool) (a : AuthAnswer) (writes : List AuthWrite)
    (locks : List AuthLock) (db : AuthDb) : Prop :=
  match a with
  | .failed _ => True
  | .refreshed id next _ => Exchanging id next writes locks db
  | .reuseDetected f | .loggedOut (some f) =>
      Revoking writes locks db ∧ (strict = true → Reaches f writes locks db)
  | .signedIn _ _ _ token _ => Opening token writes locks db
  | _ => ∀ w ∈ writes, w.Quiet

/-- The invariant of the committed tokens. -/
structure TokensOk (db : AuthDb) : Prop where
  oneUnspent : OneUnspent db
  hashesOnce : HashesOnce db

lemma TokensOk.of_sessions {db db' : AuthDb} (h : TokensOk db)
    (heq : db'.sessions = db.sessions) : TokensOk db' := by
  refine ⟨?_, ?_⟩
  · simpa only [OneUnspent, heq] using h.oneUnspent
  · simpa only [HashesOnce, heq] using h.hashesOnce

/-! ## What a commit leaves to the others -/

section Commit

variable {db db' : AuthDb} {writes : List AuthWrite} {locks others : List AuthLock}

/-- A new token under a hash and a row of its own. -/
lemma later_of_insert {newId : Uuid} {row : Session} {t : Table Uuid Session}
    (ht : db.sessions.insert newId row = some t) (heq : db'.sessions = t)
    (hhash : .tokenHash row.refreshTokenHash ∉ others)
    (hfam : ∀ f, .family f ∈ others → FamilyFree f db → row.familyId ≠ f)
    (hsealed : ¬ FamilyFree row.familyId db → ¬ Sealed row.familyId others db) :
    SessionsLater others db db' := by
  have hget : ∀ i, db'.sessions.get? i = if i = newId then some row else db.sessions.get? i :=
    fun i => by rw [heq, Table.get?_insert ht]
  have hnew : db.sessions.get? newId = none := (Table.insert_eq_some ht).1
  refine ⟨fun i s hs => ⟨s, ?_, .refl s, fun _ => rfl⟩, fun h hl hf i s hs => ?_,
    fun f hl hf i s hs => ?_, fun f hf hlocked i s hs hsf => ?_⟩
  · rw [hget, if_neg (by rintro rfl; simp [hnew] at hs), hs]
  · rw [hget] at hs
    split at hs
    · cases hs
      rintro rfl
      exact hhash hl
    · exact hf i s hs
  · rw [hget] at hs
    split at hs
    · cases hs
      exact hfam f hl hf
    · exact hf i s hs
  · rw [hget] at hs
    split at hs
    · cases hs
      subst hsf
      exact absurd hlocked (hsealed hf)
    · simp [hs]

/-- An unspent token, locked, is marked as exchanged. -/
lemma later_of_rotated {id : Uuid} {now : Time} {s₀ : Session}
    (hs₀ : db.sessions.get? id = some s₀) (hunspent : s₀.Unspent)
    (hlocked : .session id ∉ others) :
    SessionsLater others db ⟨db.users, db.identities, db.wallets, db.challenges,
      db.sessions.modify id fun s => { s with rotatedAt := some now }⟩ := by
  have hback : ∀ {i s'}, (db.sessions.modify id fun s => { s with rotatedAt := some now }).get? i =
      some s' → ∃ s, db.sessions.get? i = some s ∧ s'.familyId = s.familyId ∧
        s'.refreshTokenHash = s.refreshTokenHash := by
    intro i s' hs'
    rw [Table.get?_modify] at hs'
    split at hs'
    · obtain ⟨s, hs, rfl⟩ := Option.map_eq_some_iff.mp hs'
      exact ⟨s, hs, rfl, rfl⟩
    · exact ⟨s', hs', rfl, rfl⟩
  refine ⟨fun i s hs => ?_, fun h _ hf i s' hs' => ?_, fun f _ hf i s' hs' => ?_,
    fun f _ _ i s' hs' _ hnone => ?_⟩
  · simp only [Table.get?_modify, hs]
    split
    · rename_i hi
      subst hi
      rw [hs, Option.some.injEq] at hs₀
      subst hs₀
      exact ⟨_, rfl, ⟨rfl, rfl, fun hne => absurd hunspent.2 hne,
        fun hne => absurd hunspent.1 hne⟩, fun hl => absurd hl hlocked⟩
    · exact ⟨s, rfl, .refl s, fun _ => rfl⟩
  · obtain ⟨s, hs, -, hhash⟩ := hback hs'
    exact hhash ▸ hf i s hs
  · obtain ⟨s, hs, hfam, -⟩ := hback hs'
    exact hfam ▸ hf i s hs
  · obtain ⟨s, hs, -, -⟩ := hback hs'
    simp [hnone] at hs

lemma Revoking.leaves (hI : TokensOk db) (h : Revoking writes locks db)
    (hview : (accounts cfg).view writes db = some db') :
    TokensOk db' ∧ ∀ others, (∀ l ∈ locks, l ∉ others) → SessionsLater others db db' := by
  obtain ⟨ids, now, rfl, hids⟩ := h.writes
  have hget := view_revoked hview
  -- What a row was before.
  have hback : ∀ i s', db'.sessions.get? i = some s' → ∃ s, db.sessions.get? i = some s ∧
      s.Ages s' ∧ (s'.Unspent → s = s') ∧ (i ∉ ids → s' = s) := by
    intro i s' hs'
    rw [hget] at hs'
    split at hs'
    · rename_i hmem
      obtain ⟨s, hs, rfl⟩ := Option.map_eq_some_iff.mp hs'
      refine ⟨s, hs, ⟨rfl, rfl, fun hne => absurd ((hids i hmem).2 s hs) hne, fun _ => rfl⟩,
        fun hu => ?_, fun hn => absurd hmem hn⟩
      cases hu.2
    · exact ⟨s', hs', .refl s', fun _ => rfl, fun _ => rfl⟩
  refine ⟨⟨fun i j s t hs ht hfam hus hut => ?_, fun i j s t hs ht hhash => ?_⟩,
    fun others hdis => ⟨fun i s hs => ?_, fun h _ hf i s' hs' => ?_, fun f _ hf i s' hs' => ?_,
      fun f _ _ i s' hs' _ => ?_⟩⟩
  · obtain ⟨s₀, hs₀, -, hs, -⟩ := hback i s hs
    obtain ⟨t₀, ht₀, -, ht, -⟩ := hback j t ht
    cases hs hus
    cases ht hut
    exact hI.oneUnspent i j _ _ hs₀ ht₀ hfam hus hut
  · obtain ⟨s₀, hs₀, hs, -, -⟩ := hback i s hs
    obtain ⟨t₀, ht₀, ht, -, -⟩ := hback j t ht
    exact hI.hashesOnce i j _ _ hs₀ ht₀ (hs.hash.symm.trans (hhash.trans ht.hash))
  · obtain ⟨s', hs'⟩ : ∃ s', db'.sessions.get? i = some s' := by
      rw [hget, hs]
      split <;> exact ⟨_, rfl⟩
    obtain ⟨s₀, hs₀, hages, -, hsame⟩ := hback i s' hs'
    rw [hs, Option.some.injEq] at hs₀
    subst hs₀
    exact ⟨s', hs', hages, fun hl => hsame fun hmem => hdis _ (hids i hmem).1 hl⟩
  · obtain ⟨s, hs, hages, -, -⟩ := hback i s' hs'
    exact hages.hash ▸ hf i s hs
  · obtain ⟨s, hs, hages, -, -⟩ := hback i s' hs'
    exact hages.familyId ▸ hf i s hs
  · obtain ⟨s, hs, -⟩ := hback i s' hs'
    simp [hs]

lemma Opening.leaves {token : RefreshToken} (hI : TokensOk db)
    (h : Opening token writes locks db) (hview : (accounts cfg).view writes db = some db') :
    TokensOk db' ∧ ∀ others, (∀ l ∈ locks, l ∉ others) → SessionsLater others db db' := by
  obtain ⟨quiets, newId, userId, rfl, hquiet, hlocked⟩ := h.writes
  rw [view_append] at hview
  obtain ⟨db₁, h₁, h₂⟩ := Option.bind_eq_some_iff.mp hview
  have heq₁ := sessions_of_quiets hquiet h₁
  obtain ⟨db₂, h₂, h₃⟩ := Option.bind_eq_some_iff.mp (view_cons ▸ h₂)
  cases h₃
  obtain ⟨t, ht, rfl⟩ := Option.map_eq_some_iff.mp h₂
  rw [heq₁] at ht
  have hget : ∀ i, t.get? i = if i = newId then some (token.row userId)
      else db.sessions.get? i := Table.get?_insert ht
  refine ⟨⟨fun i j s u hs hu hfam hus huu => ?_, fun i j s u hs hu hhash => ?_⟩,
    fun others hdis => later_of_insert ht rfl (hdis _ h.hash) (fun f hf _ => ?_) (fun hf => ?_)⟩
  · simp only [hget] at hs hu
    split at hs <;> split at hu
    · exact ‹i = newId›.trans ‹j = newId›.symm
    · cases hs
      exact absurd hfam.symm (h.familyFree j u hu)
    · cases hu
      exact absurd hfam (h.familyFree i s hs)
    · exact hI.oneUnspent i j s u hs hu hfam hus huu
  · simp only [hget] at hs hu
    split at hs <;> split at hu
    · exact ‹i = newId›.trans ‹j = newId›.symm
    · cases hs
      exact absurd hhash.symm (h.hashFree j u hu)
    · cases hu
      exact absurd hhash (h.hashFree i s hs)
    · exact hI.hashesOnce i j s u hs hu hhash
  · rintro rfl
    exact hdis _ h.family hf
  · exact absurd h.familyFree hf

lemma Exchanging.leaves {id : Uuid} {next : RefreshToken} (hI : TokensOk db)
    (h : Exchanging id next writes locks db) (hview : (accounts cfg).view writes db = some db') :
    TokensOk db' ∧ ∀ others, (∀ l ∈ locks, l ∉ others) → SessionsLater others db db' := by
  obtain ⟨now, newId, userId, rfl, hlocked⟩ := h.writes
  obtain ⟨s₀, hs₀, hunspent, hfam₀⟩ := h.presented
  obtain ⟨db₁, h₁, h₂⟩ := Option.bind_eq_some_iff.mp (view_cons ▸ hview)
  obtain ⟨db₂, h₂, h₃⟩ := Option.bind_eq_some_iff.mp (view_cons ▸ h₂)
  cases h₃
  cases h₁
  obtain ⟨t, ht, rfl⟩ := Option.map_eq_some_iff.mp h₂
  simp only at ht
  have hnew : newId ≠ id := by
    rintro rfl
    exact absurd (Table.insert_eq_some ht).1 (by simp [hs₀])
  have hget : ∀ i, t.get? i = if i = newId then some (next.row userId)
      else if i = id then some { s₀ with rotatedAt := some now } else db.sessions.get? i := by
    intro i
    rw [Table.get?_insert ht, Table.get?_modify]
    by_cases hi : i = id
    · subst hi
      simp [hs₀]
    · simp [hi]
  -- The presented token was the one unspent token of the family.
  have hlast : ∀ i s, db.sessions.get? i = some s → s.familyId = next.familyId → s.Unspent →
      i = id := fun i s hs hf hu => hI.oneUnspent i id s s₀ hs hs₀ (hf.trans hfam₀.symm) hu hunspent
  refine ⟨⟨fun i j s u hs hu hfam hus huu => ?_, fun i j s u hs hu hhash => ?_⟩,
    fun others hdis => ?_⟩
  · simp only [hget] at hs hu
    have hold : ∀ {k v}, (if k = id then some { s₀ with rotatedAt := some now }
        else db.sessions.get? k) = some v → v.Unspent → k ≠ id ∧ db.sessions.get? k = some v := by
      intro k v hv hunsp
      split at hv
      · cases hv
        cases hunsp.1
      · exact ⟨‹_›, hv⟩
    split at hs <;> split at hu
    · exact ‹i = newId›.trans ‹j = newId›.symm
    · cases hs
      obtain ⟨hj, hu⟩ := hold hu huu
      exact absurd (hlast j u hu hfam.symm huu) hj
    · cases hu
      obtain ⟨hi, hs⟩ := hold hs hus
      exact absurd (hlast i s hs hfam hus) hi
    · obtain ⟨-, hs⟩ := hold hs hus
      obtain ⟨-, hu⟩ := hold hu huu
      exact hI.oneUnspent i j s u hs hu hfam hus huu
  · simp only [hget] at hs hu
    have hold : ∀ {k v}, (if k = id then some { s₀ with rotatedAt := some now }
        else db.sessions.get? k) = some v → ∃ w, db.sessions.get? k = some w ∧
          w.refreshTokenHash = v.refreshTokenHash := by
      intro k v hv
      split at hv
      · cases hv
        exact ⟨s₀, by simp only [‹k = id›, hs₀], rfl⟩
      · exact ⟨v, hv, rfl⟩
    split at hs <;> split at hu
    · exact ‹i = newId›.trans ‹j = newId›.symm
    · cases hs
      obtain ⟨w, hw, hwv⟩ := hold hu
      exact absurd (hwv.trans hhash.symm) (h.hashFree j w hw)
    · cases hu
      obtain ⟨w, hw, hwv⟩ := hold hs
      exact absurd (hwv.trans hhash) (h.hashFree i w hw)
    · obtain ⟨w, hw, hwv⟩ := hold hs
      obtain ⟨w', hw', hwv'⟩ := hold hu
      exact hI.hashesOnce i j w w' hw hw' (hwv.trans (hhash.trans hwv'.symm))
  · -- First the exchange is recorded, then the successor enters.
    have hrotated : { s₀ with rotatedAt := some now }.familyId = next.familyId := hfam₀
    refine (later_of_rotated hs₀ hunspent (hdis _ h.locked)).trans
      (later_of_insert ht rfl (hdis _ h.hash) (fun f hf hfree => ?_) fun _ hsealed => ?_)
    · rintro rfl
      exact hfree id _ (by simp [hs₀]) hrotated
    · exact hdis _ h.locked (hsealed id _ (by simp [hs₀]) hrotated hunspent.2)

/-- **A commit leaves the tokens in order, and respects what the others rely on.** -/
lemma Established.leaves {strict : Bool} {a : AuthAnswer} (hI : TokensOk db)
    (h : Established strict a writes locks db) (ha : a.commits = true) :
    Leaves (accounts cfg) TokensOk SessionsLater writes locks db := by
  intro db' hview
  have hquiets : (∀ w ∈ writes, w.Quiet) → TokensOk db' ∧
      ∀ others, (∀ l ∈ locks, l ∉ others) → SessionsLater others db db' := by
    intro hq
    have heq := sessions_of_quiets hq hview
    exact ⟨hI.of_sessions heq, fun others _ => .of_sessions heq⟩
  cases a with
  | failed e => cases ha
  | refreshed id next access => exact Exchanging.leaves hI h hview
  | reuseDetected f => exact Revoking.leaves hI h.1 hview
  | loggedOut f =>
      cases f with
      | none => exact hquiets h
      | some f => exact Revoking.leaves hI h.1 hview
  | signedIn userId new user token access => exact Opening.leaves hI h hview
  | codeSent | otpRefused e | updated => exact hquiets h

end Commit

/-! ## What was established stays -/

section Stable

variable {db db' : AuthDb} {writes : List AuthWrite} {locks : List AuthLock}

lemma Exchanging.stable {id : Uuid} {next : RefreshToken} (h : Exchanging id next writes locks db)
    (hR : SessionsLater locks db db') : Exchanging id next writes locks db' := by
  obtain ⟨s, hs, hunspent, hfam⟩ := h.presented
  obtain ⟨s', hs', -, hsame⟩ := hR.kept id s hs
  cases hsame h.locked
  exact ⟨⟨s, hs', hunspent, hfam⟩, h.locked, h.hash, hR.hash _ h.hash h.hashFree, h.writes⟩

lemma Revoking.stable (h : Revoking writes locks db) (hR : SessionsLater locks db db')
    (hthere : ∀ i t, AuthWrite.revoked i t ∈ writes → db.sessions.get? i ≠ none) :
    Revoking writes locks db' := by
  obtain ⟨ids, now, rfl, hids⟩ := h.writes
  refine ⟨ids, now, rfl, fun i hi => ⟨(hids i hi).1, fun s' hs' => ?_⟩⟩
  rcases hs : db.sessions.get? i with _ | s
  · exact absurd hs (hthere i now (List.mem_map_of_mem hi))
  · obtain ⟨s₁, hs₁, -, hsame⟩ := hR.kept i s hs
    rw [hs', Option.some.injEq] at hs₁
    subst hs₁
    rw [hsame (hids i hi).1]
    exact (hids i hi).2 s hs

lemma Reaches.stable {f : Uuid} (h : Reaches f writes locks db)
    (hR : SessionsLater locks db db') : Reaches f writes locks db' := by
  refine ⟨hR.notFree h.taken, hR.sealed h.taken h.locked, fun i s' hs' hf hrev => ?_⟩
  rcases hs : db.sessions.get? i with _ | s
  · exact absurd hs (hR.closed f h.taken h.locked i s' hs' hf)
  · have hages := hR.ages hs hs'
    exact h.written i s hs (hages.familyId.symm.trans hf) (hages.unrevoked hrev)

lemma Opening.stable {token : RefreshToken} (h : Opening token writes locks db)
    (hR : SessionsLater locks db db') : Opening token writes locks db' :=
  ⟨h.hash, hR.hash _ h.hash h.hashFree, h.family, hR.family _ h.family h.familyFree, h.writes⟩

end Stable

/-! ## The statements of the requests -/

/-- The statements that leave the tokens alone. -/
def AuthOp.Quiet : AuthOp → Prop
  | .setRotated .. | .revokeFamily .. | .revokeFamilyOf .. | .insertSession .. => False
  | _ => True

lemma quiet_writes {op : AuthOp} {ω : AuthOracle} {seen current : AuthDb} {r : op.Res}
    {ws : List AuthWrite} {ls : List AuthLock} (hop : op.Quiet)
    (h : execAuth ω seen current op = some (r, ws, ls)) : ∀ w ∈ ws, w.Quiet := by
  intro w hw
  cases writes_of_exec h w hw with
  | setRotated | revokeFamily | revokeFamilyOf | insertSession => exact hop.elim
  | _ => trivial

end Naivolt
