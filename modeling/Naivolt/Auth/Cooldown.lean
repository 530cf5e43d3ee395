import Naivolt.Auth.Guessing

/-!
# How soon a code can be sent again

A request for a code asks when the last one was sent and locks that row, so that two requests
cannot both pass.  But the row is then deleted, or stays as it is because it was consumed, and a
new one takes its place.  A request that has waited for the lock goes by the rows its snapshot
shows: it finds the row gone, or the old one unchanged, and sends another code at once
(`codes_in_a_second`).

`codes_apart` says when the cooldown holds: when no code for the destination is entered between
the question of a request and its own code.
-/

namespace Naivolt

open Foundation Database

/-! ## Questions and codes -/

/-- The destination of the transaction that asks, in this move, when the last code was sent. -/
def asks (tid : ℕ) (x : AccountsMoment) : Bool :=
  match x.2 with
  | .send i => i = tid && (x.1.live.get? i).any fun t =>
      match t.rest with
      | .call (.lastSent _) _ => true
      | _ => false
  | _ => false

/-- What has happened since the transaction last asked. -/
def sinceAsked (tid : ℕ) (h : List AccountsMoment) : List AccountsMoment :=
  h.rtakeWhile fun x => !asks tid x

/-- This move enters a code for the destination. -/
def IssuesTo (destination : String) (x : AccountsMoment) : Prop :=
  ∃ id row, issuedBy x = some (id, row) ∧ row.destination = destination

instance (destination : String) (x : AccountsMoment) : Decidable (IssuesTo destination x) :=
  decidable_of_iff (∃ p ∈ issuedBy x, p.2.destination = destination)
    ⟨fun ⟨p, hp, hdest⟩ => ⟨p.1, p.2, hp, hdest⟩,
      fun ⟨id, row, hp, hdest⟩ => ⟨(id, row), hp, hdest⟩⟩

/-- The code entered by this move, if any, is the first for its destination since its request
asked. -/
def MissesNone (h : List AccountsMoment) (x : AccountsMoment) : Prop :=
  match x.2, issuedBy x with
  | .commit tid, some (_, row) => ∀ y ∈ sinceAsked tid h, ¬ IssuesTo row.destination y
  | _, _ => True

instance (h : List AccountsMoment) (x : AccountsMoment) : Decidable (MissesNone h x) := by
  unfold MissesNone
  split <;> infer_instance

/-- No request enters a code for a destination for which one was entered since it asked. -/
def NoneMissed (h : List AccountsMoment) : Prop :=
  ∀ i, ∀ x ∈ h[i]?, MissesNone (h.take i) x

instance (h : List AccountsMoment) : Decidable (NoneMissed h) :=
  decidable_of_iff (∀ i < h.length, ∀ x ∈ h[i]?, MissesNone (h.take i) x)
    ⟨fun hall i x hx => hall i (List.getElem?_eq_some_iff.mp hx).1 x hx, fun hall i _ => hall i⟩

/-! ## The rows of a destination -/

/-- When the code of a row was sent, if it is a row of the destination. -/
def sentAt (db : AuthDb) (destination : String) (id : Uuid) : Option Time :=
  (db.challenges.get? id).bind fun c =>
    if c.destination = destination then some c.lastSentAt else none

/-- The cooldown of every row of the destination is over. -/
def Cooled (db : AuthDb) (destination : String) (now : Time) : Prop :=
  ∀ id time, sentAt db destination id = some time → time + seconds resendCooldownSeconds ≤ now

section Rows

variable {cfg : AuthConfig} {a : AuthAnswer} {writes : List AuthWrite} {locks : List AuthLock}
  {db db' : AuthDb} {destination : String}

lemma issued_of_codeless (hws : ∀ w ∈ writes, w.Codeless) :
    writes.findSome? AuthWrite.issued = none := by
  refine List.findSome?_eq_none_iff.mpr fun w hw => ?_
  cases w with
  | challenge => exact (hws _ hw).elim
  | _ => rfl

lemma issued_of_drops {drops : List Uuid} {id : Uuid} {row : OtpChallenge} :
    (drops.map AuthWrite.dropChallenge ++ [AuthWrite.challenge id row]).findSome? AuthWrite.issued =
      some (id, row) := by
  rw [List.findSome?_append, List.findSome?_eq_none_iff.mpr (by simp [AuthWrite.issued])]
  rfl

lemma sentAt_of_attempt {id : Uuid} {n : ℤ} {consumedAt : Option Time} {rest : List AuthWrite}
    (hrest : ∀ w ∈ rest, w.Codeless)
    (hview : (accounts cfg).view (.attempt id n consumedAt :: rest) db = some db') (i : Uuid) :
    sentAt db' destination i = sentAt db destination i := by
  unfold sentAt
  rw [view_attempt hrest hview]
  split
  · rcases db.challenges.get? i with _ | c <;> rfl
  · rfl

/-- A commit that enters no code for a destination leaves its rows, and when they were sent. -/
lemma sentAt_of_commit (hpost : Judged a writes locks db) (hc : a.commits = true)
    (hview : (accounts cfg).view writes db = some db')
    (hissue : ∀ id row, writes.findSome? AuthWrite.issued = some (id, row) →
      row.destination ≠ destination) (i : Uuid) :
    sentAt db' destination i = sentAt db destination i := by
  cases a with
  | failed e => cases hc
  | otpRefused e =>
      obtain ⟨id, c, n, rfl, -⟩ := hpost
      exact sentAt_of_attempt (by simp) hview i
  | signedIn u new user token access =>
      rcases hpost with hquiet | ⟨id, c, now, rest, rfl, hrest, -⟩
      · unfold sentAt
        rw [view_codeless hquiet hview]
      · exact sentAt_of_attempt hrest hview i
  | codeSent =>
      obtain ⟨drops, id, row, rfl, -, -, hdrops⟩ := hpost
      have hne := hissue id row issued_of_drops
      unfold sentAt
      rw [view_issue hview]
      split
      · rename_i hi
        subst hi
        rcases view_issue_free hview with hdrop | hfree
        · obtain ⟨-, c, hget, hdest⟩ := hdrops i hdrop
          simp [hget, hdest, hne]
        · simp [hfree, hne]
      · split
        · rename_i hdrop
          obtain ⟨-, c, hget, hdest⟩ := hdrops i hdrop
          simp [hget, hdest, hne]
        · rfl
  | refreshed | reuseDetected | loggedOut | updated =>
      unfold sentAt
      rw [view_codeless hpost hview]

end Rows

/-- A request passes that found its answer among the rows of the moment: the cooldown is over for
all of them. -/
lemma cooled_of_lastSent {ω : AuthOracle} {seen current : AuthDb} {destination : String}
    {now : Time} {existing : Option Time} {ws : List AuthWrite} {ls : List AuthLock}
    (h : execAuth ω seen current (.lastSent destination) = some (existing, ws, ls))
    (hsame : ∀ id, sentAt seen destination id = sentAt current destination id)
    (hpass : (existing.map fun (lastSentAt : Time) =>
      ((now : ℤ) - (lastSentAt : ℤ)).tdiv (seconds 1 : ℕ)).filter
        (· < (resendCooldownSeconds : ℤ)) = none) : Cooled current destination now := by
  intro id time hsent
  cases h
  -- The row is one of those the statement chose the newest of.
  rw [← hsame] at hsent
  obtain ⟨c, hget, hc⟩ := Option.bind_eq_some_iff.mp hsent
  split at hc
  · rename_i hdest
    cases hc
    have hthere : (current.challenges.get? id).isSome = true := by
      rw [hsame] at hsent
      obtain ⟨c', hget', -⟩ := Option.bind_eq_some_iff.mp hsent
      simp [hget']
    have hmem : (id, c) ∈ seen.challenges.rows.filter fun r =>
        r.2.destination = destination ∧ (current.challenges.get? r.1).isSome :=
      List.mem_filter.mpr ⟨Table.get?_eq_some_iff.mp hget, by simp [hdest, hthere]⟩
    rcases hrow : (seen.challenges.rows.filter fun r =>
        r.2.destination = destination ∧ (current.challenges.get? r.1).isSome).argmax
          (·.2.lastSentAt) with _ | newest
    · rw [List.argmax_eq_none.mp hrow] at hmem
      cases hmem
    · have hle : c.lastSentAt ≤ newest.2.lastSentAt :=
        List.le_of_mem_argmax (f := fun r : Uuid × OtpChallenge => r.2.lastSentAt) hmem hrow
      rw [hrow] at hpass
      simp only [Option.map_some, Option.filter_eq_none_iff, Option.some.injEq,
        forall_eq', decide_eq_true_eq, not_lt] at hpass
      have hmul := Int.tdiv_mul_le ((now : ℤ) - (newest.2.lastSentAt : ℤ))
        (b := ((seconds 1 : ℕ) : ℤ)) (by simp [seconds])
      simp only [seconds, resendCooldownSeconds] at hmul hpass ⊢
      have hnewest : (newest.2.lastSentAt : ℤ) + 60 * 1000000 ≤ now := by
        split at hmul <;> omega
      have hnewer : (c.lastSentAt : ℤ) ≤ newest.2.lastSentAt := Int.ofNat_le.mpr hle
      exact Int.ofNat_le.mp (by push_cast; omega)
  · cases hc

/-! ## Where a request stands -/

/-- The statements that follow the cooldown, with what they enter. -/
def AuthOp.Sends (destination : String) (now : Time) : AuthOp → Prop
  | .randomCode | .hashCode _ | .dropChallenges _ | .sendCode .. => True
  | .insertChallenge row => row.destination = destination ∧ row.lastSentAt = now
  | _ => False

/-- A row for the destination, sent now. -/
def AuthWrite.SentTo (destination : String) (now : Time) : AuthWrite → Prop
  | .challenge _ row => row.destination = destination ∧ row.lastSentAt = now
  | _ => True

/-- Any statement. -/
def AuthOp.Any (_ : AuthOp) : Prop := True

/-- What follows when the time of the last code is known. -/
def afterAsked (cfg : AuthConfig) (identifier : Identifier) (now : Time) (existing : Option Time) :
    AuthTxn AuthAnswer :=
  match (existing.map fun (lastSentAt : Time) =>
    ((now : ℤ) - (lastSentAt : ℤ)).tdiv (seconds 1 : ℕ)).filter
      (· < (resendCooldownSeconds : ℤ)) with
  | some elapsed => pure (.failed (.otpThrottled (resendCooldownSeconds - elapsed)))
  | none => issueCode cfg identifier now

/-- Where a transaction stands, after a history and over the committed tables: it sends no code;
it is a request for one that has not asked yet, or is asking, or has found the cooldown over. -/
inductive Stage (cfg : AuthConfig) (h : List AccountsMoment) (db : AuthDb) (tid : ℕ) :
    AccountsTxn → Prop where
  | aside {t : AccountsTxn} : t.rest.Within AuthOp.Any (· ≠ .codeSent) → Stage cfg h db tid t
  | fresh {identifier : Identifier} {locks : List AuthLock} {snapshot : Option AuthDb} :
      Stage cfg h db tid ⟨.call .clock fun now =>
        .call (.lastSent identifier.subject) (afterAsked cfg identifier now), [], locks, snapshot⟩
  | asking {identifier : Identifier} {now : Time} {locks : List AuthLock}
      {snapshot : Option AuthDb} :
      (∀ seen ∈ snapshot, (∀ x ∈ sinceAsked tid h, ¬ IssuesTo identifier.subject x) →
        ∀ id, sentAt seen identifier.subject id = sentAt db identifier.subject id) →
      Stage cfg h db tid
        ⟨.call (.lastSent identifier.subject) (afterAsked cfg identifier now), [], locks, snapshot⟩
  | cooled {t : AccountsTxn} {destination : String} {now : Time} :
      ((∀ x ∈ sinceAsked tid h, ¬ IssuesTo destination x) → Cooled db destination now) →
      t.rest.Within (AuthOp.Sends destination now) anyResult →
      (∀ w ∈ t.writes, w.SentTo destination now) → Stage cfg h db tid t

section Stages

variable {cfg : AuthConfig} {h : List AccountsMoment} {s s' : AccountsStore} {tid : ℕ}
  {t : AccountsTxn}

/-- What another transaction does leaves a transaction where it stands. -/
lemma Stage.mono {x : AccountsMoment} {db db' : AuthDb} (hstage : Stage cfg h db tid t)
    (hasks : asks tid x = false)
    (hrows : ∀ destination, ¬ IssuesTo destination x → ∀ id,
      sentAt db' destination id = sentAt db destination id) :
    Stage cfg (h ++ [x]) db' tid t := by
  have hsince : sinceAsked tid (h ++ [x]) = sinceAsked tid h ++ [x] :=
    List.rtakeWhile_concat_pos _ _ _ (by simp [hasks])
  cases hstage with
  | aside hwithin => exact .aside hwithin
  | fresh => exact .fresh
  | asking hsame =>
      refine .asking fun seen hseen hnone id => ?_
      rw [hsince] at hnone
      rw [hsame seen hseen (fun y hy => hnone y (List.mem_append_left _ hy)) id,
        hrows _ (hnone x (by simp)) id]
  | cooled hcool hwithin hwrites =>
      refine .cooled (fun hnone id time hsent => ?_) hwithin hwrites
      rw [hsince] at hnone
      exact hcool (fun y hy => hnone y (List.mem_append_left _ hy)) id time
        (hrows _ (hnone x (by simp)) id ▸ hsent)

/-- A request begins. -/
lemma stage_program (req : AuthRequest) (db : AuthDb) :
    Stage cfg h db tid ⟨authProgram cfg req, [], [], none⟩ := by
  have hany {A : AuthAnswer → Prop} {p : AuthTxn AuthAnswer} {O : AuthOp → Prop}
      (hp : p.Within O A) (hA : ∀ a, A a → a ≠ .codeSent) :
      p.Within AuthOp.Any (· ≠ .codeSent) := hp.mono (fun _ _ => trivial) hA
  have hends : ∀ a, AuthAnswer.EndsSignIn a → a ≠ .codeSent := fun a ha heq => by
    subst heq
    exact ha
  have hunrelated : ∀ a, AuthAnswer.Unrelated a → a ≠ .codeSent := fun a ha heq => by
    subst heq
    exact ha
  cases req with
  | requestOtp input =>
      simp only [authProgram, requestOtp_eq]
      split
      · exact .aside fun heq => by cases heq
      · exact .fresh
  | verifyOtp input code =>
      refine .aside ?_
      simp only [authProgram, Naivolt.verifyOtp]
      split
      · exact fun heq => by cases heq
      · refine ⟨trivial, fun now => ⟨trivial, fun row => ?_⟩⟩
        rcases row with _ | ⟨id, challenge⟩
        · exact fun heq => by cases heq
        · refine ⟨trivial, fun _ => ?_⟩
          dsimp only
          split
          · exact fun heq => by cases heq
          · exact hany (codeless_signIn cfg _ now) hends
  | google verified => exact .aside (hany (codeless_googleSignIn cfg verified) hends)
  | refresh presented => exact .aside (hany (codeless_refresh cfg presented) hunrelated)
  | logout presented => exact .aside (hany (codeless_logout cfg presented) hunrelated)
  | updateMe userId body => exact .aside (hany (codeless_updateMe cfg userId body) hunrelated)

lemma within_issueCode (identifier : Identifier) (now : Time) :
    (issueCode cfg identifier now).Within (AuthOp.Sends identifier.subject now) anyResult := by
  unfold issueCode
  split
  case' h_2 => refine ⟨trivial, fun code => ?_⟩
  all_goals
    refine ⟨trivial, fun hash => ?_⟩
    rcases hash with _ | codeHash
    · trivial
    · refine ⟨trivial, fun _ => ⟨⟨rfl, rfl⟩, fun ok => ?_⟩⟩
      cases ok with
      | false => trivial
      | true => exact ⟨trivial, fun sent => by cases sent <;> trivial⟩

lemma sends_writes {op : AuthOp} {ω : AuthOracle} {seen current : AuthDb} {r : op.Res}
    {ws : List AuthWrite} {ls : List AuthLock} {destination : String} {now : Time}
    (hop : op.Sends destination now) (he : execAuth ω seen current op = some (r, ws, ls)) :
    ∀ w ∈ ws, w.SentTo destination now := by
  intro w hw
  cases writes_of_exec he w hw with
  | insertChallenge => exact hop
  | _ => trivial

/-- **The statement of a transaction** brings it to where it stands next. -/
lemma Stage.perform {op : AuthOp} {k : op.Res → AuthTxn AuthAnswer}
    {writes writes' : List AuthWrite} {locks locks' : List AuthLock} {snapshot : AuthDb}
    {ω : AuthOracle} {r : op.Res}
    (hstage : Stage cfg h s.committed tid ⟨.call op k, writes, locks, some snapshot⟩)
    (hexec : (accounts cfg).statement op ω writes snapshot s.committed =
      some (r, writes', locks')) :
    Stage cfg (h ++ [(s, .perform tid ω)]) s.committed tid
      ⟨k r, writes ++ writes', locks ++ locks', none⟩ := by
  obtain ⟨seen, current, hseen, hcur, he⟩ := statement_eq_some.mp hexec
  have he : execAuth ω seen current op = some (r, writes', locks') := he
  have hsince : sinceAsked tid (h ++ [(s, .perform tid ω)]) =
      sinceAsked tid h ++ [(s, .perform tid ω)] :=
    List.rtakeWhile_concat_pos _ _ _ (by simp [asks])
  cases hstage with
  | aside hwithin => exact .aside (hwithin.2 r)
  | fresh =>
      obtain ⟨rfl, rfl⟩ := silent_clock _ _ _ _ _ _ he
      exact .asking fun _ h => by cases h
  | @asking identifier now _ _ hsame =>
      cases hseen
      cases hcur
      obtain rfl : writes' = [] := List.eq_nil_iff_forall_not_mem.mpr fun w hw => by
        cases writes_of_exec he w hw
      unfold afterAsked
      split
      · exact .aside fun heq => by cases heq
      · rename_i hpass
        refine .cooled (fun hnone => ?_) (within_issueCode identifier now) (by simp)
        rw [hsince] at hnone
        exact cooled_of_lastSent he (hsame _ rfl fun x hx => hnone x (List.mem_append_left _ hx))
          hpass
  | cooled hcool hwithin hwrites =>
      refine .cooled (fun hnone => ?_) (hwithin.2 r) fun w hw => ?_
      · rw [hsince] at hnone
        exact hcool fun x hx => hnone x (List.mem_append_left _ hx)
      · exact (List.mem_append.mp hw).elim (hwrites w) (sends_writes hwithin.1 he w)

/-- A statement is sent; if it is the question, the request asks now. -/
lemma Stage.send (hstage : Stage cfg h s.committed tid t) (ht : s.live.get? tid = some t) :
    Stage cfg (h ++ [(s, .send tid)]) s.committed tid { t with snapshot := some s.committed } := by
  have hsince (hasks : asks tid (s, .send tid) = false) :
      sinceAsked tid (h ++ [(s, .send tid)]) = sinceAsked tid h ++ [(s, .send tid)] :=
    List.rtakeWhile_concat_pos _ _ _ (by simp [hasks])
  cases hstage with
  | aside hwithin => exact .aside hwithin
  | fresh => exact .fresh
  | asking => exact .asking fun seen hseen _ id => by cases hseen; rfl
  | @cooled _ destination now hcool hwithin hwrites =>
      refine .cooled (fun hnone => ?_) hwithin hwrites
      have hasks : asks tid (s, .send tid) = false := by
        obtain ⟨rest, writes, locks, snapshot⟩ := t
        rcases rest with a | ⟨op, k⟩
        · simp [asks, ht]
        · cases op with
          | lastSent => exact hwithin.1.elim
          | _ => simp [asks, ht]
      rw [hsince hasks] at hnone
      exact hcool fun x hx => hnone x (List.mem_append_left _ hx)

end Stages

/-! ## Along a run -/

/-- Codes for one destination are sent at least the cooldown apart. -/
def Apart (a b : Uuid × OtpChallenge) : Prop :=
  a.2.destination = b.2.destination →
    a.2.lastSentAt + seconds resendCooldownSeconds ≤ b.2.lastSentAt

instance : DecidableRel Apart := fun a b =>
  inferInstanceAs (Decidable (a.2.destination = b.2.destination →
    a.2.lastSentAt + seconds resendCooldownSeconds ≤ b.2.lastSentAt))

/-- Where the transactions of a run stand, and the codes it has entered: they are apart, and none
is newer than the newest row of its destination. -/
structure Cooling (cfg : AuthConfig) (h : List AccountsMoment) (s : AccountsStore) : Prop where
  stages : ∀ tid t, s.live.get? tid = some t → Stage cfg h s.committed tid t
  newest : ∀ a ∈ h.filterMap issuedBy, ∃ id time,
    sentAt s.committed a.2.destination id = some time ∧ a.2.lastSentAt ≤ time
  apart : (h.filterMap issuedBy).Pairwise Apart

section Run

variable {cfg : AuthConfig} {h : List AccountsMoment} {s s' : AccountsStore} {tid : ℕ}
  {m : TxnMove AuthOracle AuthRequest}

/-- A move that enters no code. -/
lemma Cooling.quiet (hc : Cooling cfg h s) (hno : issuedBy (s, m) = none)
    (hrows : ∀ destination id, sentAt s'.committed destination id =
      sentAt s.committed destination id)
    (hstages : ∀ tid t, s'.live.get? tid = some t →
      Stage cfg (h ++ [(s, m)]) s'.committed tid t) : Cooling cfg (h ++ [(s, m)]) s' := by
  have hsame : (h ++ [(s, m)]).filterMap issuedBy = h.filterMap issuedBy := by simp [hno]
  refine ⟨hstages, fun a ha => ?_, hsame ▸ hc.apart⟩
  obtain ⟨id, time, hsent, hle⟩ := hc.newest a (hsame ▸ ha)
  exact ⟨id, time, hrows _ _ ▸ hsent, hle⟩

/-- A code is entered, by a request that has missed none. -/
lemma Cooling.issue (hc : Cooling cfg h s) {writes : List AuthWrite} {locks : List AuthLock}
    {snapshot : Option AuthDb} {newId : Uuid} {row : OtpChallenge}
    (ht : s.live.get? tid = some ⟨.ret .codeSent, writes, locks, snapshot⟩)
    (hpost : Judged .codeSent writes locks s.committed)
    (hview : (accounts cfg).view writes s.committed = some s'.committed)
    (hissued : issuedBy (s, .commit tid) = some (newId, row))
    (hmissed : ∀ x ∈ sinceAsked tid h, ¬ IssuesTo row.destination x)
    (hstages : ∀ tid' t, s'.live.get? tid' = some t →
      Stage cfg (h ++ [(s, .commit tid)]) s'.committed tid' t) :
    Cooling cfg (h ++ [(s, .commit tid)]) s' := by
  have hwritten : writes.findSome? AuthWrite.issued = some (newId, row) := by
    simpa [issuedBy, ht] using hissued
  obtain ⟨drops, i, row', hwrites, -⟩ := id hpost
  rw [hwrites] at hwritten
  cases issued_of_drops.symm.trans hwritten
  -- The request has found the cooldown over, of all rows of the destination.
  have hcool : Cooled s.committed row.destination row.lastSentAt := by
    cases hc.stages tid _ ht with
    | aside hwithin => exact absurd rfl hwithin
    | cooled hcool _ hsent =>
        obtain ⟨hdest, hnow⟩ := hsent (.challenge newId row) (by simp [hwrites])
        rw [hdest, hnow]
        exact hcool (hdest ▸ hmissed)
  have hnew : sentAt s'.committed row.destination newId = some row.lastSentAt := by
    simp [sentAt, view_issue (hwrites ▸ hview)]
  have hlist : (h ++ [(s, TxnMove.commit tid)]).filterMap issuedBy =
      h.filterMap issuedBy ++ [(newId, row)] := by simp [hissued]
  have hbefore : ∀ a ∈ h.filterMap issuedBy, Apart a (newId, row) := fun a ha hdest => by
    obtain ⟨j, time, hsent, hle⟩ := hc.newest a ha
    exact (Nat.add_le_add_right hle _).trans (hcool j time (hdest ▸ hsent))
  refine ⟨hstages, fun a ha => ?_, ?_⟩
  · rw [hlist] at ha
    rcases List.mem_append.mp ha with ha | ha
    · by_cases hdest : a.2.destination = row.destination
      · exact ⟨newId, row.lastSentAt, by rw [hdest]; exact hnew,
          (Nat.le_add_right _ _).trans (hbefore a ha hdest)⟩
      · obtain ⟨j, time, hsent, hle⟩ := hc.newest a ha
        refine ⟨j, time, ?_, hle⟩
        rw [sentAt_of_commit hpost rfl hview, hsent]
        intro i row' hwritten'
        cases hwritten.symm.trans (hwrites ▸ hwritten')
        exact Ne.symm hdest
    · cases List.mem_singleton.mp ha
      exact ⟨newId, row.lastSentAt, hnew, le_rfl⟩
  · rw [hlist]
    exact List.pairwise_append.mpr ⟨hc.apart, List.pairwise_singleton _ _, fun a ha b hb => by
      cases List.mem_singleton.mp hb
      exact hbefore a ha⟩

/-- **One move**, if it misses no code. -/
lemma Cooling.step (hc : Cooling cfg h s) (hok : StoreOk (codes cfg) s)
    (hmissed : MissesNone h (s, m)) (hs : (accounts cfg).step s m = some s') :
    Cooling cfg (h ++ [(s, m)]) s' := by
  rcases step_cases hs with ⟨tid, req, rfl, hd, hlive⟩ | ⟨tid, rfl, hd, hlive⟩ |
    ⟨tid, op, k, writes, locks, snapshot, ω, r, writes', locks', rfl, ht, hexec, -, hd, hlive⟩ |
    ⟨tid, a, writes, locks, snapshot, rfl, ht, hcommits, hview, hlive⟩ | ⟨tid, rfl, hd, hlive⟩
  · refine hc.quiet rfl (fun _ _ => by rw [hd]) fun i t ht => ?_
    rw [hd]
    rw [Table.get?_insert hlive] at ht
    split at ht
    · cases ht
      exact stage_program req _
    · exact (hc.stages i t ht).mono (by simp [asks]) fun _ _ _ => rfl
  · refine hc.quiet rfl (fun _ _ => by rw [hd]) fun i t ht => ?_
    rw [hd]
    rw [hlive, Table.get?_modify] at ht
    split at ht
    · rename_i hi
      subst hi
      obtain ⟨t', ht', rfl⟩ := Option.map_eq_some_iff.mp ht
      exact (hc.stages i t' ht').send ht'
    · rename_i hi
      exact (hc.stages i t ht).mono (by simp [asks, Ne.symm hi]) fun _ _ _ => rfl
  · refine hc.quiet rfl (fun _ _ => by rw [hd]) fun i t ht' => ?_
    rw [hd]
    rw [hlive, Table.get?_modify] at ht'
    split at ht'
    · rename_i hi
      rw [hi, ht] at ht'
      cases ht'
      exact hi ▸ (hc.stages tid _ ht).perform hexec
    · exact (hc.stages i t ht').mono (by simp [asks]) fun _ _ _ => rfl
  · have hpost := hok.post ht
    have hissued : issuedBy (s, .commit tid) = writes.findSome? AuthWrite.issued := by
      simp [issuedBy, ht]
    -- The transactions that go on see only what a commit leaves of their destination.
    have hstages : ∀ i t, s'.live.get? i = some t →
        Stage cfg (h ++ [(s, .commit tid)]) s'.committed i t := fun i t ht' => by
      rw [hlive, Table.get?_erase] at ht'
      split at ht'
      · cases ht'
      · refine (hc.stages i t ht').mono (by simp [asks]) fun destination hno id => ?_
        exact sentAt_of_commit hpost hcommits hview
          (fun id row hrow hdest => hno ⟨id, row, hissued.trans hrow, hdest⟩) id
    rcases hnone : issuedBy (s, .commit tid) with _ | ⟨id, row⟩
    · refine hc.quiet hnone (fun destination => ?_) hstages
      exact sentAt_of_commit hpost hcommits hview fun id row hrow => by
        rw [← hissued, hnone] at hrow
        cases hrow
    · simp only [MissesNone, hnone] at hmissed
      have hsent : a = .codeSent := by
        have hsome := hissued.symm.trans hnone
        cases a with
        | codeSent => rfl
        | failed e => cases hcommits
        | otpRefused e =>
            obtain ⟨_, _, _, rfl, -⟩ := hpost
            cases hsome
        | signedIn u new user token access =>
            rcases hpost with hquiet | ⟨_, _, _, rest, rfl, hrest, -⟩
            · cases (issued_of_codeless hquiet).symm.trans hsome
            · cases (issued_of_codeless hrest).symm.trans hsome
        | refreshed | reuseDetected | loggedOut | updated =>
            cases (issued_of_codeless hpost).symm.trans hsome
      subst hsent
      exact hc.issue ht hpost hview hnone hmissed hstages
  · refine hc.quiet rfl (fun _ _ => by rw [hd]) fun i t ht => ?_
    rw [hd]
    rw [hlive, Table.get?_erase] at ht
    split at ht
    · cases ht
    · exact (hc.stages i t ht).mono (by simp [asks]) fun _ _ _ => rfl

end Run

lemma NoneMissed.left {h h' : List AccountsMoment} (hmissed : NoneMissed (h ++ h')) :
    NoneMissed h := fun i x hx => by
  have hi : i < h.length := (List.getElem?_eq_some_iff.mp hx).1
  have hmiss := hmissed i x (by rw [List.getElem?_append_left hi]; exact hx)
  rwa [List.take_append_of_le_length hi.le] at hmiss

lemma NoneMissed.last {h : List AccountsMoment} {x : AccountsMoment}
    (hmissed : NoneMissed (h ++ [x])) : MissesNone h x := by
  simpa using hmissed h.length x (by simp)

/-- Two requests read the clock and ask, one a second after the other.  The second waits for the
row of the last code, which the first holds until it has sent its own. -/
def askTwice : List (TxnMove AuthOracle AuthRequest) :=
  let first : AuthOracle := { now := seconds 100 }
  let second : AuthOracle := { now := seconds 101 }
  TxnMove.begun 1 (.requestOtp adasEmail)
      [first, first, { text := some "222222" }, { text := some adasHash }, first, { uuid := 2 },
        first] ++
    TxnMove.begun 2 (.requestOtp adasEmail) [second] ++
    [.send 2, .commit 1, .perform 2 second] ++
    TxnMove.steps 2 [{ text := some "333333" }, { text := some adasHash }, second, { uuid := 3 },
      second] ++
    [.commit 2]

end Naivolt
