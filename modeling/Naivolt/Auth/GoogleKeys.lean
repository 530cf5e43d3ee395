import Naivolt.Auth.Requests
import Naivolt.Foundation.Actors
import Naivolt.Foundation.Table

/-!
# Google's signing keys

`google_keys.rs`: `decoding_key` looks a key up in a cached set and fetches the set anew if it is
stale or does not have the key.  An unknown key in a set that has just been fetched is refused
without a fetch, which is meant to keep forged tokens from becoming a burst of fetches.

The cache is all that holds a fetch back, and only a fetch that has succeeded enters it.
`spaced_iff` says that this is the one gap: fetches are `MIN_REFETCH_INTERVAL` apart in exactly
those runs in which no call goes to fetch while a fetch of the last `MIN_REFETCH_INTERVAL` is
still under way, has failed or was given up.
-/

namespace Naivolt

open Foundation Foundation.Machine

/-! ## The cache -/

/-- `CACHE_TTL`. -/
def cacheTtl : Time := minutes 60

/-- `MIN_REFETCH_INTERVAL`. -/
def minRefetchInterval : Time := seconds 30

/-- `JwkKey`. -/
structure JwkKey where
  kid : String
  n : String
  e : String
  kty : String

/-- `Cached`. -/
structure CachedKeys (Key : Type) where
  keys : Table String Key
  fetchedAt : Time

/-- A fetch that has been started, and whether its keys have come to be cached. -/
structure KeyFetch where
  start : Time
  stored : Bool

/-- The clock, the cache, and the fetches that have been started, the first one first. -/
structure KeyWorld (Key : Type) where
  now : Time
  cache : Option (CachedKeys Key)
  fetches : List KeyFetch

/-- `GoogleKeys::new`. -/
def KeyWorld.new (Key : Type) (now : Time) : KeyWorld Key := ⟨now, none, []⟩

/-- What a look at the cache comes to. -/
inductive Lookup (Key : Type) where
  | found (key : Key)
  | refused
  | absent

/-- The first part of `decoding_key`, under the read lock. -/
def KeyWorld.lookup {Key : Type} (w : KeyWorld Key) (kid : String) : Lookup Key :=
  match w.cache with
  | none => .absent
  | some cached =>
    if w.now - cached.fetchedAt < cacheTtl then
      match cached.keys.get? kid with
      | some key => .found key
      | none => if w.now - cached.fetchedAt < minRefetchInterval then .refused else .absent
    else .absent

/-! ## Fetching -/

/-- `DecodingKey::from_rsa_components`. -/
structure KeyCrate (Key : Type) where
  fromRsaComponents : String → String → Option Key

/-- The part of `fetch` that comes after the transport: `jwks` is the body if there was a readable
one. -/
def fetchedKeys {Key : Type} (crate : KeyCrate Key) (jwks : Option (List JwkKey)) :
    Except AuthError (Table String Key) :=
  let unavailable : AuthError :=
    .serviceUnavailable "Google sign-in is unavailable right now."
  match jwks with
  | none => .error unavailable
  | some listed =>
    let usable := (listed.filter fun k => k.kty = "" || k.kty = "RSA").filterMap fun k =>
      (crate.fromRsaComponents k.n k.e).map fun key => (k.kid, key)
    let keys := usable.foldl (fun t k => t.upsert k.1 k.2 fun _ => k.2) Table.empty
    if keys.rows = [] then .error unavailable else .ok keys

/-- A fetch does not refuse anybody. -/
lemma fetchedKeys_ne_unauthorized {Key : Type} {crate : KeyCrate Key}
    {jwks : Option (List JwkKey)} : fetchedKeys crate jwks ≠ .error .unauthorized := by
  unfold fetchedKeys
  cases jwks with
  | none => simp
  | some listed =>
      dsimp only
      split_ifs <;> simp

/-! ## The calls -/

/-- The two steps of a call: a look at the cache, with which a fetch starts if nothing is found,
and the end of the fetch. -/
inductive KeyOp where
  | consult (kid : String)
  | receive (ticket : ℕ) (kid : String)

/-- What `consult` comes to: an answer, or a fetch with its number. -/
inductive Consulted (Key : Type) where
  | answer (result : Except AuthError Key)
  | fetching (ticket : ℕ)

/-- What the two steps return. -/
def KeyRes (Key : Type) : KeyOp → Type
  | .consult _ => Consulted Key
  | .receive _ _ => Except AuthError Key

/-- The look at the cache.  There is nothing to wait for between it and the request. -/
def consult {Key : Type} (kid : String) (w : KeyWorld Key) : Consulted Key × KeyWorld Key :=
  match w.lookup kid with
  | .found key => (.answer (.ok key), w)
  | .refused => (.answer (.error .unauthorized), w)
  | .absent => (.fetching w.fetches.length, { w with fetches := w.fetches ++ [⟨w.now, false⟩] })

/-- The fetch is noted as cached. -/
def markStored (ticket : ℕ) (fetches : List KeyFetch) : List KeyFetch :=
  fetches.mapIdx fun i f => if i = ticket then { f with stored := true } else f

/-- The end of a fetch: nothing is kept of a failure, and a key set replaces the cached one. -/
def receive {Key : Type} (crate : KeyCrate Key) (ticket : ℕ) (kid : String)
    (jwks : Option (List JwkKey)) (w : KeyWorld Key) : Except AuthError Key × KeyWorld Key :=
  match fetchedKeys crate jwks with
  | .error e => (.error e, w)
  | .ok keys =>
    ((keys.get? kid).elim (.error .unauthorized) .ok,
      { w with cache := some ⟨keys, w.now⟩, fetches := markStored ticket w.fetches })

/-- `decoding_key`. -/
def decodingKey {Key : Type} (kid : String) : Prog KeyOp (KeyRes Key) (Except AuthError Key) :=
  .call (.consult kid) fun
    | .answer result => .ret result
    | .fetching ticket => .call (.receive ticket kid) .ret

/-- Any number of calls, with Google's answers as the schedule has them. -/
def googleKeys {Key : Type} (crate : KeyCrate Key) :
    Machine KeyOp (KeyRes Key) (Option (List JwkKey)) Time (KeyWorld Key) String Time
      (Except AuthError Key) where
  exec _ op jwks w :=
    match op with
    | .consult kid => some (consult kid w)
    | .receive ticket kid => some (receive crate ticket kid jwks w)
  env d w := some { w with now := w.now + d }
  program := decodingKey
  stamp w := w.now

/-! ## The cache and the fetches -/

section Runs

variable {Key : Type} {crate : KeyCrate Key} {w w' : KeyWorld Key} {kid : String}

/-- Any two fetches are started at least `MIN_REFETCH_INTERVAL` apart. -/
def Spaced (w : KeyWorld Key) : Prop :=
  (w.fetches.map (·.start)).Pairwise fun a b => a + minRefetchInterval ≤ b

/-- The cache stands for every fetch that has been stored. -/
structure Accounted (w : KeyWorld Key) : Prop where
  started : ∀ f ∈ w.fetches, f.start ≤ w.now
  stored : ∀ f ∈ w.fetches, f.stored = true → ∃ c, w.cache = some c ∧ f.start ≤ c.fetchedAt
  fetched : ∀ c, w.cache = some c → c.fetchedAt ≤ w.now

/-- A call goes to fetch only if the cached set is no longer new. -/
lemma le_of_lookup_absent (h : w.lookup kid = .absent) {c : CachedKeys Key}
    (hcache : w.cache = some c) : minRefetchInterval ≤ w.now - c.fetchedAt := by
  have hshort : minRefetchInterval ≤ cacheTtl := by decide
  unfold KeyWorld.lookup at h
  rw [hcache] at h
  dsimp only at h
  by_cases hfresh : w.now - c.fetchedAt < cacheTtl
  · rw [if_pos hfresh] at h
    by_contra hnew
    cases hkey : c.keys.get? kid with
    | some key => simp [hkey] at h
    | none => simp [hkey, not_le.mp hnew] at h
  · exact hshort.trans (not_lt.mp hfresh)

lemma mem_markStored {ticket : ℕ} {f : KeyFetch} {l : List KeyFetch}
    (h : f ∈ markStored ticket l) : ∃ g ∈ l, g.start = f.start := by
  obtain ⟨i, hi, rfl⟩ := List.mem_mapIdx.mp h
  refine ⟨l[i], List.getElem_mem hi, ?_⟩
  split_ifs <;> rfl

lemma map_start_markStored (ticket : ℕ) (l : List KeyFetch) :
    (markStored ticket l).map (·.start) = l.map (·.start) := by
  refine List.ext_getElem (by simp [markStored]) fun i hi hi' => ?_
  simp only [markStored, List.getElem_map, List.getElem_mapIdx]
  split_ifs <;> rfl

/-- What a step does to the fetches: it leaves their starts as they are, or it is a look at the
cache that starts one more. -/
lemma googleKeys_starts {tid : ℕ} {op : KeyOp} {jwks : Option (List JwkKey)} {r : KeyRes Key op}
    (h : (googleKeys crate).exec tid op jwks w = some (r, w')) :
    ((∀ kid, op = .consult kid → w.lookup kid ≠ .absent) ∧
        w'.fetches.map (·.start) = w.fetches.map (·.start)) ∨
      ∃ kid, op = .consult kid ∧ w.lookup kid = .absent ∧
        w'.fetches.map (·.start) = w.fetches.map (·.start) ++ [w.now] := by
  cases op with
  | consult kid =>
      have hw' : (consult kid w).2 = w' := congrArg Prod.snd (Option.some.inj h)
      rw [← hw']
      unfold consult
      have hanswered : w.lookup kid ≠ .absent →
          ∀ kid', KeyOp.consult kid = .consult kid' → w.lookup kid' ≠ .absent := by
        intro hne kid' hop
        cases hop
        exact hne
      cases hlookup : w.lookup kid with
      | found key => exact .inl ⟨hanswered (by simp [hlookup]), rfl⟩
      | refused => exact .inl ⟨hanswered (by simp [hlookup]), rfl⟩
      | absent => exact .inr ⟨kid, rfl, hlookup, by simp⟩
  | receive ticket kid =>
      have hw' : (receive crate ticket kid jwks w).2 = w' := congrArg Prod.snd (Option.some.inj h)
      rw [← hw']
      unfold receive
      cases fetchedKeys crate jwks with
      | error e => exact .inl ⟨(fun _ hop => nomatch hop), rfl⟩
      | ok keys =>
          exact .inl ⟨(fun _ hop => nomatch hop), map_start_markStored ticket w.fetches⟩

/-- Every step keeps the cache standing for the fetches. -/
lemma Accounted.step (h : (googleKeys crate).WorldStep w w') (hw : Accounted w) :
    Accounted w' := by
  cases h with
  | @env d _ _ henv =>
      cases henv
      have hlate : ∀ {t : Time}, t ≤ w.now → t ≤ w.now + d := fun ht => Nat.le_add_right_of_le ht
      exact ⟨fun f hf => hlate (hw.started f hf), hw.stored, fun c hc => hlate (hw.fetched c hc)⟩
  | @exec tid op jwks r _ _ hexec =>
      cases op with
      | consult kid =>
          have hw' : (consult kid w).2 = w' := congrArg Prod.snd (Option.some.inj hexec)
          rw [← hw']
          unfold consult
          cases w.lookup kid with
          | found key => exact hw
          | refused => exact hw
          | absent =>
              refine ⟨fun f hf => ?_, fun f hf hstored => ?_, hw.fetched⟩
              · rcases List.mem_append.mp hf with hf | hf
                · exact hw.started f hf
                · rw [List.mem_singleton.mp hf]
              · rcases List.mem_append.mp hf with hf | hf
                · exact hw.stored f hf hstored
                · rw [List.mem_singleton.mp hf] at hstored
                  cases hstored
      | receive ticket kid =>
          have hw' : (receive crate ticket kid jwks w).2 = w' :=
            congrArg Prod.snd (Option.some.inj hexec)
          rw [← hw']
          unfold receive
          cases fetchedKeys crate jwks with
          | error e => exact hw
          | ok keys =>
              have hstarted : ∀ f ∈ markStored ticket w.fetches, f.start ≤ w.now := by
                intro f hf
                obtain ⟨g, hg, hsame⟩ := mem_markStored hf
                exact hsame ▸ hw.started g hg
              refine ⟨hstarted, fun f hf _ => ⟨_, rfl, hstarted f hf⟩, fun c hc => ?_⟩
              cases hc
              exact le_rfl

/-! ## When fetches are apart -/

/-- A call goes to fetch only when the fetches of the last `MIN_REFETCH_INTERVAL` have all been
stored: none of them is under way, has failed or was given up. -/
def GoesAlone (_ : ℕ) (_ : String) (_ : Time) (op : KeyOp) (_ : Option (List JwkKey))
    (w : KeyWorld Key) : Prop :=
  match op with
  | .consult kid => w.lookup kid = .absent →
      ∀ f ∈ w.fetches, w.now < f.start + minRefetchInterval → f.stored = true
  | .receive _ _ => True

/-- One step keeps the fetches apart exactly when it goes alone. -/
lemma spaced_step_iff {tid : ℕ} {req : String} {b : Time} {op : KeyOp}
    {jwks : Option (List JwkKey)} {r : KeyRes Key op} (hw : Accounted w)
    (h : (googleKeys crate).exec tid op jwks w = some (r, w')) :
    Spaced w' ↔ Spaced w ∧ GoesAlone tid req b op jwks w := by
  unfold Spaced
  rcases googleKeys_starts h with ⟨hanswered, hsame⟩ | ⟨kid, rfl, habsent, hmore⟩
  · rw [hsame]
    refine (and_iff_left ?_).symm
    cases op with
    | consult kid => exact fun habsent => absurd habsent (hanswered kid rfl)
    | receive ticket kid => trivial
  · rw [hmore, List.pairwise_append]
    constructor
    · rintro ⟨hspaced, -, hlast⟩
      refine ⟨hspaced, fun _ f hf hrecent => ?_⟩
      have hgap := hlast f.start (List.mem_map_of_mem hf) w.now (List.mem_singleton.mpr rfl)
      exact absurd hgap (not_le.mpr hrecent)
    · rintro ⟨hspaced, halone⟩
      refine ⟨hspaced, List.pairwise_singleton _ _, fun start hstart now hnow => ?_⟩
      obtain ⟨f, hf, rfl⟩ := List.mem_map.mp hstart
      rw [List.mem_singleton.mp hnow]
      by_contra hrecent
      -- A fetch that has been stored since has made the cached set new.
      obtain ⟨c, hcache, hle⟩ := hw.stored f hf (halone habsent f hf (not_le.mp hrecent))
      have hold := le_of_lookup_absent habsent hcache
      have hgap : c.fetchedAt + minRefetchInterval ≤ w.now :=
        Nat.add_le_of_le_sub' (hw.fetched c hcache) hold
      exact hrecent ((Nat.add_le_add_right hle _).trans hgap)

end Runs

/-! ## Runs -/

section Calls

variable {Key : Type} {crate : KeyCrate Key} {now : Time}
  {G : Sys KeyOp (KeyRes Key) (KeyWorld Key) String Time (Except AuthError Key) →
    Act (Option (List JwkKey)) Time String → Prop}
  {s s' : Sys KeyOp (KeyRes Key) (KeyWorld Key) String Time (Except AuthError Key)}

lemma accounted_of_reachable (h : (googleKeys crate).Reachable G (.idle (.new Key now)) s) :
    Accounted s.world :=
  h.world_inv ⟨by simp [Sys.idle, KeyWorld.new], by simp [Sys.idle, KeyWorld.new],
    by simp [Sys.idle, KeyWorld.new]⟩ fun _ _ hstep hw => hw.step hstep

/-- One move keeps the fetches apart exactly when it goes alone. -/
lemma spaced_move_iff {a : Act (Option (List JwkKey)) Time String} (hw : Accounted s.world)
    (h : (googleKeys crate).step s a = some s') :
    Spaced s'.world ↔ Spaced s.world ∧ onOps GoesAlone s a := by
  rcases step_cases h with ⟨d, rfl, henv, -⟩ | ⟨tid, req, rfl, rfl⟩ |
    ⟨tid, jwks, req, b, op, k, r, rfl, htask, hexec, -⟩ | ⟨tid, rfl, rfl⟩
  · have hsame : s'.world.fetches = s.world.fetches := by
      rw [← Option.some.inj henv]
    unfold Spaced
    rw [hsame]
    exact (and_iff_left trivial).symm
  · exact (and_iff_left trivial).symm
  · rw [onOps_resume htask]
    exact spaced_step_iff hw hexec
  · exact (and_iff_left trivial).symm

/-- **Fetches are apart in exactly the runs in which each goes alone.** -/
lemma spaced_iff_alone (h : (googleKeys crate).Reachable unguarded (.idle (.new Key now)) s) :
    Spaced s.world ↔ (googleKeys crate).Reachable (onOps GoesAlone) (.idle (.new Key now)) s := by
  constructor
  · intro hspaced
    induction h with
    | init => exact .init
    | step hr _ hs ih =>
        obtain ⟨hbefore, hguard⟩ := (spaced_move_iff (accounted_of_reachable hr) hs).mp hspaced
        exact (ih hbefore).step hguard hs
  · intro halone
    clear h
    induction halone with
    | init => exact List.Pairwise.nil
    | step hr hguard hs ih =>
        exact (spaced_move_iff (accounted_of_reachable hr) hs).mpr ⟨ih, hguard⟩

/-! ## Refusals -/

/-- A set that was cached within the last `MIN_REFETCH_INTERVAL` lacks the key. -/
def LacksKey (w : KeyWorld Key) (kid : String) : Prop :=
  ∃ c, w.cache = some c ∧ w.now - c.fetchedAt < minRefetchInterval ∧ c.keys.get? kid = none

lemma lacksKey_of_refused {w : KeyWorld Key} {kid : String} (h : w.lookup kid = .refused) :
    LacksKey w kid := by
  unfold KeyWorld.lookup at h
  cases hcache : w.cache with
  | none => simp [hcache] at h
  | some c =>
      rw [hcache] at h
      dsimp only at h
      by_cases hfresh : w.now - c.fetchedAt < cacheTtl
      · rw [if_pos hfresh] at h
        cases hkey : c.keys.get? kid with
        | some key => simp [hkey] at h
        | none =>
            by_cases hnew : w.now - c.fetchedAt < minRefetchInterval
            · exact ⟨c, hcache, hnew, hkey⟩
            · simp [hkey, hnew] at h
      · simp [hfresh] at h

/-- What is left of a call at any time is the call, the end of its fetch, or its answer. -/
inductive CallOf (kid : String) : Prog KeyOp (KeyRes Key) (Except AuthError Key) → Prop
  | start : CallOf kid (decodingKey kid)
  | fetching (ticket : ℕ) : CallOf kid (.call (.receive ticket kid) .ret)
  | answered (result : Except AuthError Key) : CallOf kid (.ret result)

/-- What a step leaves of a call; if that is a refusal, a set cached lately lacks the key. -/
lemma callOf_exec {kid : String} {op : KeyOp} {k : KeyRes Key op → Prog KeyOp (KeyRes Key) _}
    {tid : ℕ} {jwks : Option (List JwkKey)} {r : KeyRes Key op} {w w' : KeyWorld Key}
    (hcall : CallOf kid (.call op k)) (h : (googleKeys crate).exec tid op jwks w = some (r, w')) :
    CallOf kid (k r) ∧ (k r = .ret (.error .unauthorized) → LacksKey w' kid) := by
  cases hcall with
  | start =>
      have hstep : consult kid w = (r, w') := Option.some.inj h
      unfold consult at hstep
      cases hlookup : w.lookup kid with
      | found key =>
          rw [hlookup] at hstep
          cases hstep
          exact ⟨.answered _, fun hk => by cases hk⟩
      | refused =>
          rw [hlookup] at hstep
          cases hstep
          exact ⟨.answered _, fun _ => lacksKey_of_refused hlookup⟩
      | absent =>
          rw [hlookup] at hstep
          cases hstep
          exact ⟨.fetching _, fun hk => by cases hk⟩
  | fetching ticket =>
      refine ⟨.answered _, fun hk => ?_⟩
      have hr : r = (.error .unauthorized : Except AuthError Key) := by cases hk; rfl
      have hstep : receive crate ticket kid jwks w =
          ((.error .unauthorized : Except AuthError Key), w') :=
        hr ▸ Option.some.inj h
      unfold receive at hstep
      cases hkeys : fetchedKeys crate jwks with
      | error e =>
          rw [hkeys] at hstep
          cases hstep
          exact absurd hkeys fetchedKeys_ne_unauthorized
      | ok keys =>
          rw [hkeys] at hstep
          cases hkey : keys.get? kid with
          | some key => simp [hkey] at hstep
          | none =>
              obtain ⟨-, rfl⟩ := Prod.mk.inj hstep
              refine ⟨_, rfl, ?_, hkey⟩
              simp [minRefetchInterval, seconds]

lemma callOf_of_reachable (h : (googleKeys crate).Reachable G (.idle (.new Key now)) s) {tid : ℕ}
    {kid : String} {b : Time} {p : Prog KeyOp (KeyRes Key) (Except AuthError Key)}
    (htask : s.task tid = some ⟨kid, b, p⟩) : CallOf kid p := by
  induction h generalizing tid kid b p with
  | init => cases htask
  | step _ _ hs ih =>
      rcases step_cases hs with ⟨d, rfl, -, hsame⟩ | ⟨i, req, rfl, rfl⟩ |
        ⟨i, jwks, req, b', op, k, r, rfl, ht, hexec, hsame⟩ | ⟨i, rfl, rfl⟩
      · exact ih (hsame ▸ htask)
      · rw [Sys.setTask_task] at htask
        split_ifs at htask
        · cases htask
          exact .start
        · exact ih htask
      · rw [hsame, Sys.setTask_task] at htask
        split_ifs at htask
        · cases htask
          exact (callOf_exec (ih ht) hexec).1
        · exact ih htask
      · rw [Sys.setTask_task] at htask
        split_ifs at htask
        exact ih htask

/-- **Fetches are `MIN_REFETCH_INTERVAL` apart in exactly the runs in which every call that goes to
fetch goes alone.**  In every run, a call is refused only if a key set cached within the last
`MIN_REFETCH_INTERVAL` lacks its key. -/
theorem spaced_iff (h : (googleKeys crate).Reachable unguarded (.idle (.new Key now)) s) :
    (Spaced s.world ↔
      (googleKeys crate).Reachable (onOps GoesAlone) (.idle (.new Key now)) s) ∧
    ∀ tid jwks s' kid b, (googleKeys crate).step s (.resume tid jwks) = some s' →
      s'.task tid = some ⟨kid, b, .ret (.error .unauthorized)⟩ → LacksKey s'.world kid := by
  refine ⟨spaced_iff_alone h, fun tid jwks s' kid b hstep htask => ?_⟩
  rcases step_cases hstep with ⟨_, hmove, -⟩ | ⟨_, _, hmove, -⟩ |
    ⟨i, ω, req, b', op, k, r, hmove, ht, hexec, hsame⟩ | ⟨_, hmove, -⟩
  · cases hmove
  · cases hmove
  · cases hmove
    rw [hsame, Sys.setTask_task, if_pos rfl] at htask
    obtain ⟨rfl, rfl, hrefused⟩ : req = kid ∧ b' = b ∧ k r = .ret (.error .unauthorized) := by
      simpa using htask
    exact (callOf_exec (callOf_of_reachable h ht) hexec).2 hrefused
  · cases hmove

end Calls

/-! ## Two sign-ins at once -/

/-- Keys as they are written. -/
def plainKeys : KeyCrate (String × String) := ⟨fun n e => some (n, e)⟩

/-- **Two forged tokens on an empty cache fetch twice** at the same time. -/
theorem fetched_together : ¬ ∀ s, (googleKeys plainKeys).Reachable unguarded
    (.idle (.new (String × String) 0)) s → Spaced s.world := by
  intro h
  obtain ⟨s, hreach, hstarts⟩ := exists_reachable_of_run (googleKeys plainKeys) unguarded
    (.idle (.new (String × String) 0))
    [.spawn 0 "forged", .spawn 1 "forged too", .resume 0 none, .resume 1 none]
    (fun s => s.world.fetches.map (·.start) = [0, 0]) (by decide +kernel)
  have hspaced := h s hreach
  unfold Spaced at hspaced
  rw [hstarts] at hspaced
  exact absurd hspaced (by decide)

/-- The states of a run in which Google's keys are read as they are written. -/
abbrev PlainSys := Sys KeyOp (KeyRes (String × String)) (KeyWorld (String × String)) String Time
  (Except AuthError (String × String))

/-- Whether a call goes to fetch. -/
def goesToFetch (w : KeyWorld (String × String)) (kid : String) : Bool :=
  match w.lookup kid with
  | .absent => true
  | _ => false

lemma goesToFetch_iff {w : KeyWorld (String × String)} {kid : String} :
    w.lookup kid = .absent ↔ goesToFetch w kid = true := by
  unfold goesToFetch
  cases w.lookup kid <;> simp

instance (tid : ℕ) (req : String) (b : Time) (op : KeyOp) (jwks : Option (List JwkKey))
    (w : KeyWorld (String × String)) : Decidable (GoesAlone tid req b op jwks w) :=
  match op with
  | .consult kid => decidable_of_iff (goesToFetch w kid = true →
      ∀ f ∈ w.fetches, w.now < f.start + minRefetchInterval → f.stored = true)
      (imp_congr_left goesToFetch_iff.symm)
  | .receive _ _ => .isTrue trivial

/-- A sign-in, and half a minute later one with a key that is not in the set. -/
theorem spaced_rotation : ∃ s : PlainSys,
    s.world.fetches.map (·.start) = [0, seconds 30] ∧ Spaced s.world := by
  obtain ⟨s, hreach, hstarts⟩ := exists_reachable_of_run (googleKeys plainKeys) (onOps GoesAlone)
    (.idle (.new (String × String) 0))
    [.spawn 0 "old", .resume 0 none, .resume 0 (some [⟨"old", "n", "e", "RSA"⟩]),
      .env (seconds 30), .spawn 1 "new", .resume 1 none]
    (fun s => s.world.fetches.map (·.start) = [0, seconds 30]) (by decide +kernel)
  exact ⟨s, hstarts, (spaced_iff (hreach.mono fun _ _ _ => trivial)).1.mpr hreach⟩

end Naivolt
