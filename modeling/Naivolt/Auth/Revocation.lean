import Naivolt.Auth.Exchanges

/-!
# Whether a revoked family stays revoked

A family is revoked by one `UPDATE` over its rows, at the detection of a reuse and at a logout.
The statement changes the rows its snapshot shows.  A rotation that is in progress when the
snapshot is taken holds the row of the token it exchanges, so the `UPDATE` waits for it; but the
successor it then commits is not among the rows the `UPDATE` changes
(`revocation_misses_successor`), and the thief or the logged-out device that holds it goes on.

`revocation_final` says when this does not happen: when every revoking statement is executed on a
snapshot that shows all tokens its family has by then.  A family all of whose tokens are revoked
receives no further ones, so it is over for good.
-/

namespace Naivolt

open Foundation Database

/-- A commit that ends a family leaves all its tokens revoked. -/
lemma revoked_after_commit {cfg : AuthConfig} {f : Uuid} {writes : List AuthWrite}
    {locks : List AuthLock} {db db' : AuthDb} (hrev : Revoking writes locks db)
    (hreach : Reaches f writes locks db) (hview : (accounts cfg).view writes db = some db') :
    ¬ FamilyFree f db' ∧ Sealed f [] db' := by
  obtain ⟨ids, now, rfl, hids⟩ := hrev.writes
  have hget := view_revoked hview
  refine ⟨fun hfree => hreach.taken fun i s hs hsf => ?_, fun i s' hs' hsf hnone => ?_⟩
  · by_cases hi : i ∈ ids
    · exact hfree i { s with revokedAt := some now } (by simp [hget, hi, hs]) hsf
    · exact hfree i s (by simp [hget, hi, hs]) hsf
  · rw [hget] at hs'
    split at hs'
    · obtain ⟨s, -, rfl⟩ := Option.map_eq_some_iff.mp hs'
      cases hnone
    · rename_i hi
      obtain ⟨t, ht⟩ := hreach.written i s' hs' hsf hnone
      obtain ⟨j, hj, hji⟩ := List.mem_map.mp ht
      cases hji
      exact absurd hj hi

/-- **A revoked family stays revoked**, in the runs whose revoking statements see every token of
their family: after the commit of a detected reuse or of a logout, all its tokens are revoked and
remain as they are, and no transaction arrives at exchanging one. -/
theorem revocation_final (cfg : AuthConfig) {s s' s'' : AccountsStore} {tid : ℕ}
    {a : AuthAnswer} {f : Uuid}
    (h : (accounts cfg).Reachable (onStatements SeesFamily) (.quiet .empty) s)
    (ha : s.answer tid = some a) (hf : a.EndsFamily f)
    (hc : (accounts cfg).step s (.commit tid) = some s')
    (hl : (accounts cfg).Reachable (onStatements SeesFamily) s' s'') :
    (∀ i t, s''.committed.sessions.get? i = some t → t.familyId = f →
      s'.committed.sessions.get? i = some t ∧ t.revokedAt ≠ none ∧ ∀ now, ¬ t.Live now) ∧
    ∀ tid' id next access, s''.answer tid' = some (.refreshed id next access) →
      next.familyId ≠ f := by
  have hok : StoreOk (tokenDiscipline cfg true SeesFamily fun _ _ _ _ _ _ hq => hq) s :=
    (StoreOk.quiet tokensOk_empty).reachable h
  have hok' := (hok.step (m := .commit tid) trivial hc).1
  obtain ⟨-, writes, locks, hpost, hview⟩ := hok.commit ha hc
  have hends : Revoking writes locks s.committed ∧ Reaches f writes locks s.committed := by
    rcases hf with rfl | rfl <;> exact ⟨hpost.1, hpost.2 rfl⟩
  obtain ⟨htaken, hsealed⟩ := revoked_after_commit hends.1 hends.2 hview
  have hlater : SessionsLater [] s'.committed s''.committed := hok'.later hl
  -- Nothing was added to the family, and what is revoked is left as it is.
  have hrows : ∀ i t, s''.committed.sessions.get? i = some t → t.familyId = f →
      s'.committed.sessions.get? i = some t ∧ t.revokedAt ≠ none := by
    intro i t ht htf
    rcases ht' : s'.committed.sessions.get? i with _ | t'
    · exact absurd ht' (hlater.closed f htaken hsealed i t ht htf)
    · have hages := hlater.ages ht' ht
      have hrevoked : t'.revokedAt ≠ none := fun hnone =>
        absurd (hsealed i t' ht' (hages.familyId.symm.trans htf) hnone) List.not_mem_nil
      have := hages.revoked hrevoked
      subst this
      exact ⟨rfl, hrevoked⟩
  refine ⟨fun i t ht htf => ?_, fun tid' id next access ha' hnext => ?_⟩
  · obtain ⟨ht', hrevoked⟩ := hrows i t ht htf
    exact ⟨ht', hrevoked, fun now hlive => hrevoked hlive.1.2⟩
  · obtain ⟨writes', locks', snapshot', hlive⟩ := Store.answer_eq_some.mp ha'
    obtain ⟨t, ht, hunspent, htf⟩ :=
      ((hok'.reachable hl).post hlive : Exchanging id next writes' locks' _).presented
    exact (hrows id t ht (htf.trans hnext)).2 hunspent.2

/-- A stolen token is presented after its owner has exchanged it: the family is over, and the
owner's own token with it. -/
theorem revocation_final_on_reuse : ∃ s s' s'' : AccountsStore,
    s.answer 2 = some (.reuseDetected 3) ∧ (accounts webAuth).step s (.commit 2) = some s' ∧
    (s''.committed.sessions.get? 5).isSome ∧
    (∀ i t, s''.committed.sessions.get? i = some t → t.familyId = 3 →
      s'.committed.sessions.get? i = some t ∧ t.revokedAt ≠ none ∧ ∀ now, ¬ t.Live now) ∧
    ∀ tid' id next access, s''.answer tid' = some (.refreshed id next access) →
      next.familyId ≠ 3 := by
  obtain ⟨s, s', s'', hs, hc, hl, ha, hrow⟩ := exists_later_of_run (accounts webAuth)
    (onStatements SeesFamily) (.quiet .empty)
    (adaSignsIn 0 ++ TxnMove.served 1 (.refresh (some firstSecret))
        (rotationAnswers 200 secondSecret 5) ++
      TxnMove.begun 2 (.refresh (some firstSecret))
        [{ now := 300 }, { now := 300 }, { now := 300 }])
    (.commit 2)
    (TxnMove.begun 3 (.refresh (some secondSecret)) [{ now := 400 }, { now := 400 }])
    (fun s _ s'' => s.answer 2 = some (.reuseDetected 3) ∧
      (s''.committed.sessions.get? 5).isSome) (by decide +kernel)
  exact ⟨s, s', s'', ha, hc, hrow, revocation_final webAuth hs ha (.inl rfl) hc hl⟩

/-- **A revocation misses the successor of a rotation in progress.**  A logout sends its `UPDATE`
while a refresh of the same token has entered the successor but not committed; the `UPDATE` waits
for the row of the presented token and then changes that row alone.  The family goes on. -/
theorem revocation_misses_successor : ∃ s s' s'' : AccountsStore,
    (accounts webAuth).Reachable unguarded (.quiet .empty) s ∧
    s.answer 2 = some (.loggedOut (some 3)) ∧
    (accounts webAuth).step s (.commit 2) = some s' ∧
    (∃ t, s'.committed.sessions.get? 5 = some t ∧ t.familyId = 3 ∧ t.Live 300) ∧
    (accounts webAuth).Reachable unguarded s' s'' ∧
    s''.answer 3 = some (.refreshed 5
      ⟨thirdSecret, webAuth.hashRefresh thirdSecret, 3, 300 + refreshTtl⟩
      "eyJhbGciOiJIUzI1NiJ9.ada") := by
  obtain ⟨s, s', s'', hs, hc, hl, ha, hlive, ha'⟩ := exists_later_of_run (accounts webAuth)
    unguarded (.quiet .empty)
    (adaSignsIn 0 ++ TxnMove.begun 1 (.refresh (some firstSecret))
        (rotationAnswers 200 secondSecret 5) ++
      TxnMove.begun 2 (.logout (some firstSecret)) [{ now := 201 }] ++
      [.send 2, .commit 1, .perform 2 {}]) (.commit 2)
    (TxnMove.begun 3 (.refresh (some secondSecret)) (rotationAnswers 300 thirdSecret 6))
    (fun s s' s'' => s.answer 2 = some (.loggedOut (some 3)) ∧
      (s'.committed.sessions.get? 5).any (fun t => t.familyId = 3 ∧ t.Live 300) = true ∧
      s''.answer 3 = some (.refreshed 5
        ⟨thirdSecret, webAuth.hashRefresh thirdSecret, 3, 300 + refreshTtl⟩
        "eyJhbGciOiJIUzI1NiJ9.ada")) (by decide +kernel)
  obtain ⟨t, ht, hlive⟩ := (Option.any_eq_true _ _).mp hlive
  exact ⟨s, s', s'', hs, ha, hc, ⟨t, ht, of_decide_eq_true hlive⟩, hl, ha'⟩

end Naivolt
