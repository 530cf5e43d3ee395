import Naivolt.Watcher.Evm

/-!
# No block is skipped

The range of a pass is chosen by an adaptive window and an overlap, a restart resumes behind the
saved cursor, and the cursor is saved apart from the scan.  `scan_covers` puts them together: in
every run, whatever the heads, refusals, failures, crashes and restarts, the ranges that were
answered cover every block from where the scan first started to the saved cursor, and every range
asked for is non-empty, joins what lies below it and stops at the head.

The run has to be one where no start but the first goes by the head.  A watcher that dies before
its first save leaves no cursor, so the next start takes its block from the head of that moment,
and what lies between the two starts is never asked for (`restart_skips_blocks`).
-/

namespace Naivolt

open Foundation Foundation.Service

/-! ## Coverage -/

/-- The block was in a range the adapter answered for. -/
def Scanned (w : EvmWorld) (b : ℤ) : Prop :=
  ∃ range transfers, .asked range (.ok transfers) ∈ w.trace ∧
    range.fromBlock ≤ b ∧ b ≤ range.toBlock

/-- A range with the block was answered. -/
def ScanEvent.scans (b : ℤ) : ScanEvent → Bool
  | .asked range (.ok _) => range.fromBlock ≤ b ∧ b ≤ range.toBlock
  | _ => false

lemma scanned_iff {w : EvmWorld} {b : ℤ} : Scanned w b ↔ ∃ e ∈ w.trace, e.scans b = true := by
  constructor
  · rintro ⟨range, transfers, hmem, hb⟩
    exact ⟨_, hmem, by simpa [ScanEvent.scans] using hb⟩
  · rintro ⟨e, hmem, he⟩
    unfold ScanEvent.scans at he
    split at he
    · exact ⟨_, _, hmem, by simpa using he⟩
    · cases he

instance (w : EvmWorld) (b : ℤ) : Decidable (Scanned w b) :=
  decidable_of_iff (∃ e ∈ w.trace, e.scans b = true) scanned_iff.symm

/-- So were all blocks from one to another. -/
def Covered (w : EvmWorld) (first last : ℤ) : Prop :=
  ∀ b, first ≤ b → b ≤ last → Scanned w b

/-- A range worth asking for: not empty, joined to what lies below the cursor, and not past the
head. -/
structure ScanRange.Sound (r : ScanRange) : Prop where
  ahead : r.cursor < r.head
  nonempty : r.fromBlock ≤ r.toBlock
  joined : r.fromBlock ≤ r.cursor + 1
  behind : r.toBlock ≤ r.head

/-- At the first start the head is at least the rescan depth. -/
def StartsDeep (net : Network) : EvmOp → EvmOracle → EvmWorld → Prop
  | .cursor, _, w => w.firstStart = none → net.rescanDepth ≤ w.head
  | _, _, _ => True

/-- A later start finds a saved cursor, or a head that takes it no further than the first start
went. -/
def StartsNoFurther (net : Network) : EvmOp → EvmOracle → EvmWorld → Prop
  | .cursor, _, w => w.saved = none → ∀ first ∈ w.firstStart,
      net.rescanDepth ≤ w.head ∧ resumeAt net w.head none ≤ first
  | _, _, _ => True

/-- The first start is deep enough, and no later one goes past it by the head. -/
def StartsWell (net : Network) (op : EvmOp) (ω : EvmOracle) (w : EvmWorld) : Prop :=
  StartsDeep net op ω w ∧ StartsNoFurther net op ω w

instance (net : Network) (op : EvmOp) (ω : EvmOracle) (w : EvmWorld) :
    Decidable (StartsDeep net op ω w) := by
  unfold StartsDeep
  split <;> infer_instance

instance (net : Network) (op : EvmOp) (ω : EvmOracle) (w : EvmWorld) :
    Decidable (StartsNoFurther net op ω w) := by
  unfold StartsNoFurther
  split <;> infer_instance

instance (net : Network) (op : EvmOp) (ω : EvmOracle) (w : EvmWorld) :
    Decidable (StartsWell net op ω w) :=
  inferInstanceAs (Decidable (_ ∧ _))

lemma scanRange_sound {net : Network} {cursor head : ℤ} {window : LogWindow}
    (hcursor : 0 ≤ cursor) (hahead : cursor < head) (hoverlap : 1 ≤ net.scanOverlap) :
    (scanRange net cursor head window).Sound := by
  have hsize := window.one_le
  constructor <;> simp only [scanRange] <;> omega

lemma scanRange_cursor_mem {net : Network} {cursor head : ℤ} {window : LogWindow}
    (hcursor : 0 ≤ cursor) (hoverlap : 1 ≤ net.scanOverlap) :
    (scanRange net cursor head window).fromBlock ≤ cursor := by
  simp only [scanRange]
  omega

lemma cursor_lt_scanRange {net : Network} {cursor head : ℤ} {window : LogWindow}
    (hahead : cursor < head) : cursor < (scanRange net cursor head window).toBlock := by
  have hsize := window.one_le
  simp only [scanRange]
  omega

lemma resumeAt_nonneg {net : Network} {head : ℤ} {saved : Option (ℤ × Option String)}
    (hdeep : saved = none → net.rescanDepth ≤ head) : 0 ≤ resumeAt net head saved := by
  rcases saved with _ | ⟨last, hash⟩
  · have := hdeep rfl
    simp only [resumeAt]
    omega
  · exact le_sup_right

/-! ### What changes and what does not -/

lemma Scanned.mono {w w' : EvmWorld} (htrace : ∀ e ∈ w.trace, e ∈ w'.trace) {b : ℤ}
    (h : Scanned w b) : Scanned w' b := by
  obtain ⟨range, transfers, hmem, hb⟩ := h
  exact ⟨range, transfers, htrace _ hmem, hb⟩

lemma Covered.mono {w w' : EvmWorld} (htrace : ∀ e ∈ w.trace, e ∈ w'.trace) {first last : ℤ}
    (h : Covered w first last) : Covered w' first last :=
  fun b h₁ h₂ => (h b h₁ h₂).mono htrace

lemma Quiet.subset {w w' : EvmWorld} (h : Quiet w w') : ∀ e ∈ w.trace, e ∈ w'.trace := by
  obtain ⟨es, htrace, -⟩ := h.trace
  intro e he
  rw [htrace]
  exact List.mem_append_right _ he

/-- **Answering the next range extends the cover.**  The range reaches down to the cursor, where
the blocks scanned so far, or the very start, are. -/
lemma Covered.extend {w : EvmWorld} {first cursor : ℤ} {range : ScanRange}
    {transfers : List ObservedTransfer}
    (h : cursor ≤ first ∨ Covered w first cursor) (hjoin : range.fromBlock ≤ cursor)
    (hmem : .asked range (.ok transfers) ∈ w.trace) : Covered w first range.toBlock := by
  intro b hfirst hlast
  by_cases hb : cursor ≤ b
  · exact ⟨range, transfers, hmem, hjoin.trans hb, hlast⟩
  · rcases h with h | h
    · exact absurd (h.trans hfirst) hb
    · exact h b hfirst (by omega)

/-! ## The invariant -/

/-- What the scan has achieved, in every state: the saved cursor has been reached block by
block, and nothing useless was asked. -/
structure ScanBooks (w : EvmWorld) : Prop where
  saved : ∀ saved ∈ w.saved, 0 ≤ saved.1 ∧ ∃ first ∈ w.firstStart, Covered w first saved.1
  asked : ∀ range answer, .asked range answer ∈ w.trace → range.Sound

/-- The loop is at a cursor reached block by block, or not past the first start. -/
structure AtCursor (cursor : ℤ) (w : EvmWorld) : Prop where
  nonneg : 0 ≤ cursor
  covered : ∃ first ∈ w.firstStart, cursor ≤ first ∨ Covered w first cursor

lemma ScanBooks.quiet {w w' : EvmWorld} (hq : Quiet w w') (h : ScanBooks w) : ScanBooks w' where
  saved saved hs := by
    rw [hq.saved] at hs
    obtain ⟨hnonneg, first, hfirst, hcov⟩ := h.saved saved hs
    exact ⟨hnonneg, first, hq.firstStart ▸ hfirst, hcov.mono hq.subset⟩
  asked range answer hmem := h.asked range answer ((hq.mem_trace id).mp hmem)

lemma AtCursor.mono {cursor : ℤ} {w w' : EvmWorld} (hfirst : w'.firstStart = w.firstStart)
    (htrace : ∀ e ∈ w.trace, e ∈ w'.trace) (h : AtCursor cursor w) : AtCursor cursor w' where
  nonneg := h.nonneg
  covered := by
    obtain ⟨first, hmem, hcov⟩ := h.covered
    exact ⟨first, hfirst ▸ hmem, hcov.imp id fun hc => hc.mono htrace⟩

lemma AtCursor.quiet {cursor : ℤ} {w w' : EvmWorld} (hq : Quiet w w')
    (h : AtCursor cursor w) : AtCursor cursor w' :=
  h.mono hq.firstStart hq.subset

section Loop

variable {cfg : Config} {net : Network}

/-- Where a start puts the loop: behind the saved cursor, or at the head less the rescan depth. -/
lemma atCursor_resume {w : EvmWorld} {ω : EvmOracle} (hI : ScanBooks w)
    (hstart : StartsWell net .cursor ω w) {w' : EvmWorld}
    (hfirst : w'.firstStart = w.firstStart.or (some (resumeAt net w.head w.saved)))
    (htrace : ∀ e ∈ w.trace, e ∈ w'.trace) : AtCursor (resumeAt net w.head w.saved) w' := by
  obtain ⟨hdeep, hfurther⟩ := hstart
  rcases hsaved : w.saved with _ | saved
  · rcases hf : w.firstStart with _ | first
    · rw [hf, hsaved] at hfirst
      exact ⟨resumeAt_nonneg fun _ => hdeep hf, _, hfirst, .inl le_rfl⟩
    · obtain ⟨hhead, hle⟩ := hfurther hsaved first hf
      rw [hf] at hfirst
      exact ⟨resumeAt_nonneg fun _ => hhead, first, hfirst, .inl hle⟩
  · obtain ⟨hnonneg, first, hmem, hcov⟩ := hI.saved saved hsaved
    rw [show w.firstStart = some first from hmem] at hfirst
    refine ⟨resumeAt_nonneg (by simp), first, hfirst, .inr fun b hb hlast => ?_⟩
    refine (hcov b hb (hlast.trans ?_)).mono htrace
    have := net.rescanDepth_nonneg
    simp only [resumeAt]
    omega

/-- Starting. -/
lemma keeps_watchEvmStart (w : EvmWorld) :
    Keeps (evmWatcher cfg net) (StartsWell net) ScanBooks Quiet
      (fun o w => ∀ s ∈ o, AtCursor (EvmLoop.cursor s) w) (watchEvmStart net) w := by
  intro w _ hI ω contracts w₁ _ he
  cases he
  refine ⟨hI, ?_⟩
  intro w _ hI ω head w₁ _ he
  cases he
  refine ⟨⟨hI.saved, hI.asked⟩, ?_⟩
  refine Keeps.step (A := fun w => w.head = ω.head) rfl
    (fun _ _ hq hA => hq.head.trans hA) fun w ω' saved w₁ hI hhead hstart he => ?_
  cases he
  have hsub : ∀ e ∈ w.trace, e ∈ ScanEvent.resumed (resumeAt net w.head w.saved) :: w.trace :=
    fun e he => List.mem_cons_of_mem _ he
  refine ⟨⟨fun saved hs => ?_,
      fun range answer hmem => hI.asked range answer (by simpa using hmem)⟩,
    ?_⟩
  · obtain ⟨hnonneg, first, hfirst, hcov⟩ := hI.saved saved hs
    refine ⟨hnonneg, first, ?_, hcov.mono hsub⟩
    simp [show w.firstStart = some first from hfirst]
  · rintro s hs
    cases hs
    rw [← hhead]
    exact atCursor_resume hI hstart rfl hsub

/-- Handling the transfers of a range and saving the cursor. -/
lemma keeps_processRange {range : ScanRange} {transfers : List ObservedTransfer} {w : EvmWorld}
    (hnonneg : 0 ≤ range.toBlock)
    (hcov : ∃ first ∈ w.firstStart, Covered w first range.toBlock) :
    Keeps (evmWatcher cfg net) (StartsWell net) ScanBooks Quiet
      (fun _ => AtCursor range.toBlock) (processRange net range transfers) w := by
  have hI : ∀ ⦃w w'⦄, Quiet w w' → ScanBooks w → ScanBooks w' := fun _ _ => ScanBooks.quiet
  let A : EvmWorld → Prop := fun w =>
    0 ≤ range.toBlock ∧ ∃ first ∈ w.firstStart, Covered w first range.toBlock
  have hA : ∀ ⦃w w'⦄, Quiet w w' → A w → A w' := fun _ _ hq h =>
    ⟨h.1, h.2.imp fun _ hc => ⟨hq.firstStart ▸ hc.1, hc.2.mono hq.subset⟩⟩
  refine Keeps.bind (keeps_handler hI hA _ ⟨hnonneg, hcov⟩) fun _ w hw => ?_
  refine Keeps.bind (keeps_handler hI hA _ hw) fun _ w hw => ?_
  refine Keeps.bind (keeps_handler hI hA _ hw) fun _ w hw => ?_
  refine Keeps.step hw hA fun w ω hash w' hI hw _ he => ?_
  have hq : Quiet w w' := quiet_backend (show execEvm cfg net _ ω w = _ from he)
  refine ⟨hI.quiet hq, Keeps.step (hA hq hw) hA fun w ω _ w' hI hw _ he => ?_⟩
  cases he
  have hsub : ∀ e ∈ w.trace, e ∈ ScanEvent.saved range.toBlock :: w.trace :=
    fun e he => List.mem_cons_of_mem _ he
  obtain ⟨hnonneg, first, hfirst, hcov⟩ := hw
  refine ⟨⟨fun saved hs => ?_, fun r answer hmem => hI.asked r answer (by simpa using hmem)⟩,
    hnonneg, first, hfirst, .inr (hcov.mono hsub)⟩
  cases hs
  exact ⟨hnonneg, first, hfirst, hcov.mono hsub⟩

/-- What becomes of the loop after its scan: only an answered range moves the cursor. -/
lemma keeps_afterScan {s : EvmLoop} {range : ScanRange} {answer : ScanAnswer} {w : EvmWorld}
    (hs : AtCursor s.cursor w) (hjoin : range.fromBlock ≤ s.cursor)
    (hto : s.cursor < range.toBlock) (hmem : .asked range answer ∈ w.trace) :
    Keeps (evmWatcher cfg net) (StartsWell net) ScanBooks Quiet
      (fun o w => ∀ s ∈ o, AtCursor (EvmLoop.cursor s) w) (afterScan net s range answer) w := by
  cases answer with
  | ok transfers =>
      obtain ⟨first, hfirst, hcov⟩ := hs.covered
      refine Keeps.bind (keeps_processRange (hs.nonneg.trans hto.le)
        ⟨first, hfirst, Covered.extend hcov hjoin hmem⟩) ?_
      rintro - w hw s' hs'
      cases hs'
      exact hw
  | refused =>
      rintro s' hs'
      obtain ⟨window, -, rfl⟩ := Option.map_eq_some_iff.mp hs'
      exact hs
  | failed =>
      simp only [afterScan]
      split
      · rintro s' hs'
        cases hs'
      · rintro s' hs'
        cases hs'
        exact hs

/-- Once round the loop. -/
lemma keeps_watchEvmPass (hevm : net.chain = .evm) {s : EvmLoop} {w : EvmWorld}
    (hs : AtCursor s.cursor w) :
    Keeps (evmWatcher cfg net) (StartsWell net) ScanBooks Quiet
      (fun o w => ∀ s ∈ o, AtCursor (EvmLoop.cursor s) w) (watchEvmPass net s) w := by
  have hoverlap := Network.one_le_scanOverlap hevm
  refine Keeps.step hs (fun _ _ => AtCursor.quiet) fun w ω head w' hI hs _ he => ?_
  cases he
  refine ⟨⟨hI.saved, hI.asked⟩, ?_⟩
  have hs : AtCursor s.cursor { w with head := ω.head } :=
    AtCursor.mono (w := w) rfl (fun _ => id) hs
  simp only [Prog.bind]
  split
  · rintro s' hs'
    cases hs'
    exact hs
  · rename_i hahead
    rw [not_le] at hahead
    refine Keeps.step hs (fun _ _ => AtCursor.quiet) fun w ω' watched w' hI hs _ he => ?_
    cases he
    refine ⟨hI, ?_⟩
    refine Keeps.step hs (fun _ _ => AtCursor.quiet) fun w ω' answer w' hI hs _ he => ?_
    cases he
    have hsub : ∀ (answer : ScanAnswer), ∀ e ∈ w.trace,
        e ∈ ScanEvent.asked (scanRange net s.cursor ω.head s.window) answer :: w.trace :=
      fun _ e he => List.mem_cons_of_mem _ he
    refine ⟨⟨fun saved hsaved => ?_, fun range answer hmem => ?_⟩, ?_⟩
    · obtain ⟨hnonneg, first, hfirst, hcov⟩ := hI.saved saved hsaved
      exact ⟨hnonneg, first, hfirst, hcov.mono (hsub _)⟩
    · rcases List.mem_cons.mp hmem with heq | hmem
      · cases heq
        exact scanRange_sound hs.nonneg hahead hoverlap
      · exact hI.asked range answer hmem
    · have hs' : ∀ answer, AtCursor s.cursor { w with
          trace := .asked (scanRange net s.cursor ω.head s.window) answer :: w.trace } :=
        fun answer => AtCursor.mono (w := w) rfl (hsub answer) hs
      exact keeps_afterScan (hs' _) (scanRange_cursor_mem hs.nonneg hoverlap)
        (cursor_lt_scanRange hahead) (List.mem_cons_self ..)

/-- The scan keeps its books. -/
lemma sound_scan (hevm : net.chain = .evm) :
    Service.Sound (evmWatcher cfg net) (StartsWell net) ScanBooks Quiet anyEnv
      (fun s => AtCursor s.cursor) where
  refl := Quiet.refl
  trans := Quiet.trans
  env hI _ h := ⟨hI.quiet (quiet_env h), quiet_env h⟩
  start w _ := keeps_watchEvmStart w
  pass _ _ _ hs := keeps_watchEvmPass hevm hs
  stable hq _ hs := hs.quiet hq

/-- **EVM scan coverage.**  In every run of an EVM network's watcher, with any heads, replies,
failures, crashes and restarts, in which no start after the first goes further by the head, the
ranges answered for cover every block from the first start to the saved cursor, and every range
asked for is non-empty, starts at or below the block after the cursor, and does not reach past
the head. -/
theorem scan_covers (cfg : Config) (net : Network) (hevm : net.chain = .evm) (b₀ : World)
    {s : EvmSite}
    (hr : (evmWatcher cfg net).Reachable (guarded (StartsWell net) anyEnv) (EvmSite.fresh b₀) s) :
    (∀ saved ∈ s.world.saved, ∃ first ∈ s.world.firstStart, Covered s.world first saved.1) ∧
    ∀ range answer, .asked range answer ∈ s.world.trace → range.Sound := by
  have h₀ : ScanBooks (.fresh b₀) :=
    ⟨fun _ hs => (by cases hs), fun _ _ hmem => (by cases hmem)⟩
  have hI := ((sound_scan hevm).holds h₀ rfl hr).1
  exact ⟨fun saved hs => (hI.saved saved hs).2, hI.asked⟩

/-- A first scan, a range refused and narrowed, a crash, and a restart behind the cursor. -/
def refusedThenRestarted : List EvmMove :=
  booted [("0xusdt", .usdt, 6)] 1000 ++ passed 1010 (.logs []) [{}, {}, {}, {}] ++
  passed 1100 .refused [] ++ passed 5000 (.logs []) [{}, {}, {}] ++ [.crash] ++
  booted [("0xusdt", .usdt, 6)] 5000 ++ passed 5001 (.logs []) [{}, {}, {}, {}]

theorem scan_covers_restart :
    ∃ s : EvmSite, s.world.saved.map Prod.fst = some 2974 ∧ s.world.firstStart = some 964 ∧
      Covered s.world 964 2974 := by
  obtain ⟨s, hs, hsaved, hfirst⟩ := exists_reachable_of_run (evmWatcher stubConfig .ethereum)
    (guarded (StartsWell .ethereum) anyEnv)
    (EvmSite.fresh (World.fresh 0 [⟨11, 7, .evm, "0xabc"⟩]))
    refusedThenRestarted
    (fun s => s.world.saved.map Prod.fst = some 2974 ∧ s.world.firstStart = some 964)
    (by decide +kernel)
  obtain ⟨saved, hmem, hto⟩ := Option.map_eq_some_iff.mp hsaved
  obtain ⟨first, hmem', hcov⟩ := (scan_covers stubConfig .ethereum rfl _ hs).1 saved hmem
  cases hfirst.symm.trans hmem'
  exact ⟨s, hsaved, hfirst, hto ▸ hcov⟩

/-! ## A restart without a cursor -/

/-- The first scans fail until the worker gives up; when it is started again the head is a hundred
blocks on, and the next scan is answered. -/
def failedThenRestarted : List EvmMove :=
  booted [("0xusdt", .usdt, 6)] 1000 ++
  (List.replicate 5 (passed 1001 .failed [])).flatten ++ [.turn] ++
  booted [("0xusdt", .usdt, 6)] 1100 ++ passed 1101 (.logs []) [{}, {}, {}, {}]

/-- The saved cursor passes blocks after the first start that were in no range. -/
theorem restart_skips_blocks :
    ¬ ∀ s : EvmSite, (evmWatcher stubConfig .ethereum).Reachable
        (guarded (StartsDeep .ethereum) anyEnv)
        (EvmSite.fresh (World.fresh 0 [⟨11, 7, .evm, "0xabc"⟩])) s →
      (∀ saved ∈ s.world.saved, ∃ first ∈ s.world.firstStart, Covered s.world first saved.1) ∧
      ∀ range answer, .asked range answer ∈ s.world.trace → range.Sound := by
  intro h
  obtain ⟨s, hs, hsaved, hfirst, hskipped⟩ :=
    exists_reachable_of_run (evmWatcher stubConfig .ethereum)
      (guarded (StartsDeep .ethereum) anyEnv)
      (EvmSite.fresh (World.fresh 0 [⟨11, 7, .evm, "0xabc"⟩])) failedThenRestarted
      (fun s => s.world.saved.map Prod.fst = some 1101 ∧ s.world.firstStart = some 964 ∧
        ¬Scanned s.world 965) (by decide +kernel)
  obtain ⟨saved, hmem, hto⟩ := Option.map_eq_some_iff.mp hsaved
  obtain ⟨first, hmem', hcov⟩ := (h s hs).1 saved hmem
  cases hfirst.symm.trans hmem'
  exact hskipped (hcov 965 (by omega) (by omega))

end Loop

end Naivolt
