import Naivolt.Foundation.Inevitability
import Naivolt.Watcher.Evm

/-!
# Narrowing the log window

An endpoint caps how many blocks one `eth_getLogs` may cover, and the cap is found by being
refused: `watch_evm` halves its window after each refusal and gives up when a window of one block
is refused too.

The window says how far past the cursor a query reaches.  The query itself also covers the blocks
of the overlap, so at a window of one it asks for up to four blocks on Ethereum and eleven on the
other networks (`blocks_of_one`).  An endpoint that serves fewer is given up on, though it would
serve a single block: `narrowing_iff`.
-/

namespace Naivolt

open Foundation Foundation.Service

/-! ## Blocks asked for -/

/-- How many blocks a query covers. -/
def ScanRange.blocks (range : ScanRange) : ℤ := range.toBlock - range.fromBlock + 1

/-- How many blocks no window can go below: the next one and those of the overlap. -/
def leastBlocks (net : Network) (cursor : ℤ) : ℤ := (cursor + 1) ⊓ net.scanOverlap + 1

section Blocks

variable {net : Network} {cursor head : ℤ} {window : LogWindow}

lemma leastBlocks_le (hhead : cursor < head) :
    leastBlocks net cursor ≤ (scanRange net cursor head window).blocks := by
  have hone := window.one_le
  simp only [leastBlocks, ScanRange.blocks, scanRange]
  omega

lemma blocks_of_one (hhead : cursor < head) (hone : window.size = 1) :
    (scanRange net cursor head window).blocks = leastBlocks net cursor := by
  simp only [leastBlocks, ScanRange.blocks, scanRange, hone]
  omega

end Blocks

/-! ## The window -/

/-- A shrunk window is smaller, of the same maximum. -/
lemma LogWindow.shrink_eq_some {window window' : LogWindow} (h : window.shrink = some window') :
    window'.size < window.size ∧ window'.max = window.max := by
  unfold LogWindow.shrink at h
  by_cases hone : window.size ≤ 1
  · rw [if_pos hone] at h
    cases h
  · rw [if_neg hone] at h
    cases h
    refine ⟨?_, rfl⟩
    show window.size / 2 ⊔ 1 < window.size
    omega

/-- Only a window of one block cannot shrink. -/
lemma LogWindow.shrink_eq_none {window : LogWindow} (h : window.shrink = none) :
    window.size = 1 := by
  unfold LogWindow.shrink at h
  by_cases hone : window.size ≤ 1
  · exact le_antisymm hone window.one_le
  · rw [if_neg hone] at h
    cases h

/-! ## A pass at an endpoint with a cap -/

/-- The endpoint answers every query over at most `L` blocks, and refuses longer ones. -/
def Capped (L : ℤ) : EvmOp → EvmOracle → EvmWorld → Prop
  | .tokenTransfers range _ _, ω, _ =>
    if range.blocks ≤ L then ∃ logs, ω.reply = .logs logs else ω.reply = .refused
  | _, _, _ => True

/-- The query of a pass was answered. -/
def Answered (s s' : EvmLoop) : Prop := s.cursor < s'.cursor

section Pass

variable {cfg : Config} {net : Network} {L : ℤ} {s : EvmLoop}

/-- What a pass can come to: it waits, its query is answered, or it is refused. -/
inductive PassEnds (net : Network) (L : ℤ) (s : EvmLoop) : Option EvmLoop → Prop where
  | waits : PassEnds net L s (some s)
  | answered {s' : EvmLoop} : Answered s s' → PassEnds net L s (some s')
  | refused {head : ℤ} : s.contracts ≠ [] → s.cursor < head →
      L < (scanRange net s.cursor head s.window).blocks →
      PassEnds net L s (s.window.shrink.map fun window => { s with window := window })

/-- After an answer the cursor is where the range ended. -/
lemma keeps_answered {range : ScanRange} (hadvanced : s.cursor < range.toBlock)
    (transfers : List ObservedTransfer) (w : EvmWorld) :
    Keeps (evmWatcher cfg net) (Capped L) (fun _ => True) (fun _ _ => True)
      (fun r _ => PassEnds net L s r) (afterScan net s range (.ok transfers)) w := by
  have hprocess : Keeps (evmWatcher cfg net) (Capped L) (fun _ => True) (fun _ _ => True)
      (fun _ _ => True) (processRange net range transfers) w :=
    Keeps.of_every (A := fun _ => True) (fun _ _ _ h => h)
      ((Prog.every_true _).mono fun _ _ _ _ _ _ _ _ _ _ => ⟨trivial, trivial⟩) trivial
  exact hprocess.bind fun _ _ _ => .answered hadvanced

/-- What the answer to a query leads to. -/
lemma keeps_scanned {head : ℤ} {watched : List String} {reply : LogsReply}
    (hhead : s.cursor < head)
    (hreply : if (scanRange net s.cursor head s.window).blocks ≤ L then
      ∃ logs, reply = .logs logs else reply = .refused) (w : EvmWorld) :
    Keeps (evmWatcher cfg net) (Capped L) (fun _ => True) (fun _ _ => True)
      (fun r _ => PassEnds net L s r)
      (afterScan net s (scanRange net s.cursor head s.window)
        (tokenTransfers net watched s.contracts reply)) w := by
  have hadvanced : s.cursor < (scanRange net s.cursor head s.window).toBlock := by
    have hone := s.window.one_le
    simp only [scanRange]
    omega
  by_cases hasked : watched = [] ∨ s.contracts = []
  · have hnothing : tokenTransfers net watched s.contracts reply = .ok [] := if_pos hasked
    rw [hnothing]
    exact keeps_answered hadvanced [] w
  · have hcontracts : s.contracts ≠ [] := fun hnil => hasked (.inr hnil)
    by_cases hblocks : (scanRange net s.cursor head s.window).blocks ≤ L
    · rw [if_pos hblocks] at hreply
      obtain ⟨logs, rfl⟩ := hreply
      have hserved : tokenTransfers net watched s.contracts (.logs logs) =
          .ok (logs.filterMap (observedLog net watched s.contracts)) := if_neg hasked
      rw [hserved]
      exact keeps_answered hadvanced _ w
    · rw [if_neg hblocks] at hreply
      have hrefused : tokenTransfers net watched s.contracts .refused = .refused := if_neg hasked
      rw [hreply, hrefused]
      exact .refused hcontracts hhead (not_le.mp hblocks)

lemma keeps_passEnds (w : EvmWorld) :
    Keeps (evmWatcher cfg net) (Capped L) (fun _ => True) (fun _ _ => True)
      (fun r _ => PassEnds net L s r) (watchEvmPass net s) w := by
  intro w _ _ ω head w₁ _ he
  cases he
  refine ⟨trivial, ?_⟩
  simp only [Prog.bind]
  by_cases hhead : ω.head ≤ s.cursor
  · rw [if_pos hhead]
    exact .waits
  · rw [if_neg hhead]
    intro w _ _ ω' watched w₁ _ he
    cases he
    refine ⟨trivial, fun w _ _ ω' answer w₁ hcapped he => ?_⟩
    cases he
    exact ⟨trivial, keeps_scanned (not_le.mp hhead) hcapped _⟩

/-- **What a pass comes to.** -/
lemma passEnds_of_completes {w w' : EvmWorld} {r : Option EvmLoop}
    (h : (evmWatcher cfg net).Completes (Capped L) anyEnv (watchEvmPass net s) w r w') :
    PassEnds net L s r :=
  (keeps_passEnds w).completes (fun _ => trivial) (fun _ _ => trivial)
    (fun _ _ _ => ⟨trivial, trivial⟩) (fun _ h => h) trivial trivial h

/-- A refusal there is, when the least query is over the cap and there is something to ask. -/
lemma completes_refused (cfg : Config) (hcap : L < leastBlocks net s.cursor)
    (hcontracts : s.contracts ≠ []) {w : EvmWorld}
    (hwatched : watchedAddresses net w.backend.wallets ≠ []) :
    ∃ w', (evmWatcher cfg net).Completes (Capped L) anyEnv (watchEvmPass net s) w
        (s.window.shrink.map fun window => { s with window := window }) w' ∧
      w'.backend = w.backend := by
  have hlt : s.cursor < s.cursor + 1 := by omega
  set range := scanRange net s.cursor (s.cursor + 1) s.window with hrange
  have hover : ¬ range.blocks ≤ L := not_le.mpr (hcap.trans_le (leastBlocks_le hlt))
  have hanswer : tokenTransfers net (watchedAddresses net w.backend.wallets) s.contracts .refused =
      .refused := if_neg (not_or.mpr ⟨hwatched, hcontracts⟩)
  have hreply : Capped L (.tokenTransfers range (watchedAddresses net w.backend.wallets)
      s.contracts) { reply := .refused } { w with head := s.cursor + 1 } :=
    (if_neg hover).mpr rfl
  have hpass : watchEvmPass net s = .call .head fun head =>
      if head ≤ s.cursor then .ret (some s)
      else .call .watchedAddresses fun watched =>
        .call (.tokenTransfers (scanRange net s.cursor head s.window) watched s.contracts)
          (afterScan net s (scanRange net s.cursor head s.window)) := rfl
  refine ⟨{ w with head := s.cursor + 1, trace := .asked range .refused :: w.trace }, ?_, rfl⟩
  rw [hpass]
  refine .call (ω := { head := s.cursor + 1 }) trivial rfl ?_
  rw [if_neg (not_le.mpr hlt)]
  have hasked : execEvm cfg net (.tokenTransfers range (watchedAddresses net w.backend.wallets)
      s.contracts) { reply := .refused } { w with head := s.cursor + 1 } =
      some (.refused, { w with
        head := s.cursor + 1, trace := .asked range .refused :: w.trace }) := by
    simp only [execEvm, hanswer]
  refine .call (ω := {}) trivial rfl ?_
  have hend : (evmWatcher cfg net).Completes (Capped L) anyEnv
      (afterScan net s range .refused)
      { w with head := s.cursor + 1, trace := .asked range .refused :: w.trace }
      (s.window.shrink.map fun window => { s with window := window })
      { w with head := s.cursor + 1, trace := .asked range .refused :: w.trace } := .ret
  exact .call hreply hasked hend

end Pass

/-! ## The refusal loop -/

/-- The refusal loop comes to an answered query and does not give up, whatever the heads are and
whatever else happens in the meantime. -/
abbrev ComesToAnswer (cfg : Config) (net : Network) (L : ℤ) : EvmLoop → EvmWorld → Prop :=
  Inevitable (evmWatcher cfg net) (Capped L) anyEnv Answered

section Loop

variable {cfg : Config} {net : Network} {L : ℤ}

/-- Nothing to look for, or a window of one that the endpoint serves. -/
def Servable (net : Network) (L : ℤ) (s : EvmLoop) : Prop :=
  s.contracts = [] ∨ leastBlocks net s.cursor ≤ L

/-- Each refusal lowers the window, and the last window is served. -/
lemma comesToAnswer {s : EvmLoop} (h : Servable net L s) (w : EvmWorld) :
    ComesToAnswer cfg net L s w := by
  refine Inevitable.of_measure (fun s => s.window.size.toNat) (fun s w w' hs hnone => ?_)
    (fun s w s' w' hs hsome hne hgoal => ?_) h w
  · generalize hr : (none : Option EvmLoop) = r at hnone
    cases passEnds_of_completes hnone with
    | waits => cases hr
    | answered _ => cases hr
    | refused hcontracts hhead hover =>
        have hone := LogWindow.shrink_eq_none (Option.map_eq_none_iff.mp hr.symm)
        rw [blocks_of_one hhead hone] at hover
        exact absurd (hs.resolve_left hcontracts) (not_le.mpr hover)
  · generalize hr : some s' = r at hsome
    cases passEnds_of_completes hsome with
    | waits =>
        cases hr
        exact absurd rfl hne
    | answered hanswered =>
        cases hr
        exact absurd hanswered hgoal
    | refused hcontracts hhead hover =>
        obtain ⟨window, hshrink, rfl⟩ := Option.map_eq_some_iff.mp hr.symm
        have hsmaller := (LogWindow.shrink_eq_some hshrink).1
        have hpositive := window.one_le
        refine ⟨hs, ?_⟩
        show window.size.toNat < s.window.size.toNat
        omega

/-- The endpoint refuses every window, and the watcher gives up. -/
lemma not_comesToAnswer {s : EvmLoop} (h : ¬ Servable net L s) {w : EvmWorld}
    (hwatched : watchedAddresses net w.backend.wallets ≠ []) : ¬ ComesToAnswer cfg net L s w := by
  refine not_inevitable (J := fun s w => ¬ Servable net L s ∧
    watchedAddresses net w.backend.wallets ≠ []) (fun s w hJ => ?_) ⟨h, hwatched⟩
  obtain ⟨hcontracts, hcap⟩ := not_or.mp hJ.1
  obtain ⟨w', hpass, hbackend⟩ :=
    completes_refused cfg (not_le.mp hcap) hcontracts hJ.2
  cases hshrink : s.window.shrink with
  | none =>
      rw [hshrink] at hpass
      exact .inl ⟨w', hpass⟩
  | some window =>
      rw [hshrink] at hpass
      refine .inr ⟨{ s with window := window }, w', hpass, fun heq => ?_, lt_irrefl s.cursor,
        hJ.1, by rw [hbackend]; exact hJ.2⟩
      have hsame : window = s.window := congrArg EvmLoop.window heq
      exact absurd (LogWindow.shrink_eq_some hshrink).1 (by rw [hsame]; exact lt_irrefl _)

/-- A database with a wallet of the network. -/
def walletWorld (net : Network) : EvmWorld :=
  .fresh (World.fresh 0 [⟨11, 7, net.chain, "0xAbC"⟩])

/-- **When narrowing finds what the endpoint allows.**  The window stays within its bounds and
each refusal lowers it, for all windows; the loop comes to an answered query exactly if there is
nothing to look for, or the endpoint serves the next block along with those of the overlap. -/
theorem narrowing_iff (cfg : Config) (net : Network) (L : ℤ) (s : EvmLoop) :
    (1 ≤ s.window.size ∧ s.window.size ≤ s.window.max ∧ s.window.grow.max = s.window.max ∧
      (∀ window, s.window.shrink = some window →
        window.size < s.window.size ∧ window.max = s.window.max) ∧
      ∀ w, ComesToAnswer cfg net L s w) ↔
    s.contracts = [] ∨ (s.cursor + 1) ⊓ net.scanOverlap + 1 ≤ L := by
  constructor
  · rintro ⟨-, -, -, -, hcomes⟩
    by_contra hnot
    have hwatched : watchedAddresses net (walletWorld net).backend.wallets ≠ [] := by
      simp [walletWorld, EvmWorld.fresh, World.fresh, watchedAddresses]
    exact not_comesToAnswer hnot hwatched (hcomes (walletWorld net))
  · intro h
    exact ⟨s.window.one_le, s.window.le_max, rfl, fun _ => LogWindow.shrink_eq_some,
      comesToAnswer h⟩

end Loop

/-- Ethereum's watcher with a token to look for, at height 100. -/
def oneToken : EvmLoop := ⟨[("0xusdt", .usdt, 6)], 100, .new maxLogWindow, 0⟩

/-- An endpoint that serves one block a query is given up on. -/
theorem single_block_given_up :
    ¬ ∀ (cfg : Config) (net : Network) (L : ℤ), 1 ≤ L → ∀ (s : EvmLoop) (w : EvmWorld),
      ComesToAnswer cfg net L s w := by
  intro h
  have hover : ¬ Servable .ethereum 1 oneToken := by
    rw [Servable, not_or]
    exact ⟨by simp [oneToken], by decide⟩
  exact not_comesToAnswer hover (by decide) (h stubConfig .ethereum 1 le_rfl oneToken
    (walletWorld .ethereum))

end Naivolt
