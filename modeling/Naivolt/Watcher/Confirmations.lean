import Naivolt.Watcher.Evm

/-!
# Confirmed before credited

Confirmations are counted from a block number: the transfer's own in `handle_transfer`, the one
stored in the row in `advance_pending`.  The first is where the scan of the same pass found the
transfer.  The second was stored when the transfer was first seen and is not refreshed when it is
seen again, so after a reorganisation that re-includes the transaction in a later block it is too
low, and the row is credited early.

`credited_deep_enough` says that nothing else goes wrong: as long as the block counted from is
not below the block that includes the transaction (`CountedFromInclusion`), every credit is posted
with the network's confirmations.  `credited_too_early` is observe, reorganise, observe again,
advance.
-/

namespace Naivolt

open Foundation Foundation.Service

/-- A deposit about to be credited is in the canonical chain, in no later block than the one its
confirmations are counted from. -/
def CountedFromInclusion : EvmOp → EvmOracle → EvmWorld → Prop
  | .backend (.watcher (.credit id t)), ω, w => ω.base.dbFails = false →
      ∀ d ∈ w.backend.deposits.get? id, d.status ≠ .confirmed → d.status ≠ .reversed →
        ∃ b ∈ inclusion w.chain t.txHash, b.number ≤ t.blockNumber
  | _, _, _ => True

instance (op : EvmOp) (ω : EvmOracle) (w : EvmWorld) :
    Decidable (CountedFromInclusion op ω w) := by
  unfold CountedFromInclusion
  split <;> infer_instance

/-- Every credit so far was of a transaction that the canonical chain had, at the head the
watcher went by, under the network's confirmations. -/
def CreditsDeep (net : Network) (w : EvmWorld) : Prop :=
  ∀ id t head block, .credited id t head block ∈ w.trace →
    ∃ b ∈ block, net.minConfirmations ≤ confirmationsAt head b.number

/-- A credit is asked for only when the confirmations counted suffice. -/
def AsksDeep (net : Network) (head : ℤ) (op : Op) : Prop :=
  ∀ id t, op = .watcher (.credit id t) →
    net.minConfirmations ≤ confirmationsAt head t.blockNumber

/-- Fewer blocks below the head are fewer confirmations. -/
lemma confirmationsAt_anti {head b b' : ℤ} (h : b ≤ b') :
    confirmationsAt head b' ≤ confirmationsAt head b := by
  unfold confirmationsAt
  omega

/-! ## What the handlers ask for -/

section Handlers

variable {net : Network} {head : ℤ}

lemma asksDeep_of_ne {op : Op} (h : ∀ id t, op ≠ .watcher (.credit id t)) :
    AsksDeep net head op := fun id t heq => absurd heq (h id t)

lemma minConfirmations_le_of_creditable {t : ObservedTransfer} (h : creditable t head = true) :
    t.network.minConfirmations ≤ confirmationsAt head t.blockNumber := by
  unfold creditable classify at h
  split at h
  · rename_i hc
    split at hc
    · cases hc
    · split at hc
      · assumption
      · cases hc
  · cases h

lemma asksDeep_handleTransfer {t : ObservedTransfer} (hnet : t.network = net) :
    (handleTransfer t head).Every (AsksDeep net head) := by
  subst hnet
  refine ⟨asksDeep_of_ne (by simp), fun wallet => ?_⟩
  rcases wallet with _ | ⟨walletId, userId⟩
  · trivial
  refine ⟨asksDeep_of_ne (by simp), fun row => ?_⟩
  rcases row with _ | ⟨id, status⟩
  · trivial
  simp only [Prog.bind]
  split
  · trivial
  · split
    · rename_i hdeep
      refine ⟨fun id' t' heq => ?_, fun _ => trivial⟩
      cases heq
      exact minConfirmations_le_of_creditable hdeep
    · trivial

lemma asksDeep_handleTransfers {ts : List ObservedTransfer} (hnet : ∀ t ∈ ts, t.network = net) :
    (handleTransfers head ts).Every (AsksDeep net head) := by
  induction ts with
  | nil => trivial
  | cons t ts ih =>
      exact (asksDeep_handleTransfer (hnet t (List.mem_cons_self ..))).bind fun _ =>
        ih fun t' ht' => hnet t' (List.mem_cons_of_mem _ ht')

/-- `advance_pending` credits the rows that are deep enough by their stored block. -/
lemma asksDeep_advanceRows (rows : List (Uuid × Deposit)) :
    (advanceRows net head rows).Every (AsksDeep net head) := by
  induction rows with
  | nil => trivial
  | cons r rows ih =>
      obtain ⟨id, d⟩ := r
      simp only [advanceRows]
      split
      · exact ⟨asksDeep_of_ne (by simp), fun _ => ih⟩
      · rename_i hdeep
        refine ⟨fun id' t' heq => ?_, fun _ => ih⟩
        cases heq
        exact not_lt.mp hdeep

lemma asksDeep_advancePending : (advancePending net head).Every (AsksDeep net head) :=
  ⟨asksDeep_of_ne (by simp), fun rows => asksDeep_advanceRows rows⟩

lemma asksDeep_reorgRows (cache : List (ℤ × Option String)) (rows : List (Uuid × Deposit)) :
    (reorgRows net cache rows).Every (AsksDeep net head) := by
  induction rows generalizing cache with
  | nil => trivial
  | cons r rows ih =>
      obtain ⟨id, d⟩ := r
      simp only [reorgRows]
      split
      · exact ih cache
      · refine Prog.Every.bind ?_ fun ⟨current, cache⟩ => ?_
        · unfold cachedHash
          split
          · trivial
          · exact ⟨asksDeep_of_ne (by simp), fun _ => trivial⟩
        · dsimp only
          split
          · exact ih cache
          · split
            · exact ih cache
            · refine Prog.Every.bind ⟨asksDeep_of_ne (by simp), fun location => ?_⟩
                fun _ => ih cache
              rcases location with _ | _ | ⟨number, hash⟩
              · trivial
              · exact ⟨asksDeep_of_ne (by simp), fun _ => trivial⟩
              · exact ⟨asksDeep_of_ne (by simp), fun _ => trivial⟩

lemma asksDeep_checkReorgs : (checkReorgs net head).Every (AsksDeep net head) :=
  ⟨asksDeep_of_ne (by simp), fun rows => asksDeep_reorgRows [] rows⟩

end Handlers

/-! ## Every credit -/

/-- The world moves, but the head the watcher goes by and what it has done do not. -/
def Unread (w w' : EvmWorld) : Prop := w'.head = w.head ∧ w'.trace = w.trace

lemma Unread.trans {w w' w'' : EvmWorld} (h : Unread w w') (h' : Unread w' w'') : Unread w w'' :=
  ⟨h'.1.trans h.1, h'.2.trans h.2⟩

section Loop

variable {cfg : Config} {net : Network} {w w' : EvmWorld}

lemma unread_env {e : EvmEnv} (h : envEvm cfg e w = some w') : Unread w w' := by
  rcases envEvm_cases h with ⟨bs, -, -, -, rfl⟩ | ⟨b, b', -, -, rfl⟩ |
    ⟨tid, op, ω, r, b', -, -, rfl⟩ <;>
  exact ⟨rfl, rfl⟩

lemma CreditsDeep.unread (h : Unread w w') (hI : CreditsDeep net w) : CreditsDeep net w' :=
  fun id t head block hmem => hI id t head block (h.2 ▸ hmem)

/-- A credit that was posted found its row not yet credited. -/
lemma credit_posted {id : Uuid} {t : ObservedTransfer} {ω : EvmOracle} {after : World}
    (h : exec cfg 0 (.watcher (.credit id t)) ω.base w.backend = some (true, after)) :
    ω.base.dbFails = false ∧ ∃ d ∈ w.backend.deposits.get? id,
      d.status ≠ .confirmed ∧ d.status ≠ .reversed := by
  obtain ⟨db, es, hexec, -⟩ := exec_watcher h
  simp only [execWatcher, creditDeposit] at hexec
  split at hexec
  · cases hexec
  · rename_i hfails
    refine ⟨by simpa using hfails, ?_⟩
    split at hexec
    · cases hexec
    · rename_i d hd
      split at hexec
      · cases hexec
      · rename_i hopen
        simp only [Bool.or_eq_true, decide_eq_true_eq, not_or] at hopen
        exact ⟨d, hd, hopen⟩

/-- **One statement.**  A credit asked for at enough confirmations, counted from no lower block
than the one the chain has the transaction in, is deep enough. -/
lemma CreditsDeep.backend {op : Op} {ω : EvmOracle} {r : op.Res}
    (hask : AsksDeep net w.head op) (hP : CountedFromInclusion (.backend op) ω w)
    (he : execEvm cfg net (.backend op) ω w = some (r, w')) (hI : CreditsDeep net w) :
    CreditsDeep net w' := by
  obtain ⟨after, hexec, rfl⟩ := execEvm_backend he
  intro id t head block hmem
  rcases List.mem_append.mp hmem with hnew | hold
  · unfold noted at hnew
    split at hnew
    · split at hnew <;> simp at hnew
    · simp at hnew
    · split at hnew <;> simp at hnew
    · simp only [List.mem_singleton, ScanEvent.credited.injEq] at hnew
      obtain ⟨rfl, rfl, rfl, rfl⟩ := hnew
      obtain ⟨hfails, d, hd, hopen⟩ := credit_posted hexec
      obtain ⟨b, hb, hle⟩ := hP hfails d hd hopen.1 hopen.2
      exact ⟨b, hb, (hask _ _ rfl).trans (confirmationsAt_anti hle)⟩
    · cases hnew
  · exact hI id t head block hold

/-- A handler that asks deep keeps credits deep. -/
lemma keeps_asksDeep {head : ℤ} {p : Handler Unit} (hp : p.Every (AsksDeep net head))
    (hw : w.head = head) :
    Keeps (evmWatcher cfg net) CountedFromInclusion (CreditsDeep net) Unread
      (fun _ w => w.head = head) (EvmProg.handler p) w := by
  refine Keeps.of_every (A := fun w => EvmWorld.head w = head) (fun _ _ hq h => hq.1.trans h)
    ((hp.lift ..).mono ?_) hw
  rintro op ⟨o, rfl, hask⟩ ω r w w' hI hw hP (he : execEvm cfg net (.backend o) ω w = some (r, w'))
  exact ⟨hI.backend (hw ▸ hask) hP he, (quiet_backend he).head.trans hw⟩

/-- Whatever else the watcher does adds no credit. -/
lemma CreditsDeep.cons {e : ScanEvent} (he : ∀ id t head block, e ≠ .credited id t head block)
    (htrace : w'.trace = e :: w.trace) (hI : CreditsDeep net w) : CreditsDeep net w' := by
  intro id t head block hmem
  rw [htrace, List.mem_cons] at hmem
  rcases hmem with heq | hmem
  · exact absurd heq.symm (he id t head block)
  · exact hI id t head block hmem

lemma keeps_processRange_deep {range : ScanRange} {transfers : List ObservedTransfer}
    (hnet : ∀ t ∈ transfers, t.network = net) (hw : w.head = range.head) :
    Keeps (evmWatcher cfg net) CountedFromInclusion (CreditsDeep net) Unread (fun _ _ => True)
      (processRange net range transfers) w := by
  refine Keeps.bind (keeps_asksDeep (asksDeep_handleTransfers hnet) hw) fun _ w hw => ?_
  refine Keeps.bind (keeps_asksDeep asksDeep_advancePending hw) fun _ w hw => ?_
  refine Keeps.bind (keeps_asksDeep asksDeep_checkReorgs hw) fun _ w hw => ?_
  intro w _ hI ω hash w' hP he
  have hask : AsksDeep net w.head (.watcher (.blockHash range.toBlock)) :=
    asksDeep_of_ne (by simp)
  refine ⟨hI.backend hask hP he, fun w _ hI ω _ w' _ he => ?_⟩
  cases he
  exact ⟨hI.cons (by simp) rfl, trivial⟩

lemma keeps_watchEvmPass_deep (s : EvmLoop) (w : EvmWorld) :
    Keeps (evmWatcher cfg net) CountedFromInclusion (CreditsDeep net) Unread (fun _ _ => True)
      (watchEvmPass net s) w := by
  intro w _ hI ω head w₁ _ he
  cases he
  refine ⟨hI, ?_⟩
  simp only [Prog.bind]
  split
  · trivial
  · refine Keeps.step (A := fun w => EvmWorld.head w = ω.head) rfl
      (fun _ _ hq h => hq.1.trans h) fun w ω' watched w₁ hI hw _ he => ?_
    cases he
    refine ⟨hI, ?_⟩
    refine Keeps.step (A := fun w => EvmWorld.head w = ω.head) hw
      (fun _ _ hq h => hq.1.trans h) fun w ω' answer w₁ hI hw _ he => ?_
    cases he
    refine ⟨hI.cons (by simp) rfl, keeps_afterScan_of fun transfers hreply => ?_⟩
    have hnet : ∀ t ∈ transfers, t.network = net := fun t ht => (mem_tokenTransfers hreply ht).1
    exact keeps_processRange_deep hnet hw

lemma sound_credits :
    Service.Sound (evmWatcher cfg net) CountedFromInclusion (CreditsDeep net) Unread anyEnv
      (fun _ _ => True) where
  refl _ := ⟨rfl, rfl⟩
  trans := Unread.trans
  env hI _ h := ⟨hI.unread (unread_env h), unread_env h⟩
  start w _ := by
    have hstart : Keeps (evmWatcher cfg net) CountedFromInclusion (CreditsDeep net) Unread
        (fun _ _ => True) (watchEvmStart net) w :=
      keeps_watchEvmStart_of (fun _ _ hI => hI) (fun _ _ _ hI => hI.cons (by simp) rfl) w
    exact hstart.mono fun _ _ _ _ _ => trivial
  pass s w _ _ := (keeps_watchEvmPass_deep s w).mono fun _ _ _ _ _ => trivial
  stable _ _ _ := trivial

/-- **Confirmed before credited, counting from the inclusion block.**  In every run whose credits
are counted from no lower block than the one that includes the transaction, whenever the watcher
posts a credit, that block has the network's confirmations at the head it goes by. -/
theorem credited_deep_enough (cfg : Config) (net : Network) (b₀ : World) {s : EvmSite}
    (hr : (evmWatcher cfg net).Reachable (guarded CountedFromInclusion anyEnv)
      (EvmSite.fresh b₀) s) :
    ∀ id t head block, .credited id t head block ∈ s.world.trace →
      ∃ b ∈ block, net.minConfirmations ≤ confirmationsAt head b.number := by
  have h₀ : CreditsDeep net (.fresh b₀) := fun id t head block hmem => by cases hmem
  exact (sound_credits.holds h₀ rfl hr).1

end Loop

/-! ## Crediting too early -/

/-- The log of a transaction in a block. -/
def logIn (b : Block) : RpcLog :=
  ⟨"0xUSDT", some "0xabc", fun _ => some 100, b.number, b.hash, "0xaa", 0⟩

/-- A transaction that transfers a hundred USDT to the user's address. -/
def depositTx : BlockTx := ⟨"0xaa", some [⟨"0xabc", .usdt, 100⟩]⟩

/-- Where the transaction was first, and where it came back. -/
def firstBlock : Block := ⟨100, "b100", [depositTx]⟩
def laterBlock : Block := ⟨110, "c110", [depositTx]⟩

/-- The transfer as `advance_pending` rebuilds it from the row of its first observation. -/
def rowOfFirstBlock : ObservedTransfer :=
  ⟨.ethereum, "0xaa", 0, "", .usdt, 100, 100, "b100"⟩

/-- The transaction is seen at one confirmation, reorganised into a later block, and seen again at
three; `advance_pending` counts thirteen. -/
def movedBeforeCredit : List EvmMove :=
  .env (.chain [firstBlock]) :: booted [("0xusdt", .usdt, 6)] 100 ++
  passed 100 (.logs [logIn firstBlock]) [{}, { fresh := [200] }, {}, {}, {}, {}, {}] ++
  [.env (.chain [laterBlock])] ++
  passed 112 (.logs [logIn laterBlock]) [{}, {}, {}, { fresh := [201] }]

theorem credited_too_early :
    ¬ ∀ s : EvmSite, (evmWatcher stubConfig .ethereum).Reachable (guarded anyOp anyEnv)
        (EvmSite.fresh (World.fresh 0 [⟨11, 7, .evm, "0xAbC"⟩])) s →
      ∀ id t head block, .credited id t head block ∈ s.world.trace →
        ∃ b ∈ block, Network.ethereum.minConfirmations ≤ confirmationsAt head b.number := by
  intro h
  obtain ⟨s, hs, hmem⟩ := exists_reachable_of_run (evmWatcher stubConfig .ethereum)
    (guarded anyOp anyEnv) (EvmSite.fresh (World.fresh 0 [⟨11, 7, .evm, "0xAbC"⟩]))
    movedBeforeCredit
    (fun s => .credited 200 rowOfFirstBlock 112 (some laterBlock) ∈ s.world.trace)
    (by decide +kernel)
  obtain ⟨b, hb, hdeep⟩ := h s hs _ _ _ _ hmem
  cases hb
  revert hdeep
  decide

/-- A transfer seen, and credited once its block is deep enough. -/
def creditedInDepth : List EvmMove :=
  .env (.chain [firstBlock]) :: booted [("0xusdt", .usdt, 6)] 100 ++
  passed 100 (.logs [logIn firstBlock]) [{}, { fresh := [200] }, {}, {}, {}, {}, {}] ++
  passed 112 (.logs []) [{}, { fresh := [201] }]

theorem credited_deep_enough_once : ∃ s : EvmSite,
    .credited 200 rowOfFirstBlock 112 (some firstBlock) ∈ s.world.trace ∧
      Network.ethereum.minConfirmations ≤ confirmationsAt 112 firstBlock.number := by
  obtain ⟨s, hs, hmem⟩ := exists_reachable_of_run (evmWatcher stubConfig .ethereum)
    (guarded CountedFromInclusion anyEnv)
    (EvmSite.fresh (World.fresh 0 [⟨11, 7, .evm, "0xAbC"⟩])) creditedInDepth
    (fun s => .credited 200 rowOfFirstBlock 112 (some firstBlock) ∈ s.world.trace)
    (by decide +kernel)
  obtain ⟨b, hb, hdeep⟩ := credited_deep_enough stubConfig .ethereum _ hs _ _ _ _ hmem
  cases hb
  exact ⟨s, hmem, hdeep⟩

end Naivolt
