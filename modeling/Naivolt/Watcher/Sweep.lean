import Naivolt.Watcher.Tron

/-!
# What the sweeps of TRON cover

A query covers the time from its lower bound to an instant if it is answered in full up to there:
the request goes through, the address has no more transfers than a page holds, the block of each
is found, and none that is stamped before the instant is still missing from the listing.  A
deposit is lost when the bound passes an instant that no complete query for its address has
covered.

The bound moves at the end of a sweep, whatever the queries of the sweep came to, so an address
whose queries fail for longer than the slack of five minutes is left behind
(`sweep_passes_uncovered`), and so is one whose listing lags by more.  `sweep_covers` shows that
this is the only way: if whenever the bound moves each address has had an answer complete up to
the new bound — or came to be watched since — then every query asks from a time that complete
queries for its address have reached, and what has landed before is among their answers.
-/

namespace Naivolt

open Foundation Foundation.Service

/-- The instant is not before the watcher's start, nor before the address came to be watched. -/
def InScope (address : String) (τ : ℤ) (w : TronWorld) : Prop :=
  (∀ t₀ ∈ w.started, t₀ ≤ τ) ∧ ∀ o ∈ w.opened, o.1 = address → o.2 ≤ τ

/-- A complete query for the address whose time contains the instant. -/
def TronQuery.Covers (q : TronQuery) (address : String) (τ : ℤ) : Prop :=
  q.address = address ∧ q.complete = true ∧ q.since ≤ τ ∧ τ < q.settled

/-- The transfer is among the answers, if it is one the watcher credits. -/
def TronQuery.Reports (q : TronQuery) (t : Trc20Transfer) : Prop :=
  ∃ transfers ∈ q.answer, ¬Misses q.address q.contracts transfers t

/-- Complete queries for the address reach the bound, or nothing before it is in scope. -/
def ReachedBy (bound : ℤ) (address : String) (w : TronWorld) : Prop :=
  (∃ t₀ ∈ w.started, bound ≤ t₀) ∨ (∃ o ∈ w.opened, o.1 = address ∧ bound ≤ o.2) ∨
    ∃ q ∈ w.queries, q.address = address ∧ q.complete = true ∧ bound ≤ q.settled

instance (bound : ℤ) (address : String) (w : TronWorld) :
    Decidable (ReachedBy bound address w) := by
  unfold ReachedBy
  infer_instance

/-- **When the bound moves**, at a restart and at the end of a sweep, each watched address has
been reached. -/
def Answering : TronOp → TronOracle → TronWorld → Prop
  | .utcNow .start, _, w => w.started = none ∨ ∀ a ∈ tronAddresses w.backend.wallets,
      ReachedBy (timestampMillis (w.backend.now - startLookback)) a w
  | .saveCursor _, _, w => ∀ a ∈ tronAddresses w.backend.wallets,
      ReachedBy (timestampMillis (w.sweptAt - sweepSlack)) a w
  | _, _, _ => True

instance (op : TronOp) (ω : TronOracle) (w : TronWorld) : Decidable (Answering op ω w) := by
  unfold Answering
  split <;> infer_instance

/-! ## The invariant -/

/-- Complete queries miss nothing of the time they cover, and none asks from later than complete
ones have reached. -/
structure SweepOk (w : TronWorld) : Prop where
  told : ∀ q ∈ w.queries, q.complete = true → ∀ t ∈ w.landed, t.toAddress = q.address →
    q.since ≤ t.blockTimestamp → t.blockTimestamp < q.settled → q.Reports t
  covered : ∀ later q earlier, w.queries = later ++ q :: earlier → ∀ τ,
    InScope q.address τ w → τ < q.since → ∃ q' ∈ earlier, q'.Covers q.address τ

/-- What the loop goes by: each watched address has been reached by its bound. -/
def TronLoop.Reached (s : TronLoop) (w : TronWorld) : Prop :=
  s.since ≤ w.nowMillis ∧ ∀ a ∈ tronAddresses w.backend.wallets, ReachedBy s.since a w

/-- What happens between two operations of the watcher. -/
structure Drift (w w' : TronWorld) : Prop where
  now : w.nowMillis ≤ w'.nowMillis
  started : w'.started = w.started
  sweptAt : w'.sweptAt = w.sweptAt
  queries : w'.queries = w.queries
  opened : ∀ o ∈ w.opened, o ∈ w'.opened
  watched : ∀ a ∈ tronAddresses w'.backend.wallets, a ∈ tronAddresses w.backend.wallets ∨
    ∃ o ∈ w'.opened, o.1 = a ∧ w.nowMillis ≤ o.2
  landed : ∀ t ∈ w'.landed, t ∈ w.landed ∨ ∀ q ∈ w.queries, q.settled ≤ t.blockTimestamp

section Drift

variable {cfg : Config} {w w' w'' : TronWorld} {address : String} {bound τ : ℤ}

lemma Drift.refl (w : TronWorld) : Drift w w :=
  ⟨le_rfl, rfl, rfl, rfl, fun _ h => h, fun _ h => .inl h, fun _ h => .inl h⟩

lemma Drift.trans (h : Drift w w') (h' : Drift w' w'') : Drift w w'' where
  now := h.now.trans h'.now
  started := h'.started.trans h.started
  sweptAt := h'.sweptAt.trans h.sweptAt
  queries := h'.queries.trans h.queries
  opened o ho := h'.opened o (h.opened o ho)
  watched a ha := by
    rcases h'.watched a ha with ha | ⟨o, ho, hoa, hle⟩
    · rcases h.watched a ha with ha | ⟨o, ho, hoa, hle⟩
      · exact .inl ha
      · exact .inr ⟨o, h'.opened o ho, hoa, hle⟩
    · exact .inr ⟨o, ho, hoa, h.now.trans hle⟩
  landed t ht := by
    rcases h'.landed t ht with ht | hle
    · exact h.landed t ht
    · exact .inr (h.queries ▸ hle)

lemma InScope.drift (hd : Drift w w') (h : InScope address τ w') : InScope address τ w :=
  ⟨fun t₀ ht₀ => h.1 t₀ (hd.started ▸ ht₀), fun o ho => h.2 o (hd.opened o ho)⟩

lemma ReachedBy.drift (hd : Drift w w') (h : ReachedBy bound address w) :
    ReachedBy bound address w' := by
  rcases h with ⟨t₀, ht₀, hle⟩ | ⟨o, ho, hoa, hle⟩ | ⟨q, hq, hqa⟩
  · exact .inl ⟨t₀, hd.started.symm ▸ ht₀, hle⟩
  · exact .inr (.inl ⟨o, hd.opened o ho, hoa, hle⟩)
  · exact .inr (.inr ⟨q, hd.queries.symm ▸ hq, hqa⟩)

lemma SweepOk.drift (hI : SweepOk w) (hd : Drift w w') : SweepOk w' where
  told q hq hcomplete t ht hto hsince hsettled := by
    have hq' : q ∈ w.queries := hd.queries ▸ hq
    rcases hd.landed t ht with ht | hlate
    · exact hI.told q hq' hcomplete t ht hto hsince hsettled
    · exact absurd (hlate q hq') (not_le.mpr hsettled)
  covered later q earlier hsplit τ hscope hτ :=
    hI.covered later q earlier (hd.queries ▸ hsplit) τ (hscope.drift hd) hτ

lemma TronLoop.Reached.drift {s : TronLoop} (hd : Drift w w') (h : s.Reached w) :
    s.Reached w' := by
  refine ⟨h.1.trans hd.now, fun a ha => ?_⟩
  rcases hd.watched a ha with ha | ⟨o, ho, hoa, hle⟩
  · exact (h.2 a ha).drift hd
  · exact .inr (.inl ⟨o, ho, hoa, h.1.trans hle⟩)

lemma drift_env {e : TronEnv} (h : envTron cfg e w = some w') : Drift w w' := by
  cases e with
  | lands t =>
      simp only [envTron] at h
      split at h
      · rename_i hsettled
        cases h
        refine ⟨le_rfl, rfl, rfl, rfl, fun _ h => h, fun _ h => .inl h, fun t' ht' => ?_⟩
        rcases List.mem_cons.mp ht' with rfl | ht'
        · exact .inr hsettled
        · exact .inl ht'
      · cases h
  | backend e =>
      obtain ⟨b, hb, rfl⟩ := Option.map_eq_some_iff.mp h
      obtain ⟨now, wallets, tiers, hnow, rfl⟩ := execEnv_eq hb
      refine ⟨timestampMillis_mono (Int.ofNat_le.mpr hnow), rfl, rfl, rfl,
        fun _ ho => List.mem_append_right _ ho, fun a ha => ?_, fun _ h => .inl h⟩
      by_cases hold : a ∈ tronAddresses w.backend.wallets
      · exact .inl hold
      · have hnew : a ∈ newlyWatched w.backend.wallets wallets :=
          List.mem_filter.mpr ⟨ha, by simpa using hold⟩
        exact .inr ⟨(a, w.nowMillis), List.mem_append_left _ (List.mem_map_of_mem hnew), rfl,
          le_rfl⟩
  | other tid op ω =>
      obtain ⟨⟨r, b⟩, hb, rfl⟩ := Option.map_eq_some_iff.mp h
      have hwallets := exec_wallets hb
      have hnow := (exec_move hb).2.now_eq
      exact ⟨(congrArg (fun n : Time => timestampMillis n) hnow).ge, rfl, rfl, rfl, fun _ h => h,
        fun a ha => .inl (hwallets ▸ ha), fun _ h => .inl h⟩

lemma drift_backend {op : Op} {ω : TronOracle} {r : op.Res}
    (h : execTron cfg (.backend op) ω w = some (r, w')) : Drift w w' := by
  obtain ⟨⟨r', b⟩, hb, hres⟩ := Option.map_eq_some_iff.mp h
  cases hres
  exact drift_env (e := .other 0 op ω.base) (Option.map_eq_some_iff.mpr ⟨_, hb, rfl⟩)

/-! ## One query -/

/-- Only the height of an observed transfer comes from the block it is said to be in. -/
lemma observedTrc20_block {contracts : TokenContracts} {t : Trc20Transfer} (block : ℤ)
    (h : (observedTrc20 address contracts t 0).isSome) :
    ∃ o, observedTrc20 address contracts t block = some o ∧ o.blockNumber = block := by
  unfold observedTrc20 at h ⊢
  simp only [Option.bind_eq_bind] at h ⊢
  rcases hfind : contracts.find? fun c => decide (c.1 = t.tokenAddress) with _ | contract
  · simp [hfind] at h
  · simp only [hfind, Option.bind_some] at h ⊢
    split at h
    · rename_i hto
      rcases hvalue : t.value contract.2.2 with _ | amount
      · simp [hvalue] at h
      · simp only [hto, if_true, Option.bind_some]
        exact ⟨_, rfl, rfl⟩
    · cases h

/-- What the watcher makes of a record is what it makes of the transfer listed by it. -/
lemma Trc20Transfer.Lists.observed {contracts : TokenContracts} {r t : Trc20Transfer}
    (h : r.Lists contracts t) (block : ℤ) :
    observedTrc20 address contracts r block = observedTrc20 address contracts t block := by
  obtain ⟨hid, hto, htoken, hvalue⟩ := h
  unfold observedTrc20
  rw [htoken, hto, hid]
  simp only [Option.bind_eq_bind]
  refine Option.bind_congr fun c hc => ?_
  rw [hvalue c (List.mem_of_find?_eq_some hc)]

/-- **A complete reply is answered with every transfer it covers.** -/
lemma Trc20Reply.Complete.reports {landed : List Trc20Transfer} {since settled : ℤ}
    {contracts : TokenContracts} {reply : Trc20Reply}
    (h : reply.Complete landed address since settled contracts) {t : Trc20Transfer}
    (ht : t ∈ landed) (hto : t.toAddress = address) (hsince : since ≤ t.blockTimestamp)
    (hsettled : t.blockTimestamp < settled) :
    ∃ transfers ∈ transfersTo address contracts reply, ¬Misses address contracts transfers t := by
  cases reply with
  | failed => exact absurd h id
  | listed data transactionBlock =>
      obtain ⟨hpage, hfound, hlisted⟩ := h
      refine ⟨_, rfl, fun ⟨hsome, hmisses⟩ => ?_⟩
      obtain ⟨r, hr, hlists⟩ := hlisted t ht hto hsince hsettled
      have hblock := hfound r hr (by rwa [hlists.observed])
      rcases hlookup : transactionBlock r.transactionId with _ | _ | block
      · simp [hlookup, blockFound] at hblock
      · simp [hlookup, blockFound] at hblock
      · obtain ⟨o, ho, hnumber⟩ := observedTrc20_block block hsome
        refine hmisses o (List.mem_filterMap.mpr ⟨r, ?_, ?_⟩) (hnumber ▸ ho)
        · rwa [List.take_of_length_le hpage]
        · rw [hlookup]
          exact (hlists.observed block).trans ho

/-- A complete query that was settled to the bound or later reaches every instant before it. -/
lemma SweepOk.covers_of_query (hI : SweepOk w) {q : TronQuery} (hq : q ∈ w.queries)
    (hqa : q.address = address) (hcomplete : q.complete = true) (hτ : τ < q.settled)
    (hscope : InScope address τ w) : ∃ q' ∈ w.queries, q'.Covers address τ := by
  by_cases hsince : q.since ≤ τ
  · exact ⟨q, hq, hqa, hcomplete, hsince, hτ⟩
  · obtain ⟨later, earlier, hsplit⟩ := List.append_of_mem hq
    obtain ⟨q', hq', hcovers⟩ :=
      hI.covered later q earlier hsplit τ (hqa ▸ hscope) (not_le.mp hsince)
    exact ⟨q', hsplit ▸ List.mem_append_right _ (List.mem_cons_of_mem _ hq'), hqa ▸ hcovers⟩

/-- **What is reached is covered**: no instant in scope before the bound is left out. -/
lemma SweepOk.covers_of_reached (hI : SweepOk w) (h : ReachedBy bound address w)
    (hscope : InScope address τ w) (hτ : τ < bound) :
    ∃ q ∈ w.queries, q.Covers address τ := by
  rcases h with ⟨t₀, ht₀, hle⟩ | ⟨o, ho, hoa, hle⟩ | ⟨q, hq, hqa, hcomplete, hle⟩
  · have := hscope.1 t₀ ht₀
    omega
  · have := hscope.2 o ho hoa
    omega
  · exact hI.covers_of_query hq hqa hcomplete (hτ.trans_le hle) hscope

lemma SweepOk.query (hI : SweepOk w) {since : ℤ} {contracts : TokenContracts} {ω : TronOracle}
    {r : Option (List ObservedTransfer)} (hreached : ReachedBy since address w)
    (h : execTron cfg (.transfersTo address since contracts) ω w = some (r, w')) :
    SweepOk w' := by
  cases h
  refine ⟨fun q hq hcomplete t ht hto hsince hsettled => ?_,
    fun later q earlier hsplit τ hscope hτ => ?_⟩
  · rcases List.mem_cons.mp hq with rfl | hq
    · exact (of_decide_eq_true hcomplete).reports ht hto hsince hsettled
    · exact hI.told q hq hcomplete t ht hto hsince hsettled
  · rcases later with _ | ⟨q₀, later⟩
    · cases hsplit
      exact hI.covers_of_reached hreached hscope hτ
    · exact hI.covered later q earlier (List.cons.inj hsplit).2 τ hscope hτ

/-! ## The loop -/

/-- A handler records no query. -/
lemma keeps_tronHandler {A : TronWorld → Prop} (hA : ∀ ⦃w w'⦄, Drift w w' → A w → A w')
    {α : Type} (p : Handler α) (hw : A w) :
    Keeps (tronWatcher cfg) Answering SweepOk Drift (fun _ => A) (TronProg.handler p) w := by
  refine Keeps.of_every hA (((Prog.every_true p).lift ..).mono ?_) hw
  rintro op ⟨o, rfl, -⟩ ω r w w' hI hw -
    (he : execTron cfg (.backend o) ω w = some (r, w'))
  exact ⟨hI.drift (drift_backend he), hA (drift_backend he) hw⟩

/-- In the course of a sweep: each address it goes through has been reached by the bound, and
the sweep began when it says. -/
def Sweeping (since : ℤ) (sweptAt : Time) (watched : List String) (w : TronWorld) : Prop :=
  (∀ a ∈ watched, ReachedBy since a w) ∧ w.sweptAt = sweptAt ∧
    timestampMillis sweptAt ≤ w.nowMillis

lemma Sweeping.drift {since : ℤ} {sweptAt : Time} {watched : List String} (hd : Drift w w')
    (h : Sweeping since sweptAt watched w) : Sweeping since sweptAt watched w' :=
  ⟨fun a ha => (h.1 a ha).drift hd, hd.sweptAt.trans h.2.1, h.2.2.trans hd.now⟩

/-- Queries add to what reaches an address. -/
lemma Sweeping.query {since : ℤ} {sweptAt : Time} {watched : List String}
    {contracts : TokenContracts} {ω : TronOracle} {r : Option (List ObservedTransfer)}
    (hw : Sweeping since sweptAt watched w)
    (h : execTron cfg (.transfersTo address since contracts) ω w = some (r, w')) :
    Sweeping since sweptAt watched w' := by
  cases h
  refine ⟨fun a ha => ?_, hw.2⟩
  rcases hw.1 a ha with hstarted | hopened | ⟨q, hq, hqa⟩
  · exact .inl hstarted
  · exact .inr (.inl hopened)
  · exact .inr (.inr ⟨q, List.mem_cons_of_mem _ hq, hqa⟩)

lemma keeps_sweepAddress {s : TronLoop} {head : ℤ} {sweptAt : Time} {watched : List String}
    (ha : address ∈ watched) (hw : Sweeping s.since sweptAt watched w) :
    Keeps (tronWatcher cfg) Answering SweepOk Drift
      (fun _ => Sweeping s.since sweptAt watched) (sweepAddress s head address) w := by
  refine Keeps.step hw (fun _ _ => Sweeping.drift) fun w ω answer w' hI hw _
    (he : execTron cfg (.transfersTo address s.since s.contracts) ω w = some (answer, w')) => ?_
  refine ⟨hI.query (hw.1 address ha) he, ?_⟩
  have hw' := hw.query he
  simp only [Prog.bind]
  cases answer with
  | none => exact hw'
  | some transfers => exact keeps_tronHandler (fun _ _ => Sweeping.drift) _ hw'

lemma keeps_sweepAddresses {s : TronLoop} {head : ℤ} {sweptAt : Time}
    {watched addresses : List String} (hsub : ∀ a ∈ addresses, a ∈ watched)
    (hw : Sweeping s.since sweptAt watched w) :
    Keeps (tronWatcher cfg) Answering SweepOk Drift
      (fun _ => Sweeping s.since sweptAt watched) (sweepAddresses s head addresses) w := by
  induction addresses generalizing w with
  | nil => exact hw
  | cons a rest ih =>
      exact (keeps_sweepAddress (hsub a (List.mem_cons_self ..)) hw).bind fun _ w hw =>
        ih (fun a ha => hsub a (List.mem_cons_of_mem _ ha)) hw

lemma keeps_watchTronStart (w : TronWorld) :
    Keeps (tronWatcher cfg) Answering SweepOk Drift (fun o w => ∀ s ∈ o, s.Reached w)
      watchTronStart w := by
  intro w _ hI ω contracts w₁ _ he
  cases he
  refine ⟨hI, fun w _ hI ω now w₁ hP he => ?_⟩
  cases he
  have hback : timestampMillis (w.backend.now - startLookback) ≤ w.nowMillis :=
    timestampMillis_mono (by omega)
  have hscope : ∀ {a τ}, InScope a τ
      { w with started := w.started.or (some w.nowMillis) } → InScope a τ w := by
    rintro a τ ⟨hstarted, hopened⟩
    refine ⟨fun t₀ ht₀ => hstarted t₀ ?_, hopened⟩
    rw [Option.mem_def] at ht₀ ⊢
    simp only [ht₀, Option.some_or]
  refine ⟨⟨hI.told, fun later q earlier hsplit τ hin =>
    hI.covered later q earlier hsplit τ (hscope hin)⟩, ?_⟩
  rintro s ⟨⟩
  refine ⟨hback, fun a ha => ?_⟩
  rcases hstarted : w.started with _ | t₀
  · exact .inl ⟨w.nowMillis, by simp, hback⟩
  · rcases hP with hnone | hreached
    · cases hnone.symm.trans hstarted
    · rcases hreached a ha with ⟨t₁, ht₁, hle⟩ | hother
      · exact .inl ⟨t₁, by simpa [hstarted] using ht₁, hle⟩
      · exact .inr hother

lemma keeps_watchTronPass {s : TronLoop} (hs : s.Reached w) :
    Keeps (tronWatcher cfg) Answering SweepOk Drift (fun o w => ∀ s ∈ o, s.Reached w)
      (watchTronPass s) w := by
  refine Keeps.step hs (fun _ _ => TronLoop.Reached.drift) fun w ω sweptAt w' hI hs _ he => ?_
  obtain ⟨hnow, rfl⟩ : w.backend.now = sweptAt ∧ w' = { w with sweptAt := w.backend.now } := by
    cases he
    exact ⟨rfl, rfl⟩
  let A : TronWorld → Prop := fun w => s.Reached w ∧ Sweeping s.since sweptAt [] w
  have hA : ∀ ⦃w w'⦄, Drift w w' → A w → A w' := fun _ _ hd h => ⟨h.1.drift hd, h.2.drift hd⟩
  have hw : A { w with sweptAt := w.backend.now } :=
    ⟨hs, fun a ha => (by cases ha), hnow, hnow ▸ le_rfl⟩
  refine ⟨⟨hI.told, hI.covered⟩, Keeps.step hw hA fun w ω head w' hI hw _ he => ?_⟩
  cases he
  refine ⟨hI, Keeps.step hw hA fun w ω watched w' hI hw _ he => ?_⟩
  have hwatched : w' = w ∧ ∀ a ∈ watched, a ∈ tronAddresses w.backend.wallets := by
    simp only [tronWatcher, execTron] at he
    split at he
    · rename_i hkeys
      cases he
      exact ⟨rfl, hkeys.2.1⟩
    · cases he
  obtain ⟨rfl, hsub⟩ := hwatched
  have hsweeping : Sweeping s.since sweptAt watched w' :=
    ⟨fun a ha => hw.1.2 a (hsub a ha), hw.2.2⟩
  refine ⟨hI, (keeps_sweepAddresses (fun _ h => h) hsweeping).bind fun _ w hw =>
    (keeps_tronHandler (fun _ _ => Sweeping.drift) _ hw).bind fun _ w hw =>
      Keeps.step hw (fun _ _ => Sweeping.drift) fun w ω r w' hI hw hP he => ?_⟩
  cases he
  refine ⟨⟨hI.told, hI.covered⟩, ?_⟩
  rintro s ⟨⟩
  obtain ⟨-, rfl, hbegan⟩ := hw
  exact ⟨(timestampMillis_mono (by omega)).trans hbegan, hP⟩

lemma sound_sweep :
    Service.Sound (tronWatcher cfg) Answering SweepOk Drift anyEnv TronLoop.Reached where
  refl := Drift.refl
  trans := Drift.trans
  env hI _ h := ⟨hI.drift (drift_env h), drift_env h⟩
  start w _ := keeps_watchTronStart w
  pass _ _ _ hs := keeps_watchTronPass hs
  stable hd _ hs := hs.drift hd

end Drift

/-- **Sweeps cover what they pass.**  In every run in which, whenever the bound moves, each
watched address has been reached by answers complete up to it, no query asks from later than an
instant in scope that no earlier complete query for its address has covered; and a transfer that
landed at such an instant is among the answers of an earlier query. -/
theorem sweep_covers (cfg : Config) (b₀ : World) {s : TronSite}
    (hr : (tronWatcher cfg).Reachable (guarded Answering anyEnv) (TronSite.fresh b₀) s)
    {later earlier : List TronQuery} {q : TronQuery}
    (hq : s.world.queries = later ++ q :: earlier) :
    (∀ τ, InScope q.address τ s.world → τ < q.since →
      ∃ q' ∈ earlier, q'.Covers q.address τ) ∧
    ∀ t ∈ s.world.landed, t.toAddress = q.address →
      InScope q.address t.blockTimestamp s.world → t.blockTimestamp < q.since →
      ∃ q' ∈ earlier, q'.address = q.address ∧ q'.Reports t := by
  have h₀ : SweepOk (.fresh b₀) :=
    ⟨fun q hq => (by cases hq), fun later q earlier h => by cases later <;> cases h⟩
  obtain ⟨hI, -⟩ := sound_sweep.holds h₀ rfl hr
  refine ⟨hI.covered later q earlier hq, fun t ht hto hscope hlate => ?_⟩
  obtain ⟨q', hq', haddress, hcomplete, hsince, hsettled⟩ :=
    hI.covered later q earlier hq _ hscope hlate
  have hmem : q' ∈ s.world.queries := hq ▸ List.mem_append_right _ (List.mem_cons_of_mem _ hq')
  exact ⟨q', hq', haddress,
    hI.told q' hmem hcomplete t ht (hto.trans haddress.symm) hsince hsettled⟩

/-! ## Sweeps of one address -/

/-- A database with one TRON wallet, two days into time. -/
def oneTronWallet : World := .fresh (hours 48) [⟨11, 7, .tron, "TAbc"⟩]

/-- The watcher starts. -/
def tronBooted : List TronMove :=
  [.boot, .perform { contracts := [("TUsdt", .usdt, 6)] }, .perform {}]

/-- A sweep at a head of 100: the reply to its query with what was settled then, and the answers
to what follows. -/
def swept (settled : ℤ) (reply : Trc20Reply) (answers : List Oracle) : List TronMove :=
  .turn :: ({} :: { head := 100 } :: { keys := ["TAbc"] } ::
    { reply := reply, settled := settled } ::
    answers.map (fun ω => { base := ω }) : List TronOracle).map .perform

/-- The transfer of five units that lands as the watcher starts. -/
def landedAtStart : Trc20Transfer :=
  ⟨"tx1", 172800000, "TAbc", "TUsdt", fun _ => some 5⟩

/-- The watcher starts, and the transfer lands. -/
def bootedAndLanded : List TronMove := tronBooted ++ [.env (.lands landedAtStart)]

/-- The page of a query that has the transfer, in block 90. -/
def listedInBlock : Trc20Reply := .listed [landedAtStart] fun _ => .ok (some 90)

/-- The page of a query that has nothing. -/
def listedNothing : Trc20Reply := .listed [] fun _ => .ok none

/-- The last query asks from later than the transfer, which has landed when the watcher started. -/
def LooksPast (queries : ℕ) (s : TronSite) : Prop :=
  (∃ q ∈ s.world.queries.head?, q.address = "TAbc" ∧ 172800000 < q.since) ∧
    s.world.queries.length = queries ∧ s.world.opened = [] ∧ s.world.started = some 172800000 ∧
    ∃ t ∈ s.world.landed, t.transactionId = "tx1" ∧ t.toAddress = "TAbc" ∧
      t.blockTimestamp = 172800000

instance (queries : ℕ) (s : TronSite) : Decidable (LooksPast queries s) := by
  unfold LooksPast
  infer_instance

lemma inScope_of_started {w : TronWorld} {address : String} {τ : ℤ} (hopened : w.opened = [])
    (hstarted : w.started = some τ) : InScope address τ w := by
  refine ⟨fun t₀ ht₀ => ?_, fun o ho => ?_⟩
  · rw [hstarted] at ht₀
    cases ht₀
    exact le_rfl
  · rw [hopened] at ho
    cases ho

/-- A transfer is listed late, but within the slack: the first sweep finds nothing, the second
finds it, and the third asks from later than it. -/
def sweptThrice : List TronMove :=
  bootedAndLanded ++ [.env (.backend (.tick (seconds 1)))] ++
  swept 172800000 listedNothing [{}, {}] ++
  [.env (.backend (.tick (minutes 10)))] ++
  swept 173390000 listedInBlock [{}, { fresh := [200] }, {}, {}, {}] ++
  swept 173400000 listedNothing [{}, {}, {}]

theorem sweep_covers_thrice : ∃ s : TronSite, ∃ t ∈ s.world.landed, t.transactionId = "tx1" ∧
    ∃ q ∈ s.world.queries, q.Reports t := by
  obtain ⟨s, hs, ⟨q, hq, haddress, hsince⟩, -, hopened, hstarted, t, ht, htx, hto, htime⟩ :=
    exists_reachable_of_run (tronWatcher stubConfig) (guarded Answering anyEnv)
      (TronSite.fresh oneTronWallet) sweptThrice (LooksPast 3) (by decide +kernel)
  obtain ⟨earlier, hqueries⟩ := List.head?_eq_some_iff.mp hq
  have hsplit : s.world.queries = [] ++ q :: earlier := hqueries
  obtain ⟨q', hq', -, hreports⟩ := (sweep_covers stubConfig oneTronWallet hs hsplit).2 t ht
    (hto.trans haddress.symm) (htime ▸ inScope_of_started hopened hstarted) (htime ▸ hsince)
  exact ⟨s, t, ht, htx, q', hqueries ▸ List.mem_cons_of_mem _ hq', hreports⟩

/-- Two sweeps whose query fails, six minutes apart, and a third that is answered. -/
def failedTwice : List TronMove :=
  bootedAndLanded ++ swept 0 .failed [{}, {}] ++ [.env (.backend (.tick (minutes 6)))] ++
  swept 0 .failed [{}, {}] ++ swept 173160000 listedNothing [{}, {}]

/-- The bound passes an instant, and a transfer, that no query has covered. -/
theorem sweep_passes_uncovered :
    ¬ ∀ s : TronSite, (tronWatcher stubConfig).Reachable (guarded anyOp anyEnv)
        (TronSite.fresh oneTronWallet) s →
      ∀ later q earlier, s.world.queries = later ++ q :: earlier →
      ∀ τ, InScope q.address τ s.world → τ < q.since →
        ∃ q' ∈ earlier, q'.Covers q.address τ := by
  intro h
  obtain ⟨s, hs, ⟨⟨q, hq, haddress, hsince⟩, -, hopened, hstarted, -⟩, hfailed⟩ :=
    exists_reachable_of_run (tronWatcher stubConfig) (guarded anyOp anyEnv)
      (TronSite.fresh oneTronWallet) failedTwice
      (fun s => LooksPast 3 s ∧ ∀ q ∈ s.world.queries.tail, q.complete = false)
      (by decide +kernel)
  obtain ⟨earlier, hqueries⟩ := List.head?_eq_some_iff.mp hq
  obtain ⟨q', hq', -, hcomplete, -⟩ :=
    h s hs [] q earlier hqueries _ (inScope_of_started hopened hstarted) hsince
  rw [hqueries] at hfailed
  cases (hfailed q' hq').symm.trans hcomplete

end Naivolt
