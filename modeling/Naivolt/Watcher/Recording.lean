import Naivolt.Watcher.Evm

/-!
# What a database failure loses

A scan hands its transfers to `handle_transfer` one by one.  It looks up the wallet, upserts the
row, and returns in silence when either statement fails; the cursor is saved all the same, and
later passes re-read only the blocks of the overlap.

`recorded_once_past` is what holds nevertheless: in every run in which each save leaves behind
only transfers that some pass got through undisturbed (`Thorough`), every transfer above the dust
threshold that a scan returned has a row of its own for its owner once the cursor was saved more
than the overlap past its block.  `observed_but_lost` is a run in which one failed statement is
enough to lose a transfer.

An upsert finds rows by chain family, hash and index, so a transfer may also hit the row of
another one, on another network or for somebody else; it is then not recorded.
-/

namespace Naivolt

open Foundation Foundation.Service

/-! ## Passes -/

/-- The transfers the scans of a trace returned. -/
def returned : List ScanEvent → List ObservedTransfer
  | [] => []
  | .asked _ (.ok transfers) :: tr => transfers ++ returned tr
  | _ :: tr => returned tr

/-- After this the transfer's pass is over, or has not recorded it: its lookup or its upsert has
failed, or the upsert has hit the row of another transfer or user. -/
def ScanEvent.disturbs (t : ObservedTransfer) : ScanEvent → Bool
  | .lookupFailed address => address = t.toAddress
  | .upsertFailed t' | .shadowed t' => t'.naturalKey = t.naturalKey
  | .resumed _ | .asked .. | .saved _ => true
  | .recorded .. | .credited .. => false

/-- The pass a trace ends in returned the transfer, and nothing has gone wrong with it since. -/
def undisturbed (t : ObservedTransfer) : List ScanEvent → Bool
  | [] => false
  | .asked _ (.ok transfers) :: _ => t ∈ transfers
  | e :: tr => !e.disturbs t && undisturbed t tr

/-- Some pass that came to its end returned the transfer and got through it undisturbed. -/
def gotThrough (t : ObservedTransfer) : List ScanEvent → Bool
  | [] => false
  | .saved _ :: tr => undisturbed t tr || gotThrough t tr
  | _ :: tr => gotThrough t tr

/-- A pass about to save a block leaves nothing above the dust threshold behind, more than the
overlap below it, that neither it nor an earlier pass got through. -/
def Thorough (net : Network) : EvmOp → EvmOracle → EvmWorld → Prop
  | .saveCursor toBlock _, _, w => ∀ t ∈ returned w.trace, minimumDeposit t.asset ≤ t.amount →
      t.blockNumber + net.scanOverlap < toBlock →
        undisturbed t w.trace = true ∨ gotThrough t w.trace = true
  | _, _, _ => True

instance (net : Network) (op : EvmOp) (ω : EvmOracle) (w : EvmWorld) :
    Decidable (Thorough net op ω w) := by
  unfold Thorough
  split <;> infer_instance

/-- The transfer has a row of its own, which belongs to the owner of its address. -/
def HasRow (net : Network) (w : EvmWorld) (t : ObservedTransfer) : Prop :=
  ∃ id d userId, w.backend.deposits.get? id = some d ∧ d.RowOf t userId ∧
    OwnedBy net w.backend.wallets t.toAddress userId

/-- An upsert of it was carried out for the owner of its address. -/
def RecordedFor (net : Network) (w : EvmWorld) (t : ObservedTransfer) : Prop :=
  ∃ userId, .recorded t userId ∈ w.trace ∧ OwnedBy net w.backend.wallets t.toAddress userId

/-! ### What handling leaves of a pass -/

lemma undisturbed_of_append {t : ObservedTransfer} {es tr : List ScanEvent}
    (hes : ∀ e ∈ es, e.OfHandling) (h : undisturbed t (es ++ tr) = true) :
    undisturbed t tr = true := by
  induction es with
  | nil => exact h
  | cons e es ih =>
      refine ih (fun e he => hes e (List.mem_cons_of_mem _ he)) ?_
      have he := hes e (List.mem_cons_self ..)
      cases e <;> simp_all [undisturbed, ScanEvent.OfHandling]

lemma gotThrough_append {t : ObservedTransfer} {es tr : List ScanEvent}
    (hes : ∀ e ∈ es, e.OfHandling) : gotThrough t (es ++ tr) = gotThrough t tr := by
  induction es with
  | nil => rfl
  | cons e es ih =>
      rw [← ih fun e he => hes e (List.mem_cons_of_mem _ he)]
      have he := hes e (List.mem_cons_self ..)
      cases e <;> simp_all [gotThrough, ScanEvent.OfHandling]

/-- A pass once got through stays so. -/
lemma gotThrough_suffix {t : ObservedTransfer} {tr tr' : List ScanEvent} (hs : tr <:+ tr')
    (h : gotThrough t tr = true) : gotThrough t tr' = true := by
  obtain ⟨es, rfl⟩ := hs
  induction es with
  | nil => exact h
  | cons e es ih => cases e <;> simp_all [gotThrough]

/-- Handling saves no cursor. -/
lemma saved_suffix_of_append {es tr l : List ScanEvent} {c : ℤ} (hes : ∀ e ∈ es, e.OfHandling)
    (h : .saved c :: l <:+ es ++ tr) : .saved c :: l <:+ tr := by
  induction es with
  | nil => exact h
  | cons e es ih =>
      rcases List.suffix_cons_iff.mp h with heq | h
      · cases heq
        exact absurd (hes _ (List.mem_cons_self ..)) id
      · exact ih (fun e he => hes e (List.mem_cons_of_mem _ he)) h

lemma RecordedFor.quiet {net : Network} {t : ObservedTransfer} {w w' : EvmWorld}
    (hq : Quiet w w') (h : RecordedFor net w t) : RecordedFor net w' t := by
  obtain ⟨es, htrace, -⟩ := hq.trace
  obtain ⟨userId, hmem, howned⟩ := h
  exact ⟨userId, by rw [htrace]; exact List.mem_append_right _ hmem, howned.mono hq.wallets⟩

/-! ## The statements of `handle_transfer` -/

section Statements

variable {cfg : Config} {net : Network} {w w' : EvmWorld} {ω : EvmOracle}

/-- A watched address has a wallet. -/
lemma walletFor_ne_none {address : String} {userId : Uuid}
    (h : OwnedBy net w.backend.wallets address userId) :
    walletFor net address w.backend.watcherDb ≠ none := by
  obtain ⟨wallet, hmem, hchain, haddress, -⟩ := h
  intro hnone
  have hfind := List.find?_eq_none.mp (Option.map_eq_none_iff.mp hnone) wallet hmem
  simp [hchain, haddress] at hfind

/-- An upsert fails, is carried out on a row of the transfer, or hits another. -/
lemma execEvm_upsert {t : ObservedTransfer} {userId walletId : Uuid} {confirmations : ℤ}
    {status : DepositStatus} {r : Option (Uuid × DepositStatus)}
    (h : execEvm cfg net (.backend (.watcher (.upsert t userId walletId confirmations status))) ω w
      = some (r, w')) :
    w'.trace = .upsertFailed t :: w.trace ∨ w'.trace = .recorded t userId :: w.trace ∨
      w'.trace = .shadowed t :: w.trace := by
  obtain ⟨after, -, rfl⟩ := execEvm_backend h
  rcases r with _ | ⟨id, st⟩
  · exact .inl rfl
  · by_cases hrow : (after.deposits.get? id).any (fun d => d.RowOf t userId) = true
    · exact .inr (.inl (by simp only [noted, hrow, if_true, List.singleton_append]))
    · refine .inr (.inr ?_)
      simp only [noted, hrow]
      rfl

end Statements

/-! ## What is recorded has a row -/

/-- Every upsert that was carried out for a user has left a row of the transfer and the user. -/
def RecordedRows (w : EvmWorld) : Prop :=
  ∀ t userId, .recorded t userId ∈ w.trace →
    ∃ id d, w.backend.deposits.get? id = some d ∧ d.RowOf t userId

section Rows

variable {cfg : Config} {net : Network} {w w' : EvmWorld}

/-- Rows stay, so only a new record needs a row. -/
lemma RecordedRows.quiet (hq : Quiet w w') (h : RecordedRows w)
    (hnew : ∀ t userId, .recorded t userId ∈ w'.trace → .recorded t userId ∉ w.trace →
      ∃ id d, w'.backend.deposits.get? id = some d ∧ d.RowOf t userId) : RecordedRows w' := by
  intro t userId hmem
  by_cases hold : .recorded t userId ∈ w.trace
  · obtain ⟨id, d, hd, hrow⟩ := h t userId hold
    obtain ⟨d', hd', hsame⟩ := hq.deposits id d hd
    exact ⟨id, d', hd', hrow.of_sameTransfer hsame⟩
  · exact hnew t userId hmem hold

/-- A new record is that of an upsert which left a row of the transfer and the user. -/
lemma recorded_of_backend {op : Op} {ω : EvmOracle} {r : op.Res}
    (h : execEvm cfg net (.backend op) ω w = some (r, w')) {t : ObservedTransfer} {userId : Uuid}
    (hmem : .recorded t userId ∈ w'.trace) (hold : .recorded t userId ∉ w.trace) :
    ∃ id d, w'.backend.deposits.get? id = some d ∧ d.RowOf t userId := by
  obtain ⟨after, he, rfl⟩ := execEvm_backend h
  have hnew := (List.mem_append.mp hmem).resolve_right hold
  cases op with
  | watcher op =>
      cases op with
      | upsert t' user walletId confirmations status =>
          rcases r with _ | ⟨id, st⟩
          · simp [noted] at hnew
          simp only [noted] at hnew
          split at hnew
          · rename_i hrow
            simp only [List.mem_singleton, ScanEvent.recorded.injEq] at hnew
            obtain ⟨rfl, rfl⟩ := hnew
            obtain ⟨d, hd, hrow⟩ := (Option.any_eq_true _ _).mp hrow
            exact ⟨id, d, hd, by simpa using hrow⟩
          · simp at hnew
      | walletFor n address =>
          simp only [noted] at hnew
          split at hnew <;> simp at hnew
      | credit id t' =>
          rcases r with _ | _ <;> simp [noted] at hnew
      | _ => simp [noted] at hnew
  | _ => simp [noted] at hnew

lemma execEvm_recordedRows {op : EvmOp} {ω : EvmOracle} {r : op.Res}
    (h : execEvm cfg net op ω w = some (r, w')) (hI : RecordedRows w) : RecordedRows w' := by
  cases op with
  | backend op =>
      exact hI.quiet (quiet_backend h) fun t userId hmem hold => recorded_of_backend h hmem hold
  | tokenContracts | head | watchedAddresses =>
      cases h
      exact hI
  | cursor | tokenTransfers range watched contracts | saveCursor toBlock hash =>
      cases h
      exact fun t userId hmem => hI t userId (by simpa using hmem)

lemma envEvm_recordedRows {e : EvmEnv} (h : envEvm cfg e w = some w') (hI : RecordedRows w) :
    RecordedRows w' := by
  have hq := quiet_env h
  refine hI.quiet hq fun t userId hmem hold => absurd ?_ hold
  rcases envEvm_cases h with ⟨bs, -, -, -, rfl⟩ | ⟨b, b', -, -, rfl⟩ |
    ⟨tid, op, ω, r, b', -, -, rfl⟩ <;>
  exact hmem

end Rows

/-! ## A pass settles its transfers -/

/-- If nothing went wrong with the transfer in this pass, it has been recorded. -/
def Settled (net : Network) (w : EvmWorld) (t : ObservedTransfer) : Prop :=
  undisturbed t w.trace = true → RecordedFor net w t

lemma Settled.quiet {net : Network} {t : ObservedTransfer} {w w' : EvmWorld} (hq : Quiet w w')
    (h : Settled net w t) : Settled net w' t := by
  intro hund
  obtain ⟨es, htrace, hes⟩ := hq.trace
  rw [htrace] at hund
  exact (h (undisturbed_of_append hes hund)).quiet hq

/-- What a pass got through has been recorded, and every save was thorough. -/
structure RecordBooks (net : Network) (w : EvmWorld) : Prop where
  through : ∀ t, gotThrough t w.trace = true → RecordedFor net w t
  saves : ∀ c tr, .saved c :: tr <:+ w.trace → ∀ t ∈ returned tr,
    minimumDeposit t.asset ≤ t.amount → t.blockNumber + net.scanOverlap < c →
      undisturbed t tr = true ∨ gotThrough t tr = true

lemma RecordBooks.quiet {net : Network} {w w' : EvmWorld} (hq : Quiet w w')
    (h : RecordBooks net w) : RecordBooks net w' := by
  obtain ⟨es, htrace, hes⟩ := hq.trace
  refine ⟨fun t ht => ?_, fun c tr hsuf => ?_⟩
  · rw [htrace, gotThrough_append hes] at ht
    exact (h.through t ht).quiet hq
  · rw [htrace] at hsuf
    exact h.saves c tr (saved_suffix_of_append hes hsuf)

section Loop

variable {cfg : Config} {net : Network}

/-- A statement of the watcher, and what follows it. -/
lemma keeps_statement {P : EvmOp → EvmOracle → EvmWorld → Prop} {op : Op}
    {β : Type} {k : op.Res → EvmProg β} {Q : β → EvmWorld → Prop} {w : EvmWorld}
    {A : EvmWorld → Prop} (hA : A w) (hstable : ∀ ⦃w w'⦄, Quiet w w' → A w → A w')
    (hk : ∀ w ω r w', A w → execEvm cfg net (.backend op) ω w = some (r, w') →
      Keeps (evmWatcher cfg net) P (RecordBooks net) Quiet Q (k r) w') :
    Keeps (evmWatcher cfg net) P (RecordBooks net) Quiet Q (.call (.backend op) k) w :=
  Keeps.step hA hstable fun w ω r w' hI hA' _ he =>
    have hq : Quiet w w' := quiet_backend (show execEvm cfg net _ ω w = _ from he)
    ⟨hI.quiet hq, hk w ω r w' hA' he⟩

/-- **`handle_transfer` settles its transfer.** -/
lemma keeps_handleTransfer {P : EvmOp → EvmOracle → EvmWorld → Prop} {t : ObservedTransfer}
    {head : ℤ} {userId : Uuid} {w : EvmWorld} (hnet : t.network = net)
    (howned : OwnedBy net w.backend.wallets t.toAddress userId) :
    Keeps (evmWatcher cfg net) P (RecordBooks net) Quiet (fun _ w => Settled net w t)
      (EvmProg.handler (handleTransfer t head)) w := by
  subst hnet
  refine keeps_statement howned (fun _ _ hq => OwnedBy.mono hq.wallets) fun w ω r w' howned he => ?_
  rcases execEvm_walletFor he with ⟨rfl, htrace⟩ | ⟨rfl, -⟩
  · intro hund
    simp [htrace, undisturbed, ScanEvent.disturbs] at hund
  · rcases hfor : walletFor t.network t.toAddress w.backend.watcherDb with _ | ⟨walletId, u⟩
    · exact absurd hfor (walletFor_ne_none howned)
    have hu : OwnedBy t.network w'.backend.wallets t.toAddress u :=
      (walletFor_ownedBy hfor).mono (quiet_backend he).wallets
    refine keeps_statement hu (fun _ _ hq => OwnedBy.mono hq.wallets) fun w ω r w' hu he => ?_
    have hsettled : Settled t.network w' t := by
      rcases execEvm_upsert he with htrace | htrace | htrace
      · intro hund
        simp [htrace, undisturbed, ScanEvent.disturbs] at hund
      · exact fun _ => ⟨u, by simp [htrace], hu.mono (quiet_backend he).wallets⟩
      · intro hund
        simp [htrace, undisturbed, ScanEvent.disturbs] at hund
    exact keeps_handler (fun _ _ => RecordBooks.quiet) (fun _ _ => Settled.quiet) _ hsettled

/-- A transfer as the scan of this network returns them: to a wallet of one of its users. -/
def FromScan (net : Network) (w : EvmWorld) (t : ObservedTransfer) : Prop :=
  t.network = net ∧ ∃ userId, OwnedBy net w.backend.wallets t.toAddress userId

lemma FromScan.quiet {t : ObservedTransfer} {w w' : EvmWorld} (hq : Quiet w w')
    (h : FromScan net w t) : FromScan net w' t :=
  ⟨h.1, h.2.imp fun _ ho => ho.mono hq.wallets⟩

/-- All of them, by induction on the list; what was settled before stays so. -/
lemma keeps_handleTransfers {P : EvmOp → EvmOracle → EvmWorld → Prop} {head : ℤ} {w : EvmWorld}
    {ts done : List ObservedTransfer} (hts : ∀ t ∈ ts, FromScan net w t)
    (hdone : ∀ t ∈ done, Settled net w t) :
    Keeps (evmWatcher cfg net) P (RecordBooks net) Quiet
      (fun _ w => ∀ t ∈ done ++ ts, Settled net w t)
      (EvmProg.handler (handleTransfers head ts)) w := by
  induction ts generalizing w done with
  | nil => simpa [handleTransfers, EvmProg.handler, Keeps] using hdone
  | cons t ts ih =>
      obtain ⟨hnet, userId, howned⟩ := hts t (List.mem_cons_self ..)
      let A : EvmWorld → Prop := fun w =>
        (∀ t' ∈ ts, FromScan net w t') ∧ ∀ t' ∈ done, Settled net w t'
      have hA : ∀ ⦃w w'⦄, Quiet w w' → A w → A w' := fun _ _ hq h =>
        ⟨fun t' ht' => (h.1 t' ht').quiet hq, fun t' ht' => (h.2 t' ht').quiet hq⟩
      have hI : ∀ ⦃w w'⦄, Quiet w w' → RecordBooks net w → RecordBooks net w' :=
        fun _ _ => RecordBooks.quiet
      have hw : A w := ⟨fun t' ht' => hts t' (List.mem_cons_of_mem _ ht'), hdone⟩
      simp only [handleTransfers, EvmProg.handler, Prog.lift_bind]
      refine Keeps.bind ((keeps_handleTransfer hnet howned).and (keeps_handler hI hA _ hw)) ?_
      rintro - w ⟨ht, hts, hdone⟩
      have hnext : ∀ t' ∈ done ++ [t], Settled net w t' := by
        intro t' ht'
        rcases List.mem_append.mp ht' with h | h
        · exact hdone t' h
        · exact List.mem_singleton.mp h ▸ ht
      simpa using ih hts hnext

/-- The handling of a range, from the moment its scan was answered, and the save at its end. -/
lemma keeps_processRange_recorded {range : ScanRange} {transfers : List ObservedTransfer}
    {w : EvmWorld} {tr : List ScanEvent} (htrace : w.trace = .asked range (.ok transfers) :: tr)
    (hts : ∀ t ∈ transfers, FromScan net w t) :
    Keeps (evmWatcher cfg net) (Thorough net) (RecordBooks net) Quiet (fun _ _ => True)
      (processRange net range transfers) w := by
  -- Later in the pass, what it got through is among the transfers of its own scan.
  let A : EvmWorld → Prop := fun w' => ∀ t, Settled net w' t
  have hA : ∀ ⦃w w'⦄, Quiet w w' → A w → A w' := fun _ _ hq h t => (h t).quiet hq
  have hI : ∀ ⦃w w'⦄, Quiet w w' → RecordBooks net w → RecordBooks net w' :=
    fun _ _ => RecordBooks.quiet
  have hnone : ∀ t ∈ ([] : List ObservedTransfer), Settled net w t := fun _ h => by cases h
  refine Keeps.bind ((keeps_handleTransfers hts hnone).and
    (keeps_handler hI (fun _ _ hq h => Quiet.trans h hq) _ (Quiet.refl w))) ?_
  rintro - w₁ ⟨hsettled, hq⟩
  have hw₁ : A w₁ := by
    intro t hund
    obtain ⟨es, htrace', hes⟩ := hq.trace
    refine hsettled t ?_ hund
    rw [htrace', htrace] at hund
    simpa [undisturbed] using undisturbed_of_append hes hund
  refine Keeps.bind (keeps_handler hI hA _ hw₁) fun _ w hw => ?_
  refine Keeps.bind (keeps_handler hI hA _ hw) fun _ w hw => ?_
  refine keeps_statement hw hA fun w ω hash w' hw he => ?_
  refine Keeps.step (hA (quiet_backend he) hw) hA fun w ω _ w' hI hw hthorough he => ?_
  cases he
  refine ⟨⟨fun t ht => ?_, fun c tr hsuf => ?_⟩, trivial⟩
  · have hrec : RecordedFor net w t := by
      rcases Bool.or_eq_true _ _ ▸ ht with ht | ht
      · exact hw t ht
      · exact hI.through t ht
    exact hrec.imp fun _ h => ⟨List.mem_cons_of_mem _ h.1, h.2⟩
  · rcases List.suffix_cons_iff.mp hsuf with heq | hsuf
    · cases heq
      exact hthorough
    · exact hI.saves c tr hsuf

/-- What the adapter answers is to watched addresses of its network. -/
lemma fromScan_of_tokenTransfers {w : EvmWorld} {watched : List String}
    {contracts : TokenContracts} {reply : LogsReply} {transfers : List ObservedTransfer}
    (hwatched : ∀ a ∈ watched, ∃ userId, OwnedBy net w.backend.wallets a userId)
    (h : tokenTransfers net watched contracts reply = .ok transfers) :
    ∀ t ∈ transfers, FromScan net w t := by
  intro t ht
  obtain ⟨hnet, hmem⟩ := mem_tokenTransfers h ht
  exact ⟨hnet, hwatched _ hmem⟩

/-- A watched address is that of a wallet. -/
lemma ownedBy_of_watched {w : EvmWorld} {a : String}
    (h : a ∈ watchedAddresses net w.backend.wallets) :
    ∃ userId, OwnedBy net w.backend.wallets a userId := by
  obtain ⟨wallet, hmem, rfl⟩ := List.mem_map.mp h
  obtain ⟨hmem, hchain⟩ := List.mem_filter.mp hmem
  refine ⟨wallet.userId, wallet, hmem, by simpa using hchain, ?_, rfl⟩
  simp [eqIgnoreAsciiCase, toAsciiLowercase, lowerAscii, Function.comp_def]

/-- Starting and scanning save nothing. -/
lemma RecordBooks.noted {w : EvmWorld} {e : ScanEvent} (he : ∀ c, e ≠ .saved c)
    (h : RecordBooks net w) {head : ℤ} {firstStart : Option ℤ} :
    RecordBooks net
      { w with head := head, firstStart := firstStart, trace := e :: w.trace } where
  through t ht := by
    have ht : gotThrough t w.trace = true := by
      cases e with
      | saved c => exact absurd rfl (he c)
      | _ => exact ht
    exact (h.through t ht).imp fun _ hu => ⟨List.mem_cons_of_mem _ hu.1, hu.2⟩
  saves c tr hsuf := by
    rcases List.suffix_cons_iff.mp hsuf with heq | hsuf
    · cases heq
      exact absurd rfl (he c)
    · exact h.saves c tr hsuf

lemma keeps_watchEvmPass_recorded (s : EvmLoop) (w : EvmWorld) :
    Keeps (evmWatcher cfg net) (Thorough net) (RecordBooks net) Quiet (fun _ _ => True)
      (watchEvmPass net s) w := by
  intro w _ hI ω head w₁ _ he
  cases he
  refine ⟨⟨hI.through, hI.saves⟩, ?_⟩
  simp only [Prog.bind]
  split
  · trivial
  · intro w _ hI ω' watched w₁ _ he
    cases he
    refine ⟨hI, ?_⟩
    let A : EvmWorld → Prop := fun w' =>
      ∀ a ∈ watchedAddresses net w.backend.wallets,
        ∃ userId, OwnedBy net w'.backend.wallets a userId
    have hA : ∀ ⦃w w'⦄, Quiet w w' → A w → A w' := fun _ _ hq h a ha =>
      (h a ha).imp fun _ ho => ho.mono hq.wallets
    refine Keeps.step (fun a ha => ownedBy_of_watched ha : A w) hA
      fun w' ω' answer w₁ hI hwatched _ he => ?_
    cases he
    refine ⟨hI.noted (fun c => by simp), ?_⟩
    refine keeps_afterScan_of fun transfers hreply => ?_
    have hseen := fromScan_of_tokenTransfers hwatched hreply
    rw [hreply]
    exact keeps_processRange_recorded rfl hseen

lemma sound_recording :
    Service.Sound (evmWatcher cfg net) (Thorough net) (RecordBooks net) Quiet anyEnv
      (fun _ _ => True) where
  refl := Quiet.refl
  trans := Quiet.trans
  env hI _ h := ⟨hI.quiet (quiet_env h), quiet_env h⟩
  start w _ := by
    have hstart : Keeps (evmWatcher cfg net) (Thorough net) (RecordBooks net) Quiet
        (fun _ _ => True) (watchEvmStart net) w :=
      keeps_watchEvmStart_of (fun _ _ hI => ⟨hI.through, hI.saves⟩)
        (fun _ _ _ hI => hI.noted fun c => by simp) w
    exact hstart.mono fun _ _ _ _ _ => trivial
  pass s w _ _ := (keeps_watchEvmPass_recorded s w).mono fun _ _ _ _ _ => trivial
  stable _ _ _ := trivial

/-- **No observed deposit is lost, where each save is thorough.**  In every run of an EVM
network's watcher whose saves leave behind only what some pass got through, every transfer above
the dust threshold that a scan returned before a save more than the overlap past its block has a
row for the owner of its address. -/
theorem recorded_once_past (cfg : Config) (net : Network) (b₀ : World) {s : EvmSite}
    (hr : (evmWatcher cfg net).Reachable (guarded (Thorough net) anyEnv) (EvmSite.fresh b₀) s) :
    ∀ c tr, .saved c :: tr <:+ s.world.trace → ∀ t ∈ returned tr,
      minimumDeposit t.asset ≤ t.amount → t.blockNumber + net.scanOverlap < c →
        HasRow net s.world t := by
  have h₀ : RecordBooks net (.fresh b₀) :=
    ⟨fun t ht => (by cases ht), fun c tr hsuf => (by simp [EvmWorld.fresh] at hsuf)⟩
  have hI := (sound_recording.holds h₀ rfl hr).1
  have hrows : RecordedRows s.world := by
    refine Reachable.world_inv (I := RecordedRows) (fun t u hmem => ?_)
      (fun e w w' _ he hI => envEvm_recordedRows he hI) (fun op ω r w w' _ he hI => ?_) hr
    · cases hmem
    · exact execEvm_recordedRows (show execEvm cfg net op ω w = some (r, w') from he) hI
  intro c tr hsuf t ht habove hpast
  have hthrough : gotThrough t s.world.trace = true := by
    refine gotThrough_suffix hsuf ?_
    rcases hI.saves c tr hsuf t ht habove hpast with h | h <;> simp [gotThrough, h]
  obtain ⟨userId, hmem, howned⟩ := hI.through t hthrough
  obtain ⟨id, d, hd, hrow⟩ := hrows t userId hmem
  exact ⟨id, d, userId, hd, hrow, howned⟩

end Loop

/-! ## Losing a deposit -/

/-- A log of one hundred USDT to the user's address. -/
def depositLog (block : ℤ) : RpcLog :=
  ⟨"0xUSDT", some "0xabc", fun _ => some 100, block, "b1", "0xaa", 0⟩

/-- What the adapter makes of it. -/
def depositSeen (block : ℤ) : ObservedTransfer :=
  ⟨.ethereum, "0xaa", 0, "0xabc", .usdt, 100, block, "b1"⟩

/-- One scan returns a transfer ten blocks deep; the database fails under its upsert. -/
def upsertFailsOnce : List EvmMove :=
  booted [("0xusdt", .usdt, 6)] 1000 ++
  passed 1000 (.logs [depositLog 990]) [{}, { dbFails := true }, {}, {}, {}, {}]

/-- The cursor is saved past a transfer that has no row. -/
theorem observed_but_lost :
    ¬ ∀ s : EvmSite, (evmWatcher stubConfig .ethereum).Reachable (guarded anyOp anyEnv)
        (EvmSite.fresh (World.fresh 0 [⟨11, 7, .evm, "0xAbC"⟩])) s →
      ∀ c tr, .saved c :: tr <:+ s.world.trace → ∀ t ∈ returned tr,
        minimumDeposit t.asset ≤ t.amount → t.blockNumber + Network.ethereum.scanOverlap < c →
          HasRow .ethereum s.world t := by
  intro h
  obtain ⟨s, hs, htrace, hret, hrows⟩ := exists_reachable_of_run (evmWatcher stubConfig .ethereum)
    (guarded anyOp anyEnv)
    (EvmSite.fresh (World.fresh 0 [⟨11, 7, .evm, "0xAbC"⟩])) upsertFailsOnce
    (fun s => s.world.trace.head? = some (.saved 1000) ∧
      depositSeen 990 ∈ returned s.world.trace.tail ∧
      s.world.backend.deposits.table.rows = []) (by decide +kernel)
  obtain ⟨tr, htr⟩ := List.head?_eq_some_iff.mp htrace
  rw [htr] at hret
  obtain ⟨id, d, _, hd, -⟩ := h s hs 1000 tr (htr ▸ List.suffix_refl _) _ hret (by decide)
    (by decide)
  simp [DepositTable.get?, Table.get?, hrows] at hd

/-- The same failure, but close enough to the head to be asked about again. -/
def upsertFailsAtHead : List EvmMove :=
  booted [("0xusdt", .usdt, 6)] 1000 ++
  passed 1000 (.logs [depositLog 1000]) [{}, { dbFails := true }, {}, {}, {}, {}] ++
  passed 1002 (.logs [depositLog 1000]) [{}, { fresh := [200] }, {}, {}, {}, {}, {}] ++
  passed 1005 (.logs []) [{}, {}, {}, {}, {}]

theorem recorded_once_past_retry : ∃ s : EvmSite, HasRow .ethereum s.world (depositSeen 1000) := by
  obtain ⟨s, hs, htrace, hret⟩ := exists_reachable_of_run (evmWatcher stubConfig .ethereum)
    (guarded (Thorough .ethereum) anyEnv)
    (EvmSite.fresh (World.fresh 0 [⟨11, 7, .evm, "0xAbC"⟩])) upsertFailsAtHead
    (fun s => s.world.trace.head? = some (.saved 1005) ∧
      depositSeen 1000 ∈ returned s.world.trace.tail) (by decide +kernel)
  obtain ⟨tr, htr⟩ := List.head?_eq_some_iff.mp htrace
  rw [htr] at hret
  exact ⟨s, recorded_once_past stubConfig .ethereum _ hs 1005 tr (htr ▸ List.suffix_refl _) _ hret
    (by decide) (by decide)⟩

end Naivolt
