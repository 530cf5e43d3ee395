import Naivolt.System.Obligations

/-!
# Every operation under contract

Top-ups and deposits keep their contracts: what is credited was confirmed for the intent, or
observed for the deposit.  `backend_keeps` puts all handlers together, and `contracted` is its
consequence for runs: every operation of every run is performed under its contract, in a world
that satisfies `Sound`.
-/

namespace Naivolt

open Foundation Foundation.Machine

/-! ## Top-ups -/

section Funding

variable {cfg : Config} {tid : ℕ} {req : Request} {born : Time} {w w' : World}

/-- The intent is there, with this owner and reference, and with the stub this amount. -/
def IntentOf (cfg : Config) (id userId : Uuid) (reference : String) (amount : ℚ) (w : World) :
    Prop :=
  ∃ i, w.intents.get? id = some i ∧ i.userId = userId ∧ i.reference = reference ∧
    (cfg.fundingLive = false → i.amountNgn = amount)

variable {id userId : Uuid} {reference : String} {amount : ℚ}

lemma stays_intentOf : Stays cfg tid req born (IntentOf cfg id userId reference amount) where
  rely h := by
    rintro ⟨i, hi, hu, hr, ha⟩
    obtain ⟨i', hi', hu', hr', ha'⟩ := h.intents id i hi
    exact ⟨i', hi', hu'.trans hu, hr'.trans hr, fun hf => (ha' hf).trans (ha hf)⟩
  exec _ hC he := by
    rintro ⟨i, hi, hu, hr, ha⟩
    obtain ⟨i', hi', hu', hr', ha'⟩ := (exec_move he).2.intents hC id i hi
    exact ⟨i', hi', hu'.trans hu, hr'.trans hr, fun hf => (ha' hf).trans (ha hf)⟩

/-- `settle`: what is credited was confirmed for the intent's own reference. -/
lemma meets_settleIntent {A : World → Prop} (hA : Stays cfg tid req born A)
    (hintent : ∀ w, A w → IntentOf cfg id userId reference amount w) (hw : A w) :
    Meets cfg tid req born (fun _ => A) (settleIntent id userId reference amount) w := by
  unfold settleIntent
  simp only [Prog.perform_bind]
  have hverify : Owed cfg tid req born A (.funding (.verify reference amount)) := by
    intro w _ hw
    obtain ⟨i, hi, -, hr, ha⟩ := hintent w hw
    exact ⟨id, i, hi, hr, ha⟩
  refine Meets.call hw hA.rely hverify fun w ω r w' hI hw he => ?_
  have hw' := hA.exec hI (hverify w hI hw) he hw
  obtain ⟨db, es, hexec, rfl⟩ := exec_funding he
  cases hexec
  generalize hcharge : chargeAnswer cfg ω amount = answer at hw' ⊢
  cases answer with
  | succeeded charged =>
      have hstays : Stays cfg tid req born fun w =>
          A w ∧ Event.verified reference (.succeeded charged) ∈ w.log :=
        hA.and (.of_log fun _ _ hlog h => hlog.subset h)
      refine Safe.mono (Safe.of_lasting hstays ?_ ⟨hw', List.mem_cons_self⟩) fun _ _ h => h.1
      refine ⟨fun w _ hw => ?_, fun r => ?_⟩
      · obtain ⟨i, hi, hu, hr, ha⟩ := hintent w hw.1
        refine ⟨i, hi, hu, hr, fun hf => (ha hf).trans ?_, hw.2⟩
        -- The stub confirms the amount it was asked about.
        simpa [chargeAnswer, hf] using hcharge
      · cases r <;> trivial
  | failed reason =>
      refine Safe.of_lasting hA ?_ hw'
      refine ⟨fun _ _ _ => trivial, fun r => ?_⟩
      cases r <;> trivial
  | _ => exact hw'

lemma meets_getIntent : Meets cfg tid req born Done (getIntent userId id) w := by
  unfold getIntent
  simp only [Prog.perform_bind]
  refine Meets.call (A := fun _ => True) trivial (fun _ _ => trivial) (fun _ _ _ => trivial)
    fun w ω r w' _ _ he => ?_
  obtain ⟨db, es, hexec, rfl⟩ := exec_funding he
  cases hexec
  split
  · trivial
  · rename_i i hi
    split
    · trivial
    · rename_i huser
      split
      · refine Safe.bind (meets_settleIntent stays_intentOf (fun _ h => h)
          ⟨i, hi, by simpa using huser, rfl, fun _ => rfl⟩) fun r w _ => ?_
        cases r <;> trivial
      · trivial

/-- The intents of a sweep, as the sweep read them. -/
lemma meets_settleAll (rows : List (Uuid × Intent))
    (hrows : ∀ r ∈ rows, IntentOf cfg r.1 r.2.userId r.2.reference r.2.amountNgn w) :
    Meets cfg tid req born Done (settleAll rows) w := by
  have hstays : Stays cfg tid req born fun w =>
      ∀ r ∈ rows, IntentOf cfg r.1 r.2.userId r.2.reference r.2.amountNgn w :=
    .ball fun _ => stays_intentOf
  have main : ∀ rest w, rest ⊆ rows →
      (∀ r ∈ rows, IntentOf cfg r.1 r.2.userId r.2.reference r.2.amountNgn w) →
      Meets cfg tid req born Done (settleAll rest) w := by
    intro rest
    induction rest with
    | nil => exact fun w _ _ => trivial
    | cons r rest ih =>
        intro w hsub hw
        refine Safe.bind (meets_settleIntent hstays
          (fun w h => h r (hsub List.mem_cons_self)) hw) fun _ w hw => ?_
        exact ih w (fun x hx => hsub (List.mem_cons_of_mem _ hx)) hw
  exact main rows w (fun _ h => h) hrows

lemma meets_fundingSweep : Meets cfg tid req born Done (fundingSweep cfg) w := by
  unfold fundingSweep
  split
  · trivial
  · simp only [Prog.perform_bind]
    refine Meets.call (A := fun _ => True) trivial (fun _ _ => trivial) (fun _ _ _ => trivial)
      fun w ω rows w' _ _ he => ?_
    obtain ⟨db, es, hexec, rfl⟩ := exec_funding he
    cases hexec
    refine Safe.bind (meets_settleAll _ fun r hr => ?_) fun _ w _ =>
      Meets.of_stays stays_true ⟨fun _ _ _ => trivial, fun _ => trivial⟩ trivial
    have hmem := List.mem_of_mem_take hr
    rw [List.mem_mergeSort, List.mem_filter] at hmem
    exact ⟨r.2, Table.get?_eq_some_iff.mpr hmem.1, rfl, rfl, fun _ => rfl⟩

lemma meets_createIntent {scale : ℕ} :
    Meets cfg tid req born Done (createIntent userId amount scale) w := by
  unfold createIntent
  split
  · trivial
  · simp only [Prog.perform_bind]
    refine .of_stays stays_true ⟨fun _ _ _ => trivial, fun r => ⟨fun _ _ _ => trivial,
      fun charge => ?_⟩⟩ trivial
    cases charge <;> trivial

end Funding

/-! ## Deposits -/

section Watcher

variable {cfg : Config} {tid : ℕ} {req : Request} {born : Time} {w w' : World} {id : Uuid}
  {network : Network} {head : ℤ}

/-- The deposit is there, and it is the one with these columns. -/
def DepositOf (id : Uuid) (d : Deposit) (w : World) : Prop :=
  ∃ d', w.deposits.get? id = some d' ∧ d'.naturalKey = d.naturalKey ∧ d'.network = d.network ∧
    d'.asset = d.asset

lemma stays_depositOf (id : Uuid) (d : Deposit) : Stays cfg tid req born (DepositOf id d) where
  rely h := by
    rintro ⟨d', hd', hk, hn, ha⟩
    obtain ⟨d'', hd'', -, hk', hn', ha', -⟩ := h.deposits id d' hd'
    exact ⟨d'', hd'', hk'.trans hk, hn'.trans hn, ha'.trans ha⟩
  exec _ _ he := by
    rintro ⟨d', hd', hk, hn, ha⟩
    obtain ⟨d'', hd'', hs⟩ := (exec_move he).2.deposits id d' hd'
    exact ⟨d'', hd'', hs.naturalKey.trans hk, hs.network.trans hn, hs.asset.trans ha⟩

/-- The rows a pass read, all of the network and under its chain. -/
def RowsOf (network : Network) (rows : List (Uuid × Deposit)) (w : World) : Prop :=
  ∀ r ∈ rows, DepositOf r.1 r.2 w ∧ r.2.network = network ∧ r.2.chain = network.chain

lemma stays_rowsOf {rows : List (Uuid × Deposit)} :
    Stays cfg tid req born (RowsOf network rows) :=
  .ball fun _ => (stays_depositOf _ _).and (.of_log fun _ _ _ h => h)

/-- The rows that a filter of the table returns. -/
lemma RowsOf.of_filter (network : Network) {rows : List (Uuid × Deposit)} (hI : Sound w)
    (h : ∀ r ∈ rows, r ∈ w.deposits.table.rows ∧ r.2.network = network) :
    RowsOf network rows w := by
  intro r hr
  obtain ⟨hmem, hnet⟩ := h r hr
  have hget : w.deposits.get? r.1 = some r.2 := Table.get?_eq_some_iff.mpr hmem
  exact ⟨⟨r.2, hget, rfl, rfl, rfl⟩, hnet, hnet ▸ hI.chains r.1 r.2 hget⟩

lemma naturalKey_transferOfRow {d : Deposit} (hchain : d.chain = network.chain) :
    (transferOfRow network d).naturalKey = d.naturalKey := by
  simp [ObservedTransfer.naturalKey, Deposit.naturalKey, transferOfRow, hchain]

/-- `advance_pending`, over the rows still to visit. -/
lemma every_advanceRows {rows : List (Uuid × Deposit)} :
    ∀ rest, rest ⊆ rows →
      (advanceRows network head rest).Every (Owed cfg tid req born (RowsOf network rows)) := by
  intro rest
  induction rest with
  | nil => exact fun _ => trivial
  | cons r rest ih =>
      intro hsub
      have hrest := ih fun x hx => hsub (List.mem_cons_of_mem _ hx)
      unfold advanceRows
      split
      · exact ⟨fun _ _ _ => trivial, fun _ => hrest⟩
      · refine ⟨fun w _ hrows => ?_, fun _ => hrest⟩
        obtain ⟨⟨d, hd, hk, -, -⟩, -, hchain⟩ := hrows r (hsub List.mem_cons_self)
        exact ⟨d, hd, hk.trans (naturalKey_transferOfRow hchain).symm⟩

/-- `check_reorgs`, over the rows still to visit. -/
lemma every_reorgRows {rows : List (Uuid × Deposit)} :
    ∀ rest cache, rest ⊆ rows →
      (reorgRows network cache rest).Every (Owed cfg tid req born (RowsOf network rows)) := by
  intro rest
  induction rest with
  | nil =>
      intro cache _
      unfold reorgRows
      trivial
  | cons r rest ih =>
      intro cache hsub
      have hrest := fun cache => ih cache fun x hx => hsub (List.mem_cons_of_mem _ hx)
      have hrow : ∀ w, RowsOf network rows w →
          Contract cfg tid req born (.watcher (.reverse r.1 (transferOfRow network r.2))) w := by
        intro w hrows
        obtain ⟨⟨d, hd, hk, hn, ha⟩, hnet, hchain⟩ := hrows r (hsub List.mem_cons_self)
        exact ⟨d, hd, hk.trans (naturalKey_transferOfRow hchain).symm, hn.trans hnet, ha⟩
      unfold reorgRows
      split
      · exact hrest cache
      · refine Prog.Every.bind ?_ fun current => ?_
        · unfold cachedHash
          split
          · trivial
          · exact ⟨fun _ _ _ => trivial, fun _ => trivial⟩
        · obtain ⟨current, cache⟩ := current
          dsimp only
          split
          · exact hrest cache
          · split
            · exact hrest cache
            · refine Prog.Every.bind ?_ fun _ => hrest cache
              unfold relocateOrReverse
              refine ⟨fun _ _ _ => trivial, fun location => ?_⟩
              match location with
              | .error () => trivial
              | .ok (some (number, hash)) => exact ⟨fun _ _ _ => trivial, fun _ => trivial⟩
              | .ok none => exact ⟨fun w _ hw => hrow w hw, fun _ => trivial⟩

lemma meets_advancePending : Meets cfg tid req born Done (advancePending network head) w := by
  unfold advancePending
  simp only [Prog.perform_bind]
  refine Meets.call (A := fun _ => True) trivial (fun _ _ => trivial) (fun _ _ _ => trivial)
    fun w ω rows w' hI _ he => ?_
  obtain ⟨db, es, hexec, rfl⟩ := exec_watcher he
  cases hexec
  refine .of_stays stays_rowsOf (every_advanceRows _ fun _ h => h) fun r hr => ?_
  refine (RowsOf.of_filter network hI fun r hr => ?_) r hr
  have hmem := hr
  simp only [pendingDeposits, List.mem_mergeSort, List.mem_filter, Bool.and_eq_true,
    decide_eq_true_eq] at hmem
  exact ⟨hmem.1, hmem.2.1⟩

lemma meets_checkReorgs : Meets cfg tid req born Done (checkReorgs network head) w := by
  unfold checkReorgs
  simp only [Prog.perform_bind]
  refine Meets.call (A := fun _ => True) trivial (fun _ _ => trivial) (fun _ _ _ => trivial)
    fun w ω rows w' hI _ he => ?_
  obtain ⟨db, es, hexec, rfl⟩ := exec_watcher he
  cases hexec
  refine .of_stays stays_rowsOf (every_reorgRows _ _ fun _ h => h) fun r hr => ?_
  refine (RowsOf.of_filter network hI fun r hr => ?_) r hr
  have hmem := hr
  simp only [reorgWindow, List.mem_filter, Bool.and_eq_true, decide_eq_true_eq] at hmem
  exact ⟨hmem.1, hmem.2.1.1⟩

/-- The row a first observation files, or finds, is of the transfer. -/
lemma exec_upsert {ω : Oracle} {t : ObservedTransfer} {userId walletId : Uuid}
    {confirmations : ℤ} {status st : DepositStatus}
    (he : exec cfg tid (.watcher (.upsert t userId walletId confirmations status)) ω w =
      some (some (id, st), w')) :
    ∃ d, w'.deposits.get? id = some d ∧ d.naturalKey = t.naturalKey := by
  obtain ⟨db, es, hexec, rfl⟩ := exec_watcher he
  simp only [execWatcher] at hexec
  split at hexec
  · cases hexec
  · obtain ⟨⟨⟨id', st'⟩, db'⟩, hup, hres⟩ := Option.map_eq_some_iff.mp hexec
    cases hres
    unfold upsertDeposit at hup
    split at hup
    · rename_i id row hfind
      obtain ⟨deposits, hd, hres⟩ := Option.map_eq_some_iff.mp hup
      cases hres
      obtain ⟨hrow, hkey⟩ := DepositTable.find_eq_some hfind
      exact ⟨{ row with confirmations := confirmations },
        by simp [World.putWatcher, DepositTable.get?_update hd, hrow], hkey⟩
    · split at hup
      · obtain ⟨deposits, hd, hres⟩ := Option.map_eq_some_iff.mp hup
        cases hres
        exact ⟨observedRow t userId walletId confirmations status,
          by simp [World.putWatcher, DepositTable.get?_insert hd], rfl⟩
      · cases hup

lemma meets_handleTransfer {t : ObservedTransfer} :
    Meets cfg tid req born Done (handleTransfer t head) w := by
  unfold handleTransfer
  simp only [Prog.perform_bind]
  refine Meets.call (A := fun _ => True) trivial (fun _ _ => trivial) (fun _ _ _ => trivial)
    fun w ω wallet w' _ _ _ => ?_
  match wallet with
  | none => trivial
  | some (walletId, userId) =>
      refine Meets.call (A := fun _ => True) trivial (fun _ _ => trivial) (fun _ _ _ => trivial)
        fun w ω recorded w' _ _ he => ?_
      match recorded, he with
      | none, _ => trivial
      | some (id, status), he =>
          obtain ⟨d, hd, hkey⟩ := exec_upsert he
          dsimp only
          split
          · trivial
          · split
            · refine .of_stays (stays_depositOf id d)
                ⟨fun w _ ⟨d', hd', hk, _⟩ => ⟨d', hd', hk.trans hkey⟩, fun _ => trivial⟩
                ⟨d, hd, rfl, rfl, rfl⟩
            · trivial

lemma meets_handleTransfers (ts : List ObservedTransfer) :
    Meets cfg tid req born Done (handleTransfers head ts) w := by
  induction ts generalizing w with
  | nil => trivial
  | cons t rest ih => exact Safe.bind meets_handleTransfer fun _ _ _ => ih

lemma meets_watchPass {ts : List ObservedTransfer} :
    Meets cfg tid req born Done (watchPass network head ts) w := by
  unfold watchPass
  refine Safe.bind (meets_handleTransfers _) fun _ w _ => ?_
  refine Safe.bind meets_advancePending fun _ w _ => ?_
  split
  · exact Safe.bind meets_checkReorgs fun _ _ _ => trivial
  · trivial

end Watcher

/-! ## The backend -/

/-- A payout that is reserved is of a positive amount. -/
lemma meets_createPayout {cfg : Config} {tid : ℕ} {req : Request} {born : Time} {w : World}
    {userId : Uuid} {key : String} {body : CreatePayoutBody} :
    Meets cfg tid req born Done (createPayout userId key body) w := by
  refine .of_stays stays_true ?_ trivial
  unfold createPayout
  simp only [Prog.perform_bind]
  split
  · trivial
  · rename_i hamount
    have hpositive : 0 < body.amountNgn := by
      by_contra hle
      simp [checkAmount, not_lt.mp hle] at hamount
    refine ⟨fun _ _ _ => trivial, fun user => ?_⟩
    dsimp only
    split
    · trivial
    · refine ⟨fun _ _ _ => trivial, fun used => ?_⟩
      dsimp only
      split
      · trivial
      · refine ⟨fun _ _ _ => trivial, fun destination => ?_⟩
        cases destination with
        | error e => trivial
        | ok bank =>
            refine ⟨fun _ _ _ => hpositive, fun r => ?_⟩
            cases r <;> trivial

/-- **The backend keeps its contracts.** -/
theorem backend_keeps (cfg : Config) :
    Keeps (backend cfg) Sound (Rely cfg) anyOp (Contract cfg) where
  refl _ := .refl
  trans := .trans
  env hI he := ⟨sound_of_env he hI, fun _ => rely_of_env he⟩
  op hI _ hC he := by
    obtain ⟨hfresh, hmove⟩ := exec_move he
    exact ⟨sound_of_move hI hfresh hC hmove, fun _ hne => rely_of_move hI hC hmove hne⟩
  spawn tid req w _ := by
    refine Safe.mono (Q := Done) ?_ fun _ _ _ => trivial
    cases req with
    | createOrder userId key body => exact meets_createOrder rfl le_rfl
    | getOrder userId id => exact meets_getOrder
    | cancelOrder userId id => exact meets_cancelOrder
    | reconcile id => exact meets_reconcile
    | recheckOrder id => exact meets_recheckOrder
    | refundOrder id => exact meets_refundOrder
    | createPayout userId key body => exact meets_createPayout
    | createIntent userId amount scale => exact meets_createIntent
    | getIntent userId id => exact meets_getIntent
    | fundingSweep => exact meets_fundingSweep
    | watch network head transfers => exact meets_watchPass

/-- **Every operation is performed under its contract**, from any state a run has reached. -/
theorem contracted_later {cfg : Config} {now : Time} {wallets : List Wallet}
    {P : ℕ → Request → Time → Op → Oracle → World → Prop} {s s' : State}
    (h : (backend cfg).Reachable (onOps P) (initial now wallets) s)
    (h' : (backend cfg).Reachable (onOps P) s s') :
    (backend cfg).Reachable (onOps fun tid req born op ω w =>
      P tid req born op ω w ∧ Sound w ∧ Contract cfg tid req born op w) s s' :=
  (backend_keeps cfg).contracted_later (sound_fresh now wallets) (fun _ => rfl)
    (fun _ _ _ _ _ _ _ => trivial) h h'

/-- The same from the start. -/
theorem contracted {cfg : Config} {now : Time} {wallets : List Wallet}
    {P : ℕ → Request → Time → Op → Oracle → World → Prop} {s : State}
    (h : (backend cfg).Reachable (onOps P) (initial now wallets) s) :
    (backend cfg).Reachable (onOps fun tid req born op ω w =>
      P tid req born op ω w ∧ Sound w ∧ Contract cfg tid req born op w)
      (initial now wallets) s :=
  contracted_later .init h

end Naivolt
