import Naivolt.Watcher.Crediting
import Naivolt.Watcher.Evm

/-!
# The block a row names

A row of `deposits` names the block its transfer was recorded in.  The watcher takes that block
from the logs of a scan when it inserts the row, and from the receipt of the transaction when it
follows a deposit to the block a reorganisation put it in.

`Grounded` is what this comes to against a node that answers from the chain (`Honest`): every row
of the network names a block that has been canonical and that holds its transaction, and stands
for a transfer to its user that the transaction made in a block that has been canonical.
`grounded` shows it in every state a run can reach.
-/

namespace Naivolt

open Foundation Foundation.Service

/-! ## Honest nodes -/

/-- The chain has the transaction in this block, executed successfully or not. -/
def Block.Holds (b : Block) (txHash : String) : Prop := ∃ tx ∈ b.txs, tx.hash = txHash

/-- The transaction was executed in this block, and made the transfer. -/
def Block.Makes (b : Block) (txHash : String) (transfer : TokenTransfer) : Prop :=
  ∃ tx ∈ b.txs, tx.hash = txHash ∧ ∃ made ∈ tx.transfers, transfer ∈ made

instance (b : Block) (txHash : String) : Decidable (b.Holds txHash) := by
  unfold Block.Holds
  infer_instance

instance (b : Block) (txHash : String) (transfer : TokenTransfer) :
    Decidable (b.Makes txHash transfer) := by
  unfold Block.Makes
  infer_instance

/-- What an observed transfer says of the chain beside its place. -/
def ObservedTransfer.tokenTransfer (t : ObservedTransfer) : TokenTransfer :=
  ⟨t.toAddress, t.asset, t.amount⟩

/-- The node answers from the canonical chain: logs of transfers its transactions made, the hash
of the block at a height, the receipt of an included transaction. -/
def Honest (net : Network) : EvmOp → EvmOracle → EvmWorld → Prop
  | .tokenTransfers _ watched contracts, ω, w =>
      match ω.reply with
      | .logs logs => ∀ log ∈ logs, ∃ b ∈ w.chain,
          b.number = log.blockNumber ∧ b.hash = log.blockHash ∧
            ∃ tx ∈ b.txs, tx.hash = log.txHash ∧ ∃ made ∈ tx.transfers,
              ∀ t ∈ observedLog net watched contracts log, t.tokenTransfer ∈ made
      | _ => True
  | .backend (.watcher (.blockHash number)), ω, w =>
      ∀ hash ∈ ω.base.blockHash, ∃ b ∈ w.chain, b.number = number ∧ b.hash = hash
  | .backend (.watcher (.transactionLocation txHash)), ω, w =>
      match ω.base.location with
      | .ok (some (number, hash)) =>
          ∃ b ∈ w.chain, b.number = number ∧ b.hash = hash ∧ b.Holds txHash
      | .ok none => inclusion w.chain txHash = none
      | .error () => True
  | _, _, _ => True

instance (net : Network) (op : EvmOp) (ω : EvmOracle) (w : EvmWorld) :
    Decidable (Honest net op ω w) := by
  unfold Honest
  split
  · split <;> infer_instance
  · infer_instance
  · split <;> infer_instance
  · infer_instance

/-- Rows of a network are placed by its own watcher only. -/
def OneWatcher (net : Network) : EvmEnv → EvmWorld → Prop
  | .other _ (.watcher (.upsert t ..)) _, _ => t.network ≠ net
  | .other _ (.watcher (.relocate id ..)) _, w =>
      ∀ d ∈ w.backend.deposits.get? id, d.network ≠ net
  | _, _ => True

instance (net : Network) (e : EvmEnv) (w : EvmWorld) : Decidable (OneWatcher net e w) := by
  unfold OneWatcher
  split <;> infer_instance

/-! ## Where a row is placed -/

/-- The row names a block, and the block holds its transaction. -/
def Deposit.PlacedIn (d : Deposit) (b : Block) : Prop :=
  d.blockNumber = b.number ∧ d.blockHash = some b.hash ∧ b.Holds d.txHash

/-- In the block the transaction of the row made its transfer, to an address of its user. -/
def Deposit.MadeIn (d : Deposit) (wallets : List Wallet) (b : Block) : Prop :=
  ∃ toAddress, OwnedBy d.network wallets toAddress d.userId ∧
    b.Makes d.txHash ⟨toAddress, d.asset, d.amount⟩

/-- The row names a block that has been canonical, and its transfer was made in one. -/
def Deposit.GroundedIn (d : Deposit) (blocks : List Block) (wallets : List Wallet) : Prop :=
  (∃ b ∈ blocks, d.PlacedIn b) ∧ ∃ b ∈ blocks, d.MadeIn wallets b

/-- Every row of the network names a block that has been canonical, and holds its transaction,
and was made in one. -/
structure Grounded (net : Network) (w : EvmWorld) : Prop where
  chain : ∀ b ∈ w.chain, b ∈ w.blocks
  named : ∀ b ∈ w.blocks, b.hash ≠ ""
  names : HashesName w.blocks
  rows : ∀ id d, w.backend.deposits.get? id = some d → d.network = net →
    d.GroundedIn w.blocks w.backend.wallets

/-- The transfer was made in a block that has been canonical. -/
def SeenIn (blocks : List Block) (t : ObservedTransfer) : Prop :=
  ∃ b ∈ blocks, t.blockNumber = b.number ∧ t.blockHash = b.hash ∧
    b.Makes t.txHash t.tokenTransfer

/-- The statement inserts no row of the network but for a transfer to its user that has been made,
and moves none but to a block that holds its transaction. -/
def PlacesWell (net : Network) (blocks : List Block) (w : World) : Op → Prop
  | .watcher (.upsert t userId ..) => t.network = net →
      SeenIn blocks t ∧ OwnedBy t.network w.wallets t.toAddress userId
  | .watcher (.relocate id number hash) => ∀ d ∈ w.deposits.get? id, d.network = net →
      ∃ b ∈ blocks, number = b.number ∧ hash = b.hash ∧ b.Holds d.txHash
  | _ => True

lemma Block.Makes.holds {b : Block} {txHash : String} {transfer : TokenTransfer}
    (h : b.Makes txHash transfer) : b.Holds txHash := by
  obtain ⟨tx, hmem, hhash, -⟩ := h
  exact ⟨tx, hmem, hhash⟩

lemma SeenIn.mono {blocks blocks' : List Block} {t : ObservedTransfer}
    (hsub : ∀ b ∈ blocks, b ∈ blocks') (h : SeenIn blocks t) : SeenIn blocks' t := by
  obtain ⟨b, hb, h⟩ := h
  exact ⟨b, hsub b hb, h⟩

/-- Two versions of a row with the same transfer, recorded in the same block. -/
structure Deposit.SamePlace (d d' : Deposit) : Prop where
  same : d.SameTransfer d'
  blockNumber : d'.blockNumber = d.blockNumber
  blockHash : d'.blockHash = d.blockHash

lemma Deposit.SamePlace.refl (d : Deposit) : d.SamePlace d := ⟨.refl d, rfl, rfl⟩

lemma Deposit.SameTransfer.txHash {d d' : Deposit} (h : d.SameTransfer d') :
    d'.txHash = d.txHash := congrArg (·.2.1) h.naturalKey

lemma Deposit.MadeIn.of_sameTransfer {d d' : Deposit} {wallets : List Wallet} {b : Block}
    (h : d.MadeIn wallets b) (hsame : d.SameTransfer d') : d'.MadeIn wallets b := by
  obtain ⟨toAddress, howned, hmakes⟩ := h
  refine ⟨toAddress, ?_, ?_⟩
  · rwa [hsame.network, hsame.userId]
  · rwa [hsame.txHash, hsame.asset, hsame.amount]

lemma Deposit.GroundedIn.of_samePlace {d d' : Deposit} {blocks : List Block}
    {wallets : List Wallet} (h : d.GroundedIn blocks wallets) (hplace : d.SamePlace d') :
    d'.GroundedIn blocks wallets := by
  obtain ⟨⟨b, hb, hnumber, hhash, hholds⟩, b₀, hb₀, hmade⟩ := h
  exact ⟨⟨b, hb, hplace.blockNumber.trans hnumber, hplace.blockHash.trans hhash,
    hplace.same.txHash ▸ hholds⟩, b₀, hb₀, hmade.of_sameTransfer hplace.same⟩

lemma Deposit.GroundedIn.mono {d : Deposit} {blocks blocks' : List Block}
    {wallets wallets' : List Wallet} (hblocks : ∀ b ∈ blocks, b ∈ blocks')
    (hwallets : ∀ wallet ∈ wallets, wallet ∈ wallets') (h : d.GroundedIn blocks wallets) :
    d.GroundedIn blocks' wallets' := by
  obtain ⟨⟨b, hb, hplaced⟩, b₀, hb₀, toAddress, howned, hmakes⟩ := h
  exact ⟨⟨b, hblocks b hb, hplaced⟩, b₀, hblocks b₀ hb₀, toAddress, howned.mono hwallets, hmakes⟩

lemma Deposit.samePlace_confirmed (u : Uuid) (d : Deposit) :
    d.SamePlace (depositConfirmed u d) := ⟨⟨rfl, rfl, rfl, rfl, rfl⟩, rfl, rfl⟩

lemma Deposit.samePlace_reversed (u : Uuid) (d : Deposit) :
    d.SamePlace (depositReversed u d) := ⟨⟨rfl, rfl, rfl, rfl, rfl⟩, rfl, rfl⟩

section Place

variable {t t' : DepositTable} {db db' : WatcherDb} {id i : Uuid} {d' : Deposit}

/-- An update that places no row elsewhere. -/
lemma place_of_update {f : Deposit → Deposit} (hf : ∀ d : Deposit, d.SamePlace (f d))
    (h : t.update i f = some t') (hd' : t'.get? id = some d') :
    ∃ d, t.get? id = some d ∧ d.SamePlace d' := by
  rw [DepositTable.get?_update h] at hd'
  split at hd'
  · obtain ⟨d, hd, rfl⟩ := Option.map_eq_some_iff.mp hd'
    exact ⟨d, hd, hf d⟩
  · exact ⟨d', hd', .refl d'⟩

lemma place_of_postDeposit {fresh : List Uuid} {builder : JournalBuilder}
    {move : Uuid → Deposit → Deposit} {r : Bool} {es : Log}
    (hmove : ∀ u, ∀ d : Deposit, d.SamePlace (move u d))
    (h : postDeposit fresh i builder move db = some (r, db', es))
    (hd' : db'.deposits.get? id = some d') :
    ∃ d, db.deposits.get? id = some d ∧ d.SamePlace d' := by
  obtain ⟨-, -, posted, -, -, -, -, hupdate, -, -⟩ := postDeposit_cases h
  exact place_of_update (hmove _) hupdate hd'

lemma place_of_upsert {fresh : List Uuid} {tr : ObservedTransfer} {userId walletId : Uuid}
    {confirmations : ℤ} {status : DepositStatus} {r : Uuid × DepositStatus}
    (h : upsertDeposit fresh tr userId walletId confirmations status db = some (r, db'))
    (hd' : db'.deposits.get? id = some d') :
    (∃ d, db.deposits.get? id = some d ∧ d.SamePlace d') ∨
      d' = observedRow tr userId walletId confirmations status := by
  unfold upsertDeposit at h
  split at h
  · obtain ⟨deposits, hupdate, hres⟩ := Option.map_eq_some_iff.mp h
    cases hres
    refine .inl (place_of_update (fun d => ?_) hupdate hd')
    exact ⟨⟨rfl, rfl, rfl, rfl, rfl⟩, rfl, rfl⟩
  · split at h
    · obtain ⟨deposits, hinsert, hres⟩ := Option.map_eq_some_iff.mp h
      cases hres
      rw [DepositTable.get?_insert hinsert] at hd'
      split at hd'
      · exact .inr (Option.some.inj hd').symm
      · exact .inl ⟨d', hd', .refl d'⟩
    · cases h

/-- **What a statement does to the place of a row**: nothing, or it inserts it, or it follows
it. -/
lemma execWatcher_place {ω : Oracle} {op : WatcherOp} {r : op.Res} {es : Log}
    (h : execWatcher ω db op = some (r, db', es)) (hd' : db'.deposits.get? id = some d') :
    (∃ d, db.deposits.get? id = some d ∧ d.SamePlace d') ∨
    (∃ tr userId walletId confirmations status,
      op = .upsert tr userId walletId confirmations status ∧
        d' = observedRow tr userId walletId confirmations status) ∨
    ∃ number hash d, op = .relocate id number hash ∧ db.deposits.get? id = some d ∧
      d.SameTransfer d' ∧ d'.blockNumber = number ∧ d'.blockHash = some hash := by
  cases op with
  | upsert tr userId walletId confirmations status =>
      simp only [execWatcher] at h
      split at h
      · cases h
        exact .inl ⟨d', hd', .refl d'⟩
      obtain ⟨⟨r, db₁⟩, hup, hres⟩ := Option.map_eq_some_iff.mp h
      cases hres
      rcases place_of_upsert hup hd' with hold | hnew
      · exact .inl hold
      · exact .inr (.inl ⟨_, _, _, _, _, rfl, hnew⟩)
  | credit i tr =>
      simp only [execWatcher, creditDeposit] at h
      split at h
      · cases h
        exact .inl ⟨d', hd', .refl d'⟩
      · split at h
        · cases h
          exact .inl ⟨d', hd', .refl d'⟩
        · split at h
          · cases h
            exact .inl ⟨d', hd', .refl d'⟩
          · exact .inl (place_of_postDeposit Deposit.samePlace_confirmed h hd')
  | reverse i tr =>
      simp only [execWatcher, reverseDeposit] at h
      split at h
      · cases h
        exact .inl ⟨d', hd', .refl d'⟩
      · split at h
        · cases h
          exact .inl ⟨d', hd', .refl d'⟩
        · exact .inl (place_of_postDeposit Deposit.samePlace_reversed h hd')
  | relocate i number hash =>
      obtain ⟨db₁, hup, hres⟩ := Option.map_eq_some_iff.mp h
      cases hres
      obtain ⟨deposits, hupdate, hres⟩ := Option.map_eq_some_iff.mp hup
      cases hres
      rw [DepositTable.get?_update hupdate] at hd'
      split at hd'
      · rename_i hid
        subst hid
        obtain ⟨d, hd, rfl⟩ := Option.map_eq_some_iff.mp hd'
        exact .inr (.inr ⟨number, hash, d, rfl, hd, ⟨rfl, rfl, rfl, rfl, rfl⟩, rfl, rfl⟩)
      · exact .inl ⟨d', hd', .refl d'⟩
  | setConfirmations i n =>
      obtain ⟨db₁, hup, hres⟩ := Option.map_eq_some_iff.mp h
      cases hres
      obtain ⟨deposits, hupdate, hres⟩ := Option.map_eq_some_iff.mp hup
      cases hres
      refine .inl (place_of_update (fun d => ?_) hupdate hd')
      split <;> exact ⟨⟨rfl, rfl, rfl, rfl, rfl⟩, rfl, rfl⟩
  | _ =>
      cases h
      exact .inl ⟨d', hd', .refl d'⟩

end Place

/-! ## The rows stay grounded -/

/-- Blocks that were canonical are remembered, wallets stay, and rows keep their transfers. -/
structure Follows (w w' : EvmWorld) : Prop where
  blocks : ∀ b ∈ w.blocks, b ∈ w'.blocks
  wallets : ∀ wallet ∈ w.backend.wallets, wallet ∈ w'.backend.wallets
  deposits : ∀ id d, w.backend.deposits.get? id = some d →
    ∃ d', w'.backend.deposits.get? id = some d' ∧ d.SameTransfer d'

lemma Follows.refl (w : EvmWorld) : Follows w w :=
  ⟨fun _ h => h, fun _ h => h, fun _ d hd => ⟨d, hd, .refl d⟩⟩

lemma Follows.trans {w w' w'' : EvmWorld} (h : Follows w w') (h' : Follows w' w'') :
    Follows w w'' := by
  refine ⟨fun b hb => h'.blocks b (h.blocks b hb),
    fun wallet hw => h'.wallets wallet (h.wallets wallet hw), fun id d hd => ?_⟩
  obtain ⟨d', hd', hsame⟩ := h.deposits id d hd
  obtain ⟨d'', hd'', hsame'⟩ := h'.deposits id d' hd'
  exact ⟨d'', hd'', hsame.trans hsame'⟩

section Rows

variable {cfg : Config} {net : Network} {w w' : EvmWorld}

/-- **One statement**, of this watcher or of another. -/
lemma rows_of_exec {tid : ℕ} {op : Op} {ω : Oracle} {r : op.Res} {b b' : World}
    {blocks : List Block} (he : exec cfg tid op ω b = some (r, b'))
    (hplaces : PlacesWell net blocks b op)
    (hI : ∀ id d, b.deposits.get? id = some d → d.network = net →
      d.GroundedIn blocks b.wallets) :
    ∀ id d, b'.deposits.get? id = some d → d.network = net →
      d.GroundedIn blocks b'.wallets := by
  intro id d' hd' hnet
  rw [exec_wallets he]
  cases (exec_move he).2 with
  | @watcher op r db es hexec =>
      rcases execWatcher_place hexec hd' with ⟨d, hd, hplace⟩ |
        ⟨tr, userId, walletId, confirmations, status, rfl, rfl⟩ |
        ⟨number, hash, d, rfl, hd, hsame, hnumber, hhash⟩
      · exact (hI id d hd (hplace.same.network ▸ hnet)).of_samePlace hplace
      · obtain ⟨⟨bl, hbl, hn, hh, hmakes⟩, howned⟩ := hplaces hnet
        exact ⟨⟨bl, hbl, hn, congrArg some hh, hmakes.holds⟩, bl, hbl, tr.toAddress, howned, hmakes⟩
      · obtain ⟨bl, hbl, hn, hh, hholds⟩ := hplaces d hd (hsame.network ▸ hnet)
        obtain ⟨-, b₀, hb₀, hmade⟩ := hI id d hd (hsame.network ▸ hnet)
        exact ⟨⟨bl, hbl, hnumber.trans hn, hhash.trans (congrArg some hh),
          hsame.txHash ▸ hholds⟩, b₀, hb₀, hmade.of_sameTransfer hsame⟩
  | _ => exact hI id d' hd' hnet

lemma follows_backend {op : Op} {ω : EvmOracle} {r : op.Res}
    (h : execEvm cfg net (.backend op) ω w = some (r, w')) : Follows w w' := by
  have hq := quiet_backend h
  obtain ⟨after, -, rfl⟩ := execEvm_backend h
  exact ⟨fun _ hb => hb, hq.wallets, hq.deposits⟩

lemma Grounded.backend {op : Op} {ω : EvmOracle} {r : op.Res} (hI : Grounded net w)
    (h : execEvm cfg net (.backend op) ω w = some (r, w'))
    (hplaces : PlacesWell net w.blocks w.backend op) : Grounded net w' := by
  obtain ⟨after, he, rfl⟩ := execEvm_backend h
  exact ⟨hI.chain, hI.named, hI.names, rows_of_exec he hplaces hI.rows⟩

lemma Grounded.env {e : EvmEnv} (hI : Grounded net w) (hone : OneWatcher net e w)
    (h : envEvm cfg e w = some w') : Grounded net w' := by
  rcases envEvm_cases h with ⟨bs, -, hok, hnames, rfl⟩ | ⟨b, b', -, hb, rfl⟩ |
    ⟨tid, op, ω, r, b', rfl, hb, rfl⟩
  · refine ⟨fun b hb => List.mem_append_left _ hb, fun b hb => ?_, hnames, fun id d hd hnet => ?_⟩
    · exact (List.mem_append.mp hb).elim (hok.named b) (hI.named b)
    · exact (hI.rows id d hd hnet).mono (fun _ => List.mem_append_right _) fun _ h => h
  · have hwallets := (quiet_env h).wallets
    obtain ⟨now, wallets, tiers, -, rfl⟩ := execEnv_eq hb
    exact ⟨hI.chain, hI.named, hI.names, fun id d hd hnet =>
      (hI.rows id d hd hnet).mono (fun _ h => h) hwallets⟩
  · refine ⟨hI.chain, hI.named, hI.names, rows_of_exec hb ?_ hI.rows⟩
    unfold PlacesWell
    split
    · exact fun hnet => absurd hnet hone
    · exact fun d hd hnet => absurd hnet (hone d hd)
    · trivial

lemma follows_env {e : EvmEnv} (h : envEvm cfg e w = some w') : Follows w w' := by
  refine ⟨?_, (quiet_env h).wallets, (quiet_env h).deposits⟩
  rcases envEvm_cases h with ⟨bs, -, -, -, rfl⟩ | ⟨b, b', -, -, rfl⟩ |
    ⟨tid, op, ω, r, b', -, -, rfl⟩
  · exact fun b hb => List.mem_append_right _ hb
  · exact fun b hb => hb
  · exact fun b hb => hb

end Rows

/-- The operation places nothing. -/
def PlacesNothing (net : Network) (op : Op) : Prop := ∀ blocks w, PlacesWell net blocks w op

section Handlers

variable {net : Network} {head : ℤ}

lemma places_advancePending :
    (advancePending net head).Every (PlacesNothing net) := by
  refine ⟨fun _ _ => trivial, fun rows => ?_⟩
  change (advanceRows net head rows).Every _
  induction rows with
  | nil => trivial
  | cons r rows ih =>
      obtain ⟨id, d⟩ := r
      simp only [advanceRows]
      split
      · exact ⟨fun _ _ => trivial, fun _ => ih⟩
      · exact ⟨fun _ _ => trivial, fun _ => ih⟩

end Handlers

section Loop

variable {cfg : Config} {net : Network}

/-- A handler that places rows well, given an assertion that lasts. -/
lemma keeps_places {A : EvmWorld → Prop} (hA : ∀ ⦃w w'⦄, Follows w w' → A w → A w')
    {α : Type} {p : Handler α} {w : EvmWorld}
    (hp : p.Every fun op => ∀ w, A w → PlacesWell net w.blocks w.backend op) (hw : A w) :
    Keeps (evmWatcher cfg net) (Honest net) (Grounded net) Follows (fun _ => A)
      (EvmProg.handler p) w := by
  refine Keeps.of_every hA ((hp.lift ..).mono ?_) hw
  rintro op ⟨o, rfl, hplaces⟩ ω r w w' hI hw -
    (he : execEvm cfg net (.backend o) ω w = some (r, w'))
  exact ⟨hI.backend he (hplaces w hw), hA (follows_backend he) hw⟩

/-- One statement that places nothing, and what follows it. -/
lemma keeps_placing {op : Op} {β : Type} {k : op.Res → EvmProg β} {Q : β → EvmWorld → Prop}
    {w : EvmWorld} {A : EvmWorld → Prop} (hA : A w)
    (hstable : ∀ ⦃w w'⦄, Follows w w' → A w → A w')
    (hplaces : ∀ w, A w → PlacesWell net w.blocks w.backend op)
    (hk : ∀ w ω r w', Grounded net w → A w → Honest net (.backend op) ω w →
      execEvm cfg net (.backend op) ω w = some (r, w') → A w' →
        Keeps (evmWatcher cfg net) (Honest net) (Grounded net) Follows Q (k r) w') :
    Keeps (evmWatcher cfg net) (Honest net) (Grounded net) Follows Q (.call (.backend op) k) w :=
  Keeps.step hA hstable fun w ω r w' hI hw hP
    (he : execEvm cfg net (.backend op) ω w = some (r, w')) =>
      ⟨hI.backend he (hplaces w hw),
        hk w ω r w' hI hw hP he (hstable (follows_backend he) hw)⟩

/-- **`handle_transfer` inserts rows of owned transfers**: the user it upserts for is the one its
lookup found. -/
lemma keeps_handleTransfer_grounded {A : EvmWorld → Prop}
    (hA : ∀ ⦃w w'⦄, Follows w w' → A w → A w') {t : ObservedTransfer} {head : ℤ}
    (hseen : ∀ w, A w → SeenIn w.blocks t) {w : EvmWorld} (hw : A w) :
    Keeps (evmWatcher cfg net) (Honest net) (Grounded net) Follows (fun _ => A)
      (EvmProg.handler (handleTransfer t head)) w := by
  refine keeps_placing hw hA (fun _ _ => trivial) fun w ω r w' hI hw hP he hw' => ?_
  rcases execEvm_walletFor he with ⟨rfl, -⟩ | ⟨rfl, -⟩
  · exact hw'
  · rcases hfor : walletFor t.network t.toAddress w.backend.watcherDb with _ | ⟨walletId, u⟩
    · exact hw'
    have howned := (walletFor_ownedBy hfor).mono (follows_backend he).wallets
    let B : EvmWorld → Prop := fun w =>
      A w ∧ OwnedBy t.network w.backend.wallets t.toAddress u
    have hB : ∀ ⦃w w'⦄, Follows w w' → B w → B w' := fun _ _ hf h =>
      ⟨hA hf h.1, h.2.mono hf.wallets⟩
    refine keeps_placing (A := B) ⟨hw', howned⟩ hB (fun w h _ => ⟨hseen w h.1, h.2⟩)
      fun w ω row w' hI _ _ _ hw' => ?_
    rcases row with _ | ⟨id, status⟩
    · exact hw'.1
    refine keeps_places hA ?_ hw'.1
    simp only [Prog.bind]
    split
    · trivial
    · split
      · exact ⟨fun _ _ => trivial, fun _ => trivial⟩
      · trivial

lemma keeps_handleTransfers_grounded {A : EvmWorld → Prop}
    (hA : ∀ ⦃w w'⦄, Follows w w' → A w → A w') {ts : List ObservedTransfer} {head : ℤ}
    (hseen : ∀ w, A w → ∀ t ∈ ts, SeenIn w.blocks t) {w : EvmWorld} (hw : A w) :
    Keeps (evmWatcher cfg net) (Honest net) (Grounded net) Follows (fun _ => A)
      (EvmProg.handler (handleTransfers head ts)) w := by
  induction ts generalizing w with
  | nil => exact hw
  | cons t ts ih =>
      simp only [handleTransfers, EvmProg.handler, Prog.lift_bind]
      refine Keeps.bind (keeps_handleTransfer_grounded hA
        (fun w hw => hseen w hw t (List.mem_cons_self ..)) hw) fun _ w hw => ?_
      exact ih (fun w hw t' ht' => hseen w hw t' (List.mem_cons_of_mem _ ht')) hw

/-- The rows a check goes through have kept their transfers. -/
def Listed (rows : List (Uuid × Deposit)) (w : EvmWorld) : Prop :=
  ∀ r ∈ rows, ∃ d, w.backend.deposits.get? r.1 = some d ∧ r.2.SameTransfer d

lemma Listed.follows {rows : List (Uuid × Deposit)} {w w' : EvmWorld} (hf : Follows w w')
    (h : Listed rows w) : Listed rows w' := by
  intro r hr
  obtain ⟨d, hd, hsame⟩ := h r hr
  obtain ⟨d', hd', hsame'⟩ := hf.deposits _ d hd
  exact ⟨d', hd', hsame.trans hsame'⟩

/-- What an honest node says of a receipt is a block that holds the transaction. -/
lemma holds_of_location {w w' : EvmWorld} {txHash : String} {ω : EvmOracle}
    {r : Except Unit (Option (ℤ × String))} {number : ℤ} {hash : String}
    (hI : Grounded net w) (hP : Honest net (.backend (.watcher (.transactionLocation txHash))) ω w)
    (he : execEvm cfg net (.backend (.watcher (.transactionLocation txHash))) ω w = some (r, w'))
    (hr : r = .ok (some (number, hash))) :
    ∃ b ∈ w.chain, b ∈ w.blocks ∧ b.number = number ∧ b.hash = hash ∧ b.Holds txHash := by
  obtain ⟨after, hexec, -⟩ := execEvm_backend he
  obtain ⟨db, es, hexec, -⟩ := exec_watcher hexec
  cases hexec
  simp only [Honest, hr] at hP
  obtain ⟨b, hb, h⟩ := hP
  exact ⟨b, hb, hI.chain b hb, h⟩

lemma keeps_relocateOrReverse {id : Uuid} {d : Deposit} {rows : List (Uuid × Deposit)}
    (hmem : (id, d) ∈ rows) {w : EvmWorld} (hw : Listed rows w) :
    Keeps (evmWatcher cfg net) (Honest net) (Grounded net) Follows (fun _ => Listed rows)
      (EvmProg.handler (relocateOrReverse net id d)) w := by
  refine keeps_placing hw (fun _ _ => Listed.follows) (fun _ _ => trivial)
    fun w ω location w' hI hw hP he hw' => ?_
  rcases hlocation : location with _ | _ | ⟨number, hash⟩
  · exact hw'
  · exact keeps_placing hw' (fun _ _ => Listed.follows) (fun _ _ => trivial)
      fun _ _ _ _ _ _ _ _ h => h
  · obtain ⟨b, -, hb, rfl, rfl, hholds⟩ := holds_of_location hI hP he hlocation
    have hb' := (follows_backend he).blocks b hb
    have hplaced : Listed rows w' ∧ b ∈ w'.blocks := ⟨hw', hb'⟩
    refine keeps_placing (A := fun w => Listed rows w ∧ b ∈ w.blocks) hplaced
      (fun _ _ hf h => ⟨h.1.follows hf, hf.blocks b h.2⟩) (fun w h d' hd' _ => ?_)
      fun _ _ _ _ _ _ _ _ h => h.1
    obtain ⟨d₁, hd₁, hsame⟩ := h.1 _ hmem
    cases hd₁.symm.trans hd'
    exact ⟨b, h.2, rfl, rfl, hsame.txHash ▸ hholds⟩

lemma keeps_reorgRows {rows all : List (Uuid × Deposit)} (hsub : ∀ r ∈ rows, r ∈ all)
    (cache : List (ℤ × Option String)) {w : EvmWorld} (hw : Listed all w) :
    Keeps (evmWatcher cfg net) (Honest net) (Grounded net) Follows (fun _ => Listed all)
      (EvmProg.handler (reorgRows net cache rows)) w := by
  induction rows generalizing cache w with
  | nil => exact hw
  | cons r rows ih =>
      obtain ⟨id, d⟩ := r
      have hrest : ∀ r ∈ rows, r ∈ all := fun r hr => hsub r (List.mem_cons_of_mem _ hr)
      simp only [reorgRows]
      split
      · exact ih hrest cache hw
      simp only [EvmProg.handler, Prog.lift_bind]
      refine Keeps.bind (keeps_places (fun _ _ => Listed.follows) ?_ hw) ?_
      · unfold cachedHash
        split
        · trivial
        · exact ⟨fun _ _ => trivial, fun _ => trivial⟩
      rintro ⟨current, cache⟩ w hw
      dsimp only
      split
      · exact ih hrest cache hw
      · split
        · exact ih hrest cache hw
        · rw [Prog.lift_bind]
          exact Keeps.bind (keeps_relocateOrReverse (hsub _ (List.mem_cons_self ..)) hw)
            fun _ w hw => ih hrest cache hw

lemma keeps_checkReorgs {head : ℤ} (w : EvmWorld) :
    Keeps (evmWatcher cfg net) (Honest net) (Grounded net) Follows (fun _ _ => True)
      (EvmProg.handler (checkReorgs net head)) w := by
  refine keeps_placing (A := fun _ => True) trivial (fun _ _ _ _ => trivial) (fun _ _ => trivial)
    fun w ω rows w' _ _ _ he _ => ?_
  have hlisted : Listed rows w := by
    obtain ⟨after, hexec, -⟩ := execEvm_backend he
    obtain ⟨db, es, hexec, -⟩ := exec_watcher hexec
    cases hexec
    intro r hr
    exact ⟨r.2, Table.get?_eq_some_iff.mpr (List.mem_filter.mp hr).1, .refl _⟩
  exact (keeps_reorgRows (fun _ h => h) [] (hlisted.follows (follows_backend he))).mono
    fun _ _ _ => trivial

lemma keeps_processRange_grounded {range : ScanRange} {transfers : List ObservedTransfer}
    {w : EvmWorld} (hseen : ∀ t ∈ transfers, SeenIn w.blocks t) :
    Keeps (evmWatcher cfg net) (Honest net) (Grounded net) Follows (fun _ _ => True)
      (processRange net range transfers) w := by
  let A : EvmWorld → Prop := fun w => ∀ t ∈ transfers, SeenIn w.blocks t
  have hA : ∀ ⦃w w'⦄, Follows w w' → A w → A w' := fun _ _ hf h t ht => (h t ht).mono hf.blocks
  have htrue : ∀ ⦃w w' : EvmWorld⦄, Follows w w' → True → True := fun _ _ _ h => h
  refine Keeps.bind (keeps_handleTransfers_grounded hA (fun _ hw => hw) hseen) fun _ w _ => ?_
  refine Keeps.bind (keeps_places htrue (places_advancePending.mono fun _ h w _ => h _ _)
    trivial) fun _ w _ => ?_
  refine Keeps.bind (keeps_checkReorgs w) fun _ w _ => ?_
  refine keeps_placing (A := fun _ => True) trivial htrue (fun _ _ => trivial)
    fun w ω hash w' _ _ _ _ _ => ?_
  intro w _ hI ω _ w' _ he
  cases he
  exact ⟨⟨hI.chain, hI.named, hI.names, hI.rows⟩, trivial⟩

/-- The logs of an honest node are of transfers made in blocks that are canonical. -/
lemma seenIn_of_tokenTransfers {w : EvmWorld} {range : ScanRange} {watched : List String}
    {contracts : TokenContracts} {ω : EvmOracle} {ts : List ObservedTransfer}
    (hI : Grounded net w) (hP : Honest net (.tokenTransfers range watched contracts) ω w)
    (h : tokenTransfers net watched contracts ω.reply = .ok ts) :
    ∀ t ∈ ts, SeenIn w.blocks t := by
  intro t ht
  obtain ⟨logs, log, hreply, hmem, hlog⟩ := observed_of_mem_tokenTransfers h ht
  obtain ⟨-, -, hhash, hnumber, hblock⟩ := observedLog_eq_some hlog
  simp only [Honest, hreply] at hP
  obtain ⟨b, hb, hn, hh, tx, htx, hname, made, hmade, hall⟩ := hP log hmem
  exact ⟨b, hI.chain b hb, hnumber.trans hn.symm, hblock.trans hh.symm, tx, htx,
    hname.trans hhash.symm, made, hmade, hall t hlog⟩

lemma keeps_watchEvmPass_grounded (s : EvmLoop) (w : EvmWorld) :
    Keeps (evmWatcher cfg net) (Honest net) (Grounded net) Follows (fun _ _ => True)
      (watchEvmPass net s) w := by
  intro w _ hI ω head w₁ _ he
  cases he
  refine ⟨⟨hI.chain, hI.named, hI.names, hI.rows⟩, ?_⟩
  simp only [Prog.bind]
  split
  · trivial
  · intro w _ hI ω' watched w₁ _ he
    cases he
    refine ⟨hI, fun w _ hI ω' answer w₁ hP he => ?_⟩
    cases he
    have hseen : ∀ ts, tokenTransfers net _ s.contracts ω'.reply = .ok ts →
        ∀ t ∈ ts, SeenIn w.blocks t := fun ts hreply => seenIn_of_tokenTransfers hI hP hreply
    exact ⟨⟨hI.chain, hI.named, hI.names, hI.rows⟩,
      keeps_afterScan_of fun ts hreply => keeps_processRange_grounded (hseen ts hreply)⟩

lemma sound_grounded :
    Service.Sound (evmWatcher cfg net) (Honest net) (Grounded net) Follows (OneWatcher net)
      (fun _ _ => True) where
  refl := Follows.refl
  trans := Follows.trans
  env hI hone h := ⟨hI.env hone h, follows_env h⟩
  start w _ := by
    have hstart : Keeps (evmWatcher cfg net) (Honest net) (Grounded net) Follows (fun _ _ => True)
        (watchEvmStart net) w :=
      keeps_watchEvmStart_of (fun _ _ hI => ⟨hI.chain, hI.named, hI.names, hI.rows⟩)
        (fun _ _ _ hI => ⟨hI.chain, hI.named, hI.names, hI.rows⟩) w
    exact hstart.mono fun _ _ _ _ _ => trivial
  pass s w _ _ := (keeps_watchEvmPass_grounded s w).mono fun _ _ _ _ _ => trivial
  stable _ _ _ := trivial

/-- **Rows are grounded.**  Against an honest node, every row of the network names a block that
has been canonical and holds its transaction. -/
lemma grounded {b₀ : World} (h₀ : b₀.deposits = .empty) {s : EvmSite}
    (hr : (evmWatcher cfg net).Reachable (guarded (Honest net) (OneWatcher net))
      (EvmSite.fresh b₀) s) :
    Grounded net s.world := by
  refine (sound_grounded.holds ?_ rfl hr).1
  refine ⟨fun b hb => (by cases hb), fun b hb => (by cases hb), fun b hb => (by cases hb),
    fun id d hd => ?_⟩
  simp [EvmSite.fresh, EvmWorld.fresh, h₀, DepositTable.get?, DepositTable.empty] at hd

end Loop

end Naivolt
