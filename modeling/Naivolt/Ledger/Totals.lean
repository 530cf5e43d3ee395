import Naivolt.Ledger.Journal

/-!
# What the ledger adds up to

Every journal balances for each asset, so whatever was posted, the balances of all accounts in
an asset add up to zero.  A journal that moves our own coins touches no liability, so nobody is
owed more or less for it.
-/

namespace Naivolt

/-! ## What `build` accepts -/

/-- What `build` asks for. -/
structure JournalBuilder.Acceptable (b : JournalBuilder) : Prop where
  two : 2 ≤ b.entries.length
  nonzero : ∀ e ∈ b.entries, e.amount ≠ 0
  balanced : ∀ asset, assetSum b.entries asset = 0
  custody : b.kind.isCustodyOnly = true → ∀ e ∈ b.entries, e.account.kind.isLiability = false

/-- In an asset of no entry there is nothing to add up. -/
lemma assetSum_of_notMem {entries : List Entry} {asset : Asset}
    (h : ∀ e ∈ entries, e.asset ≠ asset) : assetSum entries asset = 0 := by
  have hnone : entries.filter (fun e => e.asset = asset) = [] :=
    List.filter_eq_nil_iff.mpr fun e he => by simpa using h e he
  simp [assetSum, hnone]

lemma Journal.assetSum_eq_zero (j : Journal) (asset : Asset) : assetSum j.entries asset = 0 := by
  by_cases h : ∃ e ∈ j.entries, e.asset = asset
  · obtain ⟨e, he, rfl⟩ := h
    exact j.balanced e he
  · exact assetSum_of_notMem fun e he heq => h ⟨e, he, heq⟩

/-- `build` accepts what it asks for. -/
lemma JournalBuilder.build_iff (b : JournalBuilder) :
    (∃ j, b.build = .ok j) ↔ b.Acceptable := by
  constructor
  · rintro ⟨j, hj⟩
    obtain ⟨hkind, -, -, hentries⟩ := build_eq_ok hj
    exact ⟨hentries ▸ j.two, hentries ▸ j.nonzero, hentries ▸ j.assetSum_eq_zero,
      hkind ▸ hentries ▸ j.custody⟩
  · rintro ⟨htwo, hnonzero, hbalanced, hcustody⟩
    unfold build
    split
    · omega
    · split
      · rename_i e hzero
        exact absurd (by simpa using List.find?_some hzero)
          (hnonzero e (List.mem_of_find?_eq_some hzero))
      · split
        · rename_i e hsum
          exact absurd (hbalanced e.asset) (by simpa using List.find?_some hsum)
        · split
          · rename_i e hcust
            have hbad := List.find?_some hcust
            simp only [Bool.and_eq_true] at hbad
            have hgood := hcustody hbad.1 e (List.mem_of_find?_eq_some hcust)
            rw [hbad.2] at hgood
            cases hgood
          · exact ⟨_, rfl⟩

/-! ## All accounts together -/

namespace Ledger

/-- The accounts some entry is on. -/
def accounts (l : Ledger) : Finset Account :=
  (l.postings.flatMap fun p => p.journal.entries.map Entry.account).toFinset

/-- The balances of all accounts in an asset, together. -/
def total (l : Ledger) (asset : Asset) : ℚ :=
  ∑ a ∈ l.accounts.filter (fun a => a.asset = asset), l.balance a

end Ledger

/-- Entries add up by account as they do one by one. -/
lemma sum_amountOn {S : Finset Account} {asset : Asset} (hS : ∀ a ∈ S, a.asset = asset)
    (entries : List Entry) (hcover : ∀ e ∈ entries, e.asset = asset → e.account ∈ S) :
    ∑ a ∈ S, ((entries.filter (fun e => e.account = a)).map Entry.amount).sum =
      assetSum entries asset := by
  induction entries with
  | nil => simp [assetSum]
  | cons e rest ih =>
      have hsplit : ∀ a, (((e :: rest).filter (fun e => e.account = a)).map Entry.amount).sum =
          (if e.account = a then e.amount else 0) +
            ((rest.filter (fun e => e.account = a)).map Entry.amount).sum := by
        intro a
        by_cases h : e.account = a <;> simp [h]
      have hhead : ∑ a ∈ S, (if e.account = a then e.amount else 0) =
          if e.asset = asset then e.amount else 0 := by
        rw [Finset.sum_ite_eq]
        refine if_congr ⟨fun h => hS _ h, fun h => ?_⟩ rfl rfl
        exact hcover e List.mem_cons_self h
      rw [Finset.sum_congr rfl fun a _ => hsplit a, Finset.sum_add_distrib, hhead,
        ih fun e he => hcover e (List.mem_cons_of_mem _ he)]
      by_cases h : e.asset = asset <;> simp [assetSum, h]

/-- **The ledger adds up to nothing.** -/
theorem Ledger.total_eq_zero (l : Ledger) (asset : Asset) : l.total asset = 0 := by
  have hposting : ∀ p ∈ l.postings,
      ∑ a ∈ l.accounts.filter (fun a => a.asset = asset), p.journal.amountOn a = 0 := by
    intro p hp
    rw [← p.journal.assetSum_eq_zero asset]
    refine sum_amountOn (fun a ha => (Finset.mem_filter.mp ha).2) p.journal.entries ?_
    intro e he hasset
    refine Finset.mem_filter.mpr ⟨List.mem_toFinset.mpr ?_, hasset⟩
    exact List.mem_flatMap.mpr ⟨p, hp, List.mem_map_of_mem he⟩
  have hswap : ∀ (S : Finset Account) (ps : List Posting),
      ∑ a ∈ S, (ps.map fun p => p.journal.amountOn a).sum =
        (ps.map fun p => ∑ a ∈ S, p.journal.amountOn a).sum := by
    intro S ps
    induction ps with
    | nil => simp
    | cons p ps ih => simp [Finset.sum_add_distrib, ih]
  unfold Ledger.total Ledger.balance
  rw [hswap, List.map_congr_left hposting]
  simp

/-! ## Custody journals -/

/-- A custody journal adds nothing to what is owed. -/
lemma Journal.amountOn_liability {j : Journal} (hkind : j.kind.isCustodyOnly = true)
    {a : Account} (ha : a.kind.isLiability = true) : j.amountOn a = 0 := by
  have hnone : j.entries.filter (fun e => e.account = a) = [] := by
    refine List.filter_eq_nil_iff.mpr fun e he heq => ?_
    have hsafe := j.custody hkind e he
    rw [of_decide_eq_true heq, ha] at hsafe
    cases hsafe
  simp [Journal.amountOn, Journal.builder, JournalBuilder.amountOn, hnone]

/-- Journals built and posted one after the other, each under an identifier for its row. -/
def Ledger.postAll : Ledger → List (Uuid × JournalBuilder) → Option Ledger
  | l, [] => some l
  | l, (id, b) :: rest =>
      match b.build with
      | .error _ => none
      | .ok j => (l.post j id).bind fun r => r.2.postAll rest

/-- A custody journal that is posted changes no user-facing balance. -/
lemma Ledger.liability_of_post {l l' : Ledger} {j : Journal} {id : Uuid} {out : PostOutcome}
    (hkind : j.kind.isCustodyOnly = true) (h : l.post j id = some (out, l')) {a : Account}
    (ha : a.kind.isLiability = true) : l'.balance a = l.balance a := by
  rcases Ledger.post_cases h with ⟨rfl, -, -⟩ | ⟨p, -, -, -, rfl⟩
  · rw [Ledger.balance_of_post h, j.amountOn_liability hkind ha, zero_add]
  · rfl

/-- **Conservation and custody isolation.**  `build` accepts exactly two or more non-zero
entries that balance for each asset and, in a custody journal, leave the liabilities alone.
Hence whatever journals are posted, all accounts together hold nothing of any asset, and no
sweep and no gas journal changes what anybody is owed. -/
theorem ledger_conservation :
    (∀ b : JournalBuilder, (∃ j, b.build = .ok j) ↔ b.Acceptable) ∧
      ∀ posted l, Ledger.empty.postAll posted = some l →
        (∀ asset, l.total asset = 0) ∧
        ∀ (b : JournalBuilder) j id out l', b.kind = .sweep ∨ b.kind = .gasSpend →
          b.build = .ok j → l.post j id = some (out, l') →
          ∀ a : Account, a.kind.isLiability = true →
            a.kind.userFacingBalance (l'.balance a) = a.kind.userFacingBalance (l.balance a) := by
  refine ⟨JournalBuilder.build_iff, fun posted l _ => ⟨l.total_eq_zero, ?_⟩⟩
  intro b j id out l' hkind hbuild hpost a ha
  have hcustody : j.kind.isCustodyOnly = true := by
    rw [(JournalBuilder.build_eq_ok hbuild).1]
    rcases hkind with hkind | hkind <;> rw [hkind] <;> rfl
  rw [Ledger.liability_of_post hcustody hpost ha]

/-- A deposit of 5 USDT, swept to the master wallet. -/
def sweptDeposit : List (Uuid × JournalBuilder) :=
  [(1, .transfer .depositCredit "d1" "deposit:d1" (.custody .usdt) (.userCrypto 7 .usdt) 5),
    (2, .transfer .sweep "s1" "sweep:s1" ⟨.custodyMaster, none, .usdt⟩ (.custody .usdt) 5)]

/-- The gas of the sweep. -/
def sweepGas : JournalBuilder :=
  .transfer .gasSpend "s1" "gas:s1" ⟨.gasExpense, none, .bnb⟩ ⟨.custodyMaster, none, .bnb⟩ 2

theorem ledger_conservation_sweptDeposit :
    ∃ l l' : Ledger, Ledger.empty.postAll sweptDeposit = some l ∧ l.total .usdt = 0 ∧
      l'.postings.length = 3 ∧
      AccountKind.userCrypto.userFacingBalance (l'.balance (.userCrypto 7 .usdt)) = 5 := by
  obtain ⟨l, hl, h⟩ := (Option.any_eq_true _ _).mp
    (show (Ledger.empty.postAll sweptDeposit).any (fun l =>
      decide (l.balance (.userCrypto 7 .usdt) = -5) && (sweepGas.build.toOption.any fun j =>
        (l.post j 3).any fun r => decide (r.2.postings.length = 3))) = true by decide +kernel)
  obtain ⟨hbalance, hgas⟩ := Bool.and_eq_true_iff.mp h
  obtain ⟨j, hbuild, hgas⟩ := (Option.any_eq_true _ _).mp hgas
  obtain ⟨⟨out, l'⟩, hpost, hlength⟩ := (Option.any_eq_true _ _).mp hgas
  have hbuilt : sweepGas.build = .ok j := by
    rcases hb : sweepGas.build with e | j'
    · rw [hb] at hbuild
      cases hbuild
    · rw [hb] at hbuild
      cases hbuild
      rfl
  obtain ⟨htotal, hcustody⟩ := ledger_conservation.2 sweptDeposit l hl
  refine ⟨l, l', hl, htotal .usdt, of_decide_eq_true hlength, ?_⟩
  have hsame := hcustody sweepGas j 3 out l' (.inr rfl) hbuilt hpost (.userCrypto 7 .usdt) rfl
  rw [of_decide_eq_true hbalance] at hsame
  exact hsame.trans (by decide +kernel)

end Naivolt
