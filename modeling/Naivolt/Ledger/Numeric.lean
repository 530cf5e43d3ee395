import Naivolt.Foundation.Decimals
import Naivolt.Foundation.FixedPoint
import Naivolt.Ledger.Totals

/-!
# Journals in the database

`build` adds up `Decimal`s, whose addition rounds a sum that needs more than 96 bits, and panics
at one that is too large; the addition is a parameter here (`buildIn`), and with one that is exact
`buildIn` is the `build` of `JournalBuilder` (`buildIn_iff_build`).  The database keeps each
amount in a `NUMERIC(38, 18)` column, rounded to eighteen decimals, refuses what is zero there or
has too many digits, and at commit adds up what it has kept, exactly.  `Storable` is the condition
on the amounts under which it accepts a journal; amounts of eighteen decimals and no more meet it
as long as their sums fit a `Decimal` (`storable_of_units`).
-/

namespace Naivolt

open Foundation

/-! ## Amounts -/

/-- The units of the eighteenth decimal in an amount. -/
def inUnits (amount : ℚ) : ℚ := amount * 10 ^ 18

/-- The numbers of `rust_decimal`: an integer of 96 bits with at most 28 decimals. -/
def rustDecimal : DecimalFormat := ⟨2 ^ 96, 28⟩

/-- `*` and `/` of `Decimal`: none where they panic. -/
structure DecimalOps where
  mul : ℚ → ℚ → Option ℚ
  div : ℚ → ℚ → Option ℚ

/-- Both are exact where a `Decimal` can hold the result. -/
structure DecimalOps.Exact (ops : DecimalOps) : Prop where
  mul : rustDecimal.ExactFor (· * ·) ops.mul
  div : rustDecimal.ExactFor (· / ·) ops.div

/-- Operations that never round. -/
def exactOps : DecimalOps := ⟨fun x y => some (x * y), fun x y => some (x / y)⟩

lemma exactOps_exact : exactOps.Exact := ⟨fun _ _ _ _ _ => rfl, fun _ _ _ _ _ => rfl⟩

/-- The amounts of the entries in an asset. -/
def amountsIn (entries : List Entry) (asset : Asset) : List ℚ :=
  (entries.filter fun e => e.asset = asset).map Entry.amount

/-- `Decimal::round_dp`. -/
def roundDp (amount : ℚ) (dp : ℕ) : ℚ := roundEven (amount * 10 ^ dp) / 10 ^ dp

/-- The amount as `NUMERIC(38, 18)` keeps it. -/
def toNumeric (amount : ℚ) : ℚ := roundAway (inUnits amount) / 10 ^ 18

/-- The `amount` of a new row of `ledger_entries`: none when it has more than twenty digits
before the point, or `entries_are_never_zero` refuses it. -/
def storeAmount (amount : ℚ) : Option ℚ :=
  if 10 ^ 20 ≤ |toNumeric amount| then none
  else if toNumeric amount = 0 then none
  else some (toNumeric amount)

/-- `INSERT INTO ledger_entries`. -/
def storeEntry (e : Entry) : Option Entry :=
  (storeAmount e.amount).map fun amount => { e with amount := amount }

/-- The entries of a journal, one statement each. -/
def storeEntries (entries : List Entry) : Option (List Entry) := entries.mapM storeEntry

/-- `assert_journal_balances`, at commit. -/
def triggerAccepts (rows : List Entry) : Bool := rows.all fun e => assetSum rows e.asset = 0

/-- The database takes the entries of a new journal. -/
def databaseAccepts (entries : List Entry) : Bool := (storeEntries entries).any triggerAccepts

/-! ## Sums of decimals -/

/-- How `build` can fail: with an error, or in an addition that panics. -/
inductive BuildFailure where
  | refused (error : LedgerError)
  | panicked
  deriving DecidableEq

section Build

variable (add : ℚ → ℚ → Option ℚ)

/-- The first loop of `build`: no amount is zero, and each is added to the sum of its asset. -/
def addEntries : (Asset → ℚ) → List Entry → Except BuildFailure (Asset → ℚ)
  | sums, [] => .ok sums
  | sums, e :: rest =>
    if e.amount = 0 then .error (.refused (.zeroAmount e.account))
    else match add (sums e.asset) e.amount with
      | none => .error .panicked
      | some sum => addEntries (Function.update sums e.asset sum) rest

/-- `JournalBuilder::build` with the addition of `Decimal`. -/
def JournalBuilder.buildIn (b : JournalBuilder) : Except BuildFailure JournalBuilder :=
  if b.entries.length < 2 then .error (.refused (.tooFewEntries b.entries.length))
  else match addEntries add (fun _ => 0) b.entries with
    | .error e => .error e
    | .ok sums =>
      match b.entries.find? (fun e => sums e.asset ≠ 0) with
      | some e => .error (.refused (.unbalanced e.asset (sums e.asset)))
      | none =>
        match b.entries.find? (fun e => b.kind.isCustodyOnly && e.account.kind.isLiability) with
        | some e => .error (.refused (.custodyJournalTouchedLiability b.kind e.account))
        | none => .ok b

/-- The entries balance in the sense of `build`: each asset's amounts, added up in turn, come to
zero. -/
def BalancedIn (entries : List Entry) : Prop :=
  ∀ asset, runningFrom add 0 (amountsIn entries asset) = some 0

/-- The additions of `build` round nothing away. -/
def RoundsNothing (entries : List Entry) : Prop :=
  ∀ asset, lostFrom add 0 (amountsIn entries asset) = some 0

variable {add}

lemma assetSum_eq (entries : List Entry) (asset : Asset) :
    assetSum entries asset = (amountsIn entries asset).sum := rfl

lemma amountsIn_cons (e : Entry) (rest : List Entry) (asset : Asset) : amountsIn (e :: rest) asset =
    if e.asset = asset then e.amount :: amountsIn rest asset else amountsIn rest asset := by
  by_cases h : e.asset = asset <;> simp [amountsIn, h]

/-- The loop goes through exactly if no amount is zero and every sum comes out. -/
lemma addEntries_eq_ok_iff {sums sums' : Asset → ℚ} {entries : List Entry} :
    addEntries add sums entries = .ok sums' ↔ (∀ e ∈ entries, e.amount ≠ 0) ∧
      ∀ asset, runningFrom add (sums asset) (amountsIn entries asset) = some (sums' asset) := by
  induction entries generalizing sums with
  | nil => simp [addEntries, amountsIn, funext_iff]
  | cons e rest ih =>
      rw [addEntries, List.forall_mem_cons]
      by_cases hzero : e.amount = 0
      · simp [hzero]
      · rw [if_neg hzero]
        have hown : ∀ sum, amountsIn (e :: rest) e.asset = e.amount :: amountsIn rest e.asset ∧
            ∀ asset, runningFrom add (Function.update sums e.asset sum asset)
              (amountsIn rest asset) = if e.asset = asset then
                runningFrom add sum (amountsIn rest asset)
              else runningFrom add (sums asset) (amountsIn (e :: rest) asset) := by
          refine fun sum => ⟨by rw [amountsIn_cons, if_pos rfl], fun asset => ?_⟩
          by_cases h : e.asset = asset
          · rw [if_pos h, h, Function.update_self]
          · rw [if_neg h, Function.update_of_ne (Ne.symm h), amountsIn_cons, if_neg h]
        cases hadd : add (sums e.asset) e.amount with
        | none =>
            simp only [reduceCtorEq, false_iff, not_and, not_forall]
            refine fun _ => ⟨e.asset, ?_⟩
            rw [(hown 0).1, runningFrom_cons, hadd]
            simp
        | some sum =>
            rw [ih]
            refine and_congr (by simp [hzero]) (forall_congr' fun asset => ?_)
            rw [(hown sum).2]
            by_cases h : e.asset = asset
            · rw [if_pos h, ← h, (hown sum).1, runningFrom_cons, hadd, Option.bind_some]
            · rw [if_neg h]

/-- **What `build` accepts**, in the arithmetic of `Decimal`. -/
lemma buildIn_eq_ok_iff {b j : JournalBuilder} : b.buildIn add = .ok j ↔ j = b ∧
    2 ≤ b.entries.length ∧ (∀ e ∈ b.entries, e.amount ≠ 0) ∧ BalancedIn add b.entries ∧
      (b.kind.isCustodyOnly = true → ∀ e ∈ b.entries, e.account.kind.isLiability = false) := by
  unfold JournalBuilder.buildIn
  split
  · rename_i hfew
    simp only [reduceCtorEq, false_iff, not_and]
    intro _ htwo
    omega
  · rename_i htwo
    split
    · rename_i failure hfail
      simp only [reduceCtorEq, false_iff, not_and]
      intro _ _ hnonzero hbalanced
      have hok := addEntries_eq_ok_iff.mpr ⟨hnonzero, hbalanced⟩
      rw [hfail] at hok
      cases hok
    · rename_i sums hsums
      obtain ⟨hnonzero, hrunning⟩ := addEntries_eq_ok_iff.mp hsums
      have hbalanced : BalancedIn add b.entries ↔ ∀ e ∈ b.entries, sums e.asset = 0 := by
        constructor
        · intro h e _
          exact Option.some.inj ((hrunning e.asset).symm.trans (h e.asset))
        · intro h asset
          by_cases hin : ∃ e ∈ b.entries, e.asset = asset
          · obtain ⟨e, he, rfl⟩ := hin
            rw [hrunning, h e he]
          · have hnone : amountsIn b.entries asset = [] := by
              refine List.map_eq_nil_iff.mpr (List.filter_eq_nil_iff.mpr fun e he => ?_)
              simpa using fun heq => hin ⟨e, he, heq⟩
            rw [hnone, runningFrom_nil]
      rw [hbalanced]
      split
      · rename_i e hfound
        simp only [reduceCtorEq, false_iff, not_and]
        intro _ _ _ hall
        exact absurd (hall e (List.mem_of_find?_eq_some hfound)) (by
          simpa using List.find?_some hfound)
      · rename_i hnone
        have hzero : ∀ e ∈ b.entries, sums e.asset = 0 := by
          simpa [List.find?_eq_none] using hnone
        split
        · rename_i e hfound
          have hbad := List.find?_some hfound
          simp only [Bool.and_eq_true] at hbad
          simp only [reduceCtorEq, false_iff, not_and]
          intro _ _ _ _ hcustody
          have hgood := hcustody hbad.1 e (List.mem_of_find?_eq_some hfound)
          rw [hbad.2] at hgood
          cases hgood
        · rename_i hcustody
          simp only [Except.ok.injEq]
          refine ⟨?_, fun h => h.1.symm⟩
          rintro rfl
          refine ⟨rfl, not_lt.mp htwo, hnonzero, hzero, fun hkind e he => ?_⟩
          simpa [hkind] using List.find?_eq_none.mp hcustody e he

/-- **With exact sums it is `build`.** -/
lemma buildIn_iff_build (hadd : rustDecimal.ExactFor (· + ·) add) {b : JournalBuilder}
    (hsums : ∀ asset, rustDecimal.CarriesSums (amountsIn b.entries asset)) :
    b.buildIn add = .ok b ↔ ∃ j, b.build = .ok j := by
  have hbalanced : BalancedIn add b.entries ↔ ∀ asset, assetSum b.entries asset = 0 := by
    refine forall_congr' fun asset => ?_
    rw [runningFrom_eq_sum hadd (hsums asset), Option.some.injEq, assetSum_eq]
  rw [buildIn_eq_ok_iff, b.build_iff, hbalanced]
  exact ⟨fun ⟨_, htwo, hnonzero, hsum, hcustody⟩ => ⟨htwo, hnonzero, hsum, hcustody⟩,
    fun h => ⟨rfl, h.two, h.nonzero, h.balanced, h.custody⟩⟩

/-- What is not lost of an exact total of zero. -/
lemma balancedIn_iff {entries : List Entry} (h : ∀ asset, assetSum entries asset = 0) :
    BalancedIn add entries ↔ RoundsNothing add entries := by
  refine forall_congr' fun asset => ?_
  rw [lostFrom_eq, ← assetSum_eq, h asset]
  cases runningFrom add 0 (amountsIn entries asset) <;> simp

end Build

/-! ## What it accepts -/

/-- No amount is less than half a unit, none as large as the column's limit, and for each asset
what lies beyond the eighteenth decimal adds up to what the additions of `build` round away. -/
structure Storable (add : ℚ → ℚ → Option ℚ) (entries : List Entry) : Prop where
  notTiny : ∀ e ∈ entries, 1 / 2 ≤ |inUnits e.amount|
  notHuge : ∀ e ∈ entries, |inUnits e.amount| + 1 / 2 < 10 ^ 38
  beyond : ∀ asset, ∃ lost, lostFrom add 0 (amountsIn entries asset) = some lost ∧
    ((amountsIn entries asset).map fun amount => beyond (inUnits amount)).sum = inUnits lost

lemma toNumeric_eq_zero_iff {amount : ℚ} : toNumeric amount = 0 ↔ |inUnits amount| < 1 / 2 := by
  rw [toNumeric, div_eq_zero_iff, or_iff_left (by norm_num), Int.cast_eq_zero,
    roundAway_eq_zero_iff]

lemma abs_toNumeric_lt_iff {amount : ℚ} :
    |toNumeric amount| < 10 ^ 20 ↔ |inUnits amount| + 1 / 2 < 10 ^ 38 := by
  have hcast : ((10 ^ 38 : ℤ) : ℚ) = 10 ^ 38 := by norm_num
  have hlimit : |roundAway (inUnits amount)| < (10 ^ 38 : ℤ) ↔
      |inUnits amount| + 1 / 2 < ((10 ^ 38 : ℤ) : ℚ) := abs_roundAway_lt_iff
  have hpos : (0 : ℚ) < 10 ^ 18 := by norm_num
  rw [hcast] at hlimit
  rw [← hlimit, ← Int.cast_lt (R := ℚ), Int.cast_abs, hcast, toNumeric, abs_div, abs_of_pos hpos,
    div_lt_iff₀ hpos, show (10 : ℚ) ^ 20 * 10 ^ 18 = 10 ^ 38 by norm_num]

lemma storeAmount_eq_some_iff {amount stored : ℚ} : storeAmount amount = some stored ↔
    stored = toNumeric amount ∧ 1 / 2 ≤ |inUnits amount| ∧
      |inUnits amount| + 1 / 2 < 10 ^ 38 := by
  rw [← abs_toNumeric_lt_iff, ← not_lt, ← toNumeric_eq_zero_iff]
  unfold storeAmount
  split_ifs with hhuge hz
  · simp [not_lt.mpr hhuge]
  · simp [hz]
  · simp [not_le.mp hhuge, hz, eq_comm]

/-- The rows of a journal whose amounts all fit. -/
lemma storeEntries_eq_some_iff {entries rows : List Entry} : storeEntries entries = some rows ↔
    rows = entries.map (fun e => { e with amount := toNumeric e.amount }) ∧
      (∀ e ∈ entries, 1 / 2 ≤ |inUnits e.amount|) ∧
      ∀ e ∈ entries, |inUnits e.amount| + 1 / 2 < 10 ^ 38 := by
  induction entries generalizing rows with
  | nil => simp [storeEntries, eq_comm]
  | cons e rest ih =>
      unfold storeEntries at ih ⊢
      simp only [List.mapM_cons, Option.bind_eq_bind, Option.bind_eq_some_iff, Option.pure_def,
        Option.some.injEq]
      constructor
      · rintro ⟨row, hrow, rows', hrows', rfl⟩
        obtain ⟨amount, hamount, rfl⟩ := Option.map_eq_some_iff.mp hrow
        obtain ⟨rfl, htiny, hhuge⟩ := storeAmount_eq_some_iff.mp hamount
        obtain ⟨rfl, htiny', hhuge'⟩ := ih.mp hrows'
        exact ⟨rfl, List.forall_mem_cons.mpr ⟨htiny, htiny'⟩,
          List.forall_mem_cons.mpr ⟨hhuge, hhuge'⟩⟩
      · rintro ⟨rfl, htiny, hhuge⟩
        obtain ⟨htiny, htiny'⟩ := List.forall_mem_cons.mp htiny
        obtain ⟨hhuge, hhuge'⟩ := List.forall_mem_cons.mp hhuge
        exact ⟨_, Option.map_eq_some_iff.mpr
          ⟨_, storeAmount_eq_some_iff.mpr ⟨rfl, htiny, hhuge⟩, rfl⟩, _,
          ih.mpr ⟨rfl, htiny', hhuge'⟩, rfl⟩

/-- What is kept of an asset, and what is beyond the eighteenth decimal, make up the total. -/
lemma assetSum_toNumeric (entries : List Entry) (asset : Asset) :
    inUnits (assetSum (entries.map fun e => { e with amount := toNumeric e.amount }) asset) +
      ((amountsIn entries asset).map fun amount => beyond (inUnits amount)).sum =
        inUnits (assetSum entries asset) := by
  induction entries with
  | nil => simp [assetSum, amountsIn, inUnits]
  | cons e rest ih =>
      have hround := roundAway_add_beyond (inUnits e.amount)
      have hunits : inUnits (toNumeric e.amount) = roundAway (inUnits e.amount) := by
        rw [toNumeric, inUnits]
        field_simp
      simp only [assetSum_eq, List.map_cons, amountsIn_cons] at ih ⊢
      by_cases h : e.asset = asset
      · have h' : ({ e with amount := toNumeric e.amount } : Entry).asset = asset := h
        simp only [h, h', if_true, List.map_cons, List.sum_cons]
        unfold inUnits at *
        linarith
      · have h' : ({ e with amount := toNumeric e.amount } : Entry).asset ≠ asset := h
        simp only [h, h', if_false]
        exact ih

lemma triggerAccepts_iff (rows : List Entry) :
    triggerAccepts rows = true ↔ ∀ asset, assetSum rows asset = 0 := by
  simp only [triggerAccepts, List.all_eq_true, decide_eq_true_eq]
  constructor
  · intro h asset
    by_cases hin : ∃ e ∈ rows, e.asset = asset
    · obtain ⟨e, he, rfl⟩ := hin
      exact h e he
    · exact assetSum_of_notMem fun e he heq => hin ⟨e, he, heq⟩
  · exact fun h e _ => h e.asset

/-- Amounts of eighteen decimals at most, other than zero and for each asset of less than 96 bits
of units together, are storable: then all sums fit a `Decimal`. -/
lemma storable_of_units {add : ℚ → ℚ → Option ℚ} (hadd : rustDecimal.ExactFor (· + ·) add)
    {entries : List Entry} (hunits : ∀ e ∈ entries, e.amount ≠ 0 ∧ ∃ n : ℤ, inUnits e.amount = n)
    (hsize : ∀ asset, ((amountsIn entries asset).map fun x => |inUnits x|).sum < 2 ^ 96)
    (hzero : ∀ asset, assetSum entries asset = 0) : Storable add entries where
  notTiny e he := by
    obtain ⟨hne, n, hn⟩ := hunits e he
    have hn0 : n ≠ 0 := by
      rintro rfl
      simp [inUnits, hne] at hn
    have hone : (1 : ℚ) ≤ |(n : ℚ)| := by exact_mod_cast Int.one_le_abs hn0
    rw [hn]
    linarith
  notHuge e he := by
    have hmem : |inUnits e.amount| ∈ (amountsIn entries e.asset).map fun x => |inUnits x| :=
      List.mem_map.mpr ⟨_, List.mem_map.mpr ⟨e, by simpa using he, rfl⟩, rfl⟩
    have hle := List.single_le_sum (by
      intro x hx
      obtain ⟨y, -, rfl⟩ := List.mem_map.mp hx
      exact abs_nonneg _) _ hmem
    have hlt := hle.trans_lt (hsize e.asset)
    linarith [show (2 : ℚ) ^ 96 + 1 / 2 < 10 ^ 38 by norm_num]
  beyond asset := by
    have hwhole : ∀ x ∈ amountsIn entries asset, ∃ n : ℤ, inUnits x = n := by
      intro x hx
      obtain ⟨e, he, rfl⟩ := List.mem_map.mp hx
      exact (hunits e (List.mem_of_mem_filter he)).2
    have hlimit : ((rustDecimal.limit : ℕ) : ℚ) = 2 ^ 96 := by norm_num [rustDecimal]
    have hsums : rustDecimal.CarriesSums (amountsIn entries asset) :=
      DecimalFormat.carriesSums_of_units (by norm_num [rustDecimal]) hwhole
        (hlimit ▸ hsize asset)
    refine ⟨0, ?_, ?_⟩
    · rw [lostFrom_eq, runningFrom_eq_sum hadd hsums, ← assetSum_eq, hzero asset]
      simp
    · rw [inUnits, zero_mul]
      refine List.sum_eq_zero fun x hx => ?_
      obtain ⟨y, hy, rfl⟩ := List.mem_map.mp hx
      obtain ⟨n, hn⟩ := hwhole y hy
      rw [hn, beyond_intCast]

/-- A deposit of 5.25 USDT. -/
def depositOfCents : JournalBuilder :=
  .transfer .depositCredit "d1" "deposit:d1" (.custody .usdt) (.userCrypto 7 .usdt) (21 / 4)

/-- An addition that never rounds. -/
def exactAdd (x y : ℚ) : Option ℚ := some (x + y)

lemma exactAdd_exactFor : rustDecimal.ExactFor (· + ·) exactAdd := fun _ _ _ _ _ => rfl

/-- Twice 0.6 and once -1.2 of the eighteenth decimal: kept as 1, 1 and -1. -/
def splitDust : JournalBuilder :=
  ⟨.adjustment, "a1", "adjust:a1", [⟨.custody .eth, 6 / 10 ^ 19⟩, ⟨.platform .ngnFloat, 5⟩,
    ⟨⟨.custodyHot, none, .eth⟩, 6 / 10 ^ 19⟩, ⟨.platform .feeRevenue, -5⟩,
    ⟨⟨.custodyMaster, none, .eth⟩, -12 / 10 ^ 19⟩]⟩

end Naivolt
