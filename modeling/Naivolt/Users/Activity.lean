import Naivolt.Foundation.Calendar
import Naivolt.Foundation.Fields
import Naivolt.Foundation.Pages
import Naivolt.Payouts.Answers
import Naivolt.Watcher.Receipts

/-!
# The activity feed

`list_activity` of `activity_routes.rs` reads the hundred newest deposits and the hundred newest
payouts of a user, writes the time of each as a text, and sorts the two together by these texts;
the client draws its Today and Yesterday from the order it is given.  `activity_detail` opens the
receipt behind a row.

The text of a time is chrono's, and so a parameter here; of it no more is used than the format
that chrono documents, until the year 10000 (`WritesRfc3339`).  A time is written with only as many
digits of its second as it needs, so the texts differ in length.  They sort as the times do all the
same (`WritesRfc3339.lt`).  The feed therefore begins with the hundred newest of everything the user
did (`feed_newest_first`).
-/

namespace Naivolt

open Foundation Foundation.Machine Fields

/-! ## Written times -/

/-- The year of a written date; one of more than four digits has a sign. -/
def writtenYear (y : ℕ) : List Char :=
  if y < 10000 then field 4 y else '+' :: (toString y).toList

/-- `YYYY-MM-DD` and what separates it from the time. -/
def writtenDate (d : Date) : List Char :=
  writtenYear d.year.toNat ++ ('-' :: (field 2 d.month ++ ('-' :: (field 2 d.day ++ ['T']))))

/-- `HH:MM:SS`, of a second of the day. -/
def writtenClock (second : ℕ) : List Char :=
  field 2 (second / 3600) ++ (':' :: (field 2 (second % 3600 / 60) ++
    (':' :: field 2 (second % 3600 % 60))))

/-- The fraction of a second, in microseconds: nothing, milliseconds or microseconds. -/
def writtenFraction (micros : ℕ) : List Char :=
  if micros = 0 then []
  else if micros % 1000 = 0 then '.' :: field 3 (micros / 1000)
  else '.' :: field 6 micros

/-- `+00:00`, the offset of UTC. -/
def writtenOffset : List Char := ['+', '0', '0', ':', '0', '0']

/-- A second has so many microseconds, and a day so many seconds. -/
def perSecond : ℕ := 1000000

def perDay : ℕ := 86400

/-- The format of `DateTime::<Utc>::to_rfc3339`. -/
def rfc3339Text (t : Time) : String :=
  String.ofList (writtenDate (Date.ofDays 1970 (t / perSecond / perDay)) ++
    (writtenClock (t / perSecond % perDay) ++
      (writtenFraction (t % perSecond) ++ writtenOffset)))

/-- The first moment of the year 10000. -/
def tenThousand : Time := 2932897 * perDay * perSecond

/-- A library that writes times in this format, in every year of four digits. -/
def WritesRfc3339 (toRfc3339 : Time → String) : Prop :=
  ∀ t < tenThousand, toRfc3339 t = rfc3339Text t

lemma writesRfc3339_rfc3339Text : WritesRfc3339 rfc3339Text := fun _ _ => rfl

/-! ## They sort as the times do -/

lemma year_of_days {days : ℕ} (h : days < 2932897) :
    1970 ≤ (Date.ofDays 1970 days).year ∧ (Date.ofDays 1970 days).year < 10000 := by
  have hspec := Date.yearOfDays_spec 1970 days
  have hfirst : yearStart 1970 = 719162 := by decide
  have hlast : yearStart 10000 = 3652059 := by decide
  have hyear : (Date.ofDays 1970 days).year = Date.yearOfDays 1970 days := rfl
  rw [hyear]
  constructor
  · by_contra hlt
    have hle := yearStart_le (show Date.yearOfDays 1970 days < 1970 by omega)
    omega
  · by_contra hge
    rcases lt_or_eq_of_le (not_lt.mp hge) with hlt | heq
    · have hle := yearStart_le hlt
      have hmono := yearStart_succ 10000
      split at hmono <;> omega
    · rw [← heq] at hspec
      omega

lemma writtenYear_lt {y y' : ℕ} (h : y < y') (hy' : y' < 10000) :
    writtenYear y < writtenYear y' := by
  unfold writtenYear
  rw [if_pos (h.trans hy'), if_pos hy']
  exact field_lt h hy'

@[simp] lemma length_writtenYear {y : ℕ} (hy : y < 10000) : (writtenYear y).length = 4 := by
  unfold writtenYear
  rw [if_pos hy, length_field]

/-- A mark between two fields does not matter. -/
lemma mark_lt (c : Char) {a b : List Char} (h : a < b) : c :: a < c :: b :=
  List.cons_lt_cons_iff.mpr (.inr ⟨rfl, h⟩)

lemma writtenDate_lt {d d' : Date} (h : d.dayNumber < d'.dayNumber) (hyear : 0 ≤ d.year)
    (hyear' : 0 ≤ d'.year) (hy : d.year < 10000) (hy' : d'.year < 10000) :
    writtenDate d < writtenDate d' := by
  have hmonth := d'.month_mem
  have hday := d'.day_le
  have hlong : longestMonth d'.month ≤ 31 := by
    unfold longestMonth
    split
    · omega
    · split <;> omega
  unfold writtenDate
  refine append_lt ?_ ?_
  · rw [length_writtenYear (by omega), length_writtenYear (by omega)]
  rcases Date.lt_iff.mp h with hlt | ⟨heq, hlt | ⟨hmeq, hlt⟩⟩
  · exact .inl (writtenYear_lt (by omega) (by omega))
  · refine .inr ⟨by rw [heq], mark_lt _ (append_lt ?_ (.inl (field_lt hlt (by omega))))⟩
    rw [length_field, length_field]
  · refine .inr ⟨by rw [heq], mark_lt _ ?_⟩
    rw [hmeq]
    refine append_lt_right _ (mark_lt _ (append_lt_left _ _ ?_ (field_lt hlt (by omega))))
    rw [length_field, length_field]

lemma length_writtenDate {d : Date} (hy : d.year < 10000) : (writtenDate d).length = 11 := by
  unfold writtenDate
  simp [length_writtenYear (show d.year.toNat < 10000 by omega)]

@[simp] lemma length_writtenClock (second : ℕ) : (writtenClock second).length = 8 := by
  simp [writtenClock]

lemma writtenClock_lt {second second' : ℕ} (h : second < second') (hday : second' < perDay) :
    writtenClock second < writtenClock second' := by
  have hminutes : ∀ a b, a < b → b < 60 → ':' :: field 2 a < ':' :: field 2 b :=
    fun a b hab hb => mark_lt _ (field_lt hab (by omega))
  have hhours : ∀ a b, a < b → b < 3600 →
      ':' :: (field 2 (a / 60) ++ (':' :: field 2 (a % 60))) <
        ':' :: (field 2 (b / 60) ++ (':' :: field 2 (b % 60))) :=
    fun a b hab hb => mark_lt _ (@split_lt 2 60 a b (fun n => ':' :: field 2 n) hminutes
      (by decide) hab (by omega))
  unfold perDay at hday
  exact @split_lt 2 3600 second second'
    (fun n => ':' :: (field 2 (n / 60) ++ (':' :: field 2 (n % 60)))) hhours (by decide) h
    (by omega)

/-! A fraction without its last digits is a shorter text, and what follows comes before any
digit. -/

/-- What follows the milliseconds. -/
def afterMillis (micros : ℕ) : List Char :=
  if micros = 0 then writtenOffset else field 3 micros ++ writtenOffset

lemma afterMillis_lt {a b : ℕ} (h : a < b) (hb : b < 1000) : afterMillis a < afterMillis b := by
  have hpos : b ≠ 0 := by omega
  unfold afterMillis
  rw [if_neg hpos]
  split
  · rw [field, List.cons_append, writtenOffset, List.cons_lt_cons_iff]
    exact .inl (lt_digitChar (by decide) (Nat.mod_lt _ (by decide)))
  · refine append_lt_left _ _ ?_ (field_lt h (by omega))
    rw [length_field, length_field]

lemma writtenFraction_append {micros : ℕ} (h : micros ≠ 0) :
    writtenFraction micros ++ writtenOffset =
      '.' :: (field 3 (micros / 1000) ++ afterMillis (micros % 1000)) := by
  unfold writtenFraction afterMillis
  rw [if_neg h]
  split
  · rw [List.cons_append]
  · rw [List.cons_append, show (6 : ℕ) = 3 + 3 from rfl, field_add, List.append_assoc]
    rfl

lemma writtenFraction_lt {micros micros' : ℕ} (h : micros < micros') (hsec : micros' < perSecond) :
    writtenFraction micros ++ writtenOffset < writtenFraction micros' ++ writtenOffset := by
  unfold perSecond at hsec
  rw [writtenFraction_append (show micros' ≠ 0 by omega)]
  rcases Nat.eq_zero_or_pos micros with rfl | hpos
  · rw [writtenFraction, if_pos rfl, List.nil_append, writtenOffset, List.cons_lt_cons_iff]
    exact .inl (by decide)
  · rw [writtenFraction_append (show micros ≠ 0 by omega)]
    exact mark_lt _ (split_lt (fun a b => afterMillis_lt) (by decide) h (by omega))

/-- **Written times sort as the times do**, until the year 10000. -/
lemma rfc3339Text_lt {t t' : ℕ} (h : t < t') (hera : t' < tenThousand) :
    rfc3339Text t < rfc3339Text t' := by
  have hsec : 0 < perSecond := by decide
  have hday : 0 < perDay := by decide
  have hdays' : t' / perSecond / perDay < 2932897 := by
    rw [Nat.div_div_eq_div_mul, Nat.div_lt_iff_lt_mul (by positivity)]
    exact hera.trans_eq (by decide)
  have hle : t / perSecond / perDay ≤ t' / perSecond / perDay :=
    Nat.div_le_div_right (Nat.div_le_div_right h.le)
  have hyear := year_of_days (hle.trans_lt hdays')
  have hyear' := year_of_days hdays'
  unfold rfc3339Text
  rw [String.lt_iff_toList_lt, String.toList_ofList, String.toList_ofList]
  refine append_lt ?_ ?_
  · rw [length_writtenDate hyear.2, length_writtenDate hyear'.2]
  rcases lt_or_eq_of_le hle with hlt | heq
  · refine .inl (writtenDate_lt ?_ (by omega) (by omega) hyear.2 hyear'.2)
    rw [Date.dayNumber_ofDays, Date.dayNumber_ofDays]
    omega
  · refine .inr ⟨by rw [heq], append_lt ?_ ?_⟩
    · rw [length_writtenClock, length_writtenClock]
    have hsplit := Nat.div_add_mod (t / perSecond) perDay
    have hsplit' := Nat.div_add_mod (t' / perSecond) perDay
    rw [heq] at hsplit
    have hseconds : t / perSecond ≤ t' / perSecond := Nat.div_le_div_right h.le
    rcases lt_or_eq_of_le hseconds with hlt | hseq
    · exact .inl (writtenClock_lt (by omega) (Nat.mod_lt _ hday))
    · refine .inr ⟨by rw [hseq], writtenFraction_lt ?_ (Nat.mod_lt _ hsec)⟩
      have hmicros := Nat.div_add_mod t perSecond
      have hmicros' := Nat.div_add_mod t' perSecond
      rw [hseq] at hmicros
      omega

example : rfc3339Text 1709209845120000 = "2024-02-29T12:30:45.120+00:00" := by decide +kernel

section Library

variable {toRfc3339 : Time → String}

lemma WritesRfc3339.lt (hw : WritesRfc3339 toRfc3339) {t t' : Time} (h : t < t')
    (hera : t' < tenThousand) : toRfc3339 t < toRfc3339 t' := by
  rw [hw t (h.trans hera), hw t' hera]
  exact rfc3339Text_lt h hera

lemma WritesRfc3339.le_iff (hw : WritesRfc3339 toRfc3339) {t t' : Time} (ht : t < tenThousand)
    (ht' : t' < tenThousand) : toRfc3339 t ≤ toRfc3339 t' ↔ t ≤ t' := by
  constructor
  · intro h
    by_contra hlt
    exact absurd (hw.lt (not_le.mp hlt) ht) (not_lt.mpr h)
  · intro h
    rcases lt_or_eq_of_le h with hlt | rfl
    · exact (hw.lt hlt ht').le
    · exact le_rfl

end Library

/-! ## The feed -/

/-- The words of `payouts_status_check`. -/
def PayoutStatus.asStr : PayoutStatus → String
  | reserved => "reserved"
  | processing => "processing"
  | settled => "settled"
  | failed => "failed"
  | reversed => "reversed"

/-- `last4`. -/
def last4 (accountNumber : String) : String :=
  String.ofList (accountNumber.toList.drop (accountNumber.length - 4))

/-- `ActivityItem` for a deposit.  `created_at` is a column the watcher never reads, and so an
argument here; so are the naira rates. -/
def depositItem (rates : Asset → Option ℚ) (createdAt : Uuid → Time) (r : Uuid × Deposit) :
    ActivityItem where
  id := r.1
  kind := "deposit"
  asset := r.2.asset
  amount := r.2.amount
  ngnValue := (rates r.2.asset).map fun rate => roundDp (r.2.amount * rate) 4
  status := r.2.status.asStr
  createdAt := createdAt r.1
  detail := some (r.2.network.asStr ++ " · " ++ toString r.2.confirmations ++ " confirmations")

/-- `ActivityItem` for a payout and the account it went to. -/
def payoutItem (r : (Uuid × Payout) × BankAccount) : ActivityItem where
  id := r.1.1
  kind := "payout"
  asset := .ngn
  amount := r.1.2.amountNgn
  ngnValue := some r.1.2.amountNgn
  status := r.1.2.status.asStr
  createdAt := r.1.2.createdAt
  detail := some (bankName r.2.bankCode ++ " ···" ++ last4 r.2.accountNumber)

/-- The deposits of a user. -/
def depositsOf (w : BankingWorld) (userId : Uuid) : List (Uuid × Deposit) :=
  w.world.deposits.table.rows.filter fun r => r.2.userId = userId

/-- The payouts of a user, each `JOIN`ed to its account. -/
def payoutsOf (w : BankingWorld) (userId : Uuid) : List ((Uuid × Payout) × BankAccount) :=
  (w.world.payouts.rows.filter fun r => r.2.userId = userId).filterMap fun r =>
    (w.accounts.get? r.2.bankAccountId).map fun account => (r, account)

/-- The later item comes first. -/
def Newer (a b : ActivityItem) : Prop := b.createdAt ≤ a.createdAt

/-- `list_activity`, of the rows its two queries return: the later text comes first, and items
with one text stay as they are. -/
def listActivity (toRfc3339 : Time → String) (rates : Asset → Option ℚ)
    (createdAt : Uuid → Time) (deposits : List (Uuid × Deposit))
    (payouts : List ((Uuid × Payout) × BankAccount)) : List ActivityItem :=
  (deposits.map (depositItem rates createdAt) ++ payouts.map payoutItem).mergeSort
    fun a b => toRfc3339 b.createdAt ≤ toRfc3339 a.createdAt

/-- The rows the queries return: the hundred newest of each kind. -/
structure Fetched (createdAt : Uuid → Time) (w : BankingWorld) (userId : Uuid)
    (deposits : List (Uuid × Deposit)) (payouts : List ((Uuid × Payout) × BankAccount)) : Prop where
  deposits : FirstRows (fun a b => createdAt b.1 ≤ createdAt a.1) 100 (depositsOf w userId) deposits
  payouts : FirstRows (fun a b => b.1.2.createdAt ≤ a.1.2.createdAt) 100 (payoutsOf w userId)
    payouts

/-- Everything the user did. -/
def everything (rates : Asset → Option ℚ) (createdAt : Uuid → Time) (w : BankingWorld)
    (userId : Uuid) : List ActivityItem :=
  (depositsOf w userId).map (depositItem rates createdAt) ++ (payoutsOf w userId).map payoutItem

/-! ## The receipts behind it -/

/-- `ActivityDetail`, as far as a payout fills it in. -/
structure PayoutDetail where
  item : ActivityItem
  reference : Option String
  timeline : List TimelineStep
  bankName : Option String
  accountNumber : Option String
  accountName : Option String
  fee : Option ℚ
  failureReason : Option String

/-- The body of `payout_detail`, for the row it has found.  `updated_at` and `failure_reason` are
columns nothing here writes, and so arguments. -/
def payoutReceiptOf (updatedAt : Time) (failureReason : Option String)
    (r : (Uuid × Payout) × BankAccount) : PayoutDetail :=
  let status := r.1.2.status.asStr
  let settled : Bool := status = "settled"
  let failed : Bool := status = "failed" || status = "reversed"
  let sent : Bool := status = "processing" || status = "settled"
  { item := payoutItem r
    reference := some r.1.2.providerReference
    timeline :=
      [{ label := "Requested", time := some r.1.2.createdAt, state := .done },
        { label := if failed then "Failed at the bank" else "Sent to your bank",
          time := if sent || failed then some updatedAt else none,
          state := if failed then .failed else if sent then .done else .current },
        { label := "Settled",
          time := if settled then some updatedAt else none,
          state := if settled then .done else if sent then .current else .pending }]
    bankName := some (Naivolt.bankName r.2.bankCode)
    accountNumber := some r.2.accountNumber
    accountName := some r.2.accountName
    fee := some r.1.2.feeNgn
    failureReason := failureReason }

/-- `payout_detail`: the caller's own payout, if this is one. -/
def payoutDetail (updatedAt : Uuid → Time) (failureReason : Uuid → Option String)
    (w : BankingWorld) (userId id : Uuid) : Option PayoutDetail :=
  ((w.world.payouts.get? id).filter fun p => p.userId = userId).bind fun p =>
    (w.accounts.get? p.bankAccountId).map fun account =>
      payoutReceiptOf (updatedAt id) (failureReason id) ((id, p), account)

/-- A receipt of either kind. -/
inductive Receipt where
  | deposit (r : ActivityDetail)
  | payout (r : PayoutDetail)

namespace Receipt

def item : Receipt → ActivityItem
  | deposit r => r.item
  | payout r => r.item

def timeline : Receipt → List TimelineStep
  | deposit r => r.timeline
  | payout r => r.timeline

end Receipt

/-- `activity_detail`. -/
def activityDetail (rates : Asset → Option ℚ) (createdAt updatedAt : Uuid → Time)
    (failureReason : Uuid → Option String) (w : BankingWorld) (userId id : Uuid) :
    Except ApiError Receipt :=
  match depositDetail rates createdAt w.world.deposits userId id with
  | some r => .ok (.deposit r)
  | none =>
    match payoutDetail updatedAt failureReason w userId id with
    | some r => .ok (.payout r)
    | none => .error .notFound

/-! ## Every payout has its account -/

lemma isSome_storeAccount {fresh userId id i : Uuid} {bankCode number name : String}
    {accounts accounts' : Table Uuid BankAccount}
    (h : storeAccount fresh userId bankCode number name accounts = some (id, accounts'))
    (hi : (accounts.get? i).isSome = true) : (accounts'.get? i).isSome = true := by
  unfold storeAccount at h
  split at h
  · cases h
    rw [Table.get?_modify]
    split
    · rwa [Option.isSome_map]
    · exact hi
  · obtain ⟨t, hinsert, h⟩ := Option.map_eq_some_iff.mp h
    cases h
    rw [Table.get?_insert hinsert]
    split
    · rfl
    · exact hi

lemma referenced_iff {w : BankingWorld} :
    Referenced w ↔ ∀ id p, w.world.payouts.get? id = some p →
      (w.accounts.get? p.bankAccountId).isSome = true :=
  ⟨fun h id p hp => h (id, p) (Table.get?_eq_some_iff.mp hp),
    fun h r hr => h r.1 r.2 (Table.get?_eq_some_iff.mpr hr)⟩

lemma Referenced.of_referenced {w w' : BankingWorld} (h : referenced w = some w') :
    Referenced w' := by
  unfold referenced at h
  split at h
  · cases h
    assumption
  · cases h

/-- Accounts that stay serve payouts that go where they went. -/
lemma Referenced.mono {w w' : BankingWorld} (h : Referenced w)
    (haccounts : ∀ i, (w.accounts.get? i).isSome = true → (w'.accounts.get? i).isSome = true)
    (hpayouts : ∀ id p', w'.world.payouts.get? id = some p' →
      ∃ p, w.world.payouts.get? id = some p ∧ p.bankAccountId = p'.bankAccountId) :
    Referenced w' := by
  rw [referenced_iff] at h ⊢
  intro id p' hp'
  obtain ⟨p, hp, hsame⟩ := hpayouts id p' hp'
  exact haccounts _ (hsame ▸ h id p hp)

lemma referenced_of_step {cfg : Config} {w w' : BankingWorld} (hstep : (banking cfg).WorldStep w w')
    (h : Referenced w) : Referenced w' := by
  cases hstep with
  | @exec tid op ω r _ _ he =>
      cases op with
      | payouts op =>
          obtain ⟨⟨r', world⟩, -, he⟩ := Option.bind_eq_some_iff.mp he
          obtain ⟨w'', href, he⟩ := Option.map_eq_some_iff.mp he
          cases he
          exact .of_referenced href
      | resolveAccount | readAccount =>
          cases he
          exact h
      | storeAccount =>
          obtain ⟨⟨id, accounts⟩, hstore, he⟩ := Option.map_eq_some_iff.mp he
          cases he
          exact h.mono (fun i hi => isSome_storeAccount hstore hi) fun id p' hp' => ⟨p', hp', rfl⟩
  | @env e _ _ he =>
      cases e with
      | paying e =>
          obtain ⟨world, hmove, rfl⟩ := Option.map_eq_some_iff.mp he
          refine h.mono (fun i hi => hi) fun id p' hp' => ?_
          cases e with
          | env e =>
              obtain ⟨now, wallets, tiers, -, rfl⟩ := execEnv_eq hmove
              exact ⟨p', hp', rfl⟩
          | moved payout status =>
              cases hmove
              simp only [Table.get?_modify] at hp'
              split at hp'
              · obtain ⟨p, hp, rfl⟩ := Option.map_eq_some_iff.mp hp'
                exact ⟨p, hp, rfl⟩
              · exact ⟨p', hp', rfl⟩
      | ran tid op ω =>
          cases op with
          | payouts => cases he
          | _ =>
              obtain ⟨⟨r, world⟩, hran, rfl⟩ := Option.map_eq_some_iff.mp he
              refine h.mono (fun i hi => hi) fun id p' hp' => ⟨p', ?_, rfl⟩
              cases (exec_move hran).2 with
              | _ => exact hp'
      | added =>
          obtain ⟨⟨id, accounts⟩, hstore, rfl⟩ := Option.map_eq_some_iff.mp he
          exact h.mono (fun i hi => isSome_storeAccount hstore hi) fun id p' hp' => ⟨p', hp', rfl⟩
      | removed userId id =>
          simp only [banking, moveBanking] at he
          split at he
          · exact .of_referenced he
          · cases he

/-- No payout drops out of the feed. -/
lemma referenced_of_reachable {cfg : Config} {now : Time} {wallets : List Wallet}
    {s : BankingState} (h : (banking cfg).Reachable unguarded (openBanking now wallets) s) :
    Referenced s.world :=
  h.world_inv (fun _ hr => absurd hr List.not_mem_nil) fun _ _ => referenced_of_step

/-! ## The order of the feed -/

section Feed

variable {toRfc3339 : Time → String} (rates : Asset → Option ℚ)
  (createdAt updatedAt : Uuid → Time) (failureReason : Uuid → Option String) {w : BankingWorld}
  {userId : Uuid}
  {deposits : List (Uuid × Deposit)} {payouts : List ((Uuid × Payout) × BankAccount)}

lemma perm_listActivity : (listActivity toRfc3339 rates createdAt deposits payouts).Perm
    (deposits.map (depositItem rates createdAt) ++ payouts.map payoutItem) :=
  List.mergeSort_perm _ _

/-- Sorted by its texts, a feed of this era is sorted by its times. -/
lemma pairwise_listActivity (hw : WritesRfc3339 toRfc3339)
    (hera : ∀ item ∈ listActivity toRfc3339 rates createdAt deposits payouts,
      item.createdAt < tenThousand) :
    (listActivity toRfc3339 rates createdAt deposits payouts).Pairwise Newer := by
  have hsorted := @List.pairwise_mergeSort _
    (fun a b : ActivityItem => toRfc3339 b.createdAt ≤ toRfc3339 a.createdAt)
    (fun a b c hab hbc => by
      rw [decide_eq_true_eq] at hab hbc ⊢
      exact hbc.trans hab)
    (fun a b => by
      rw [Bool.or_eq_true, decide_eq_true_eq, decide_eq_true_eq]
      exact le_total _ _)
    (deposits.map (depositItem rates createdAt) ++ payouts.map payoutItem)
  refine hsorted.imp_of_mem fun {a b} ha hb hab => ?_
  exact (hw.le_iff (hera b hb) (hera a ha)).mp (decide_eq_true_eq.mp hab)

/-- Only what the user did is in the feed. -/
lemma mem_everything (hrows : Fetched createdAt w userId deposits payouts) {item : ActivityItem}
    (h : item ∈ listActivity toRfc3339 rates createdAt deposits payouts) :
    item ∈ everything rates createdAt w userId := by
  rw [(perm_listActivity rates createdAt).mem_iff, List.mem_append, List.mem_map,
    List.mem_map] at h
  rw [everything, List.mem_append, List.mem_map, List.mem_map]
  rcases h with ⟨r, hr, rfl⟩ | ⟨r, hr, rfl⟩
  · exact .inl ⟨r, hrows.deposits.mem hr, rfl⟩
  · exact .inr ⟨r, hrows.payouts.mem hr, rfl⟩

/-! ## A row and its receipt -/

lemma item_receiptOf (created : Time) (id : Uuid) (d : Deposit)
    (hcreated : createdAt id = created) :
    (receiptOf rates created id d).item = depositItem rates createdAt (id, d) := by
  subst hcreated
  rfl

/-- A deposit of the feed opens to its receipt. -/
lemma activityDetail_deposit {r : Uuid × Deposit} (hr : r ∈ depositsOf w userId) :
    ∃ receipt, activityDetail rates createdAt updatedAt failureReason w userId r.1 =
      .ok receipt ∧ receipt.item = depositItem rates createdAt r := by
  obtain ⟨hmem, huser⟩ := List.mem_filter.mp hr
  rw [decide_eq_true_eq] at huser
  have hget : w.world.deposits.get? r.1 = some r.2 := Table.get?_eq_some_iff.mpr hmem
  have hdetail := depositDetail_owner rates createdAt hget
  rw [huser] at hdetail
  refine ⟨.deposit (receiptOf rates (createdAt r.1) r.1 r.2), ?_, ?_⟩
  · simp only [activityDetail, hdetail]
  · exact item_receiptOf rates createdAt _ r.1 r.2 rfl

/-- A payout of the feed opens to its receipt, unless a deposit has its number. -/
lemma activityDetail_payout {r : (Uuid × Payout) × BankAccount} (hr : r ∈ payoutsOf w userId)
    (hid : w.world.deposits.get? r.1.1 = none) :
    ∃ receipt, activityDetail rates createdAt updatedAt failureReason w userId r.1.1 =
      .ok receipt ∧ receipt.item = payoutItem r := by
  obtain ⟨p, hp, hjoin⟩ := List.mem_filterMap.mp hr
  obtain ⟨account, haccount, rfl⟩ := Option.map_eq_some_iff.mp hjoin
  obtain ⟨hmem, huser⟩ := List.mem_filter.mp hp
  have hget : w.world.payouts.get? p.1 = some p.2 := Table.get?_eq_some_iff.mpr hmem
  refine ⟨.payout (payoutReceiptOf (updatedAt p.1) (failureReason p.1) (p, account)), ?_, rfl⟩
  have hnone : depositDetail rates createdAt w.world.deposits userId p.1 = none := by
    rw [depositDetail, hid]
    rfl
  have hsome : payoutDetail updatedAt failureReason w userId p.1 =
      some (payoutReceiptOf (updatedAt p.1) (failureReason p.1) (p, account)) := by
    rw [payoutDetail, hget, Option.filter_some, if_pos huser, Option.bind_some, haccount]
    rfl
  simp only [activityDetail, hnone, hsome]

/-- A receipt is shown to the user whose row it is. -/
lemma owner_of_activityDetail {id : Uuid} {receipt : Receipt}
    (h : activityDetail rates createdAt updatedAt failureReason w userId id = .ok receipt) :
    receipt.item ∈ everything rates createdAt w userId := by
  unfold activityDetail at h
  split at h
  · rename_i r hr
    cases h
    obtain ⟨d, hd, rfl⟩ := Option.map_eq_some_iff.mp hr
    obtain ⟨hget, huser⟩ := Option.filter_eq_some_iff.mp hd
    refine List.mem_append_left _ (List.mem_map.mpr ⟨(id, d), ?_, rfl⟩)
    exact List.mem_filter.mpr ⟨Table.get?_eq_some_iff.mp hget, huser⟩
  · split at h
    · rename_i r hr
      cases h
      obtain ⟨p, hp, hjoin⟩ := Option.bind_eq_some_iff.mp hr
      obtain ⟨account, haccount, rfl⟩ := Option.map_eq_some_iff.mp hjoin
      obtain ⟨hget, huser⟩ := Option.filter_eq_some_iff.mp hp
      refine List.mem_append_right _ (List.mem_map.mpr ⟨((id, p), account), ?_, rfl⟩)
      refine List.mem_filterMap.mpr ⟨(id, p), List.mem_filter.mpr
        ⟨Table.get?_eq_some_iff.mp hget, huser⟩, ?_⟩
      rw [haccount]
      rfl
    · cases h

end Feed

/-- **The feed is newest first, and begins with the hundred newest of everything the user did**,
whatever else they did; no payout drops out of it.  Every row of it opens to its receipt, a payout's
as long as no deposit has the payout's identifier. -/
theorem feed_newest_first {cfg : Config} {now : Time} {wallets : List Wallet} {s : BankingState}
    (h : (banking cfg).Reachable unguarded (openBanking now wallets) s)
    {toRfc3339 : Time → String} (hw : WritesRfc3339 toRfc3339) (rates : Asset → Option ℚ)
    (createdAt updatedAt : Uuid → Time) (failureReason : Uuid → Option String) {userId : Uuid}
    (hera : ∀ item ∈ everything rates createdAt s.world userId, item.createdAt < tenThousand)
    {deposits : List (Uuid × Deposit)} {payouts : List ((Uuid × Payout) × BankAccount)}
    (hrows : Fetched createdAt s.world userId deposits payouts) :
    (listActivity toRfc3339 rates createdAt deposits payouts).Pairwise Newer ∧
    FirstRows Newer 100 (everything rates createdAt s.world userId)
      ((listActivity toRfc3339 rates createdAt deposits payouts).take 100) ∧
    (∀ id p, s.world.world.payouts.get? id = some p → p.userId = userId →
      ∃ account, payoutItem ((id, p), account) ∈ everything rates createdAt s.world userId) ∧
    ∀ item ∈ listActivity toRfc3339 rates createdAt deposits payouts,
      (item.kind = "payout" → s.world.world.deposits.get? item.id = none) →
      ∃ receipt, activityDetail rates createdAt updatedAt failureReason s.world userId item.id =
        .ok receipt ∧ receipt.item = item := by
  have hsorted := pairwise_listActivity rates createdAt hw fun item hitem =>
    hera item (mem_everything rates createdAt hrows hitem)
  refine ⟨hsorted, ?_, fun id p hp huser => ?_, fun item hitem hid => ?_⟩
  · refine FirstRows.merge (fun a b c hab hbc => le_trans hbc hab) (hrows.deposits.map _ ?_)
      (hrows.payouts.map _ ?_) (perm_listActivity rates createdAt) hsorted
    · exact fun a b hab => hab
    · exact fun a b hab => hab
  · have hsome := referenced_iff.mp (referenced_of_reachable h) id p hp
    obtain ⟨account, haccount⟩ := Option.isSome_iff_exists.mp hsome
    refine ⟨account, List.mem_append_right _ (List.mem_map.mpr ⟨((id, p), account), ?_, rfl⟩)⟩
    refine List.mem_filterMap.mpr ⟨(id, p), List.mem_filter.mpr
      ⟨Table.get?_eq_some_iff.mp hp, decide_eq_true huser⟩, ?_⟩
    rw [haccount]
    rfl
  · rw [(perm_listActivity rates createdAt).mem_iff, List.mem_append, List.mem_map,
      List.mem_map] at hitem
    rcases hitem with ⟨r, hr, rfl⟩ | ⟨r, hr, rfl⟩
    · exact activityDetail_deposit rates createdAt updatedAt failureReason
        (hrows.deposits.mem hr)
    · exact activityDetail_payout rates createdAt updatedAt failureReason
        (hrows.payouts.mem hr) (hid rfl)

/-- A user withdraws, and a second later again; in between the watcher sees a transfer. -/
def seenBetweenPayouts : List BankingAct :=
  withdrawsTwice ⟨7, "once", 1000, 0, .beneficiary 9⟩ [300, 301, 302] ++
  [.env (.ran 0 (.watcher (.upsert (evmTransfer .ethereum .usdt 1000 "b1") 7 11 0 .seen))
    { fresh := [400] }),
    .env (.paying (.env (.tick 1000000)))] ++
  serveBanking 3 ⟨7, "later", 1000, 0, .beneficiary 10⟩
    [{}, {}, {}, { backend := { fresh := [500, 501, 502] } }]

/-- The transfer was seen after half a second, and stands between the payouts. -/
theorem feed_newest_first_between : ∃ s : BankingState,
    (depositsOf s.world 7).map Prod.fst = [400] ∧
    (payoutsOf s.world 7).map (fun r => (r.1.1, r.1.2.createdAt)) = [(500, 1000000), (200, 0)] ∧
    (listActivity rfc3339Text (fun _ => none) (fun _ => 500000) (depositsOf s.world 7)
      (payoutsOf s.world 7)).Pairwise Newer := by
  obtain ⟨s, hs, hdeposits, hpayouts, hera, hfits, hfits', hsorted, hsorted'⟩ :=
    exists_reachable_of_run (banking stubConfig) unguarded (openBanking 0 [evmWallet])
    seenBetweenPayouts (fun s =>
      (depositsOf s.world 7).map Prod.fst = [400] ∧
      (payoutsOf s.world 7).map (fun r => (r.1.1, r.1.2.createdAt)) = [(500, 1000000), (200, 0)] ∧
      (∀ item ∈ everything (fun _ => none) (fun _ => 500000) s.world 7,
        item.createdAt < tenThousand) ∧
      (depositsOf s.world 7).length ≤ 100 ∧ (payoutsOf s.world 7).length ≤ 100 ∧
      (depositsOf s.world 7).Pairwise (fun _ _ => (500000 : Time) ≤ 500000) ∧
      (payoutsOf s.world 7).Pairwise (fun a b => b.1.2.createdAt ≤ a.1.2.createdAt))
    (by decide +kernel)
  exact ⟨s, hdeposits, hpayouts, (feed_newest_first hs writesRfc3339_rfc3339Text _ _ (fun _ => 0)
    (fun _ => none) hera
    ⟨.of_fits (.refl _) hsorted hfits, .of_fits (.refl _) hsorted' hfits'⟩).1⟩

end Naivolt
