import Naivolt.Foundation.Calendar
import Naivolt.Numbers.Suppliers

/-!
# The age gate

Nobody below eighteen can be verified, and `submit` of the KYC routes and `update_me` both refuse
a younger date of birth.  Either counts the days from the date to today and divides by 365.  A
year has 365 days and a leap day now and then, so that eighteen years of 365 days are over a few
days before the eighteenth birthday: three to five (`leapDaysTo_eighteen`), as many as there were
leap days.  `age_gate_exact_iff` says that the gate is exact on all other days, up to the age of
121, which `update_me` takes for a slip.
-/

namespace Naivolt

open Foundation

/-! ## The checks -/

/-- `(today - dob).num_days() / 365`, which rounds towards zero. -/
def ageYears (birth today : Date) : ℤ := (today.dayNumber - birth.dayNumber).tdiv 365

/-- The age check of a KYC submission. -/
def kycAgeCheck (birth today : Date) : Except ApiError Unit :=
  if ageYears birth today < 18 then .error (.badRequest "You must be 18 or older to verify.")
  else .ok ()

/-- What `update_me` says to somebody younger than eighteen. -/
def tooYoung : ApiError := .badRequest "You must be 18 or older."

/-- The checks of a date of birth in `update_me`: the age gate, then one for slips. -/
def profileAgeCheck (birth today : Date) : Except ApiError Unit :=
  if ageYears birth today < 18 then .error tooYoung
  else if 120 < ageYears birth today then .error (.badRequest "Check that date of birth.")
  else .ok ()

/-- The date of birth of a KYC submission, from the request or else from the profile.  `parse` is
`NaiveDate::parse_from_str` with `%Y-%m-%d`. -/
def kycDateOfBirth (parse : String → Option Date) (sent : Option String) (stored : Option Date) :
    Except ApiError Date :=
  match (sent.map trimText).filter (· ≠ "") with
  | some raw =>
    match parse raw with
    | some date => .ok date
    | none => .error (.badRequest "Enter your date of birth as YYYY-MM-DD.")
  | none =>
    match stored with
    | some date => .ok date
    | none => .error (.badRequest "Add your date of birth in your profile first.")

/-- The date of birth of a submission, checked. -/
def kycAge (parse : String → Option Date) (sent : Option String) (stored : Option Date)
    (today : Date) : Except ApiError Unit := do
  kycAgeCheck (← kycDateOfBirth parse sent stored) today

/-- The date of birth in a profile update, if there is one, checked. -/
def profileAge (parse : String → Option Date) (sent : Option String) (today : Date) :
    Except ApiError (Option Date) :=
  match sent with
  | none => .ok none
  | some raw =>
    match parse (trimText raw) with
    | none => .error (.badRequest "Enter your date of birth as YYYY-MM-DD.")
    | some date => (profileAgeCheck date today).map fun _ => some date

/-! ## Where they are exact -/

/-- The last days before the eighteenth birthday, as many as there were leap days since birth. -/
def InLeapDays (birth today : Date) : Prop :=
  birth.anniversary 18 - birth.leapDaysTo 18 ≤ today.dayNumber ∧
    today.dayNumber < birth.anniversary 18

instance (birth today : Date) : Decidable (InLeapDays birth today) := by
  unfold InLeapDays
  infer_instance

/-- In eighteen years there are three leap days at least, and five at most. -/
lemma leapDaysTo_eighteen (birth : Date) :
    3 ≤ birth.leapDaysTo 18 ∧ birth.leapDaysTo 18 ≤ 5 := by
  unfold Date.leapDaysTo
  rw [leapsFrom_eq]
  unfold leapYears
  omega

/-- So many years of 365 days have gone by. -/
lemma le_ageYears_iff {birth today : Date} {years : ℤ} (hyears : 0 < years) :
    years ≤ ageYears birth today ↔ years * 365 ≤ today.dayNumber - birth.dayNumber := by
  unfold ageYears
  rcases le_or_gt 0 (today.dayNumber - birth.dayNumber) with hpos | hneg
  · rw [Int.tdiv_eq_ediv_of_nonneg hpos]
    exact Int.le_ediv_iff_mul_le (by norm_num)
  · have hle : (today.dayNumber - birth.dayNumber).tdiv 365 ≤ 0 := by
      have h := Int.tdiv_nonneg (a := -(today.dayNumber - birth.dayNumber)) (b := 365)
        (by omega) (by omega)
      rw [Int.neg_tdiv] at h
      omega
    omega

lemma eighteen_le_ageYears_iff {birth today : Date} :
    18 ≤ ageYears birth today ↔ birth.dayNumber + 6570 ≤ today.dayNumber := by
  rw [le_ageYears_iff (by norm_num)]
  omega

/-- So many days after a birth, `update_me` takes the date for a slip. -/
def slipDays : ℤ := 121 * 365

lemma ageYears_le_iff {birth today : Date} :
    ageYears birth today ≤ 120 ↔ today.dayNumber - birth.dayNumber < slipDays := by
  have h : 121 ≤ ageYears birth today ↔ 121 * 365 ≤ today.dayNumber - birth.dayNumber :=
    le_ageYears_iff (by norm_num)
  unfold slipDays
  omega

/-- The gate and the birthday agree but for the leap days. -/
lemma age_iff_reached {birth today : Date} :
    (18 ≤ ageYears birth today ↔ Date.Reached 18 birth today) ↔ ¬ InLeapDays birth today := by
  have hdays := birth.anniversary_eq 18
  have hleap := leapDaysTo_eighteen birth
  rw [eighteen_le_ageYears_iff, Date.reached_iff]
  unfold InLeapDays
  push_cast at hdays
  omega

/-- Both checks accept exactly whoever has reached the eighteenth birthday. -/
structure GateExact (birth today : Date) : Prop where
  kyc : kycAgeCheck birth today = .ok () ↔ Date.Reached 18 birth today
  profile : profileAgeCheck birth today = .ok () ↔ Date.Reached 18 birth today

lemma kycAgeCheck_eq_ok_iff {birth today : Date} :
    kycAgeCheck birth today = .ok () ↔ 18 ≤ ageYears birth today := by
  unfold kycAgeCheck
  split <;> simp_all

lemma profileAgeCheck_eq_ok_iff {birth today : Date} : profileAgeCheck birth today = .ok () ↔
    18 ≤ ageYears birth today ∧ ageYears birth today ≤ 120 := by
  unfold profileAgeCheck
  split_ifs with hyoung hold
  · simp [hyoung]
  · simp [not_le.mpr hold]
  · simp [not_lt.mp hyoung, not_lt.mp hold]

/-- **The age gate is exact but for the last days before the birthday**, and for the age at which
`update_me` takes the date for a slip. -/
theorem age_gate_exact_iff (birth today : Date) : GateExact birth today ↔
    ¬ InLeapDays birth today ∧ today.dayNumber - birth.dayNumber < slipDays := by
  rw [← age_iff_reached, ← ageYears_le_iff]
  constructor
  · intro h
    have hreached : 18 ≤ ageYears birth today ↔ Date.Reached 18 birth today :=
      kycAgeCheck_eq_ok_iff.symm.trans h.kyc
    refine ⟨hreached, ?_⟩
    -- Whoever is 121 has reached the birthday, and is refused.
    by_contra hslip
    have hadult := hreached.mp (by omega)
    exact hslip (profileAgeCheck_eq_ok_iff.mp (h.profile.mpr hadult)).2
  · rintro ⟨hreached, hslip⟩
    exact ⟨kycAgeCheck_eq_ok_iff.trans hreached,
      profileAgeCheck_eq_ok_iff.trans ((and_iff_left hslip).trans hreached)⟩

/-! ## A child is verified -/

/-- New Year's Day of 2008. -/
def newYear2008 : Date := ⟨2008, 1, 1, by decide, by decide⟩

/-- Four days before the eighteenth birthday. -/
def fourDaysEarly : Date := ⟨2025, 12, 28, by decide, by decide⟩

/-- **Somebody of seventeen passes the gate.** -/
theorem minor_verified : ¬ ∀ birth today : Date, GateExact birth today := by
  intro h
  have haccepted : kycAgeCheck newYear2008 fourDaysEarly = .ok () := by decide
  have hearly : ¬ Date.Reached 18 newYear2008 fourDaysEarly := by decide
  exact hearly ((h newYear2008 fourDaysEarly).kyc.mp haccepted)

end Naivolt
