import KiroProxy.Lib.Gregorian

/-! The civil calendar of the daemon: days since the Unix epoch to a date and its name, and back. Both ways are the
Gregorian calendar, before the epoch and before the year zero too. -/
namespace KiroProxy.Calendar

open Gregorian

def padded (width : Nat) (n : Int) : String :=
  let digits := toString n.natAbs
  let sign := if n < 0 then "-" else ""
  sign ++ "".pushn '0' (width - sign.length - digits.length) ++ digits

/- Division of machine integers truncates; only `era` can see a negative operand. -/
def civilFromDays (days : Int) : Int × Int × Int :=
  let z := days + 719468
  let era := (if z ≥ 0 then z else z - 146096).tdiv 146097
  let dayOfEra := z - era * 146097
  let yearOfEra :=
    (dayOfEra - dayOfEra.tdiv 1460 + dayOfEra.tdiv 36524 - dayOfEra.tdiv 146096).tdiv 365
  let year := yearOfEra + era * 400
  let dayOfYear := dayOfEra - (365 * yearOfEra + yearOfEra.tdiv 4 - yearOfEra.tdiv 100)
  let monthPrime := (5 * dayOfYear + 2).tdiv 153
  let day := dayOfYear - (153 * monthPrime + 2).tdiv 5 + 1
  let month := monthPrime + (if monthPrime < 10 then 3 else -9)
  (year + (if month ≤ 2 then 1 else 0), month, day)

def utcDay (timestamp : Int) : String :=
  let (year, month, day) := civilFromDays (timestamp / 86400)
  padded 4 year ++ "-" ++ padded 2 month ++ "-" ++ padded 2 day

def daysFromCivil (year month day : Int) : Int :=
  let year := year - (if month ≤ 2 then 1 else 0)
  let era := (if year ≥ 0 then year else year - 399).tdiv 400
  let yearOfEra := year - era * 400
  let monthPrime := month + (if month > 2 then -3 else 9)
  let dayOfYear := (153 * monthPrime + 2).tdiv 5 + day - 1
  let dayOfEra := yearOfEra * 365 + yearOfEra.tdiv 4 - yearOfEra.tdiv 100 + dayOfYear
  era * 146097 + dayOfEra - 719468

theorem tdiv_floor {n : Int} (positive : 0 < n) (z : Int) : (if z ≥ 0 then z else z - (n - 1)).tdiv n = z / n := by
  by_cases nonneg : 0 ≤ z
  · rw [if_pos nonneg, Int.tdiv_eq_ediv_of_nonneg nonneg]
  · rw [if_neg nonneg, ← Int.neg_neg (z - (n - 1)), Int.neg_tdiv, Int.tdiv_eq_ediv_of_nonneg (by omega)]
    have whole := Int.mul_ediv_add_emod z n
    have low := Int.emod_nonneg z (Int.ne_of_gt positive)
    have high := Int.emod_lt_of_pos z positive
    have up : -(z - (n - 1)) = (n - 1 - z % n) + n * -(z / n) := by
      rw [Int.mul_neg]
      omega
    rw [up, Int.add_mul_ediv_left _ _ (Int.ne_of_gt positive), Int.ediv_eq_zero_of_lt (by omega) (by omega)]
    omega

variable {day days doe month year yoe : Int}

theorem marchStart_le (nonneg : 0 ≤ doe) (less : doe < 146096) (year : (doe - doe / 1460 + doe / 36524) / 365 = yoe) :
    marchStart yoe ≤ doe := by
  obtain ⟨century, hcentury⟩ : ∃ century, doe / 36524 = century := ⟨_, rfl⟩
  obtain ⟨fourth, hfourth⟩ : ∃ fourth, doe / 1460 = fourth := ⟨_, rfl⟩
  rw [hcentury, hfourth] at year
  have leaps : yoe / 4 ≤ fourth := by omega
  have centuries : century = 0 ∨ century = 1 ∨ century = 2 ∨ century = 3 := by omega
  unfold marchStart
  by_cases within : century ≤ yoe / 100
  · have era : yoe / 400 = 0 := by omega
    omega
  · rcases centuries with rfl | rfl | rfl | rfl <;> omega

theorem lt_marchStart (nonneg : 0 ≤ doe) (less : doe < 146096) (year : (doe - doe / 1460 + doe / 36524) / 365 = yoe) :
    doe < marchStart (yoe + 1) := by
  obtain ⟨century, hcentury⟩ : ∃ century, doe / 36524 = century := ⟨_, rfl⟩
  obtain ⟨fourth, hfourth⟩ : ∃ fourth, doe / 1460 = fourth := ⟨_, rfl⟩
  rw [hcentury, hfourth] at year
  have leaps : fourth ≤ (yoe + 1) / 4 := by omega
  have centuries : century = 0 ∨ century = 1 ∨ century = 2 ∨ century = 3 := by omega
  unfold marchStart
  by_cases within : (yoe + 1) / 100 ≤ century
  · omega
  · rcases centuries with rfl | rfl | rfl | rfl <;> omega

theorem yearOfEra_march (nonneg : 0 ≤ doe) (less : doe < 146097)
    (year : (doe - doe / 1460 + doe / 36524 - doe / 146096) / 365 = yoe) :
    0 ≤ yoe ∧ yoe ≤ 399 ∧ marchStart yoe ≤ doe ∧ doe < marchStart (yoe + 1) := by
  by_cases last : doe = 146096
  · subst last
    subst year
    decide
  · have flat : doe / 146096 = 0 := by omega
    rw [flat, Int.sub_zero] at year
    exact ⟨by omega, by omega, marchStart_le nonneg (by omega) year, lt_marchStart nonneg (by omega) year⟩

theorem marchStart_era (era year : Int) : marchStart (year + era * 400) = era * 146097 + marchStart year := by
  unfold marchStart
  omega

theorem civilFromDays_march (days : Int) : ∃ first dayOfYear, days + 719468 = marchStart first + dayOfYear ∧
    0 ≤ dayOfYear ∧ dayOfYear < marchDays first ∧ civilFromDays days = marchDate first dayOfYear := by
  obtain ⟨z, hz⟩ : ∃ z, days + 719468 = z := ⟨_, rfl⟩
  obtain ⟨era, hera⟩ : ∃ era, z / 146097 = era := ⟨_, rfl⟩
  obtain ⟨doe, hdoe⟩ : ∃ doe, z - era * 146097 = doe := ⟨_, rfl⟩
  have low : 0 ≤ doe := by omega
  have high : doe < 146097 := by omega
  obtain ⟨yoe, hyoe⟩ : ∃ yoe, (doe - doe / 1460 + doe / 36524 - doe / 146096) / 365 = yoe := ⟨_, rfl⟩
  obtain ⟨first, last, begins, ends⟩ := yearOfEra_march low high hyoe
  obtain ⟨doy, hdoy⟩ : ∃ doy, doe - marchStart yoe = doy := ⟨_, rfl⟩
  have place : doe - (365 * yoe + yoe / 4 - yoe / 100) = doy := by
    rw [← hdoy]
    unfold marchStart
    omega
  rw [marchStart_succ] at ends
  refine ⟨yoe + era * 400, doy, ?_, by omega, ?_, ?_⟩
  · rw [marchStart_era]
    omega
  · have same := marchStart_succ (yoe + era * 400)
    rw [Int.add_right_comm, marchStart_era, marchStart_era, marchStart_succ] at same
    omega
  · have quotient : (if z ≥ 0 then z else z - 146096).tdiv 146097 = era :=
      (tdiv_floor (n := 146097) (by decide) z).trans hera
    unfold civilFromDays
    dsimp only
    rw [hz, quotient, hdoe, Int.tdiv_eq_ediv_of_nonneg low, Int.tdiv_eq_ediv_of_nonneg low,
      Int.tdiv_eq_ediv_of_nonneg low]
    rw [Int.tdiv_eq_ediv_of_nonneg (by omega), hyoe, Int.tdiv_eq_ediv_of_nonneg first, Int.tdiv_eq_ediv_of_nonneg first,
      place, Int.tdiv_eq_ediv_of_nonneg (by omega), Int.tdiv_eq_ediv_of_nonneg (by omega)]
    unfold marchDate
    dsimp only
    simp only [Prod.mk.injEq, and_true]
    constructor
    · split <;> split <;> omega
    · split <;> omega

theorem daysFromCivil_march {first dayOfYear : Int} (begins : 0 ≤ dayOfYear) (ends : dayOfYear < marchDays first)
    (named : marchDate first dayOfYear = (year, month, day)) :
    daysFromCivil year month day = marchStart first + dayOfYear - 719468 := by
  obtain ⟨mp, within⟩ : ∃ mp, (5 * dayOfYear + 2) / 153 = mp := ⟨_, rfl⟩
  have length := marchDays_bounds first
  have months : 0 ≤ mp ∧ mp ≤ 11 := by omega
  rw [marchDate_of_month within] at named
  cases named
  have back : (if mp < 10 then first else first + 1) -
      (if (if mp < 10 then mp + 3 else mp - 9) ≤ 2 then 1 else 0) = first := by
    split <;> split <;> omega
  have month : (if mp < 10 then mp + 3 else mp - 9) +
      (if (if mp < 10 then mp + 3 else mp - 9) > 2 then -3 else 9) = mp := by
    split <;> split <;> omega
  obtain ⟨era, hera⟩ : ∃ era, first / 400 = era := ⟨_, rfl⟩
  have quotient : (if first ≥ 0 then first else first - 399).tdiv 400 = era :=
    (tdiv_floor (n := 400) (by decide) first).trans hera
  have low : 0 ≤ first - era * 400 := by omega
  unfold daysFromCivil
  dsimp only
  rw [back, month, quotient, Int.tdiv_eq_ediv_of_nonneg low, Int.tdiv_eq_ediv_of_nonneg low,
    Int.tdiv_eq_ediv_of_nonneg (by omega)]
  unfold marchStart
  omega

theorem civilFromDays_succ (days : Int) : civilFromDays (days + 1) = tomorrow (civilFromDays days) := by
  obtain ⟨first, doy, place, begins, ends, named⟩ := civilFromDays_march days
  obtain ⟨first', doy', place', begins', ends', named'⟩ := civilFromDays_march (days + 1)
  have after := marchStart_succ first
  have after' := marchStart_succ first'
  rw [named, named', tomorrow_marchDate begins ends]
  by_cases more : doy + 1 < marchDays first
  · have same : first' = first := marchYear_unique (show _ ≤ days + 1 + 719468 by omega) (by omega) (by omega) (by omega)
    subst same
    rw [if_pos more]
    exact congrArg _ (by omega)
  · have length := marchDays_bounds (first + 1)
    have after'' := marchStart_succ (first + 1)
    have next : first' = first + 1 :=
      marchYear_unique (show _ ≤ days + 1 + 719468 by omega) (by omega) (by omega) (by omega)
    subst next
    rw [if_neg more]
    exact congrArg _ (by omega)

theorem isDate_civilFromDays (named : civilFromDays days = (year, month, day)) :
    IsDate year month day := by
  obtain ⟨first, doy, -, begins, ends, march⟩ := civilFromDays_march days
  exact isDate_marchDate begins ends (march.symm.trans named)

theorem daysFromCivil_civilFromDays (days : Int) :
    daysFromCivil (civilFromDays days).1 (civilFromDays days).2.1 (civilFromDays days).2.2 = days := by
  obtain ⟨first, doy, place, begins, ends, march⟩ := civilFromDays_march days
  obtain ⟨year, month, day, named⟩ : ∃ year month day, civilFromDays days = (year, month, day) := ⟨_, _, _, rfl⟩
  rw [named]
  show daysFromCivil year month day = days
  rw [daysFromCivil_march begins ends (march.symm.trans named)]
  omega

theorem civilFromDays_daysFromCivil (date : IsDate year month day) :
    civilFromDays (daysFromCivil year month day) = (year, month, day) := by
  obtain ⟨first, doy, begins, ends, march⟩ := marchDate_of_isDate date
  have days := daysFromCivil_march begins ends march
  obtain ⟨first', doy', place, begins', ends', march'⟩ := civilFromDays_march (daysFromCivil year month day)
  have after := marchStart_succ first
  have after' := marchStart_succ first'
  have same : first' = first := marchYear_unique (show _ ≤ marchStart first + doy by omega) (by omega) (by omega) (by omega)
  subst same
  have place : doy' = doy := by omega
  rw [march', place, march]

/-! ### The order of days -/

theorem civilFromDays_later (days : Int) (more : Nat) : Before (civilFromDays days) (civilFromDays (days + more + 1)) := by
  rw [civilFromDays_succ]
  induction more with
  | zero =>
    rw [Int.natCast_zero, Int.add_zero]
    exact before_tomorrow _
  | succ more ih =>
    rw [Int.natCast_succ, ← Int.add_assoc, civilFromDays_succ]
    exact before_trans ih (before_tomorrow _)

theorem civilFromDays_lt {later : Int} (less : days < later) : Before (civilFromDays days) (civilFromDays later) := by
  have gap : days + ((later - days - 1).toNat : Int) + 1 = later := by omega
  exact gap ▸ civilFromDays_later days _

variable (days) in
theorem before_civilFromDays (other : Int) : Before (civilFromDays days) (civilFromDays other) ↔ days < other := by
  refine ⟨fun before => ?_, civilFromDays_lt⟩
  rcases Int.lt_trichotomy days other with less | rfl | greater
  · exact less
  · exact absurd before (before_irrefl _)
  · exact absurd (before_trans before (civilFromDays_lt greater)) (before_irrefl _)

def NamedYears (days : Int) : Prop := 0 ≤ (civilFromDays days).1 ∧ (civilFromDays days).1 ≤ 9999

instance (days : Int) : Decidable (NamedYears days) := inferInstanceAs (Decidable (_ ∧ _))

theorem namedYears_iff : NamedYears days ↔ -719528 ≤ days ∧ days < 2932897 := by
  have first : civilFromDays (-719528) = (0, 1, 1) := by decide
  have last : civilFromDays 2932897 = (10000, 1, 1) := by decide
  have early := before_civilFromDays days (-719528)
  have late := before_civilFromDays days 2932897
  obtain ⟨year, month, day, named⟩ : ∃ year month day, civilFromDays days = (year, month, day) := ⟨_, _, _, rfl⟩
  obtain ⟨month_first, -, day_first, -⟩ := isDate_civilFromDays named
  unfold NamedYears
  unfold Before at early late
  rw [named, first] at early
  rw [named, last] at late
  rw [named]
  dsimp only at early late ⊢
  omega

end KiroProxy.Calendar
