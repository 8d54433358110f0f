/-! The Gregorian calendar. Years that begin in March end with the day that a leap year adds. -/
namespace KiroProxy.Gregorian

def Leap (year : Int) : Prop := year % 4 = 0 ∧ (year % 100 ≠ 0 ∨ year % 400 = 0)

instance (year : Int) : Decidable (Leap year) := inferInstanceAs (Decidable (_ ∧ _))

def monthDays (year month : Int) : Int :=
  if month = 2 then (if Leap year then 29 else 28)
  else if month = 4 ∨ month = 6 ∨ month = 9 ∨ month = 11 then 30 else 31

theorem monthDays_le (year month : Int) : monthDays year month ≤ 31 := by
  unfold monthDays
  split
  · split <;> decide
  · split <;> decide

structure IsDate (year month day : Int) : Prop where
  month_first : 1 ≤ month
  month_last : month ≤ 12
  day_first : 1 ≤ day
  day_last : day ≤ monthDays year month

instance (year month day : Int) : Decidable (IsDate year month day) :=
  decidable_of_iff (1 ≤ month ∧ month ≤ 12 ∧ 1 ≤ day ∧ day ≤ monthDays year month)
    ⟨fun ⟨a, b, c, d⟩ => ⟨a, b, c, d⟩, fun ⟨a, b, c, d⟩ => ⟨a, b, c, d⟩⟩

def tomorrow (date : Int × Int × Int) : Int × Int × Int :=
  if date.2.2 < monthDays date.1 date.2.1 then (date.1, date.2.1, date.2.2 + 1)
  else if date.2.1 < 12 then (date.1, date.2.1 + 1, 1)
  else (date.1 + 1, 1, 1)

def Before (date other : Int × Int × Int) : Prop :=
  date.1 < other.1 ∨ date.1 = other.1 ∧ (date.2.1 < other.2.1 ∨ date.2.1 = other.2.1 ∧ date.2.2 < other.2.2)

theorem before_trans {a b c : Int × Int × Int} (first : Before a b) (second : Before b c) : Before a c := by
  unfold Before at *
  omega

theorem before_irrefl (date : Int × Int × Int) : ¬ Before date date := by
  unfold Before
  omega

variable {day dayOfYear month year : Int}

theorem tomorrow_inside (inside : day < monthDays year month) :
    tomorrow (year, month, day) = (year, month, day + 1) := if_pos inside

theorem tomorrow_month (ended : ¬ day < monthDays year month) (early : month < 12) :
    tomorrow (year, month, day) = (year, month + 1, 1) := (if_neg ended).trans (if_pos early)

theorem tomorrow_year (ended : ¬ day < monthDays year month) (late : ¬ month < 12) :
    tomorrow (year, month, day) = (year + 1, 1, 1) := (if_neg ended).trans (if_neg late)

theorem before_tomorrow (date : Int × Int × Int) : Before date (tomorrow date) := by
  unfold tomorrow Before
  split
  · exact .inr ⟨rfl, .inr ⟨rfl, Int.lt_succ _⟩⟩
  · split
    · exact .inr ⟨rfl, .inl (Int.lt_succ _)⟩
    · exact .inl (Int.lt_succ _)

/-! ### Years that begin in March -/

def marchStart (year : Int) : Int := 365 * year + year / 4 - year / 100 + year / 400

def marchDays (year : Int) : Int := if Leap (year + 1) then 366 else 365

theorem marchStart_succ (year : Int) : marchStart (year + 1) = marchStart year + marchDays year := by
  unfold marchStart marchDays
  by_cases leap : Leap (year + 1)
  · rw [if_pos leap]
    unfold Leap at leap
    omega
  · rw [if_neg leap]
    unfold Leap at leap
    omega

theorem marchStart_mono {other : Int} (le : year ≤ other) : marchStart year ≤ marchStart other := by
  unfold marchStart
  omega

theorem marchYear_unique {other : Int} (begins : marchStart year ≤ day) (ends : day < marchStart (year + 1))
    (begins' : marchStart other ≤ day) (ends' : day < marchStart (other + 1)) : year = other := by
  rcases Int.lt_trichotomy year other with less | same | less
  · have := marchStart_mono (Int.add_one_le_of_lt less)
    omega
  · exact same
  · have := marchStart_mono (Int.add_one_le_of_lt less)
    omega

def marchDate (year dayOfYear : Int) : Int × Int × Int :=
  let month := (5 * dayOfYear + 2) / 153
  (if month < 10 then year else year + 1, if month < 10 then month + 3 else month - 9, dayOfYear - (153 * month + 2) / 5 + 1)

theorem monthDays_march (year : Int) (first : 0 ≤ month) (last : month ≤ 10) :
    monthDays (if month < 10 then year else year + 1) (if month < 10 then month + 3 else month - 9) =
      (153 * (month + 1) + 2) / 5 - (153 * month + 2) / 5 := by
  unfold monthDays
  have months : month = 0 ∨ month = 1 ∨ month = 2 ∨ month = 3 ∨ month = 4 ∨ month = 5 ∨ month = 6 ∨ month = 7 ∨
      month = 8 ∨ month = 9 ∨ month = 10 := by omega
  rcases months with rfl | rfl | rfl | rfl | rfl | rfl | rfl | rfl | rfl | rfl | rfl <;> rfl

theorem monthDays_february (year : Int) : monthDays (year + 1) 2 = marchDays year - 337 := by
  unfold monthDays marchDays
  rw [if_pos rfl]
  by_cases leap : Leap (year + 1)
  · rw [if_pos leap, if_pos leap]
    rfl
  · rw [if_neg leap, if_neg leap]
    rfl

theorem marchDate_of_month (within : (5 * dayOfYear + 2) / 153 = month) (year : Int) :
    marchDate year dayOfYear = (if month < 10 then year else year + 1, if month < 10 then month + 3 else month - 9,
      dayOfYear - (153 * month + 2) / 5 + 1) := by
  subst within
  rfl

theorem marchDays_bounds (year : Int) : 365 ≤ marchDays year ∧ marchDays year ≤ 366 := by
  unfold marchDays
  split <;> omega

theorem isDate_marchDate {first : Int} (begins : 0 ≤ dayOfYear) (ends : dayOfYear < marchDays first)
    (named : marchDate first dayOfYear = (year, month, day)) : IsDate year month day := by
  obtain ⟨monthPrime, within⟩ : ∃ monthPrime, (5 * dayOfYear + 2) / 153 = monthPrime := ⟨_, rfl⟩
  have days := marchDays_bounds first
  have months : 0 ≤ monthPrime ∧ monthPrime ≤ 11 := by omega
  rw [marchDate_of_month within] at named
  cases named
  refine ⟨?_, ?_, ?_, ?_⟩
  · split <;> omega
  · split <;> omega
  · omega
  · by_cases last : monthPrime = 11
    · subst last
      show dayOfYear - (153 * 11 + 2) / 5 + 1 ≤ monthDays (first + 1) 2
      rw [monthDays_february]
      omega
    · rw [monthDays_march first months.1 (by omega)]
      omega

theorem marchDate_of_isDate (date : IsDate year month day) :
    ∃ first dayOfYear, 0 ≤ dayOfYear ∧ dayOfYear < marchDays first ∧ marchDate first dayOfYear = (year, month, day) := by
  obtain ⟨low, high, begins, ends⟩ := date
  by_cases winter : month ≤ 2
  · have february : month = 2 → monthDays year month = marchDays (year - 1) - 337 := by
      intro same
      rw [same, ← monthDays_february, Int.sub_add_cancel]
    have january : month = 1 → monthDays year month = 31 := by
      intro same
      rw [same]
      rfl
    have days := marchDays_bounds (year - 1)
    have within : (5 * ((153 * (month + 9) + 2) / 5 + day - 1) + 2) / 153 = month + 9 := by omega
    refine ⟨year - 1, (153 * (month + 9) + 2) / 5 + day - 1, by omega, by omega, ?_⟩
    rw [marchDate_of_month within, if_neg (by omega), if_neg (by omega)]
    simp only [Prod.mk.injEq]
    omega
  · have days := monthDays_march year (show 0 ≤ month - 3 by omega) (by omega)
    rw [if_pos (by omega), if_pos (by omega), Int.sub_add_cancel] at days
    have year_days := marchDays_bounds year
    have within : (5 * ((153 * (month - 3) + 2) / 5 + day - 1) + 2) / 153 = month - 3 := by omega
    refine ⟨year, (153 * (month - 3) + 2) / 5 + day - 1, by omega, by omega, ?_⟩
    rw [marchDate_of_month within, if_pos (by omega), if_pos (by omega)]
    simp only [Prod.mk.injEq, true_and]
    omega

theorem tomorrow_marchDate (begins : 0 ≤ dayOfYear) (ends : dayOfYear < marchDays year) :
    tomorrow (marchDate year dayOfYear) =
      if dayOfYear + 1 < marchDays year then marchDate year (dayOfYear + 1) else marchDate (year + 1) 0 := by
  obtain ⟨month, within⟩ : ∃ month, (5 * dayOfYear + 2) / 153 = month := ⟨_, rfl⟩
  have days := marchDays_bounds year
  have months : 0 ≤ month ∧ month ≤ 11 := by omega
  rw [marchDate_of_month within]
  by_cases last : month = 11
  · subst last
    show tomorrow (year + 1, 2, dayOfYear - 337 + 1) = _
    by_cases more : dayOfYear + 1 < marchDays year
    · have inside : dayOfYear - 337 + 1 < monthDays (year + 1) 2 := by
        rw [monthDays_february]
        omega
      have same : (5 * (dayOfYear + 1) + 2) / 153 = 11 := by omega
      rw [tomorrow_inside inside, if_pos more, marchDate_of_month same]
      show (year + 1, (2 : Int), dayOfYear - 337 + 1 + 1) = (year + 1, 2, dayOfYear + 1 - 337 + 1)
      simp only [Prod.mk.injEq, true_and]
      omega
    · have ended : ¬ dayOfYear - 337 + 1 < monthDays (year + 1) 2 := by
        rw [monthDays_february]
        omega
      rw [tomorrow_month ended (by decide), if_neg more]
      rfl
  · have length := monthDays_march year months.1 (by omega)
    rw [if_pos (show dayOfYear + 1 < marchDays year by omega)]
    by_cases more : dayOfYear - (153 * month + 2) / 5 + 1 < (153 * (month + 1) + 2) / 5 - (153 * month + 2) / 5
    · have same : (5 * (dayOfYear + 1) + 2) / 153 = month := by omega
      rw [tomorrow_inside (by omega), marchDate_of_month same]
      simp only [Prod.mk.injEq, true_and]
      omega
    · have next : (5 * (dayOfYear + 1) + 2) / 153 = month + 1 := by omega
      have first : dayOfYear + 1 = (153 * (month + 1) + 2) / 5 := by omega
      rw [marchDate_of_month next, ← first, Int.sub_self]
      by_cases autumn : month < 10
      · rw [if_pos autumn, if_pos autumn] at length ⊢
        by_cases december : month = 9
        · subst december
          rw [tomorrow_year (by omega) (by decide)]
          rfl
        · rw [tomorrow_month (by omega) (by omega), if_pos (by omega), if_pos (by omega)]
          simp only [Prod.mk.injEq, true_and]
          omega
      · have january : month = 10 := by omega
        subst january
        rw [tomorrow_month (by omega) (by decide)]
        rfl

end KiroProxy.Gregorian
