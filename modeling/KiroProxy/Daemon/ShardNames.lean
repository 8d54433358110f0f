import KiroProxy.Daemon.StatsHistory
import KiroProxy.Lib.Digits

/-! The names of the history shards as text: what the store writes, what it reads back, and that their order is the
order in time. -/
namespace KiroProxy.ShardNames

open Calendar (civilFromDays daysFromCivil padded utcDay NamedYears namedYears_iff)
open Stats (i64Min i64Max)
open Digits Gregorian

def utcDayFromMinute (minute : Int) : String :=
  let (year, month, day) := civilFromDays (minute / 1440)
  padded 4 year ++ "-" ++ padded 2 month ++ "-" ++ padded 2 day

def utcHourFromMinute (minute : Int) : String :=
  let day := utcDayFromMinute minute
  let hour := minute % 1440 / 60
  day ++ "-" ++ padded 2 hour

def slice (text : String) (first last : Nat) : List Char := (text.toList.take last).drop first

/-- `str::parse` of what is known to be digits: a sign does not get here. -/
def parse (bound : Nat) (digits : List Char) : Option Nat :=
  if digits ≠ [] ∧ digits.all Char.isDigit then
    let number := Nat.ofDigitChars 10 digits 0
    if number < bound then some number else none
  else none

/- Bytes that are digits or dashes are characters, and a name with any other byte is refused. -/
def historyShardDescriptor (stem : String) : Option (String × Nat × String) :=
  let bytes := stem.toList
  let validDay := 10 ≤ bytes.length ∧ bytes[4]? = some '-' ∧ bytes[7]? = some '-' ∧
    (slice stem 0 4).all Char.isDigit ∧ (slice stem 5 7).all Char.isDigit ∧ (slice stem 8 10).all Char.isDigit
  if ¬ validDay then none
  else
    let day := String.ofList (slice stem 0 10)
    if bytes.length = 10 then some (day, 0, stem)
    else if bytes.length = 13 ∧ bytes[10]? = some '-' ∧ (slice stem 11 13).all Char.isDigit ∧
        (parse (2 ^ 8) (slice stem 11 13)).any (· < 24) then
      some (day, 1, stem)
    else none

def clamped (n : Int) : Int := max i64Min (min n i64Max)

def saturatingMul (a b : Int) : Int := clamped (a * b)

def saturatingAdd (a b : Int) : Int := clamped (a + b)

def historyRangeFromShardName (stem : String) : Option (Int × Int) := do
  let (day, priority, _) ← historyShardDescriptor stem
  let year ← parse (2 ^ 63) (slice day 0 4)
  let month ← parse (2 ^ 63) (slice day 5 7)
  let date ← parse (2 ^ 63) (slice day 8 10)
  let days := daysFromCivil year month date
  if civilFromDays days ≠ (↑year, ↑month, ↑date) then none
  else
    let dayStart := saturatingMul days 86400
    if priority = 0 then some (dayStart, saturatingAdd dayStart 86399)
    else do
      let hour ← parse (2 ^ 63) (slice stem 11 13)
      let start := saturatingAdd dayStart (saturatingMul hour 3600)
      some (start, saturatingAdd start 3599)

/-! ### The text of a name -/

def dayText (year month date : Nat) : List Char := fixed 4 year ++ '-' :: (fixed 2 month ++ '-' :: fixed 2 date)

def hourText (year month date hour : Nat) : List Char := dayText year month date ++ '-' :: fixed 2 hour

theorem pushn_toList (s : String) (c : Char) (n : Nat) : (s.pushn c n).toList = s.toList ++ List.replicate n c := by
  rw [String.pushn_eq_repeat_push]
  induction n with
  | zero => exact (List.append_nil _).symm
  | succ n ih =>
    show ((n.repeat (fun s => s.push c) s).push c).toList = _
    rw [String.toList_push, ih, List.replicate_succ', List.append_assoc]

theorem padded_toList (width n : Nat) : (padded width n).toList = fixed width n := by
  unfold padded fixed
  have sign : ¬ (n : Int) < 0 := by omega
  simp only [if_neg sign, Int.natAbs_natCast, String.toList_append, pushn_toList, Nat.toString_eq_ofList_toDigits,
    String.toList_ofList, String.length_ofList]
  rfl

theorem dayText_eq (year month day : Nat) :
    padded 4 year ++ "-" ++ padded 2 month ++ "-" ++ padded 2 day = String.ofList (dayText year month day) := by
  refine String.toList_inj.mp ?_
  simp only [String.toList_append, padded_toList, String.toList_ofList, dayText, List.append_assoc]
  rfl

theorem numbers_of_days {days : Int} (named : NamedYears days) : ∃ year month day : Nat,
    civilFromDays days = (↑year, ↑month, ↑day) ∧ IsDate year month day ∧ year < 10 ^ 4 ∧ month < 10 ^ 2 ∧ day < 10 ^ 2 := by
  obtain ⟨year, month, day, parts⟩ : ∃ year month day, civilFromDays days = (year, month, day) := ⟨_, _, _, rfl⟩
  have date := Calendar.isDate_civilFromDays parts
  have short : monthDays year month ≤ 31 := monthDays_le year month
  obtain ⟨month_first, month_last, day_first, day_last⟩ := Calendar.isDate_civilFromDays parts
  unfold NamedYears at named
  rw [parts] at named
  obtain ⟨first, last⟩ := named
  dsimp only at first last
  lift year to Nat using first
  lift month to Nat using by omega
  lift day to Nat using by omega
  exact ⟨year, month, day, parts, date, by omega, by omega, by omega⟩

theorem utcDayFromMinute_eq (minute : Int) {year month day : Nat}
    (named : civilFromDays (minute / 1440) = (↑year, ↑month, ↑day)) :
    utcDayFromMinute minute = String.ofList (dayText year month day) := by
  unfold utcDayFromMinute
  rw [named]
  exact dayText_eq year month day

theorem utcDay_eq (timestamp : Int) {year month day : Nat}
    (named : civilFromDays (timestamp / 86400) = (↑year, ↑month, ↑day)) :
    utcDay timestamp = String.ofList (dayText year month day) := by
  unfold utcDay
  rw [named]
  exact dayText_eq year month day

variable {hour : Nat} {later minute : Int} {stem : String}

theorem utcHourFromMinute_eq (minute : Int) {year month day : Nat}
    (named : civilFromDays (minute / 1440) = (↑year, ↑month, ↑day)) (within : minute % 1440 / 60 = hour) :
    utcHourFromMinute minute = String.ofList (hourText year month day hour) := by
  unfold utcHourFromMinute
  rw [utcDayFromMinute_eq minute named, within]
  refine String.toList_inj.mp ?_
  simp only [String.toList_append, padded_toList, String.toList_ofList, hourText, List.append_assoc]
  rfl

/-! ### Their order -/

theorem dash_lt {cs ds : List Char} : '-' :: cs < '-' :: ds ↔ cs < ds := List.cons_lt_cons_self

theorem length_dayText {year month day : Nat} (year_fits : year < 10 ^ 4) (month_fits : month < 10 ^ 2)
    (day_fits : day < 10 ^ 2) : (dayText year month day).length = 10 := by
  unfold dayText
  rw [List.length_append, List.length_cons, List.length_append, List.length_cons, length_fixed (by decide) year_fits,
    length_fixed (by decide) month_fits, length_fixed (by decide) day_fits]

theorem dayText_lt {year month day year' month' day' : Nat} (year_fits : year < 10 ^ 4) (month_fits : month < 10 ^ 2)
    (day_fits : day < 10 ^ 2) (year_fits' : year' < 10 ^ 4) (month_fits' : month' < 10 ^ 2) (day_fits' : day' < 10 ^ 2) :
    dayText year month day < dayText year' month' day' ↔
      Before ((year : Int), (month : Int), (day : Int)) ((year' : Int), (month' : Int), (day' : Int)) := by
  have years := (length_fixed (by decide) year_fits).trans (length_fixed (by decide) year_fits').symm
  have months := (length_fixed (by decide) month_fits).trans (length_fixed (by decide) month_fits').symm
  unfold dayText Before
  rw [append_lt_append years, dash_lt, append_lt_append months, dash_lt, fixed_lt (by decide) year_fits year_fits',
    fixed_lt (by decide) month_fits month_fits', fixed_lt (by decide) day_fits day_fits', fixed_inj, fixed_inj]
  dsimp only
  omega

theorem days_lt {days : Int} {year month day year' month' day' : Nat}
    (named : civilFromDays days = (↑year, ↑month, ↑day)) (year_fits : year < 10 ^ 4) (month_fits : month < 10 ^ 2)
    (day_fits : day < 10 ^ 2) (named' : civilFromDays later = (↑year', ↑month', ↑day')) (year_fits' : year' < 10 ^ 4)
    (month_fits' : month' < 10 ^ 2) (day_fits' : day' < 10 ^ 2) :
    dayText year month day < dayText year' month' day' ↔ days < later := by
  rw [dayText_lt year_fits month_fits day_fits year_fits' month_fits' day_fits', ← Calendar.before_civilFromDays, named,
    named']

theorem same_of_order {α : Type} [LinearOrder α] {name other : α} {m n : Int} (less : name < other ↔ m < n)
    (greater : other < name ↔ n < m) : name = other ↔ m = n := by
  constructor
  · intro same
    subst same
    have := mt less.mpr (lt_irrefl _)
    have := mt greater.mpr (lt_irrefl _)
    omega
  · intro same
    refine le_antisymm (not_lt.mp fun before => ?_) (not_lt.mp fun before => ?_)
    · have := greater.mp before
      omega
    · have := less.mp before
      omega

theorem utcDayFromMinute_lt (named : NamedYears (minute / 1440)) (named' : NamedYears (later / 1440)) :
    utcDayFromMinute minute < utcDayFromMinute later ↔ minute / 1440 < later / 1440 := by
  obtain ⟨year, month, day, parts, -, year_fits, month_fits, day_fits⟩ := numbers_of_days named
  obtain ⟨year', month', day', parts', -, year_fits', month_fits', day_fits'⟩ := numbers_of_days named'
  rw [utcDayFromMinute_eq minute parts, utcDayFromMinute_eq later parts', String.lt_iff, String.toList_ofList,
    String.toList_ofList]
  exact days_lt parts year_fits month_fits day_fits parts' year_fits' month_fits' day_fits'

theorem utcDay_lt {timestamp : Int} (named : NamedYears (timestamp / 86400)) (named' : NamedYears (later / 86400)) :
    utcDay timestamp < utcDay later ↔ timestamp / 86400 < later / 86400 := by
  obtain ⟨year, month, day, parts, -, year_fits, month_fits, day_fits⟩ := numbers_of_days named
  obtain ⟨year', month', day', parts', -, year_fits', month_fits', day_fits'⟩ := numbers_of_days named'
  rw [utcDay_eq timestamp parts, utcDay_eq later parts', String.lt_iff, String.toList_ofList, String.toList_ofList]
  exact days_lt parts year_fits month_fits day_fits parts' year_fits' month_fits' day_fits'

theorem utcHourFromMinute_lt (named : NamedYears (minute / 1440)) (named' : NamedYears (later / 1440)) :
    utcHourFromMinute minute < utcHourFromMinute later ↔ minute / 60 < later / 60 := by
  obtain ⟨year, month, day, parts, -, year_fits, month_fits, day_fits⟩ := numbers_of_days named
  obtain ⟨year', month', day', parts', -, year_fits', month_fits', day_fits'⟩ := numbers_of_days named'
  obtain ⟨hour, within⟩ : ∃ hour : Nat, minute % 1440 / 60 = hour := ⟨_, (Int.toNat_of_nonneg (by omega)).symm⟩
  obtain ⟨hour', within'⟩ : ∃ hour : Nat, later % 1440 / 60 = hour := ⟨_, (Int.toNat_of_nonneg (by omega)).symm⟩
  have long := (length_dayText year_fits month_fits day_fits).trans (length_dayText year_fits' month_fits' day_fits').symm
  have hour_fits : hour < 10 ^ 2 := by omega
  have hour_fits' : hour' < 10 ^ 2 := by omega
  have less := days_lt parts year_fits month_fits day_fits parts' year_fits' month_fits' day_fits'
  have greater := days_lt parts' year_fits' month_fits' day_fits' parts year_fits month_fits day_fits
  rw [utcHourFromMinute_eq minute parts within, utcHourFromMinute_eq later parts' within', String.lt_iff,
    String.toList_ofList, String.toList_ofList, hourText, hourText, append_lt_append long, dash_lt,
    fixed_lt (by decide) hour_fits hour_fits', same_of_order less greater, less]
  omega

/-! ### Names that are read back -/

theorem parse_fixed {bound width n : Nat} (positive : 0 < width) (fits : n < 10 ^ width) (below : n < bound) :
    parse bound (fixed width n) = some n := by
  have filled : fixed width n ≠ [] := by
    intro empty
    have long := length_fixed positive fits
    rw [empty] at long
    exact absurd long (Nat.ne_of_lt positive)
  have number : Nat.ofDigitChars 10 (fixed width n) 0 = n := value_fixed width n
  unfold parse
  dsimp only
  rw [if_pos ⟨filled, List.all_eq_true.mpr (numeral_fixed width n)⟩, number, if_pos below]

section Shape

variable {year month day rest : List Char} (year_long : year.length = 4) (month_long : month.length = 2)
  (day_long : day.length = 2)

include year_long month_long day_long

theorem slices (shape : stem.toList = year ++ '-' :: (month ++ '-' :: (day ++ rest))) :
    slice stem 0 4 = year ∧ slice stem 5 7 = month ∧ slice stem 8 10 = day ∧
      slice stem 0 10 = year ++ '-' :: (month ++ '-' :: day) ∧ slice stem 11 13 = (rest.take 3).drop 1 ∧
      stem.toList[4]? = some '-' ∧ stem.toList[7]? = some '-' ∧ stem.toList[10]? = rest[0]? ∧
      stem.toList.length = 10 + rest.length := by
  unfold slice
  rw [shape]
  match year, year_long, month, month_long, day, day_long with
  | [y1, y2, y3, y4], _, [m1, m2], _, [d1, d2], _ => exact ⟨rfl, rfl, rfl, rfl, rfl, rfl, rfl, rfl, by simp; omega⟩

end Shape

theorem drop_dash {cs : List Char} {i : Nat} (dash : cs[i]? = some '-') : cs.drop i = '-' :: cs.drop (i + 1) := by
  obtain ⟨inside, here⟩ := List.getElem?_eq_some_iff.mp dash
  rw [List.drop_eq_getElem_cons inside, here]

theorem shape_of (long : 10 ≤ stem.toList.length) (dash : stem.toList[4]? = some '-')
    (dash' : stem.toList[7]? = some '-') : ∃ year month day rest : List Char,
      year.length = 4 ∧ month.length = 2 ∧ day.length = 2 ∧ stem.toList = year ++ '-' :: (month ++ '-' :: (day ++ rest)) := by
  generalize stem.toList = cs at long dash dash'
  refine ⟨cs.take 4, (cs.drop 5).take 2, (cs.drop 8).take 2, cs.drop 10, ?_, ?_, ?_, ?_⟩
  · rw [List.length_take]
    omega
  · rw [List.length_take, List.length_drop]
    omega
  · rw [List.length_take, List.length_drop]
    omega
  · have day : (cs.drop 8).take 2 ++ cs.drop 10 = cs.drop 8 := by
      rw [← List.drop_drop (i := 2) (j := 8)]
      exact List.take_append_drop ..
    have month : (cs.drop 5).take 2 ++ cs.drop 7 = cs.drop 5 := by
      rw [← List.drop_drop (i := 2) (j := 5)]
      exact List.take_append_drop ..
    rw [day, ← drop_dash dash', month, ← drop_dash dash, List.take_append_drop]

theorem number_of {part : List Char} {width : Nat} (positive : 0 < width) (long : part.length = width)
    (digits : part.all Char.isDigit = true) : ∃ n, n < 10 ^ width ∧ part = fixed width n := by
  have numeral : IsNumeral part := List.all_eq_true.mp digits
  have filled : part ≠ [] := List.ne_nil_of_length_pos (long ▸ positive)
  exact ⟨value part, long ▸ value_lt numeral, long ▸ eq_fixed numeral filled⟩

theorem historyShardDescriptor_some {found : String × Nat × String} (read : historyShardDescriptor stem = some found) :
    ∃ year month day : Nat,
      year < 10 ^ 4 ∧ month < 10 ^ 2 ∧ day < 10 ^ 2 ∧
      (stem.toList = dayText year month day ∨ ∃ hour < 24, stem.toList = hourText year month day hour) := by
  unfold historyShardDescriptor at read
  dsimp only at read
  split at read
  · cases read
  · next valid =>
    obtain ⟨long, dash, dash', year_digits, month_digits, day_digits⟩ := not_not.mp valid
    obtain ⟨year, month, day, rest, year_long, month_long, day_long, shape⟩ := shape_of long dash dash'
    obtain ⟨s_year, s_month, s_day, s_whole, s_hour, -, -, s_dash, s_long⟩ := slices year_long month_long day_long shape
    rw [s_year] at year_digits
    rw [s_month] at month_digits
    rw [s_day] at day_digits
    obtain ⟨y, year_fits, rfl⟩ := number_of (by decide) year_long year_digits
    obtain ⟨m, month_fits, rfl⟩ := number_of (by decide) month_long month_digits
    obtain ⟨d, day_fits, rfl⟩ := number_of (by decide) day_long day_digits
    refine ⟨y, m, d, year_fits, month_fits, day_fits, ?_⟩
    rw [s_long] at read
    split at read
    · next whole =>
      have none : rest = [] := List.eq_nil_of_length_eq_zero (by omega)
      left
      rw [shape, none, List.append_nil]
      rfl
    · split at read
      · next hour =>
        obtain ⟨longer, dash, hour_digits, hours⟩ := hour
        right
        rw [s_dash] at dash
        rw [s_hour] at hour_digits hours
        match rest, (show rest.length = 3 by omega) with
        | [_, h1, h2], _ =>
          cases Option.some.inj dash
          obtain ⟨hour, hour_fits, same⟩ := number_of Nat.two_pos (show [h1, h2].length = 2 from rfl) hour_digits
          have parsed : (parse (2 ^ 8) [h1, h2]).any (· < 24) = true := hours
          rw [same, parse_fixed (by decide) hour_fits (by omega)] at parsed
          refine ⟨hour, of_decide_eq_true parsed, ?_⟩
          rw [shape, same, hourText, dayText, List.append_assoc, List.cons_append, List.append_assoc]
          rfl
      · cases read

theorem clamped_of {n : Int} (low : -2 ^ 63 ≤ n) (high : n < 2 ^ 63) : clamped n = n := by
  unfold clamped i64Min i64Max
  omega

theorem days_of_date {year month day : Nat} (year_fits : year < 10 ^ 4) (date : IsDate year month day) :
    -719528 ≤ daysFromCivil year month day ∧ daysFromCivil year month day < 2932897 := by
  refine namedYears_iff.mp ?_
  unfold NamedYears
  rw [Calendar.civilFromDays_daysFromCivil date]
  dsimp only
  omega

section Read

variable {year month day : Nat} (year_fits : year < 10 ^ 4) (month_fits : month < 10 ^ 2) (day_fits : day < 10 ^ 2)

include year_fits month_fits day_fits

theorem slices_of_day {rest : List Char} (shape : stem.toList = dayText year month day ++ rest) :
    slice stem 0 4 = fixed 4 year ∧ slice stem 5 7 = fixed 2 month ∧ slice stem 8 10 = fixed 2 day ∧
      slice stem 0 10 = dayText year month day ∧ slice stem 11 13 = (rest.take 3).drop 1 ∧
      stem.toList[4]? = some '-' ∧ stem.toList[7]? = some '-' ∧ stem.toList[10]? = rest[0]? ∧
      stem.toList.length = 10 + rest.length := by
  refine slices (length_fixed (by decide) year_fits) (length_fixed (by decide) month_fits)
    (length_fixed (by decide) day_fits) ?_
  rw [shape, dayText, List.append_assoc, List.cons_append, List.append_assoc, List.cons_append]

theorem valid_day {rest : List Char} (shape : stem.toList = dayText year month day ++ rest) :
    10 ≤ stem.toList.length ∧ stem.toList[4]? = some '-' ∧ stem.toList[7]? = some '-' ∧
      (slice stem 0 4).all Char.isDigit ∧ (slice stem 5 7).all Char.isDigit ∧ (slice stem 8 10).all Char.isDigit := by
  obtain ⟨s_year, s_month, s_day, -, -, dash, dash', -, long⟩ := slices_of_day year_fits month_fits day_fits shape
  rw [s_year, s_month, s_day]
  exact ⟨by omega, dash, dash', List.all_eq_true.mpr (numeral_fixed _ _), List.all_eq_true.mpr (numeral_fixed _ _),
    List.all_eq_true.mpr (numeral_fixed _ _)⟩

theorem historyShardDescriptor_day (shape : stem.toList = dayText year month day) :
    historyShardDescriptor stem = some (String.ofList (dayText year month day), 0, stem) := by
  have whole : stem.toList = dayText year month day ++ [] := shape.trans (List.append_nil _).symm
  obtain ⟨-, -, -, s_day, -, -, -, -, long⟩ := slices_of_day year_fits month_fits day_fits whole
  unfold historyShardDescriptor
  dsimp only
  rw [if_neg (not_not.mpr (valid_day year_fits month_fits day_fits whole)), if_pos (show stem.toList.length = 10 from long), s_day]

theorem historyShardDescriptor_hour (early : hour < 24) (shape : stem.toList = hourText year month day hour) :
    historyShardDescriptor stem = some (String.ofList (dayText year month day), 1, stem) := by
  have hour_fits : hour < 10 ^ 2 := by omega
  have two := length_fixed Nat.two_pos hour_fits
  obtain ⟨-, -, -, s_day, s_hour, -, -, dash, long⟩ := slices_of_day year_fits month_fits day_fits shape
  have s_hour : slice stem 11 13 = fixed 2 hour := by
    rw [s_hour, List.take_of_length_le (by rw [List.length_cons, two])]
    rfl
  rw [List.length_cons, two] at long
  have digits : (fixed 2 hour).all Char.isDigit = true := List.all_eq_true.mpr (numeral_fixed _ _)
  have hours : (parse (2 ^ 8) (fixed 2 hour)).any (· < 24) = true := by
    rw [parse_fixed (by decide) hour_fits (by omega)]
    exact decide_eq_true early
  unfold historyShardDescriptor
  dsimp only
  rw [if_neg (not_not.mpr (valid_day year_fits month_fits day_fits shape)), if_neg (by omega), s_hour,
    if_pos ⟨long, dash, digits, hours⟩, s_day]

theorem parts_of_day : parse (2 ^ 63) (slice (String.ofList (dayText year month day)) 0 4) = some year ∧
    parse (2 ^ 63) (slice (String.ofList (dayText year month day)) 5 7) = some month ∧
    parse (2 ^ 63) (slice (String.ofList (dayText year month day)) 8 10) = some day := by
  have whole : (String.ofList (dayText year month day)).toList = dayText year month day ++ [] := by
    rw [String.toList_ofList, List.append_nil]
  obtain ⟨s_year, s_month, s_day, -⟩ := slices_of_day year_fits month_fits day_fits whole
  rw [s_year, s_month, s_day]
  exact ⟨parse_fixed (by decide) year_fits (by omega), parse_fixed (by decide) month_fits (by omega),
    parse_fixed (by decide) day_fits (by omega)⟩

theorem range_of_day (shape : stem.toList = dayText year month day) :
    historyRangeFromShardName stem = if IsDate year month day then
      some (daysFromCivil year month day * 86400, daysFromCivil year month day * 86400 + 86399) else none := by
  obtain ⟨p_year, p_month, p_day⟩ := parts_of_day year_fits month_fits day_fits
  unfold historyRangeFromShardName
  rw [historyShardDescriptor_day year_fits month_fits day_fits shape]
  simp only [Option.bind_eq_bind, Option.bind_some, p_year, p_month, p_day]
  by_cases date : IsDate year month day
  · have bounds := days_of_date year_fits date
    rw [if_pos date, if_neg (not_not.mpr (Calendar.civilFromDays_daysFromCivil date)), if_pos trivial, saturatingMul,
      clamped_of (by omega) (by omega), saturatingAdd, clamped_of (by omega) (by omega)]
  · rw [if_neg date, if_pos fun again => date (Calendar.isDate_civilFromDays again)]

theorem range_of_hour (early : hour < 24) (shape : stem.toList = hourText year month day hour) :
    historyRangeFromShardName stem = if IsDate year month day then
      some (daysFromCivil year month day * 86400 + hour * 3600, daysFromCivil year month day * 86400 + hour * 3600 + 3599)
      else none := by
  obtain ⟨p_year, p_month, p_day⟩ := parts_of_day year_fits month_fits day_fits
  have hour_fits : hour < 10 ^ 2 := by omega
  obtain ⟨-, -, -, -, s_hour, -⟩ := slices_of_day year_fits month_fits day_fits shape
  have p_hour : parse (2 ^ 63) (slice stem 11 13) = some hour := by
    rw [s_hour, List.take_of_length_le (by rw [List.length_cons, length_fixed (by decide) hour_fits])]
    exact parse_fixed (by decide) hour_fits (by omega)
  unfold historyRangeFromShardName
  rw [historyShardDescriptor_hour year_fits month_fits day_fits early shape]
  simp only [Option.bind_eq_bind, Option.bind_some, p_year, p_month, p_day, p_hour]
  by_cases date : IsDate year month day
  · have bounds := days_of_date year_fits date
    rw [if_pos date, if_neg (not_not.mpr (Calendar.civilFromDays_daysFromCivil date)), if_neg (by decide), saturatingMul,
      saturatingMul, clamped_of (by omega) (by omega), clamped_of (by omega) (by omega), saturatingAdd,
      clamped_of (by omega) (by omega), saturatingAdd, clamped_of (by omega) (by omega)]
  · rw [if_neg date, if_pos fun again => date (Calendar.isDate_civilFromDays again)]

end Read

theorem read_back (name : String) : (historyRangeFromShardName name).isSome ↔ ∃ year month day : Nat,
    year ≤ 9999 ∧ IsDate year month day ∧
      (name = String.ofList (dayText year month day) ∨ ∃ hour < 24, name = String.ofList (hourText year month day hour)) := by
  constructor
  · intro accepted
    have described : ∃ found, historyShardDescriptor name = some found := by
      refine Option.ne_none_iff_exists'.mp fun none => ?_
      unfold historyRangeFromShardName at accepted
      rw [none] at accepted
      exact Bool.noConfusion accepted
    obtain ⟨_, described⟩ := described
    obtain ⟨year, month, day, year_fits, month_fits, day_fits, shape⟩ := historyShardDescriptor_some described
    refine ⟨year, month, day, by omega, ?_, ?_⟩
    · refine Decidable.byContradiction fun missing => ?_
      rcases shape with shape | ⟨hour, early, shape⟩
      · rw [range_of_day year_fits month_fits day_fits shape, if_neg missing] at accepted
        exact Bool.noConfusion accepted
      · rw [range_of_hour year_fits month_fits day_fits early shape, if_neg missing] at accepted
        exact Bool.noConfusion accepted
    · refine shape.imp (fun shape => ?_) fun ⟨hour, early, shape⟩ => ⟨hour, early, ?_⟩
      · rw [← shape, String.ofList_toList]
      · rw [← shape, String.ofList_toList]
  · rintro ⟨year, month, day, year_fits, date, named⟩
    have short := monthDays_le year month
    have month_last := date.month_last
    have day_last := date.day_last
    rcases named with rfl | ⟨hour, early, rfl⟩
    · rw [range_of_day (show year < 10 ^ 4 by omega) (by omega) (by omega) String.toList_ofList, if_pos date]
      rfl
    · rw [range_of_hour (show year < 10 ^ 4 by omega) (by omega) (by omega) early String.toList_ofList, if_pos date]
      rfl

example : historyRangeFromShardName "2026-02-30-01" = none := by decide

theorem range_of_utcHour (named : NamedYears (minute / 1440)) :
    historyRangeFromShardName (utcHourFromMinute minute) = some (minute / 60 * 3600, minute / 60 * 3600 + 3599) := by
  obtain ⟨year, month, day, parts, date, year_fits, month_fits, day_fits⟩ := numbers_of_days named
  obtain ⟨hour, within⟩ : ∃ hour : Nat, minute % 1440 / 60 = hour := ⟨_, (Int.toNat_of_nonneg (by omega)).symm⟩
  have days : daysFromCivil year month day = minute / 1440 := by
    have back := Calendar.daysFromCivil_civilFromDays (minute / 1440)
    rw [parts] at back
    exact back
  rw [utcHourFromMinute_eq minute parts within,
    range_of_hour year_fits month_fits day_fits (show hour < 24 by omega) String.toList_ofList, if_pos date, days]
  simp only [Option.some.injEq, Prod.mk.injEq]
  omega

/-! ### The names of the store

The store keeps the numbers of a name in its place; the text that it stands for is read as it is, and sorts as it does. -/

def nameOf (name : Stats.ShardName) : String :=
  padded 4 name.year ++ "-" ++ padded 2 name.month ++ "-" ++ padded 2 name.date ++
    name.hour.elim "" fun hour => "-" ++ padded 2 hour

theorem nameOf_utcDay (minute : Int) : nameOf (Stats.utcDayFromMinute minute) = utcDayFromMinute minute :=
  String.append_empty

theorem nameOf_utcHour (minute : Int) : nameOf (Stats.utcHourFromMinute minute) = utcHourFromMinute minute :=
  String.append_assoc.symm

theorem range_nameOf {name : Stats.ShardName} (year_fits : 0 ≤ name.year ∧ name.year < 10 ^ 4)
    (month_fits : 0 ≤ name.month ∧ name.month < 10 ^ 2) (date_fits : 0 ≤ name.date ∧ name.date < 10 ^ 2)
    (hours : ∀ hour ∈ name.hour, 0 ≤ hour ∧ hour < 24) :
    historyRangeFromShardName (nameOf name) = Stats.historyRangeFromShardName name := by
  obtain ⟨year, month, date, hour⟩ := name
  dsimp only at year_fits month_fits date_fits hours
  lift year to Nat using year_fits.1
  lift month to Nat using month_fits.1
  lift date to Nat using date_fits.1
  have exists_iff : ¬ ((¬ (0 ≤ (year : Int) ∧ (year : Int) ≤ 9999)) ∨
      civilFromDays (daysFromCivil year month date) ≠ (↑year, ↑month, ↑date)) ↔ IsDate year month date := by
    constructor
    · intro accepted
      exact Calendar.isDate_civilFromDays (not_not.mp (not_or.mp accepted).2)
    · intro found
      exact not_or.mpr ⟨not_not.mpr (by omega), not_not.mpr (Calendar.civilFromDays_daysFromCivil found)⟩
  unfold Stats.historyRangeFromShardName Stats.ShardName.day
  dsimp only
  cases hour with
  | none =>
    have text : nameOf ⟨year, month, date, none⟩ = String.ofList (dayText year month date) :=
      String.append_empty.trans (dayText_eq year month date)
    rw [text, range_of_day (by omega) (by omega) (by omega) String.toList_ofList]
    by_cases found : IsDate year month date
    · rw [if_pos found, if_neg (exists_iff.mpr found)]
    · rw [if_neg found, if_pos (Decidable.not_not.mp (mt exists_iff.mp found))]
  | some hour =>
    have early := hours hour rfl
    lift hour to Nat using early.1
    have text : nameOf ⟨year, month, date, some ↑hour⟩ = String.ofList (hourText year month date hour) := by
      unfold nameOf
      rw [dayText_eq]
      refine String.toList_inj.mp ?_
      show (String.ofList (dayText year month date) ++ ("-" ++ padded 2 hour)).toList = _
      simp only [String.toList_append, String.toList_ofList, padded_toList, hourText]
      rfl
    rw [text, range_of_hour (by omega) (by omega) (by omega) (show hour < 24 by omega) String.toList_ofList]
    by_cases found : IsDate year month date
    · rw [if_pos found, if_neg (exists_iff.mpr found)]
      exact (if_pos early).symm
    · rw [if_neg found, if_pos (Decidable.not_not.mp (mt exists_iff.mp found))]

theorem numbers_lt {other : Int} :
    (Stats.utcHourFromMinute minute).numbers < (Stats.utcHourFromMinute other).numbers ↔ minute / 60 < other / 60 := by
  have order := Calendar.before_civilFromDays (minute / 1440) (other / 1440)
  have order' := Calendar.before_civilFromDays (other / 1440) (minute / 1440)
  show [(civilFromDays (minute / 1440)).1, (civilFromDays (minute / 1440)).2.1, (civilFromDays (minute / 1440)).2.2,
    minute % 1440 / 60] < [(civilFromDays (other / 1440)).1, (civilFromDays (other / 1440)).2.1,
    (civilFromDays (other / 1440)).2.2, other % 1440 / 60] ↔ _
  unfold Before at order order'
  simp only [List.cons_lt_cons_iff, List.not_lt_nil, and_false, or_false]
  omega

/-- In the years of four digits: a day is its date's day; days and hours are named apart and in their order; an hour is
found again under its name; and what a name is read as has a date in the calendar. -/
theorem calendar_exact :
    (∀ days, NamedYears days →
      daysFromCivil (civilFromDays days).1 (civilFromDays days).2.1 (civilFromDays days).2.2 = days) ∧
    (∀ timestamp other, NamedYears (timestamp / 86400) → NamedYears (other / 86400) →
      (utcDay timestamp = utcDay other ↔ timestamp / 86400 = other / 86400) ∧
      (utcDay timestamp < utcDay other ↔ timestamp / 86400 < other / 86400)) ∧
    (∀ minute other, NamedYears (minute / 1440) → NamedYears (other / 1440) →
      (utcDayFromMinute minute = utcDayFromMinute other ↔ minute / 1440 = other / 1440) ∧
      (utcDayFromMinute minute < utcDayFromMinute other ↔ minute / 1440 < other / 1440) ∧
      (utcHourFromMinute minute = utcHourFromMinute other ↔ minute / 60 = other / 60) ∧
      (utcHourFromMinute minute < utcHourFromMinute other ↔ minute / 60 < other / 60)) ∧
    (∀ minute, NamedYears (minute / 1440) →
      historyRangeFromShardName (utcHourFromMinute minute) = some (minute / 60 * 3600, minute / 60 * 3600 + 3599)) ∧
    ∀ name, (historyRangeFromShardName name).isSome ↔ ∃ year month day : Nat, year ≤ 9999 ∧ IsDate year month day ∧
      (name = String.ofList (dayText year month day) ∨
        ∃ hour < 24, name = String.ofList (hourText year month day hour)) := by
  refine ⟨fun days _ => Calendar.daysFromCivil_civilFromDays days, fun timestamp other named named' => ?_,
    fun minute other named named' => ?_, fun minute => range_of_utcHour, read_back⟩
  · have less := utcDay_lt named named'
    exact ⟨same_of_order less (utcDay_lt named' named), less⟩
  · have days := utcDayFromMinute_lt named named'
    have hours := utcHourFromMinute_lt named named'
    exact ⟨same_of_order days (utcDayFromMinute_lt named' named), days,
      same_of_order hours (utcHourFromMinute_lt named' named), hours⟩

theorem calendar_exact_early : daysFromCivil (civilFromDays (-719528)).1 (civilFromDays (-719528)).2.1
      (civilFromDays (-719528)).2.2 = -719528 ∧ utcDay (-1) < utcDay 0 ∧
    utcDayFromMinute (-719528 * 1440) < utcDayFromMinute (-1) ∧ utcHourFromMinute (-1) ≠ utcHourFromMinute 0 ∧
    historyRangeFromShardName (utcHourFromMinute (-1)) = some (-3600, -1) ∧
    (historyRangeFromShardName "1969-12-31").isSome := by
  obtain ⟨days, seconds, minutes, ranges, names⟩ := calendar_exact
  refine ⟨days (-719528) (by decide), (seconds (-1) 0 (by decide) (by decide)).2.mpr (by decide),
    (minutes (-719528 * 1440) (-1) (by decide) (by decide)).2.1.mpr (by decide),
    fun same => absurd ((minutes (-1) 0 (by decide) (by decide)).2.2.1.mp same) (by decide), ranges (-1) (by decide), ?_⟩
  exact (names _).mpr ⟨1969, 12, 31, by decide, by decide, .inl (by decide)⟩

end KiroProxy.ShardNames
