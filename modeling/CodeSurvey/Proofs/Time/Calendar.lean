import CodeSurvey.Time.Calendar
import Mathlib.Algebra.GroupWithZero.Nat
import Mathlib.Tactic.Common

/-!
# Days and times that are on the calendar

The day of a number is one of the calendar (`Day.ofNumber_isValid`): the cycles of 400, 100 and 4
years add up to the year in which the number lies (`yearOf_spec`), and the months of a year have as
many days as the year. The same of times of day (`Clock.ofMicros_isValid`). So a moment that has one
in universal time has a day and a time there that can be written and read.

Conversely a day on the calendar is the day of its number (`Day.IsValid.ofNumber_number`), and a
moment without an offset is its own moment of universal time (`Moment.universal?_eq_self`). Numbers
and days are in the same order (`Day.IsValid.number_lt_number`), and a moment and its own one of
universal time are at the same instant (`Moment.InCalendar.universal?`).
-/

namespace CodeSurvey.Time

/-- Whether a day is on the calendar. -/
def Day.IsValid (d : Day) : Prop :=
  1 ≤ d.year ∧ d.year ≤ lastYear ∧ 1 ≤ d.month ∧ d.month ≤ 12 ∧ 1 ≤ d.day ∧
    d.day ≤ daysIn d.year d.month

/-- Whether a time is on the clock. -/
def Clock.IsValid (c : Clock) : Prop :=
  c.hour < 24 ∧ c.minute < 60 ∧ c.second < 60 ∧ c.micro < microsPerSecond

/-- A day is found by its parts. -/
theorem Day.IsValid.day? {d : Day} (h : d.IsValid) : day? d.year d.month d.day = some d := if_pos h

/-- A time is found by its parts. -/
theorem Clock.IsValid.clock? {c : Clock} (h : c.IsValid) :
    clock? c.hour c.minute c.second c.micro = some c := if_pos h

/-! ## Days -/

/-- The number of days of a year. -/
def daysOfYear (y : Nat) : Nat := if isLeapYear y then 366 else 365

/-- A leap year by its place in the cycles of 400, 100 and 4 years. -/
theorem isLeapYear_cycles {q a b c : Nat} (ha : a ≤ 3) (hb : b ≤ 24) (hc : c ≤ 3) :
    isLeapYear (400 * q + 100 * a + 4 * b + c + 1) = true ↔ c = 3 ∧ (b = 24 → a = 3) := by
  simp only [isLeapYear, Bool.or_eq_true, Bool.and_eq_true, beq_iff_eq, bne_iff_ne]
  omega

/-- The number of days before it. -/
theorem daysBeforeYear_cycles {q a b c : Nat} (ha : a ≤ 3) (hb : b ≤ 24) (hc : c ≤ 3) :
    daysBeforeYear (400 * q + 100 * a + 4 * b + c + 1) =
      146097 * q + 36524 * a + 1461 * b + 365 * c := by
  rw [daysBeforeYear]
  omega

/-- The year of a number: it has begun, and is not over. -/
theorem yearOf_spec (n : Nat) :
    1 ≤ yearOf n ∧ daysBeforeYear (yearOf n) ≤ n ∧
      n < daysBeforeYear (yearOf n) + daysOfYear (yearOf n) := by
  obtain ⟨q, hq⟩ : ∃ q, q = n / 146097 := ⟨_, rfl⟩
  obtain ⟨a, ha⟩ : ∃ a, a = min 3 (n % 146097 / 36524) := ⟨_, rfl⟩
  obtain ⟨b, hb⟩ : ∃ b, b = (n % 146097 - a * 36524) / 1461 := ⟨_, rfl⟩
  obtain ⟨r, hr⟩ : ∃ r, r = (n % 146097 - a * 36524) % 1461 := ⟨_, rfl⟩
  obtain ⟨c, hc⟩ : ∃ c, c = min 3 (r / 365) := ⟨_, rfl⟩
  have hyear : yearOf n = 400 * q + 100 * a + 4 * b + c + 1 := by
    rw [hc, hr, hb, ha, hq, yearOf]
    omega
  have ha3 : a ≤ 3 := by omega
  have hb24 : b ≤ 24 := by omega
  have hc3 : c ≤ 3 := by omega
  have hn : n = 146097 * q + 36524 * a + 1461 * b + r := by omega
  -- The last day of a cycle is only there if its last year is a leap year.
  have hlast : c = 3 → (b = 24 → a = 3) ∨ r < 1460 := by omega
  rw [hyear, daysBeforeYear_cycles ha3 hb24 hc3, daysOfYear]
  refine ⟨by omega, by omega, ?_⟩
  split_ifs with h
  · omega
  · rw [isLeapYear_cycles ha3 hb24 hc3] at h
    omega

/-- A number of the calendar lies in one of its years. -/
theorem yearOf_le {n : Nat} (h : n < dayCount) : yearOf n ≤ lastYear := by
  have hcount : dayCount = 3652059 := by decide
  rw [hcount] at h
  unfold yearOf lastYear
  dsimp only
  omega

/-- The month and the day of a number that is within the given months. -/
theorem monthDay_spec {y : Nat} {ms : List Nat} {n : Nat}
    (h : n < (ms.map fun m => daysIn y m).sum) :
    (monthDay y ms n).1 ∈ ms ∧ 1 ≤ (monthDay y ms n).2 ∧
      (monthDay y ms n).2 ≤ daysIn y (monthDay y ms n).1 := by
  induction ms generalizing n with
  | nil => simp at h
  | cons m ms ih =>
    rw [monthDay]
    split_ifs with hm
    · exact ⟨List.mem_cons_self, Nat.le_add_left 1 n, hm⟩
    · -- It lies in one of the later months.
      obtain ⟨hmem, hday⟩ := ih (n := n - daysIn y m) (by
        rw [List.map_cons, List.sum_cons] at h
        omega)
      exact ⟨List.mem_cons_of_mem m hmem, hday⟩

/-- The months of a year have as many days as the year. -/
theorem sum_daysIn (y : Nat) : (months.map fun m => daysIn y m).sum = daysOfYear y := by
  cases h : isLeapYear y <;> simp [months, daysIn, daysOfYear, h]

/-- The day of a number is on the calendar. -/
theorem Day.ofNumber_isValid {n : Nat} (h : n < dayCount) : (Day.ofNumber n).IsValid := by
  obtain ⟨hfirst, hbegun, hnotOver⟩ := yearOf_spec n
  have hin : n - daysBeforeYear (yearOf n) < (months.map fun m => daysIn (yearOf n) m).sum := by
    rw [sum_daysIn]
    omega
  obtain ⟨hmonth, hday, hday'⟩ := monthDay_spec hin
  have hmonths : ∀ m ∈ months, 1 ≤ m ∧ m ≤ 12 := by decide
  exact ⟨hfirst, yearOf_le h, (hmonths _ hmonth).1, (hmonths _ hmonth).2, hday, hday'⟩

/-! ## Numbers of days -/

/-- A year begins when the one before it is over. -/
theorem daysBeforeYear_succ {y : Nat} (hy : 1 ≤ y) :
    daysBeforeYear (y + 1) = daysBeforeYear y + daysOfYear y := by
  obtain ⟨k, rfl⟩ := Nat.exists_eq_add_of_le' hy
  -- A cycle is over with each year that is divided by its length.
  have hover : ∀ c, 0 < c → (k + 1) / c = k / c + if (k + 1) % c = 0 then 1 else 0 := by
    intro c _
    rw [Nat.succ_div]
    simp only [Nat.dvd_iff_mod_eq_zero]
  have hcenturies : k / 100 ≤ k / 4 := by omega
  unfold daysBeforeYear daysOfYear
  simp only [isLeapYear, Bool.or_eq_true, Bool.and_eq_true, beq_iff_eq, bne_iff_ne,
    Nat.add_sub_cancel, hover 4 (by decide), hover 100 (by decide), hover 400 (by decide)]
  generalize k / 4 = fours at *
  generalize k / 100 = centuries at *
  generalize k / 400 = cycles
  split_ifs <;> omega

/-- Later years begin later. -/
theorem daysBeforeYear_mono {y y' : Nat} (h : y ≤ y') : daysBeforeYear y ≤ daysBeforeYear y' := by
  rcases Nat.eq_or_lt_of_le h with rfl | hlt
  · exact Nat.le_refl _
  · unfold daysBeforeYear
    omega

/-- A number lies in one year only. -/
theorem yearOf_eq {y n : Nat} (hy : 1 ≤ y) (hbegun : daysBeforeYear y ≤ n)
    (hnotOver : n < daysBeforeYear y + daysOfYear y) : yearOf n = y := by
  obtain ⟨hfirst, hbegun', hnotOver'⟩ := yearOf_spec n
  rw [← daysBeforeYear_succ hy] at hnotOver
  rw [← daysBeforeYear_succ hfirst] at hnotOver'
  rcases Nat.lt_trichotomy (yearOf n) y with hlt | heq | hgt
  · have := daysBeforeYear_mono (y := yearOf n + 1) hlt
    omega
  · exact heq
  · have := daysBeforeYear_mono (y := y + 1) hgt
    omega

/-- The months before one are passed over. -/
theorem monthDay_append (y : Nat) {ms : List Nat} {m k : Nat} (rest : List Nat)
    (hk : k < daysIn y m) :
    monthDay y (ms ++ m :: rest) ((ms.map fun m => daysIn y m).sum + k) = (m, k + 1) := by
  induction ms with
  | nil => simp [monthDay, hk]
  | cons m' ms ih =>
    have hpast : ¬ (daysIn y m' + (ms.map fun m => daysIn y m).sum + k < daysIn y m') := by omega
    rw [List.cons_append, List.map_cons, List.sum_cons, monthDay, if_neg hpast, ← ih]
    congr 1
    omega

/-- The days before a month are those of the months before it. -/
theorem daysBeforeMonth_eq (y m : Nat) : daysBeforeMonth y m =
    (((List.range (m - 1)).map (· + 1)).map fun m => daysIn y m).sum := by
  rw [daysBeforeMonth, List.sum_eq_foldl, List.foldl_map, List.foldl_map]

/-- A month stands behind those before it. -/
theorem months_split {m : Nat} (hfirst : 1 ≤ m) (hlast : m ≤ 12) :
    months = (List.range (m - 1)).map (· + 1) ++ m :: months.drop m := by
  have hsplit : ∀ m ≤ 12, 1 ≤ m →
      months = (List.range (m - 1)).map (· + 1) ++ m :: months.drop m := by decide
  exact hsplit m hlast hfirst

/-- A day of a year comes before the year is over. -/
theorem Day.IsValid.before_lt {d : Day} (h : d.IsValid) :
    daysBeforeMonth d.year d.month + (d.day - 1) < daysOfYear d.year := by
  obtain ⟨-, -, hfirst, hlast, hday, hdays⟩ := h
  have hmonth : months.map (fun m => daysIn d.year m) = _ :=
    congrArg _ (months_split hfirst hlast)
  rw [← sum_daysIn, hmonth, List.map_append, List.sum_append, List.map_cons, List.sum_cons,
    ← daysBeforeMonth_eq]
  omega

/-- A day on the calendar is the day of its number. -/
theorem Day.IsValid.ofNumber_number {d : Day} (h : d.IsValid) : Day.ofNumber d.number = d := by
  have hbefore := h.before_lt
  obtain ⟨hyear, -, hfirst, hlast, hday, hdays⟩ := h
  have hnumber : d.number - daysBeforeYear d.year =
      daysBeforeMonth d.year d.month + (d.day - 1) := by
    unfold Day.number
    omega
  have hyearOf : yearOf d.number = d.year := by
    refine yearOf_eq hyear ?_ ?_ <;> unfold Day.number <;> omega
  have hmonthDay : monthDay d.year months (daysBeforeMonth d.year d.month + (d.day - 1)) =
      (d.month, d.day) := by
    rw [daysBeforeMonth_eq, months_split hfirst hlast, monthDay_append _ _ (by omega)]
    congr 1
    omega
  unfold Day.ofNumber
  simp only [hyearOf, hnumber, hmonthDay]

/-- Its number is one of the calendar. -/
theorem Day.IsValid.number_lt {d : Day} (h : d.IsValid) : d.number < dayCount := by
  have hbefore := h.before_lt
  have hnext := daysBeforeYear_succ h.1
  have hcount : daysBeforeYear (d.year + 1) ≤ dayCount :=
    daysBeforeYear_mono (Nat.succ_le_succ h.2.1)
  unfold Day.number
  omega

/-- A month begins when the one before it is over. -/
theorem daysBeforeMonth_succ (y : Nat) {m : Nat} (hm : 1 ≤ m) :
    daysBeforeMonth y (m + 1) = daysBeforeMonth y m + daysIn y m := by
  obtain ⟨k, rfl⟩ := Nat.exists_eq_add_of_le' hm
  rw [daysBeforeMonth, daysBeforeMonth, Nat.add_sub_cancel, Nat.add_sub_cancel, List.range_succ,
    List.foldl_append]
  rfl

/-- Later months begin when the month is over, or later. -/
theorem daysBeforeMonth_le (y : Nat) {m m' : Nat} (hm : 1 ≤ m) (h : m < m') :
    daysBeforeMonth y m + daysIn y m ≤ daysBeforeMonth y m' := by
  induction h with
  | refl => exact Nat.le_of_eq (daysBeforeMonth_succ y hm).symm
  | @step k hk ih =>
    have hk : m < k := hk
    rw [daysBeforeMonth_succ y (by omega)]
    omega

/-- A number that is counted from the start of a month is that of its month and day. -/
theorem monthDay_number {y first count n : Nat} (hfirst : 1 ≤ first)
    (h : n < ((List.range' first count).map fun m => daysIn y m).sum) :
    daysBeforeMonth y (monthDay y (List.range' first count) n).1 +
        ((monthDay y (List.range' first count) n).2 - 1) = daysBeforeMonth y first + n := by
  induction count generalizing first n with
  | zero => simp at h
  | succ count ih =>
    rw [List.range'_succ, List.map_cons, List.sum_cons] at h
    rw [List.range'_succ, monthDay]
    split_ifs with hin
    · rfl
    · rw [ih (n := n - daysIn y first) (by omega) (by omega), daysBeforeMonth_succ y hfirst]
      omega

/-- A number is that of its day. -/
theorem Day.number_ofNumber (n : Nat) : (Day.ofNumber n).number = n := by
  obtain ⟨-, hbegun, hnotOver⟩ := yearOf_spec n
  have hmonths : months = List.range' 1 12 := rfl
  have hin : n - daysBeforeYear (yearOf n) <
      ((List.range' 1 12).map fun m => daysIn (yearOf n) m).sum := by
    rw [← hmonths, sum_daysIn]
    omega
  have hnumber := monthDay_number (Nat.le_refl 1) hin
  have hstart : daysBeforeMonth (yearOf n) 1 = 0 := rfl
  rw [← hmonths, hstart] at hnumber
  unfold Day.number Day.ofNumber
  dsimp only
  omega

/-- Days on the calendar are counted in the order of their years, months and days. -/
theorem Day.IsValid.number_lt_number {d d' : Day} (h : d.IsValid) (h' : d'.IsValid)
    (hlt : d.year < d'.year ∨ d.year = d'.year ∧
      (d.month < d'.month ∨ d.month = d'.month ∧ d.day < d'.day)) : d.number < d'.number := by
  have hbefore := h.before_lt
  obtain ⟨hyear, -, hmonth, -, hday, hdays⟩ := h
  obtain ⟨-, -, -, -, hday', -⟩ := h'
  unfold Day.number
  rcases hlt with hyears | ⟨hyears, hmonths | ⟨hmonths, hlast⟩⟩
  · have hnext := daysBeforeYear_mono hyears
    rw [daysBeforeYear_succ hyear] at hnext
    omega
  · have hnext := daysBeforeMonth_le d.year hmonth hmonths
    rw [← hyears]
    omega
  · rw [← hyears, ← hmonths]
    omega

/-! ## Times -/

/-- The time of microseconds of a day is on the clock. -/
theorem Clock.ofMicros_isValid {n : Nat} (h : n < microsPerDay) : (Clock.ofMicros n).IsValid := by
  simp only [microsPerDay, microsPerSecond] at h
  simp only [Clock.IsValid, Clock.ofMicros, microsPerSecond]
  omega

/-- A time on the clock is that of its microseconds, which are some of a day. -/
theorem Clock.IsValid.ofMicros_micros {c : Clock} (h : c.IsValid) :
    Clock.ofMicros c.micros = c ∧ c.micros < microsPerDay := by
  obtain ⟨hour, minute, second, micro⟩ := c
  simp only [Clock.IsValid, microsPerSecond] at h
  simp only [Clock.ofMicros, Clock.micros, microsPerDay, microsPerSecond, Clock.mk.injEq]
  omega

/-- Microseconds are those of their time. -/
theorem Clock.micros_ofMicros (n : Nat) : (Clock.ofMicros n).micros = n := by
  simp only [Clock.micros, Clock.ofMicros, microsPerSecond]
  omega

/-! ## Moments -/

/-- A moment without an offset is its own moment of universal time. -/
theorem Moment.universal?_eq_self {m : Moment} (hday : m.day.IsValid) (hclock : m.clock.IsValid)
    (hoffset : m.offset = 0) : m.universal? = some m := by
  obtain ⟨hmicros, hlt⟩ := hclock.ofMicros_micros
  have hnumber := hday.number_lt
  have hpos : 0 < microsPerDay := by decide
  have hinstant : m.instant = (m.day.number * microsPerDay + m.clock.micros : Nat) := by
    rw [instant, hoffset, Int.sub_zero]
  have hin : m.day.number * microsPerDay + m.clock.micros < dayCount * microsPerDay :=
    calc m.day.number * microsPerDay + m.clock.micros
        < (m.day.number + 1) * microsPerDay := by rw [Nat.add_one_mul]; omega
      _ ≤ dayCount * microsPerDay := Nat.mul_le_mul_right _ hnumber
  have hdays : (m.day.number * microsPerDay + m.clock.micros) / microsPerDay = m.day.number := by
    rw [Nat.mul_comm, Nat.mul_add_div hpos, Nat.div_eq_of_lt hlt, Nat.add_zero]
  rw [universal?, if_pos (by omega), hinstant, Int.toNat_natCast, ofInstant, hdays,
    Nat.mul_add_mod', Nat.mod_eq_of_lt hlt, hday.ofNumber_number, hmicros, ← hoffset]

/-- A moment is on the calendar of universal time. -/
def Moment.InCalendar (m : Moment) : Prop :=
  0 ≤ m.instant ∧ m.instant < dayCount * microsPerDay

instance (m : Moment) : Decidable m.InCalendar := inferInstanceAs (Decidable (_ ∧ _))

/-- Such a moment has a day and a time there, and these are at the same instant. -/
theorem Moment.InCalendar.universal? {m : Moment} (h : m.InCalendar) :
    ∃ u, m.universal? = some u ∧ u.instant = m.instant := by
  refine ⟨_, if_pos h, ?_⟩
  rw [Moment.instant, ofInstant, Day.number_ofNumber, Clock.micros_ofMicros,
    Nat.div_add_mod', Int.sub_zero, Int.toNat_of_nonneg h.1]

/-- A moment that is not on it has none. -/
theorem Moment.universal?_eq_none {m : Moment} (h : ¬m.InCalendar) : m.universal? = none :=
  if_neg h

/-- The universal day and time of a moment can be written. -/
theorem Moment.isValid_universal {m u : Moment} (h : m.universal? = some u) :
    u.day.IsValid ∧ u.clock.IsValid ∧ u.offset = 0 := by
  unfold universal? at h
  split_ifs at h with hin
  obtain rfl := Option.some.inj h
  have hpos : 0 < microsPerDay := by decide
  refine ⟨Day.ofNumber_isValid ?_, Clock.ofMicros_isValid (Nat.mod_lt _ hpos), rfl⟩
  rw [Nat.div_lt_iff_lt_mul hpos]
  omega

end CodeSurvey.Time
