import CodeSurvey.Proofs.Time.Reading
import Mathlib.Data.List.Forall2

/-!
# Universal texts as a normal form

The text of a moment in universal time has seven numbers, each with a fixed count of digits and a
mark behind it (`layout`). So it has one shape (`Moment.hasShape_of_universalText?`), and two texts
are in the order of their numbers (`marked_lt_iff`), which is that of the instants
(`Moment.instant_lt_instant`). It is read as the moment down to milliseconds (`Moment.inMillis`),
which has the same text. So these texts are a normal form of all that can be read and is on the
calendar of universal time (`universalText_is_normal_form`).
-/

namespace CodeSurvey.Time

open CodeSurvey.Text (padded padded_spec padded_append_lt_iff isDigit_of_mem_padded)

/-! ## Numbers with marks behind them -/

/-- A number in a text: the letter that stands for its digits, their count, and the mark behind
them. -/
structure Part where
  letter : Char
  width : Nat
  mark : Char
  deriving Repr, DecidableEq

/-- The numbers of a moment in universal time. -/
def layout : List Part :=
  [⟨'Y', 4, '-'⟩, ⟨'M', 2, '-'⟩, ⟨'D', 2, 'T'⟩, ⟨'H', 2, ':'⟩, ⟨'M', 2, ':'⟩, ⟨'S', 2, '.'⟩,
    ⟨'m', 3, 'Z'⟩]

/-- The text of numbers. -/
def marked : List Part → List Nat → List Char
  | p :: parts, n :: ns => (padded p.width n).toList ++ p.mark :: marked parts ns
  | _, _ => []

/-- A number has no more digits than its part of the text. -/
def Part.Admits (p : Part) (n : Nat) : Prop := 0 < p.width ∧ n < 10 ^ p.width

/-- Texts of numbers are in the order of the numbers. -/
theorem marked_lt_iff {parts : List Part} {ns ns' : List Nat}
    (h : List.Forall₂ Part.Admits parts ns) (h' : List.Forall₂ Part.Admits parts ns') :
    marked parts ns < marked parts ns' ↔ ns < ns' := by
  induction h generalizing ns' with
  | nil =>
    cases h'
    simp [marked]
  | cons hn _ ih =>
    cases h' with
    | cons hn' hns' =>
      rw [marked, marked, padded_append_lt_iff hn.1 hn.2 hn'.2, List.cons_lt_cons_iff,
        List.cons_lt_cons_iff, ih hns']
      simp

/-! ## Shapes -/

/-- The letters that stand for digits. -/
def digitLetters : List Char := ['Y', 'M', 'D', 'H', 'S', 'm']

/-- A letter stands for a digit, and all other characters for themselves. -/
def Stands (p c : Char) : Prop := if p ∈ digitLetters then Text.isDigit c = true else c = p

/-- A text has the shape of a moment in universal time. -/
def HasShape (text : String) : Prop :=
  List.Forall₂ Stands "YYYY-MM-DDTHH:MM:SS.mmmZ".toList text.toList

/-- Letters stand for as many digits. -/
theorem forall₂_replicate {p : Char} (hp : p ∈ digitLetters) {ds : List Char}
    (hds : ∀ d ∈ ds, Text.isDigit d = true) :
    List.Forall₂ Stands (List.replicate ds.length p) ds := by
  induction ds with
  | nil => exact .nil
  | cons d ds ih =>
    obtain ⟨hd, hds⟩ := List.forall_mem_cons.1 hds
    have hstands : Stands p d := by rwa [Stands, if_pos hp]
    exact .cons hstands (ih hds)

/-- The letters of the parts stand for the digits of the numbers. -/
theorem forall₂_marked {parts : List Part}
    (hletters : ∀ p ∈ parts, p.letter ∈ digitLetters ∧ p.mark ∉ digitLetters) {ns : List Nat}
    (h : List.Forall₂ Part.Admits parts ns) :
    List.Forall₂ Stands (parts.flatMap fun p => List.replicate p.width p.letter ++ [p.mark])
      (marked parts ns) := by
  induction h with
  | nil => exact .nil
  | @cons p n parts ns hn _ ih =>
    obtain ⟨⟨hletter, hmark⟩, hletters⟩ := List.forall_mem_cons.1 hletters
    obtain ⟨hlength, -⟩ := padded_spec hn.1 hn.2
    have hdigits := forall₂_replicate hletter
      fun d (hd : d ∈ (padded p.width n).toList) => isDigit_of_mem_padded hd
    have hstands : Stands p.mark p.mark := by rw [Stands, if_neg hmark]
    rw [hlength] at hdigits
    rw [List.flatMap_cons, List.append_assoc, marked]
    exact List.rel_append hdigits (.cons hstands (ih hletters))

/-! ## The numbers of a moment -/

/-- The numbers in the text of a moment in universal time. -/
def Moment.numbers (u : Moment) : List Nat :=
  [u.day.year, u.day.month, u.day.day, u.clock.hour, u.clock.minute, u.clock.second,
    u.clock.micro / 1000]

/-- The text of a moment in universal time is that of its numbers. -/
theorem Moment.toList_eq_marked (u : Moment) :
    (u.day.text ++ "T" ++ u.clock.milliText ++ "Z").toList = marked layout u.numbers := by
  rw [toList_universal]
  simp [plainChars, layout, marked, numbers]

/-- There are enough digits for the numbers of a day on the calendar and a time on the clock. -/
theorem Moment.admits_numbers {u : Moment} (hday : u.day.IsValid) (hclock : u.clock.IsValid) :
    List.Forall₂ Part.Admits layout u.numbers := by
  have hlast : lastYear = 9999 := rfl
  have hmicros : microsPerSecond = 1000000 := rfl
  have hdays : daysIn u.day.year u.day.month ≤ 31 := by
    unfold daysIn
    split_ifs <;> decide
  obtain ⟨-, hyear, -, hmonth, -, hday⟩ := hday
  obtain ⟨hhour, hminute, hsecond, hmicro⟩ := hclock
  simp only [layout, numbers, List.forall₂_cons, List.forall₂_nil_left_iff, Part.Admits, and_true]
  omega

/-- A time with smaller numbers is an earlier one. -/
theorem Clock.IsValid.micros_lt_micros {c c' : Clock} (h : c.IsValid) (h' : c'.IsValid)
    (hlt : c.hour < c'.hour ∨ c.hour = c'.hour ∧ (c.minute < c'.minute ∨ c.minute = c'.minute ∧
      (c.second < c'.second ∨ c.second = c'.second ∧ c.micro / 1000 < c'.micro / 1000))) :
    c.micros < c'.micros := by
  simp only [Clock.IsValid, microsPerSecond] at h h'
  unfold Clock.micros microsPerSecond
  omega

/-- A moment of universal time with smaller numbers is an earlier one. -/
theorem Moment.instant_lt_instant {u u' : Moment} (hday : u.day.IsValid) (hday' : u'.day.IsValid)
    (hclock : u.clock.IsValid) (hclock' : u'.clock.IsValid) (hoffset : u.offset = 0)
    (hoffset' : u'.offset = 0) (h : u.numbers < u'.numbers) : u.instant < u'.instant := by
  have hmicros := hclock.ofMicros_micros.2
  have hmicros' := hclock'.ofMicros_micros.2
  simp only [numbers, List.cons_lt_cons_iff, List.not_lt_nil, and_false, or_false] at h
  have hcases : u.day.number < u'.day.number ∨
      u.day.number = u'.day.number ∧ u.clock.micros < u'.clock.micros := by
    by_cases hsame : u.day = u'.day
    · refine .inr ⟨congrArg Day.number hsame, hclock.micros_lt_micros hclock' ?_⟩
      simpa [hsame] using h
    · have hparts : ¬(u.day.year = u'.day.year ∧ u.day.month = u'.day.month ∧
          u.day.day = u'.day.day) := fun hall => hsame ((Day.mk.injEq ..).mpr hall)
      refine .inl (hday.number_lt_number hday' ?_)
      omega
  rw [instant, instant, hoffset, hoffset']
  unfold microsPerDay microsPerSecond at *
  omega

/-! ## Whole milliseconds -/

/-- A moment in universal time, down to milliseconds. -/
def Moment.inMillis (m : Moment) : Moment := ofInstant (m.instant.toNat / 1000 * 1000)

/-- A moment without what its text leaves out. -/
def Moment.truncated (u : Moment) : Moment :=
  { u with clock := { u.clock with micro := u.clock.micro / 1000 * 1000 } }

/-- A moment of universal time is that of its instant. -/
theorem Moment.eq_ofInstant {u : Moment} (hday : u.day.IsValid) (hclock : u.clock.IsValid)
    (hoffset : u.offset = 0) : u = ofInstant u.instant.toNat := by
  have hself := universal?_eq_self hday hclock hoffset
  unfold universal? at hself
  split_ifs at hself
  exact (Option.some.inj hself).symm

/-- What is left out are the microseconds below a millisecond. -/
theorem Moment.instant_truncated {u : Moment} (hoffset : u.offset = 0) :
    u.truncated.instant = u.instant / 1000 * 1000 := by
  rw [instant, instant, truncated, hoffset]
  unfold Clock.micros microsPerDay microsPerSecond
  dsimp only
  omega

/-- What is left is on the calendar too. -/
theorem Moment.inMillis_truncated {u : Moment} (hday : u.day.IsValid) (hclock : u.clock.IsValid)
    (hoffset : u.offset = 0) : u.truncated.InMillis := by
  obtain ⟨hhour, hminute, hsecond, hmicro⟩ := hclock
  have hless : u.clock.micro / 1000 * 1000 ≤ u.clock.micro := Nat.div_mul_le_self _ _
  exact ⟨hday, ⟨hhour, hminute, hsecond, Nat.lt_of_le_of_lt hless hmicro⟩, hoffset,
    Nat.dvd_mul_left _ _⟩

/-- A moment in universal time without what its text leaves out is the moment down to
milliseconds. -/
theorem Moment.InCalendar.truncated_eq {m u : Moment} (h : m.InCalendar)
    (hu : m.universal? = some u) : u.truncated = m.inMillis := by
  obtain ⟨hday, hclock, hoffset⟩ := isValid_universal hu
  obtain ⟨u', hu', hinstant⟩ := h.universal?
  obtain rfl := Option.some.inj (hu'.symm.trans hu)
  have hmillis := inMillis_truncated hday hclock hoffset
  have hnat : (m.instant / 1000 * 1000).toNat = m.instant.toNat / 1000 * 1000 := by
    have hpos := h.1
    omega
  rw [eq_ofInstant hmillis.day hmillis.clock hmillis.offset, instant_truncated hoffset, hinstant,
    hnat]
  rfl

section InCalendar

variable {m : Moment}

/-- A moment on the calendar is still on it down to milliseconds. -/
theorem Moment.InCalendar.inMillis (h : m.InCalendar) : m.inMillis.InMillis := by
  obtain ⟨u, hu, -⟩ := h.universal?
  obtain ⟨hday, hclock, hoffset⟩ := isValid_universal hu
  rw [← h.truncated_eq hu]
  exact inMillis_truncated hday hclock hoffset

/-- Its instant is the one before it at a whole millisecond. -/
theorem Moment.InCalendar.instant_inMillis (h : m.InCalendar) :
    m.inMillis.instant = m.instant / 1000 * 1000 := by
  obtain ⟨u, hu, hinstant⟩ := h.universal?
  obtain ⟨-, -, hoffset⟩ := isValid_universal hu
  rw [← h.truncated_eq hu, instant_truncated hoffset, hinstant]

/-- Its text is the same down to milliseconds. -/
theorem Moment.InCalendar.universalText?_inMillis (h : m.InCalendar) :
    m.inMillis.universalText? = m.universalText? := by
  obtain ⟨u, hu, -⟩ := h.universal?
  obtain ⟨hday, hclock, hoffset⟩ := isValid_universal hu
  have hmillis := inMillis_truncated hday hclock hoffset
  rw [← h.truncated_eq hu, universalText?, universalText?, hu,
    universal?_eq_self hmillis.day hmillis.clock hmillis.offset]
  simp [truncated, Clock.milliText]

/-- What has no more than milliseconds is on the calendar. -/
theorem Moment.InMillis.inCalendar (h : m.InMillis) : m.InCalendar := by
  have hself := universal?_eq_self h.day h.clock h.offset
  by_contra hnot
  cases (universal?_eq_none hnot).symm.trans hself

/-- It is the same down to milliseconds. -/
theorem Moment.InMillis.inMillis_eq (h : m.InMillis) : m.inMillis = m := by
  have hself := universal?_eq_self h.day h.clock h.offset
  rw [← h.inCalendar.truncated_eq hself, truncated, Nat.div_mul_cancel h.micro]

/-- The text of a moment on the calendar is read as the moment down to milliseconds. -/
theorem Moment.InCalendar.ofText? (h : m.InCalendar) :
    ∃ text, m.universalText? = some text ∧ Moment.ofText? text = some m.inMillis := by
  obtain ⟨u, hu, -⟩ := h.universal?
  obtain ⟨text, htext, hread⟩ := Moment.ofText?_universalText? hu
  exact ⟨text, htext, hread.trans (congrArg some (h.truncated_eq hu))⟩

/-- Its text has the shape of a moment in universal time. -/
theorem Moment.hasShape_of_universalText? {text : String} (h : m.universalText? = some text) :
    HasShape text := by
  obtain ⟨u, hu, rfl⟩ := Option.map_eq_some_iff.1 h
  obtain ⟨hday, hclock, -⟩ := isValid_universal hu
  have hletters : ∀ p ∈ layout, p.letter ∈ digitLetters ∧ p.mark ∉ digitLetters := by decide
  have hshape : "YYYY-MM-DDTHH:MM:SS.mmmZ".toList =
      layout.flatMap fun p => List.replicate p.width p.letter ++ [p.mark] := by decide
  rw [HasShape, toList_eq_marked, hshape]
  exact forall₂_marked hletters (admits_numbers hday hclock)

/-- A moment that is no earlier has no earlier text. -/
theorem Moment.InCalendar.universalText?_mono {m' : Moment} (h : m.InCalendar)
    (h' : m'.InCalendar) (hle : m.instant ≤ m'.instant) {text text' : String}
    (htext : m.universalText? = some text) (htext' : m'.universalText? = some text') :
    text ≤ text' := by
  obtain ⟨u, hu, hinstant⟩ := h.universal?
  obtain ⟨u', hu', hinstant'⟩ := h'.universal?
  obtain ⟨hday, hclock, hoffset⟩ := isValid_universal hu
  obtain ⟨hday', hclock', hoffset'⟩ := isValid_universal hu'
  rw [universalText?, hu] at htext
  rw [universalText?, hu'] at htext'
  have htext : u.day.text ++ "T" ++ u.clock.milliText ++ "Z" = text := Option.some.inj htext
  have htext' : u'.day.text ++ "T" ++ u'.clock.milliText ++ "Z" = text' := Option.some.inj htext'
  rw [← htext, ← htext', ← String.not_lt, String.lt_iff, toList_eq_marked, toList_eq_marked,
    marked_lt_iff (admits_numbers hday' hclock') (admits_numbers hday hclock)]
  intro hlt
  have hbefore := instant_lt_instant hday' hday hclock' hclock hoffset' hoffset hlt
  omega

end InCalendar

/-- Universal texts are a normal form. Whatever text a moment was read from, if it is on the
calendar of universal time it has a text there of one shape, which is read as the moment down to
milliseconds and is the text of what is read. A moment that is no earlier has no earlier text. -/
theorem universalText_is_normal_form (s : String) :
    ∀ m, Moment.ofText? s = some m → m.InCalendar → ∃ text, m.universalText? = some text ∧
      HasShape text ∧
      (∃ v, Moment.ofText? text = some v ∧ v.offset = 0 ∧ v.instant = m.instant / 1000 * 1000 ∧
        v.universalText? = some text) ∧
      ∀ s' m', Moment.ofText? s' = some m' → m'.InCalendar → m.instant ≤ m'.instant →
        ∃ text', m'.universalText? = some text' ∧ text ≤ text' := by
  intro m _ h
  obtain ⟨text, htext, hread⟩ := h.ofText?
  refine ⟨text, htext, Moment.hasShape_of_universalText? htext,
    ⟨m.inMillis, hread, rfl, h.instant_inMillis, h.universalText?_inMillis.trans htext⟩,
    fun s' m' _ h' hle => ?_⟩
  obtain ⟨text', htext', -⟩ := h'.ofText?
  exact ⟨text', htext', h.universalText?_mono h' hle htext htext'⟩

/-- Before midnight on a leap day, behind universal time. -/
def leapNight : Moment := ⟨⟨2024, 2, 29⟩, ⟨23, 30, 0, 123456⟩, -9000000000⟩

/-- In universal time it is the next day, and the text of that comes before that of a second later.
-/
theorem normal_form_of_leapNight :
    Moment.ofText? "2024-02-29T23:30:00.123456-02:30" = some leapNight ∧ leapNight.InCalendar ∧
      leapNight.universalText? = some "2024-03-01T02:00:00.123Z" ∧
      HasShape "2024-03-01T02:00:00.123Z" ∧
      ∃ text', Moment.universalText? ⟨⟨2024, 3, 1⟩, ⟨2, 0, 1, 0⟩, 0⟩ = some text' ∧
        "2024-03-01T02:00:00.123Z" ≤ text' := by
  have hread : Moment.ofText? "2024-02-29T23:30:00.123456-02:30" = some leapNight := by
    decide +kernel
  have hread' : Moment.ofText? "20240301T020001" = some ⟨⟨2024, 3, 1⟩, ⟨2, 0, 1, 0⟩, 0⟩ := by
    decide +kernel
  have hin : leapNight.InCalendar := by decide
  have hknown : leapNight.universalText? = some "2024-03-01T02:00:00.123Z" := by decide +kernel
  obtain ⟨text, htext, hshape, -, hlater⟩ := universalText_is_normal_form _ _ hread hin
  obtain rfl := Option.some.inj (htext.symm.trans hknown)
  exact ⟨hread, hin, htext, hshape, hlater _ _ hread' (by decide) (by decide)⟩

end CodeSurvey.Time
