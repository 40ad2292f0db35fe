import CodeSurvey.Proofs.Files.Content
import CodeSurvey.Proofs.Text.Digits
import CodeSurvey.Proofs.Time.Calendar
import CodeSurvey.Time.Reading
import Mathlib.Data.List.Basic
import Mathlib.Data.List.TakeDrop

/-!
# Written moments are read back

The text of a moment in universal time is read as that moment, down to milliseconds
(`Moment.ofText?_universalText?`), so a moment that has no more than these comes back
(`Moment.InMillis.ofText?_universalText?`). Each part of it is a number with a fixed count of digits
(`Writes`), so the reader finds the parts where they were written.
-/

namespace CodeSurvey.Time

open CodeSurvey.Text (padded padded_spec decimalValue)

/-! ## Digits -/

/-- The number that digits write. -/
def digitsValue (ds : Bytes) : Nat := ds.foldl (fun n d => n * 10 + (d.toNat - 48)) 0

/-- Bytes are so many digits, which write a number. -/
structure Writes (count n : Nat) (ds : Bytes) : Prop where
  length : ds.length = count
  digits : ∀ d ∈ ds, isDigit d = true
  value : digitsValue ds = n

/-- An ASCII digit as a byte. -/
theorem byte_of_isDigit {c : Char} (h : Text.isDigit c = true) :
    isDigit (byte c) = true ∧ (byte c).toNat = c.toNat := by
  obtain ⟨hlo, hhi⟩ := Text.toNat_of_isDigit h
  have hbyte : (byte c).toNat = c.toNat := by
    rw [byte, UInt8.toNat_ofNat']
    omega
  have hzero : (byte '0').toNat = 48 := rfl
  have hnine : (byte '9').toNat = 57 := rfl
  refine ⟨?_, hbyte⟩
  simp only [isDigit, Bool.and_eq_true, decide_eq_true_eq, UInt8.le_iff_toNat_le]
  omega

/-- A byte that is no digit is another one than a digit. -/
theorem ne_of_isDigit {d b : UInt8} (hd : isDigit d = true) (hb : isDigit b = false) : d ≠ b := by
  rintro rfl
  rw [hd] at hb
  cases hb

/-- A number with zeros in front is written with so many digits. -/
theorem writes_padded (width n : Nat) (hwidth : 0 < width) (h : n < 10 ^ width) :
    Writes width n ((padded width n).toList.map byte) := by
  obtain ⟨hlength, hvalue⟩ := padded_spec hwidth h
  have hdigits : ∀ c ∈ (padded width n).toList, Text.isDigit c = true := fun c hc =>
    Text.isDigit_of_mem_padded hc
  refine ⟨by rw [List.length_map, hlength], ?_, ?_⟩
  · intro d hd
    obtain ⟨c, hc, rfl⟩ := List.mem_map.1 hd
    exact (byte_of_isDigit (hdigits c hc)).1
  · have hzero : '0'.toNat = 48 := rfl
    refine Eq.trans ?_ hvalue
    rw [digitsValue, decimalValue, List.foldl_map, hzero]
    refine List.foldl_ext _ _ _ fun n c hc => ?_
    rw [(byte_of_isDigit (hdigits c hc)).2]

/-- Digits in front of a text are read. -/
theorem Writes.digits? {count n : Nat} {ds : Bytes} (h : Writes count n ds) (rest : Bytes) :
    digits? count (ds ++ rest) = some (n, rest) := by
  have hall : ds.all isDigit = true := List.all_eq_true.2 h.digits
  rw [Time.digits?, ← h.length, List.take_left, List.drop_left, ← h.value]
  exact if_pos ⟨rfl, hall⟩

/-- Digits begin with one. -/
theorem Writes.exists_cons {count n : Nat} {ds : Bytes} (h : Writes (count + 1) n ds) :
    ∃ d rest, ds = d :: rest ∧ isDigit d = true := by
  cases ds with
  | nil => cases h.length
  | cons d rest => exact ⟨d, rest, rfl, h.digits d List.mem_cons_self⟩

/-- A letter or mark is not skipped in front of digits. -/
theorem Writes.skip? {count n : Nat} {ds : Bytes} (h : Writes (count + 1) n ds) {c : Char}
    (hc : isDigit (byte c) = false) (rest : Bytes) : skip? c (ds ++ rest) = none := by
  obtain ⟨d, rest', rfl, hd⟩ := h.exists_cons
  exact if_neg (ne_of_isDigit hd hc)

/-! ## Days and times -/

section Parts

variable {y m d h mi s ms : Nat} {ys mos ds hs mis ss mss : Bytes}

/-- A day that is written with hyphens. -/
theorem readDay?_written (hy : Writes 4 y ys) (hm : Writes 2 m mos) (hd : Writes 2 d ds) :
    readDay? (ys ++ byte '-' :: (mos ++ byte '-' :: ds)) = day? y m d := by
  have hday := hd.digits? []
  rw [List.append_nil] at hday
  have hskip : ∀ rest, skip? '-' (byte '-' :: rest) = some rest := by simp [Time.skip?]
  simp only [readDay?, hy.digits?, hskip, hm.skip? (c := 'W') (by decide), hm.digits?, hday,
    Option.bind_eq_bind, Option.bind_some, if_true, List.isEmpty_nil]

/-- Two digits before a colon are one part, and the others follow. -/
theorem furtherParts?_colon {mayFollow : Bool} {n parts : Nat} {ds : Bytes} (hds : Writes 2 n ds)
    {rest : Bytes} (hrest : rest ≠ []) :
    furtherParts? mayFollow true (parts + 1) (ds ++ byte ':' :: rest) =
      (furtherParts? mayFollow true parts rest).map fun r => (n :: r.1, r.2) := by
  obtain ⟨b, rest, rfl⟩ := List.exists_cons_of_ne_nil hrest
  rw [furtherParts?, hds.digits?]
  rfl

/-- Two digits before a point are the last part, and a fraction follows. -/
theorem furtherParts?_point {mayFollow : Bool} {n parts : Nat} {ds : Bytes} (hds : Writes 2 n ds)
    {rest : Bytes} (hrest : rest ≠ []) :
    furtherParts? mayFollow true (parts + 1) (ds ++ byte '.' :: rest) =
      (fraction? mayFollow rest).map fun f => ([n], f) := by
  obtain ⟨b, rest, rfl⟩ := List.exists_cons_of_ne_nil hrest
  rw [furtherParts?, hds.digits?]
  rfl

/-- The parts of a time that is written with colons, and its milliseconds. -/
theorem readParts?_written (hh : Writes 2 h hs) (hmi : Writes 2 mi mis) (hs' : Writes 2 s ss)
    (hms : Writes 3 ms mss) :
    readParts? true (hs ++ byte ':' :: (mis ++ byte ':' :: (ss ++ byte '.' :: mss))) =
      some (h, mi, s, ms * 1000) := by
  have hcolon : (hs ++ byte ':' :: (mis ++ byte ':' :: (ss ++ byte '.' :: mss)))[2]? =
      some (byte ':') := by
    rw [List.getElem?_append_right (by rw [hh.length]), hh.length]
    rfl
  have hfraction : fraction? true mss = some (ms * 1000) := by
    have hread := hms.digits? []
    rw [List.append_nil] at hread
    simp [fraction?, hms.length, hread]
  have hne : mss ≠ [] := List.ne_nil_of_length_eq_add_one hms.length
  rw [readParts?, hcolon, beq_self_eq_true, furtherParts?_colon hh (by simp),
    furtherParts?_colon hmi (by simp), furtherParts?_point hs' hne, hfraction]
  rfl

/-- A time that is written with colons, in universal time. -/
theorem readTime?_written (hh : Writes 2 h hs) (hmi : Writes 2 mi mis) (hs' : Writes 2 s ss)
    (hms : Writes 3 ms mss) :
    readTime? ((hs ++ byte ':' :: (mis ++ byte ':' :: (ss ++ byte '.' :: mss))) ++
      "+00:00".toList.map byte) = (clock? h mi s (ms * 1000)).map fun c => (c, 0) := by
  have hsign : ∀ b ∈ hs ++ byte ':' :: (mis ++ byte ':' :: (ss ++ byte '.' :: mss)),
      (!(b == byte '+' || b == byte '-')) = true := by
    have hdigit : ∀ b, isDigit b = true → (!(b == byte '+' || b == byte '-')) = true := by
      intro b hb
      have hplus := ne_of_isDigit hb (b := byte '+') (by decide)
      have hminus := ne_of_isDigit hb (b := byte '-') (by decide)
      simp [hplus, hminus]
    simp only [List.mem_append, List.mem_cons]
    rintro b (hb | rfl | hb | rfl | hb | rfl | hb)
    · exact hdigit b (hh.digits b hb)
    · decide
    · exact hdigit b (hmi.digits b hb)
    · decide
    · exact hdigit b (hs'.digits b hb)
    · decide
    · exact hdigit b (hms.digits b hb)
  have hzone : "+00:00".toList.map byte = byte '+' :: "00:00".toList.map byte := rfl
  -- Neither sign occurs in the time itself, so the zone begins where it should.
  have hspan : ((hs ++ byte ':' :: (mis ++ byte ':' :: (ss ++ byte '.' :: mss))) ++
      byte '+' :: "00:00".toList.map byte).span (fun b => !(b == byte '+' || b == byte '-')) =
      (hs ++ byte ':' :: (mis ++ byte ':' :: (ss ++ byte '.' :: mss)),
        byte '+' :: "00:00".toList.map byte) := by
    rw [List.span_eq_takeWhile_dropWhile, List.takeWhile_append_of_pos hsign,
      List.dropWhile_append_of_pos hsign, List.takeWhile_cons_of_neg (by decide),
      List.dropWhile_cons_of_neg (by decide), List.append_nil]
  have hoffset : readOffset? (byte '+' == byte '+') ("00:00".toList.map byte) = some 0 := by decide
  unfold readTime?
  simp only [hzone, hspan, List.isEmpty_cons, Bool.not_false, readParts?_written hh hmi hs' hms,
    hoffset, Option.bind_eq_bind, Option.bind_some]
  cases clock? h mi s (ms * 1000) <;> rfl

end Parts

/-! ## Moments -/

/-- The character that stands for universal time is written out, and all others are kept. -/
theorem flatMap_zone {cs : List Char} (h : ∀ c ∈ cs, c ≠ 'Z') :
    (cs.flatMap fun c => if c = 'Z' then "+00:00".toList else [c]) = cs := by
  induction cs with
  | nil => rfl
  | cons c cs ih =>
    obtain ⟨hc, hcs⟩ := List.forall_mem_cons.1 h
    rw [List.flatMap_cons, if_neg hc, ih hcs, List.singleton_append]

section Written

variable {y m d h mi s ms : Nat} {ys mos ds hs mis ss mss : Bytes}

/-- The day of a text ends before the letter of the time. -/
theorem dayLength_written (hy : Writes 4 y ys) (hm : Writes 2 m mos) {rest : Bytes}
    (hrest : 7 ≤ rest.length) : dayLength (ys ++ byte '-' :: (mos ++ rest)) = 10 := by
  obtain ⟨d, mos', rfl, hd⟩ := hm.exists_cons
  have hlength : (ys ++ byte '-' :: (d :: mos' ++ rest)).length ≠ 7 := by
    simp only [List.length_append, List.length_cons, hy.length]
    omega
  have hhyphen : (ys ++ byte '-' :: (d :: mos' ++ rest))[4]? = some (byte '-') := by
    rw [List.getElem?_append_right (by rw [hy.length]), hy.length]
    rfl
  have hdigit : (ys ++ byte '-' :: (d :: mos' ++ rest))[5]? = some d := by
    rw [List.getElem?_append_right (by rw [hy.length]; decide), hy.length]
    rfl
  have hletter : some d ≠ some (byte 'W') := fun h =>
    ne_of_isDigit hd (b := byte 'W') (by decide) (Option.some.inj h)
  rw [dayLength, if_neg hlength, if_pos hhyphen, hdigit, if_neg hletter]

/-- What follows the letter of the time, if that begins with a digit. -/
theorem dropChar_written (hh : Writes 2 h hs) (rest : Bytes) :
    dropChar (byte 'T' :: (hs ++ rest)) = hs ++ rest := by
  obtain ⟨d, hs', rfl, hd⟩ := hh.exists_cons
  have hnine : (byte '9').toNat = 57 := rfl
  have hlow : ¬ (0x80 ≤ d && d < 0xC0) = true := by
    simp only [isDigit, Bool.and_eq_true, decide_eq_true_eq, UInt8.le_iff_toNat_le] at hd
    simp only [Bool.and_eq_true, decide_eq_true_eq, UInt8.le_iff_toNat_le, not_and]
    intro hle
    have : (0x80 : UInt8).toNat = 128 := rfl
    omega
  exact List.dropWhile_cons_of_neg hlow

end Written

/-- The characters of a moment's text before the letter of universal time. -/
def plainChars (d : Day) (c : Clock) : List Char :=
  (padded 4 d.year).toList ++ '-' :: ((padded 2 d.month).toList ++ '-' ::
    ((padded 2 d.day).toList ++ 'T' :: ((padded 2 c.hour).toList ++ ':' ::
      ((padded 2 c.minute).toList ++ ':' :: ((padded 2 c.second).toList ++ '.' ::
        (padded 3 (c.micro / 1000)).toList)))))

/-- The text of a moment in universal time. -/
theorem toList_universal (d : Day) (c : Clock) :
    (d.text ++ "T" ++ c.milliText ++ "Z").toList = plainChars d c ++ ['Z'] := by
  simp [Day.text, Clock.milliText, plainChars]

/-- They are digits and marks. -/
theorem mem_plainChars {d : Day} {c : Clock} {x : Char} (hx : x ∈ plainChars d c) :
    Text.isDigit x = true ∨ x ∈ ['-', 'T', ':', '.'] := by
  have hdigit : ∀ w n, x ∈ (padded w n).toList → Text.isDigit x = true := fun w n h =>
    Text.isDigit_of_mem_padded h
  simp only [plainChars, List.mem_append, List.mem_cons] at hx
  rcases hx with hx | rfl | hx | rfl | hx | rfl | hx | rfl | hx | rfl | hx | rfl | hx
  any_goals exact .inl (hdigit _ _ hx)
  all_goals exact .inr (by decide)

/-- So they are ASCII characters, and none is the letter of universal time. -/
theorem ascii_plainChars {d : Day} {c : Clock} {x : Char} (hx : x ∈ plainChars d c) :
    x.toNat < 128 ∧ x ≠ 'Z' := by
  rcases mem_plainChars hx with hdigit | hmark
  · have hbounds := Text.toNat_of_isDigit hdigit
    refine ⟨by omega, ?_⟩
    rintro rfl
    cases hdigit
  · rw [List.mem_cons, List.mem_cons, List.mem_pair] at hmark
    rcases hmark with rfl | rfl | rfl | rfl <;> decide

/-- With the zone written out the text is ASCII. -/
theorem ascii_zoned (d : Day) (c : Clock) :
    ∀ x ∈ plainChars d c ++ "+00:00".toList, x.toNat < 128 := by
  intro x hx
  rcases List.mem_append.1 hx with hx | hx
  · exact (ascii_plainChars hx).1
  · have hzone : "+00:00".toList.all (·.toNat < 128) := by decide
    exact of_decide_eq_true (List.all_eq_true.1 hzone x hx)

/-- The bytes of a day's text. -/
def dayBytes (d : Day) : Bytes :=
  (padded 4 d.year).toList.map byte ++ byte '-' ::
    ((padded 2 d.month).toList.map byte ++ byte '-' :: (padded 2 d.day).toList.map byte)

/-- The bytes of a time's text, down to milliseconds. -/
def timeBytes (c : Clock) : Bytes :=
  (padded 2 c.hour).toList.map byte ++ byte ':' :: ((padded 2 c.minute).toList.map byte ++
    byte ':' :: ((padded 2 c.second).toList.map byte ++ byte '.' ::
      (padded 3 (c.micro / 1000)).toList.map byte))

/-- The bytes of a moment's text are those of its day and its time. -/
theorem bytes_zoned (d : Day) (c : Clock) :
    (plainChars d c ++ "+00:00".toList).map (fun x => UInt8.ofNat x.toNat) =
      dayBytes d ++ byte 'T' :: (timeBytes c ++ "+00:00".toList.map byte) := by
  simp only [plainChars, dayBytes, timeBytes, List.map_append, List.map_cons, List.append_assoc,
    List.cons_append]
  rfl

/-- A day on the calendar is found in front of what follows it, and read. -/
theorem Day.IsValid.read {d : Day} (h : d.IsValid) {rest : Bytes} (hrest : 4 ≤ rest.length) :
    (dayBytes d).length = 10 ∧ dayLength (dayBytes d ++ rest) = 10 ∧
      readDay? (dayBytes d) = some d := by
  have hfound := h.day?
  have hlast : lastYear = 9999 := rfl
  have hdays : daysIn d.year d.month ≤ 31 := by
    unfold daysIn
    split_ifs <;> decide
  obtain ⟨-, hyear, -, hmonth, -, hday⟩ := h
  have wy := writes_padded 4 d.year (by decide) (by omega)
  have wm := writes_padded 2 d.month (by decide) (by omega)
  have wd := writes_padded 2 d.day (by decide) (by omega)
  refine ⟨?_, ?_, by rw [dayBytes, readDay?_written wy wm wd, hfound]⟩
  · simp only [dayBytes, List.length_append, List.length_cons, wy.length, wm.length, wd.length]
  · rw [dayBytes, List.append_assoc, List.cons_append, List.append_assoc]
    refine dayLength_written wy wm ?_
    simp only [List.cons_append, List.length_cons, List.length_append, wd.length]
    omega

/-- A time on the clock is read after the letter of the time, down to milliseconds. -/
theorem Clock.IsValid.read {c : Clock} (h : c.IsValid) :
    readTime? (dropChar (byte 'T' :: (timeBytes c ++ "+00:00".toList.map byte))) =
      some ({ c with micro := c.micro / 1000 * 1000 }, 0) := by
  have hmicros : microsPerSecond = 1000000 := rfl
  obtain ⟨hh, hmi, hs, hms⟩ := h
  have hfound : Time.clock? c.hour c.minute c.second (c.micro / 1000 * 1000) =
      some { c with micro := c.micro / 1000 * 1000 } := if_pos ⟨hh, hmi, hs, by omega⟩
  have wh := writes_padded 2 c.hour (by decide) (by omega)
  have wmi := writes_padded 2 c.minute (by decide) (by omega)
  have ws := writes_padded 2 c.second (by decide) (by omega)
  have wms := writes_padded 3 (c.micro / 1000) (by decide) (by omega)
  rw [timeBytes, List.append_assoc, dropChar_written wh, ← List.append_assoc,
    readTime?_written wh wmi ws wms, hfound]
  rfl

/-- A moment in universal time that is written down to milliseconds. -/
theorem ofText?_universal {u : Moment} (hday : u.day.IsValid) (hclock : u.clock.IsValid) :
    Moment.ofText? (u.day.text ++ "T" ++ u.clock.milliText ++ "Z") =
      some ⟨u.day, { u.clock with micro := u.clock.micro / 1000 * 1000 }, 0⟩ := by
  have hchars : ((plainChars u.day u.clock ++ ['Z']).flatMap fun c =>
      if c = 'Z' then "+00:00".toList else [c]) = plainChars u.day u.clock ++ "+00:00".toList := by
    rw [List.flatMap_append, flatMap_zone fun c hc => (ascii_plainChars hc).2]
    rfl
  have hlength : ¬ (plainChars u.day u.clock ++ "+00:00".toList).length < 7 := by
    rw [List.length_append]
    have hzone : "+00:00".toList.length = 6 := rfl
    simp only [plainChars, List.length_append, List.length_cons, hzone]
    omega
  -- The day is in front of the letter of the time, and the rest is the time.
  have hrest : 4 ≤ (byte 'T' :: (timeBytes u.clock ++ "+00:00".toList.map byte)).length := by
    have hzone : ("+00:00".toList.map byte).length = 6 := rfl
    simp only [List.length_cons, List.length_append, hzone]
    omega
  obtain ⟨hcount, hdayLength, hreadDay⟩ := hday.read hrest
  unfold Moment.ofText?
  simp only [toList_universal, hchars, Files.toList_toUTF8_ofList (ascii_zoned _ _),
    if_neg hlength, bytes_zoned]
  rw [hdayLength, List.take_left' hcount, List.drop_left' hcount, hreadDay]
  simp only [Option.bind_eq_bind, Option.bind_some, hclock.read]
  rfl

/-- The text of a moment is read as that moment in universal time, down to milliseconds. -/
theorem Moment.ofText?_universalText? {m u : Moment} (h : m.universal? = some u) :
    ∃ text, m.universalText? = some text ∧ Moment.ofText? text =
      some { u with clock := { u.clock with micro := u.clock.micro / 1000 * 1000 } } := by
  obtain ⟨hday, hclock, hoffset⟩ := isValid_universal h
  refine ⟨u.day.text ++ "T" ++ u.clock.milliText ++ "Z", by rw [universalText?, h]; rfl, ?_⟩
  rw [ofText?_universal hday hclock, hoffset]

/-- A moment as a clock tells it in universal time down to milliseconds. -/
structure Moment.InMillis (m : Moment) : Prop where
  day : m.day.IsValid
  clock : m.clock.IsValid
  offset : m.offset = 0
  micro : 1000 ∣ m.clock.micro

/-- Such a moment is read back from its text. -/
theorem Moment.InMillis.ofText?_universalText? {m : Moment} (h : m.InMillis) :
    ∃ text, m.universalText? = some text ∧ Moment.ofText? text = some m := by
  obtain ⟨text, htext, hread⟩ :=
    Moment.ofText?_universalText? (Moment.universal?_eq_self h.day h.clock h.offset)
  rw [Nat.div_mul_cancel h.micro] at hread
  exact ⟨text, htext, hread⟩

end CodeSurvey.Time
