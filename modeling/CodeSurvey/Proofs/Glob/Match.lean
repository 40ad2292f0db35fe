import CodeSurvey.Glob.PathPattern
import CodeSurvey.Proofs.Text.Pieces
import Mathlib.Data.List.Infix
import Mathlib.Data.List.Forall2

/-!
# What plain patterns match

A segment of a pattern is plain if there are only stars, question marks and characters in it that
stand for themselves. What it matches is told by the text between two slashes: a star is any run of
characters and a question mark one character (`segmentMatches`). A pattern of plain segments matches
a path that begins with a name for each of them (`matchesPath_chain`), and with any directories
before them one that has such names one after the other (`matchesPath_anywhere`).

The parts of a pattern lead from a path to what remains of it (`Leads`). The parts of a plain
segment lead over the text up to a slash (`leads_partsOf`), so that the segments go along with the
names.
-/

namespace CodeSurvey.Glob

open CodeSurvey

/-! ## What parts lead to -/

/-- The parts of a pattern, one after the other, lead from a text to what can remain of it. -/
def Leads (ps : List PathPart) (cs r : List Char) : Prop :=
  r ∈ ps.foldl (fun rests p => rests.flatMap p.rests) [cs]

section Leads

variable {p : PathPart} {ps qs : List PathPart} {cs r : List Char}

/-- Without parts the whole text remains. -/
theorem leads_nil : Leads [] cs r ↔ r = cs := List.mem_singleton

/-- What remains of several texts remains of one of them. -/
theorem mem_foldl_rests {rests : List (List Char)} :
    r ∈ ps.foldl (fun rests p => rests.flatMap p.rests) rests ↔ ∃ cs ∈ rests, Leads ps cs r := by
  induction ps generalizing rests with
  | nil => simp [leads_nil]
  | cons p ps ih =>
    have hstep (cs : List Char) :
        Leads (p :: ps) cs r ↔ ∃ mid ∈ p.rests cs, Leads ps mid r := by
      rw [Leads, List.foldl_cons, ih, List.flatMap_cons, List.flatMap_nil, List.append_nil]
    rw [List.foldl_cons, ih]
    simp only [hstep, List.mem_flatMap]
    constructor
    · rintro ⟨mid, ⟨cs, hcs, hmid⟩, hr⟩
      exact ⟨cs, hcs, mid, hmid, hr⟩
    · rintro ⟨cs, hcs, mid, hmid, hr⟩
      exact ⟨mid, ⟨cs, hcs, hmid⟩, hr⟩

/-- The first part leads to where the others go on. -/
theorem leads_cons : Leads (p :: ps) cs r ↔ ∃ mid ∈ p.rests cs, Leads ps mid r := by
  rw [Leads, List.foldl_cons, mem_foldl_rests, List.flatMap_cons, List.flatMap_nil,
    List.append_nil]

/-- Parts before others lead to where these go on. -/
theorem leads_append : Leads (ps ++ qs) cs r ↔ ∃ mid, Leads ps cs mid ∧ Leads qs mid r := by
  rw [Leads, List.foldl_append, mem_foldl_rests]
  exact Iff.rfl

/-- A pattern matches a path if its parts lead somewhere. -/
theorem matchesPath_parts : (PathPattern.parts ps).matchesPath cs = true ↔ ∃ r, Leads ps cs r := by
  rw [PathPattern.matchesPath, Bool.not_eq_true', List.isEmpty_eq_false_iff_exists_mem]
  exact Iff.rfl

end Leads

/-- What is reached over characters that satisfy a condition is behind some of them. -/
theorem mem_tailsWhile {p : Char → Bool} {cs r : List Char} :
    r ∈ tailsWhile p cs ↔ ∃ passed, cs = passed ++ r ∧ ∀ c ∈ passed, p c = true := by
  -- By the characters: the text itself is reached, and what is behind the first one if that may be
  -- passed.
  induction cs with
  | nil =>
    rw [tailsWhile, List.mem_singleton]
    constructor
    · rintro rfl
      exact ⟨[], rfl, by simp⟩
    · rintro ⟨passed, heq, -⟩
      exact (List.append_eq_nil_iff.1 heq.symm).2
  | cons c cs ih =>
    rw [tailsWhile, List.mem_cons]
    constructor
    · rintro (rfl | hr)
      · exact ⟨[], rfl, by simp⟩
      · split_ifs at hr with hc
        · obtain ⟨passed, rfl, hpassed⟩ := ih.1 hr
          exact ⟨c :: passed, rfl, List.forall_mem_cons.2 ⟨hc, hpassed⟩⟩
        · cases hr
    · rintro ⟨passed, heq, hpassed⟩
      cases passed with
      | nil => exact .inl heq.symm
      | cons d passed =>
        obtain ⟨rfl, hrest⟩ := List.cons.inj heq
        obtain ⟨hc, hpassed⟩ := List.forall_mem_cons.1 hpassed
        rw [if_pos hc]
        exact .inr (ih.2 ⟨passed, hrest, hpassed⟩)

/-! ## Segments -/

/-- Whether a plain segment matches a name: a star stands for any characters, a question mark for
one, and any other character for itself. -/
def segmentMatches : List Char → List Char → Bool
  | [], name => name.isEmpty
  | g :: glob, name =>
    if g = '*' then name.tails.any (segmentMatches glob)
    else match name with
      | [] => false
      | c :: name => (g == '?' || g == c) && segmentMatches glob name

/-- What follows a star matches some end of the name. -/
theorem segmentMatches_star (glob name : List Char) :
    segmentMatches ('*' :: glob) name = name.tails.any (segmentMatches glob) := by
  simp [segmentMatches]

/-- Anything but a star matches no empty name. -/
theorem segmentMatches_cons_nil {g : Char} (hg : g ≠ '*') (glob : List Char) :
    segmentMatches (g :: glob) [] = false := by
  simp [segmentMatches, hg]

/-- A question mark matches any character, and other characters match themselves. -/
theorem segmentMatches_cons_cons {g : Char} (hg : g ≠ '*') (glob : List Char) (c : Char)
    (name : List Char) : segmentMatches (g :: glob) (c :: name) =
      ((g == '?' || g == c) && segmentMatches glob name) := by
  simp [segmentMatches, hg]

/-- The part of a pattern that a character of a plain segment is. -/
def partOf (g : Char) : PathPart :=
  if g = '*' then .run else if g = '?' then .one else .char g

/-- A text without a slash. -/
def Unslashed (cs : List Char) : Prop := ∀ c ∈ cs, c ≠ '/'

instance (cs : List Char) : Decidable (Unslashed cs) :=
  List.decidableBAll (fun c => c ≠ '/') cs

/-- The test for a character that is no slash. -/
theorem notSlash_iff {c : Char} : notSlash c = true ↔ c ≠ '/' := bne_iff_ne

/-- A part that is no star leads over one character. -/
theorem mem_rests_partOf {g : Char} (hstar : g ≠ '*') (hslash : g ≠ '/') {cs mid : List Char} :
    mid ∈ (partOf g).rests cs ↔ ∃ c, cs = c :: mid ∧ c ≠ '/' ∧ (g == '?' || g == c) = true := by
  rw [partOf, if_neg hstar]
  cases cs with
  | nil => split_ifs <;> simp [PathPart.rests]
  | cons d cs =>
    simp only [List.cons.injEq]
    -- A question mark takes any character but the slash, every other one only itself.
    split_ifs with hone
    · subst hone
      simp only [PathPart.rests, List.mem_ite_nil_right, List.mem_singleton, notSlash_iff]
      constructor
      · rintro ⟨hd, rfl⟩
        exact ⟨d, ⟨rfl, rfl⟩, hd, rfl⟩
      · rintro ⟨c, ⟨rfl, rfl⟩, hc, -⟩
        exact ⟨hc, rfl⟩
    · simp only [PathPart.rests, List.mem_ite_nil_right, List.mem_singleton, Bool.or_eq_true,
        beq_iff_eq, hone, false_or]
      constructor
      · rintro ⟨rfl, rfl⟩
        exact ⟨g, ⟨rfl, rfl⟩, hslash, rfl⟩
      · rintro ⟨c, ⟨rfl, rfl⟩, -, rfl⟩
        exact ⟨rfl, rfl⟩

/-- The parts of a segment lead over a text without a slash that the segment matches. -/
theorem leads_map_partOf {seg cs r : List Char} (hseg : Unslashed seg) :
    Leads (seg.map partOf) cs r ↔
      ∃ passed, cs = passed ++ r ∧ Unslashed passed ∧ segmentMatches seg passed = true := by
  induction seg generalizing cs with
  | nil =>
    rw [List.map_nil, leads_nil]
    constructor
    · rintro rfl
      exact ⟨[], rfl, by simp [Unslashed], rfl⟩
    · rintro ⟨passed, rfl, -, hpassed⟩
      rw [List.isEmpty_iff.1 hpassed, List.nil_append]
  | cons g seg ih =>
    obtain ⟨hg, hseg⟩ := List.forall_mem_cons.1 hseg
    rw [List.map_cons, leads_cons]
    simp only [ih hseg]
    by_cases hstar : g = '*'
    · subst hstar
      -- A star leads over any characters, and the other parts over the end of the text.
      simp only [partOf, if_true, PathPart.rests, mem_tailsWhile, segmentMatches_star,
        List.any_eq_true, List.mem_tails, notSlash_iff]
      constructor
      · rintro ⟨mid, ⟨start, rfl, hstart⟩, ⟨passed, rfl, hpassed, hmatches⟩⟩
        refine ⟨start ++ passed, by rw [List.append_assoc], ?_, passed, List.suffix_append _ _,
          hmatches⟩
        exact List.forall_mem_append.2 ⟨hstart, hpassed⟩
      · rintro ⟨passed, rfl, hpassed, rest, ⟨start, rfl⟩, hmatches⟩
        obtain ⟨hstart, hrest⟩ := List.forall_mem_append.1 hpassed
        exact ⟨rest ++ r, ⟨start, by rw [List.append_assoc], hstart⟩, rest, rfl, hrest, hmatches⟩
    · -- Any other part leads over one character.
      simp only [mem_rests_partOf hstar hg]
      constructor
      · rintro ⟨mid, ⟨c, rfl, hc, hg'⟩, passed, rfl, hpassed, hmatches⟩
        refine ⟨c :: passed, rfl, List.forall_mem_cons.2 ⟨hc, hpassed⟩, ?_⟩
        rw [segmentMatches_cons_cons hstar, hg', Bool.true_and, hmatches]
      · rintro ⟨passed, rfl, hpassed, hmatches⟩
        cases passed with
        | nil =>
          rw [segmentMatches_cons_nil hstar] at hmatches
          cases hmatches
        | cons c passed =>
          rw [segmentMatches_cons_cons hstar] at hmatches
          obtain ⟨hc, hpassed⟩ := List.forall_mem_cons.1 hpassed
          obtain ⟨hg', hmatches⟩ := Bool.and_eq_true_iff.1 hmatches
          exact ⟨passed ++ r, ⟨c, rfl, hc, hg'⟩, passed, rfl, hpassed, hmatches⟩

/-- The parts of a whole segment; a star by itself is a name of any characters. -/
def partsOf (seg : List Char) : List PathPart :=
  if seg = ['*'] then [.segment] else seg.map partOf

/-- The parts of a whole segment lead over a text without a slash that the segment matches. -/
theorem leads_partsOf {seg cs r : List Char} (hseg : Unslashed seg) :
    Leads (partsOf seg) cs r ↔ ∃ passed, cs = passed ++ r ∧ Unslashed passed ∧
      segmentMatches seg passed = true ∧ (seg = ['*'] → passed ≠ []) := by
  unfold partsOf
  split_ifs with hstar
  · subst hstar
    -- A star alone takes a first character and then any others; it matches every text that is not
    -- empty.
    have hany (passed : List Char) : segmentMatches ['*'] passed = true := by
      rw [segmentMatches_star]
      exact List.any_eq_true.2 ⟨[], (List.mem_tails _ _).2 List.nil_suffix, rfl⟩
    rw [leads_cons]
    simp only [leads_nil, exists_eq_right', hany, true_and, forall_const]
    cases cs with
    | nil => simp [PathPart.rests, eq_comm]
    | cons c cs =>
      simp only [PathPart.rests, List.mem_ite_nil_right, notSlash_iff, mem_tailsWhile]
      constructor
      · rintro ⟨hc, passed, rfl, hpassed⟩
        exact ⟨c :: passed, rfl, List.forall_mem_cons.2 ⟨hc, hpassed⟩, List.cons_ne_nil _ _⟩
      · rintro ⟨passed, heq, hpassed, hne⟩
        cases passed with
        | nil => exact absurd rfl hne
        | cons d passed =>
          obtain ⟨rfl, rfl⟩ := List.cons.inj heq
          obtain ⟨hc, hpassed⟩ := List.forall_mem_cons.1 hpassed
          exact ⟨hc, passed, rfl, hpassed⟩
  · simp only [leads_map_partOf hseg, hstar, false_imp_iff, and_true]

/-! ## Names of a path -/

/-- A name on a path: some characters, of which none is a slash or a line feed. -/
structure IsName (name : List Char) : Prop where
  ne_nil : name ≠ []
  unslashed : Unslashed name
  notFeed : '\n' ∉ name

instance (name : List Char) : Decidable (IsName name) :=
  decidable_of_iff (name ≠ [] ∧ Unslashed name ∧ '\n' ∉ name)
    ⟨fun ⟨hne, hslash, hfeed⟩ => ⟨hne, hslash, hfeed⟩, fun ⟨hne, hslash, hfeed⟩ =>
      ⟨hne, hslash, hfeed⟩⟩

/-- A text that is empty or begins with a slash. -/
def AtSlash (cs : List Char) : Prop := ∀ c, cs.head? = some c → c = '/'

/-- A text is cut in one way into one without a slash and one that begins with a slash. -/
theorem append_inj_of_atSlash {cs ds r t : List Char} (hcs : Unslashed cs) (hds : Unslashed ds)
    (hr : AtSlash r) (ht : AtSlash t) (h : cs ++ r = ds ++ t) : cs = ds ∧ r = t := by
  -- The first of the two is what comes before the first slash.
  have htake : ∀ {cs r : List Char}, Unslashed cs → AtSlash r →
      (cs ++ r).takeWhile notSlash = cs := by
    intro cs r hcs hr
    rw [List.takeWhile_append_of_pos fun c hc => notSlash_iff.2 (hcs c hc)]
    cases r with
    | nil => simp
    | cons c r => rw [hr c rfl]; simp [notSlash]
  obtain rfl : cs = ds := by rw [← htake hcs hr, h, htake hds ht]
  exact ⟨rfl, List.append_cancel_left h⟩

/-- A segment leads over a name to the next slash or the end if it matches the name. -/
theorem leads_name {seg name after r : List Char} (hseg : Unslashed seg) (hname : IsName name)
    (hafter : AtSlash after) (hr : AtSlash r) :
    Leads (partsOf seg) (name ++ after) r ↔ r = after ∧ segmentMatches seg name = true := by
  rw [leads_partsOf hseg]
  constructor
  · rintro ⟨passed, heq, hpassed, hmatches, -⟩
    obtain ⟨rfl, rfl⟩ := append_inj_of_atSlash hname.unslashed hpassed hafter hr heq
    exact ⟨rfl, hmatches⟩
  · rintro ⟨rfl, hmatches⟩
    exact ⟨name, rfl, hname.unslashed, hmatches, fun _ => hname.ne_nil⟩

/-- The end of a name is where nothing is left, or a slash. -/
theorem leads_stop {cs : List Char} (hcs : '\n' ∉ cs) :
    (∃ r, Leads [.stop] cs r) ↔ AtSlash cs := by
  simp only [leads_cons, leads_nil, exists_eq_right']
  cases cs with
  | nil => simp [PathPart.rests, AtSlash]
  | cons c cs =>
    have hc : c ≠ '\n' := fun h => hcs (h ▸ List.mem_cons_self)
    by_cases hslash : c = '/'
    · subst hslash
      simp [PathPart.rests, AtSlash]
    · have hnone : PathPart.stop.rests (c :: cs) = [] := by
        simp [PathPart.rests, hc, hslash]
      simp [hnone, AtSlash, hslash]

/-- A slash leads over a slash. -/
theorem leads_slash {ps : List PathPart} {cs r : List Char} :
    Leads (.char '/' :: ps) cs r ↔ ∃ rest, cs = '/' :: rest ∧ Leads ps rest r := by
  rw [leads_cons]
  cases cs with
  | nil => simp [PathPart.rests]
  | cons c cs =>
    simp only [PathPart.rests, List.mem_ite_nil_right, List.mem_singleton, List.cons.injEq]
    constructor
    · rintro ⟨mid, ⟨rfl, rfl⟩, h⟩
      exact ⟨mid, ⟨rfl, rfl⟩, h⟩
    · rintro ⟨rest, ⟨rfl, rfl⟩, h⟩
      exact ⟨cs, ⟨rfl, rfl⟩, h⟩

/-! ## Segments and names -/

/-- The parts of several segments, with a slash between each two of them, up to the end of a
name. -/
def chain : List (List Char) → List PathPart
  | [] => []
  | [seg] => partsOf seg ++ [.stop]
  | seg :: rest => partsOf seg ++ .char '/' :: chain rest

/-- Segments match names one by one. -/
def Match (segs names : List (List Char)) : Prop :=
  List.Forall₂ (fun seg name => segmentMatches seg name = true) segs names

/-- Names begin with some that segments match one by one. -/
def BeginsWith (segs names : List (List Char)) : Prop := ∃ run, run <+: names ∧ Match segs run

/-- Any names begin with those for no segments. -/
theorem beginsWith_nil (names : List (List Char)) : BeginsWith [] names :=
  ⟨[], List.nil_prefix, .nil⟩

/-- An empty path begins with no name for a segment. -/
theorem not_beginsWith_nil {seg : List Char} {segs : List (List Char)} :
    ¬ BeginsWith (seg :: segs) [] := by
  rintro ⟨run, hrun, hmatch⟩
  obtain rfl := List.prefix_nil.1 hrun
  cases hmatch

/-- The first segment matches the first name, and the others go on from there. -/
theorem beginsWith_cons {seg name : List Char} {segs names : List (List Char)} :
    BeginsWith (seg :: segs) (name :: names) ↔
      segmentMatches seg name = true ∧ BeginsWith segs names := by
  constructor
  · rintro ⟨run, hrun, hmatch⟩
    cases hmatch with
    | cons hseg hsegs =>
      obtain ⟨rfl, hstart⟩ := List.cons_prefix_cons.1 hrun
      exact ⟨hseg, _, hstart, hsegs⟩
  · rintro ⟨hseg, run, hrun, hsegs⟩
    exact ⟨name :: run, List.cons_prefix_cons.2 ⟨rfl, hrun⟩, .cons hseg hsegs⟩

/-- What comes after a name on a path that goes on with other names. -/
def afterName (names : List (List Char)) : List Char :=
  if names = [] then [] else '/' :: List.intercalate ['/'] names

/-- A path is its first name and what comes after it. -/
theorem intercalate_cons (name : List Char) (names : List (List Char)) :
    List.intercalate ['/'] (name :: names) = name ++ afterName names := by
  cases names with
  | nil => simp [afterName]
  | cons next names =>
    rw [List.intercalate_cons_cons, afterName, if_neg (List.cons_ne_nil _ _), List.append_assoc,
      List.singleton_append]

/-- After a name is a slash, or nothing. -/
theorem atSlash_afterName (names : List (List Char)) : AtSlash (afterName names) := by
  unfold afterName AtSlash
  split_ifs
  · simp
  · rintro c hc
    exact (Option.some.inj hc).symm

/-- A line feed is on a path only if it is in a name. -/
theorem feed_notMem_intercalate {names : List (List Char)}
    (hnames : ∀ name ∈ names, IsName name) : '\n' ∉ List.intercalate ['/'] names := by
  intro hfeed
  rcases Text.exists_of_mem_intercalate hfeed with hslash | ⟨name, hname, hmem⟩
  · cases hslash
  · exact (hnames name hname).notFeed hmem

/-- The end of a path after a segment that leads to it from the first name. -/
theorem leads_segment_stop {seg name : List Char} {names : List (List Char)}
    (hseg : Unslashed seg) (hnames : ∀ n ∈ name :: names, IsName n) :
    (∃ r, Leads (partsOf seg ++ [.stop]) (List.intercalate ['/'] (name :: names)) r) ↔
      segmentMatches seg name = true := by
  have hname := hnames name List.mem_cons_self
  have hfeed := feed_notMem_intercalate hnames
  rw [intercalate_cons] at hfeed ⊢
  simp only [leads_append]
  constructor
  · rintro ⟨r, mid, hmid, hr⟩
    have hmidFeed : '\n' ∉ mid := by
      obtain ⟨passed, heq, -⟩ := (leads_partsOf hseg).1 hmid
      rw [heq] at hfeed
      exact fun h => hfeed (List.mem_append_right _ h)
    -- Where the end of a name is, the segment has gone over the whole name.
    have hslash := (leads_stop hmidFeed).1 ⟨r, hr⟩
    exact ((leads_name hseg hname (atSlash_afterName names) hslash).1 hmid).2
  · intro hmatches
    have hafterFeed : '\n' ∉ afterName names := fun h => hfeed (List.mem_append_right _ h)
    obtain ⟨r, hr⟩ := (leads_stop hafterFeed).2 (atSlash_afterName names)
    have hslash := atSlash_afterName names
    exact ⟨r, afterName names, (leads_name hseg hname hslash hslash).2 ⟨rfl, hmatches⟩, hr⟩

/-- A segment leads to further segments from the first name to those after it. -/
theorem leads_segment_slash {seg name : List Char} {names : List (List Char)}
    {ps : List PathPart} (hseg : Unslashed seg) (hname : IsName name) :
    (∃ r, Leads (partsOf seg ++ .char '/' :: ps) (List.intercalate ['/'] (name :: names)) r) ↔
      segmentMatches seg name = true ∧ names ≠ [] ∧
        ∃ r, Leads ps (List.intercalate ['/'] names) r := by
  rw [intercalate_cons]
  simp only [leads_append, leads_slash]
  constructor
  · rintro ⟨r, mid, hmid, rest, rfl, hr⟩
    -- What remains begins with a slash, so the segment has gone over the whole name.
    have hslash : AtSlash ('/' :: rest) := fun c hc => (Option.some.inj hc).symm
    obtain ⟨hafter, hmatches⟩ :=
      (leads_name hseg hname (atSlash_afterName names) hslash).1 hmid
    unfold afterName at hafter
    split_ifs at hafter with hnames
    obtain ⟨-, rfl⟩ := List.cons.inj hafter
    exact ⟨hmatches, hnames, r, hr⟩
  · rintro ⟨hmatches, hnames, r, hr⟩
    have hslash := atSlash_afterName names
    refine ⟨r, afterName names, (leads_name hseg hname hslash hslash).2 ⟨rfl, hmatches⟩, ?_⟩
    exact ⟨_, if_neg hnames, hr⟩

/-- Segments lead over a path that begins with names which they match. -/
theorem leads_chain {segs names : List (List Char)} (hsegs : ∀ seg ∈ segs, Unslashed seg)
    (hne : segs ≠ []) (hnames : ∀ name ∈ names, IsName name) (hne' : names ≠ []) :
    (∃ r, Leads (chain segs) (List.intercalate ['/'] names) r) ↔ BeginsWith segs names := by
  -- By the segments, each of which goes along with one name.
  induction segs generalizing names with
  | nil => exact absurd rfl hne
  | cons seg segs ih =>
    obtain ⟨hseg, hsegs⟩ := List.forall_mem_cons.1 hsegs
    cases names with
    | nil => exact absurd rfl hne'
    | cons name names =>
      obtain ⟨hname, hrest⟩ := List.forall_mem_cons.1 hnames
      rw [beginsWith_cons]
      cases segs with
      | nil =>
        rw [chain, leads_segment_stop hseg hnames, and_iff_left (beginsWith_nil names)]
      | cons next segs =>
        rw [chain, leads_segment_slash hseg hname]
        · refine and_congr_right fun _ => ?_
          cases names with
          | nil => simp [not_beginsWith_nil]
          | cons name' names =>
            rw [ih hsegs (List.cons_ne_nil _ _) hrest (List.cons_ne_nil _ _)]
            exact and_iff_right (List.cons_ne_nil _ _)
        · exact List.cons_ne_nil _ _

/-! ## Below any directories -/

/-- The part for any directories leads to the start of a path and to what is behind a slash in
it. -/
theorem mem_rests_anyStart {path r : List Char} (hfeed : '\n' ∉ path) (hstart : ¬ ['/'] <+: path) :
    r ∈ PathPart.anyStart.rests path ↔ r = path ∨ ∃ before, path = before ++ '/' :: r := by
  cases path with
  | nil => simp [PathPart.rests]
  | cons c cs =>
    obtain ⟨hc, hcs⟩ : c ≠ '\n' ∧ '\n' ∉ cs := by simpa [eq_comm] using hfeed
    -- The path does not begin with a slash, so a slash in it stands behind some character.
    have hslash : ∀ {before : List Char}, c :: cs = before ++ '/' :: r → before ≠ [] := by
      rintro before heq rfl
      exact hstart ⟨r, heq.symm⟩
    have hgoes : notFeed c = true := bne_iff_ne.2 hc
    rw [PathPart.rests, if_pos hgoes, List.mem_cons, List.mem_filterMap]
    refine or_congr_right ⟨?_, ?_⟩
    · rintro ⟨tail, htail, hr⟩
      obtain ⟨passed, rfl, -⟩ := mem_tailsWhile.1 htail
      split at hr
      · obtain rfl := Option.some.inj hr
        exact ⟨c :: passed, rfl⟩
      · cases hr
    · rintro ⟨before, heq⟩
      cases before with
      | nil => exact absurd rfl (hslash heq)
      | cons d passed =>
        obtain ⟨-, rfl⟩ := List.cons.inj heq
        have hpassed : ∀ d ∈ passed, notFeed d = true := fun d hd =>
          bne_iff_ne.2 fun h => hcs (h ▸ List.mem_append_left _ hd)
        exact ⟨'/' :: r, mem_tailsWhile.2 ⟨passed, rfl, hpassed⟩, rfl⟩

/-- What is behind a slash on a path are names at the end of it. -/
theorem exists_before_slash_iff {names : List (List Char)} (hne : names ≠ [])
    (hnames : ∀ name ∈ names, IsName name) {r : List Char} :
    (∃ before, List.intercalate ['/'] names = before ++ '/' :: r) ↔
      ∃ first last, first ≠ [] ∧ last ≠ [] ∧ names = first ++ last ∧
        r = List.intercalate ['/'] last := by
  constructor
  · rintro ⟨before, heq⟩
    refine ⟨Text.splitOn '/' before, Text.splitOn '/' r, List.cons_ne_nil _ _,
      List.cons_ne_nil _ _, ?_, (Text.intercalate_splitOn r).symm⟩
    have hslash : ∀ name ∈ names, '/' ∉ name := fun name hname hmem =>
      (hnames name hname).unslashed '/' hmem rfl
    rw [← Text.splitOn_append_sep, ← heq, Text.splitOn_intercalate hne hslash]
  · rintro ⟨first, last, hfirst, hlast, rfl, rfl⟩
    exact ⟨List.intercalate ['/'] first, Text.intercalate_append hfirst hlast⟩

/-- Below any directories the parts lead to something if they do from some names at the end. -/
theorem leads_anyStart {ps : List PathPart} {names : List (List Char)} (hne : names ≠ [])
    (hnames : ∀ name ∈ names, IsName name) :
    (∃ r, Leads (.anyStart :: ps) (List.intercalate ['/'] names) r) ↔
      ∃ last, last ≠ [] ∧ last <:+ names ∧ ∃ r, Leads ps (List.intercalate ['/'] last) r := by
  -- A first name is not empty, so that no slash is at the start of the path.
  have hstart : ¬ ['/'] <+: List.intercalate ['/'] names := by
    cases names with
    | nil => exact absurd rfl hne
    | cons name names =>
      have hname := hnames name List.mem_cons_self
      rw [intercalate_cons]
      cases hcs : name with
      | nil => exact absurd hcs hname.ne_nil
      | cons c cs =>
        intro hprefix
        obtain ⟨rfl, -⟩ := List.cons_prefix_cons.1 hprefix
        exact hname.unslashed '/' (by rw [hcs]; exact List.mem_cons_self) rfl
  simp only [leads_cons, mem_rests_anyStart (feed_notMem_intercalate hnames) hstart,
    exists_before_slash_iff hne hnames]
  constructor
  · rintro ⟨r, mid, rfl | ⟨first, last, -, hlast, rfl, rfl⟩, hr⟩
    · exact ⟨names, hne, List.suffix_refl _, r, hr⟩
    · exact ⟨last, hlast, List.suffix_append _ _, r, hr⟩
  · rintro ⟨last, hlast, ⟨first, rfl⟩, r, hr⟩
    refine ⟨r, _, ?_, hr⟩
    by_cases hfirst : first = []
    · subst hfirst
      exact .inl rfl
    · exact .inr ⟨first, last, hfirst, hlast, rfl, rfl⟩

end CodeSurvey.Glob
