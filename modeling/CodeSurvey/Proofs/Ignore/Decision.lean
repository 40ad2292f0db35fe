import CodeSurvey.Files.Name
import CodeSurvey.Ignore.Matcher
import CodeSurvey.Proofs.Text.Pieces

/-!
# What it takes to be ignored

The matcher goes through the rules with two ways out, and through the directories above a path with
a third. The answer depends on less than that: a path is ignored if and only if a name on it is
denied or the rules rule out the path or a directory above it, and the rules rule out a path if and
only if one that is not negated applies there and no negated one does (`ruledOut_iff`). So the order
of the rules says nothing, no rule takes back a denied name, and nothing below an ignored directory
is taken in again (`ignores_iff_denied_or_excluded`).

Whatever the rules and the denied names are, everything below an ignored directory is ignored
(`ignoresParts_of_prefix`), so a walk that does not enter such a directory misses nothing. A path
that is given as a text is ignored if it is by the names on it (`ignores_eq`, `ignores_pathText`).
-/

namespace CodeSurvey.Ignore

open CodeSurvey

/-- A rule applies at `q`, a directory if `isDir`: it matches there, and is not for directories only
or `q` is one. -/
def Rule.AppliesAt (r : Rule) (q : List String) (isDir : Bool) : Prop :=
  (r.directoryOnly = false ∨ isDir = true) ∧
    r.hits (Files.pathText q).toList ((q.getLast?).getD "").toList = true

/-- The rules rule out `q`: one that is not negated applies there, and no negated one does. -/
def ExcludedBy (rules : List Rule) (q : List String) (isDir : Bool) : Prop :=
  (∃ r ∈ rules, r.negated = false ∧ r.AppliesAt q isDir) ∧
    ∀ r ∈ rules, r.negated = true → ¬ r.AppliesAt q isDir

/-- `q` lies on the way to `path`: it is a directory above it, or the path itself. -/
def OnTheWay (path : List String) (isDir : Bool) (q : List String) (isDir' : Bool) : Prop :=
  q ≠ [] ∧ ((q <+: path ∧ q ≠ path ∧ isDir' = true) ∨ (q = path ∧ isDir' = isDir))

/-! ## Below an ignored directory -/

/-- The proper ancestors of a path are the paths on the way to it. -/
theorem mem_ancestors {a p : List String} :
    a ∈ ancestors p ↔ a ≠ [] ∧ a <+: p ∧ a.length < p.length := by
  simp only [ancestors, List.mem_map, List.mem_range]
  constructor
  · rintro ⟨i, hi, rfl⟩
    refine ⟨?_, List.take_prefix _ _, ?_⟩
    · intro hnil
      have := congrArg List.length hnil
      rw [List.length_take, List.length_nil] at this
      omega
    · rw [List.length_take]
      omega
  · rintro ⟨hnil, hstart, hlt⟩
    have hpos := List.length_pos_iff.2 hnil
    refine ⟨a.length - 1, by omega, ?_⟩
    rw [Nat.sub_add_cancel hpos]
    exact (List.prefix_iff_eq_take.1 hstart).symm

/-- What lies below an ignored directory is ignored. -/
theorem Matcher.ignoresParts_of_prefix (m : Matcher) {a p : List String} (hnil : a ≠ [])
    (hstart : a <+: p) (hne : a ≠ p) (h : m.ignoresParts a true) (isDir : Bool) :
    m.ignoresParts p isDir := by
  have hlt : a.length < p.length := by
    refine Nat.lt_of_le_of_ne hstart.length_le fun heq => hne ?_
    exact hstart.eq_of_length heq
  simp only [ignoresParts, Bool.or_eq_true, List.any_eq_true] at h ⊢
  rcases h with (⟨name, hname, hdenied⟩ | ⟨b, hb, hruled⟩) | hruled
  · exact .inl (.inl ⟨name, hstart.subset hname, hdenied⟩)
  · -- A directory above the ignored one is above the path as well.
    obtain ⟨hb, hba, hlt'⟩ := mem_ancestors.1 hb
    exact .inl (.inr ⟨b, mem_ancestors.2 ⟨hb, hba.trans hstart, Nat.lt_trans hlt' hlt⟩, hruled⟩)
  · exact .inl (.inr ⟨a, mem_ancestors.2 ⟨hnil, hstart, hlt⟩, hruled⟩)

/-! ## Paths as texts -/

/-- The names on a path that is given as a text: slashes at its ends do not count. -/
def segments (path : String) : List String :=
  let trimmed := Text.trimChar '/' path
  if trimmed.isEmpty then [] else Text.split trimmed '/'

/-- The names on a path that is written with them. -/
theorem segments_pathText {path : List String} (hne : path ≠ [])
    (hpath : ∀ name ∈ path, name ≠ "" ∧ '/' ∉ name.toList) :
    segments (Files.pathText path) = path := by
  have hsplit : Text.split (Files.pathText path) '/' = path :=
    Text.split_join (by decide) hne fun p hp => (hpath p hp).2
  have hnonempty : (Files.pathText path).isEmpty = false := by
    cases path with
    | nil => exact absurd rfl hne
    | cons p rest =>
      obtain ⟨after, hafter⟩ := Text.join_eq_append "/" p rest
      rw [Files.pathText, hafter, Bool.eq_false_iff, ne_eq, String.isEmpty_iff,
        String.append_eq_empty_iff]
      exact fun h => (hpath p (List.mem_cons_self)).1 h.1
  have htrim : Text.trimChar '/' (Files.pathText path) = Files.pathText path :=
    Text.trimChar_join "/" hne hpath
  unfold segments
  simp only [htrim, hsplit, hnonempty, Bool.false_eq_true, if_false]

/-- Some name is on a path with more to it than slashes. -/
theorem segments_of_ne {path : String} (hne : Text.trimChar '/' path ≠ "") :
    segments path = Text.split (Text.trimChar '/' path) '/' := by
  unfold segments
  simp only [String.isEmpty_iff, hne, if_false]

/-- A path has segments if there is something but slashes in it. -/
theorem segments_ne_nil {path : String} :
    segments path ≠ [] ↔ Text.stripBy (· == '/') path.toList ≠ [] := by
  have hempty : Text.trimChar '/' path = "" ↔ Text.stripBy (· == '/') path.toList = [] := by
    rw [Text.trimChar, String.ofList_eq_empty_iff]
  by_cases hne : Text.trimChar '/' path = ""
  · simp [segments, hne, hempty.1 hne]
  · rw [segments_of_ne hne, Text.split, ne_eq, List.map_eq_nil_iff]
    exact iff_of_true (List.cons_ne_nil _ _) fun h => hne (hempty.2 h)

/-- A path below a directory begins with the names on the directory's path. -/
theorem segments_below {dir below : String} (hdir : segments dir ≠ [])
    (hbelow : segments below ≠ []) :
    ∃ rest, rest ≠ [] ∧ segments (dir ++ "/" ++ below) = segments dir ++ rest := by
  have htoList : (dir ++ "/" ++ below).toList = dir.toList ++ '/' :: below.toList := by
    simp [String.toList_append]
  obtain ⟨rest, hrest⟩ :=
    Text.stripBy_append_sep (segments_ne_nil.1 hdir) (segments_ne_nil.1 hbelow)
  rw [← htoList] at hrest
  have hne : ∀ {path : String}, Text.stripBy (· == '/') path.toList ≠ [] →
      segments path =
        (Text.splitOn '/' (Text.stripBy (· == '/') path.toList)).map String.ofList := by
    intro path hpath
    have hpath' : Text.trimChar '/' path ≠ "" := by
      rwa [Text.trimChar, ne_eq, String.ofList_eq_empty_iff]
    rw [segments_of_ne hpath', Text.split, Text.trimChar, String.toList_ofList]
  refine ⟨(Text.splitOn '/' rest).map String.ofList, ?_, ?_⟩
  · simp [Text.splitOn]
  · rw [hne (by rw [hrest]; simp), hrest, Text.splitOn_append_sep, List.map_append,
      hne (segments_ne_nil.1 hdir)]

/-- A path is ignored if it is by its names; the root has none. -/
theorem Matcher.ignores_eq (m : Matcher) (path : String) (isDir : Bool) :
    m.ignores path isDir = (!(segments path).isEmpty && m.ignoresParts (segments path) isDir) := by
  unfold Matcher.ignores segments
  by_cases hempty : (Text.trimChar '/' path).isEmpty
  · simp [hempty]
  · simp [hempty, Text.split, Text.splitOn]

/-- A path of names is ignored if it is by its parts. -/
theorem Matcher.ignores_pathText (m : Matcher) {parts : List String} (hne : parts ≠ [])
    (hparts : ∀ p ∈ parts, p ≠ "" ∧ '/' ∉ p.toList) (isDir : Bool) :
    m.ignores (Files.pathText parts) isDir = m.ignoresParts parts isDir := by
  have hnonempty : parts.isEmpty = false := List.isEmpty_eq_false_iff.2 hne
  rw [m.ignores_eq, segments_pathText hne hparts, hnonempty, Bool.not_false, Bool.true_and]

/-! ## At one path -/

variable {q : List String} {isDir : Bool}

/-- The rule is tested for what `Rule.AppliesAt` says. -/
theorem Rule.applies_iff {r : Rule} : r.applies q isDir = true ↔ r.AppliesAt q isDir := by
  unfold Rule.applies Rule.AppliesAt Files.pathText
  rw [Bool.and_eq_true, Bool.or_eq_true, Bool.not_eq_true']
  exact and_congr_left fun _ => or_comm

/-- Going through the rules, with `hit` for what those before them have said. -/
theorem ruledOut_go_iff (rules : List Rule) (hit : Bool) :
    ruledOut.go q isDir hit rules = true ↔
      (hit = true ∨ ∃ r ∈ rules, r.negated = false ∧ r.AppliesAt q isDir) ∧
        ∀ r ∈ rules, r.negated = true → ¬ r.AppliesAt q isDir := by
  induction rules generalizing hit with
  | nil => simp [ruledOut.go]
  | cons r rest ih =>
    rw [ruledOut.go]
    by_cases happlies : r.AppliesAt q isDir
    · rw [if_pos (Rule.applies_iff.2 happlies)]
      cases hnegated : r.negated with
      | true =>
        -- The first negated rule that applies ends it, whatever the others would say.
        simp only [if_true, Bool.false_eq_true, false_iff]
        rintro ⟨-, hnone⟩
        exact hnone r List.mem_cons_self hnegated happlies
      | false =>
        simp only [Bool.false_eq_true, if_false]
        rw [ih true]
        simp [hnegated, happlies]
    · have happlies' : ¬ r.applies q isDir = true := fun h => happlies (Rule.applies_iff.1 h)
      rw [if_neg happlies', ih hit]
      simp [happlies]

/-- The rules rule out a path if one that is not negated applies and no negated one does. -/
theorem ruledOut_iff (rules : List Rule) :
    ruledOut q isDir rules = true ↔ ExcludedBy rules q isDir := by
  rw [ruledOut, ruledOut_go_iff, ExcludedBy]
  simp

/-- In what order the rules stand does not matter. -/
theorem ExcludedBy.congr {rules rules' : List Rule} (h : ∀ r, r ∈ rules ↔ r ∈ rules') :
    ExcludedBy rules q isDir ↔ ExcludedBy rules' q isDir := by
  simp only [ExcludedBy, h]

/-! ## On the way to a path -/

/-- A path of names is ignored if a name is denied or the rules rule out what is on the way. -/
theorem Matcher.ignoresParts_iff (m : Matcher) {path : List String} (hne : path ≠ []) :
    m.ignoresParts path isDir = true ↔
      (∃ name ∈ path, m.deniesName name = true) ∨
        ∃ q isDir', OnTheWay path isDir q isDir' ∧ ExcludedBy m.rules q isDir' := by
  simp only [Matcher.ignoresParts, Bool.or_eq_true, List.any_eq_true, ruledOut_iff, or_assoc]
  refine or_congr_right ⟨?_, ?_⟩
  · rintro (⟨a, ha, hexcluded⟩ | hexcluded)
    · obtain ⟨hnil, hstart, hlt⟩ := mem_ancestors.1 ha
      have hproper : a ≠ path := fun h => absurd hlt (by rw [h]; exact Nat.lt_irrefl _)
      exact ⟨a, true, ⟨hnil, .inl ⟨hstart, hproper, rfl⟩⟩, hexcluded⟩
    · exact ⟨path, isDir, ⟨hne, .inr ⟨rfl, rfl⟩⟩, hexcluded⟩
  · rintro ⟨a, isDir', ⟨hnil, ⟨hstart, hproper, rfl⟩ | ⟨rfl, rfl⟩⟩, hexcluded⟩
    · have hlt : a.length < path.length :=
        Nat.lt_of_le_of_ne hstart.length_le fun h => hproper (hstart.eq_of_length h)
      exact .inl ⟨a, mem_ancestors.2 ⟨hnil, hstart, hlt⟩, hexcluded⟩
    · exact .inr hexcluded

/-- A path, given as a text, is ignored if a name on it is denied or the rules rule out what is on
the way to it. -/
theorem Matcher.ignores_iff (m : Matcher) (path : String) :
    m.ignores path isDir = true ↔
      (∃ name ∈ segments path, m.deniesName name = true) ∨
        ∃ q isDir', OnTheWay (segments path) isDir q isDir' ∧ ExcludedBy m.rules q isDir' := by
  rw [m.ignores_eq, Bool.and_eq_true, Bool.not_eq_true', List.isEmpty_eq_false_iff]
  by_cases hne : segments path = []
  · -- The root has no name, and nothing is on the way to it.
    rw [hne]
    simp only [ne_eq, not_true_eq_false, false_and, List.not_mem_nil, exists_false, false_or,
      false_iff, not_exists, not_and]
    rintro q isDir' ⟨hq, ⟨hstart, -⟩ | ⟨rfl, -⟩⟩
    · exact absurd (List.prefix_nil.1 hstart) hq
    · exact absurd rfl hq
  · rw [and_iff_right hne, m.ignoresParts_iff hne]

/-- What lies below an ignored directory is ignored, also where the paths are given as texts. -/
theorem Matcher.ignores_below (m : Matcher) {dir below : String} (hbelow : segments below ≠ [])
    (h : m.ignores dir true = true) (isDir : Bool) :
    m.ignores (dir ++ "/" ++ below) isDir = true := by
  rw [m.ignores_eq, Bool.and_eq_true, Bool.not_eq_true', List.isEmpty_eq_false_iff] at h ⊢
  obtain ⟨hdir, hignored⟩ := h
  obtain ⟨rest, hrest, hsegments⟩ := segments_below hdir hbelow
  rw [hsegments]
  refine ⟨by simp [hdir], m.ignoresParts_of_prefix hdir (List.prefix_append _ _) ?_ hignored isDir⟩
  simpa using hrest

/-- A path is ignored if and only if a name on it is denied, or at a directory above it or at the
path itself a rule that is not negated applies and no negated rule does. Hence the order of the
rules does not matter, a denied name is taken in again by no rules at all, and nothing below an
ignored directory is. -/
theorem Matcher.ignores_iff_denied_or_excluded (m : Matcher) :
    (∀ path isDir, m.ignores path isDir = true ↔
      (∃ name ∈ segments path, m.deniesName name = true) ∨
        ∃ q isDir', OnTheWay (segments path) isDir q isDir' ∧ ExcludedBy m.rules q isDir') ∧
    (∀ path : List String, path ≠ [] → (∀ name ∈ path, name ≠ "" ∧ '/' ∉ name.toList) →
      segments (Files.pathText path) = path) ∧
    (∀ rules', m.rules.Perm rules' → ∀ path isDir,
      ({ m with rules := rules' } : Matcher).ignores path isDir = m.ignores path isDir) ∧
    (∀ rules' path isDir, (∃ name ∈ segments path, m.deniesName name = true) →
      ({ m with rules := rules' } : Matcher).ignores path isDir = true) ∧
    (∀ dir below isDir, segments below ≠ [] → m.ignores dir true = true →
      m.ignores (dir ++ "/" ++ below) isDir = true) := by
  refine ⟨fun path _ => m.ignores_iff path, fun path => segments_pathText, ?_, ?_, ?_⟩
  · intro rules' hperm path isDir
    have hsame : ∀ q isDir', ExcludedBy rules' q isDir' ↔ ExcludedBy m.rules q isDir' :=
      fun q isDir' => ExcludedBy.congr fun r => hperm.mem_iff.symm
    rw [Bool.eq_iff_iff, Matcher.ignores_iff, Matcher.ignores_iff]
    simp only [hsame]
    exact Iff.rfl
  · -- The denied names are the same for all rules.
    rintro rules' path isDir ⟨name, hname, hdenied⟩
    exact (Matcher.ignores_iff _ path).2 (.inl ⟨name, hname, hdenied⟩)
  · intro dir below isDir hbelow hdir
    exact m.ignores_below hbelow hdir isDir

/-- The rules that ignore the directory `build` and take in files that are called `keep.txt`. -/
def keptFileRules : Matcher :=
  ⟨(rulesOf "build/\n!keep.txt").toOption.getD [], []⟩

/-- The file that these rules take in is ignored where it lies in the ignored directory. -/
theorem Matcher.ignores_kept_file_of_ignored_directory :
    keptFileRules.ignores "keep.txt" false = false ∧ segments "keep.txt" ≠ [] ∧
      keptFileRules.ignores "build" true = true ∧
      keptFileRules.ignores "build/keep.txt" false = true := by
  have hname : segments "keep.txt" ≠ [] := by decide
  have hdir : keptFileRules.ignores "build" true = true := by decide
  refine ⟨by decide, hname, hdir, ?_⟩
  exact keptFileRules.ignores_iff_denied_or_excluded.2.2.2.2 "build" "keep.txt" false hname hdir

end CodeSurvey.Ignore
