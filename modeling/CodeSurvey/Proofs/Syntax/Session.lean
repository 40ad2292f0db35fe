import CodeSurvey.Syntax.Session
import Mathlib.Data.Finset.Dedup
import Mathlib.Data.List.DropRight
import Mathlib.Data.Finset.Card

/-!
# A session is a snapshot

A session is used in steps: paths are asked for, files are written, and the session is closed
(`Step`). What it hands out for a path is what the path held when it was first asked for after the
session was last closed, whatever was written since, and it is the same object every time
(`session_is_snapshot`). That a path held nothing that can be parsed is remembered as well.

One step other than closing keeps what is handed out for a path that was asked for (`answer_step`),
and so do all steps up to the next closing (`answer_run`). The paths that the session remembers are
told by the history (`mem_remembered_run`).
-/

namespace CodeSurvey.Syntax.Session

open CodeSurvey.Files

/-! ## What a path holds -/

/-- A source that is what a path holds: its content, parsed as the language that the path tells. -/
structure IsContent (w : Workspace) (maxBytes : Int) (path : String) (source : Source) : Prop where
  named : source.path = path
  language : scriptLanguage? path = some source.language
  /-- The name does not say that the file is no text. -/
  isText : isBinaryName (((pathParts path).getLast?).getD "") = false
  readable : w.unreadable (w.locate (pathParts path)) = false
  content : ∃ bytes, w.tree.bytes (w.locate (pathParts path)) = .ok bytes ∧
    (bytes.size : Int) ≤ maxBytes ∧ source.text = textOf bytes
  tree : (source.root, source.hasFaults) = parse (.of source.language) source.text

variable {w : Workspace} {maxBytes : Int} {path : String}

/-- The text of a file is that of its bytes, if these can be read and are not too many. -/
theorem text?_eq_some {p : Files.Path} {text : String} :
    w.text? p maxBytes = some text ↔
      isBinaryName ((p.getLast?).getD "") = false ∧ w.unreadable (w.locate p) = false ∧
        ∃ bytes, w.tree.bytes (w.locate p) = .ok bytes ∧ (bytes.size : Int) ≤ maxBytes ∧
          text = textOf bytes := by
  unfold Workspace.text? Workspace.size? Workspace.bytes?
  cases isBinaryName ((p.getLast?).getD "") with
  | true => simp
  | false =>
    cases w.tree.bytes (w.locate p) with
    | error e => simp
    | ok bytes =>
      cases w.unreadable (w.locate p) with
      | true => simp
      | false =>
        by_cases hsize : maxBytes < bytes.size
        · simp [hsize]
        · simp [hsize, Int.not_lt.1 hsize, Except.toOption, eq_comm]

/-- A text is parsed as the language that its path tells, if it tells one. -/
theorem ofText?_eq_some {text : String} {source : Source} :
    Source.ofText? path text = some source ↔ source.path = path ∧
      scriptLanguage? path = some source.language ∧ source.text = text ∧
        (source.root, source.hasFaults) = parse (.of source.language) source.text := by
  unfold Source.ofText?
  rw [Option.map_eq_some_iff]
  constructor
  · rintro ⟨language, hlanguage, rfl⟩
    generalize parse (.of language) text = tree
    exact ⟨rfl, hlanguage, rfl, rfl⟩
  · rintro ⟨rfl, hlanguage, rfl, htree⟩
    refine ⟨source.language, hlanguage, ?_⟩
    rw [← htree]

/-- What is read at a path is what it holds: nothing if the file is missing, cannot be read, is too
large, is named as no text or is in no language that is parsed. -/
theorem readNow_eq_some {source : Source} :
    readNow w maxBytes path = some source ↔ IsContent w maxBytes path source := by
  unfold readNow
  simp only [Option.bind_eq_some_iff, text?_eq_some, ofText?_eq_some]
  constructor
  · rintro ⟨text, ⟨hnamed, hreadable, hbytes⟩, hpath, hlanguage, rfl, htree⟩
    exact ⟨hpath, hlanguage, hnamed, hreadable, hbytes, htree⟩
  · rintro ⟨hpath, hlanguage, hnamed, hreadable, hbytes, htree⟩
    exact ⟨source.text, ⟨hnamed, hreadable, hbytes⟩, hpath, hlanguage, rfl, htree⟩

/-! ## Steps -/

/-- A step in the use of a session. -/
inductive Step where
  /-- The source at a path is asked for. -/
  | get (path : String)
  /-- Files are written; from then on the workspace is this one. -/
  | write (after : Workspace)
  | close

/-- Whether a step closes the session. -/
def Step.isClose : Step → Bool
  | close => true
  | _ => false

/-- The path that a step asks for. -/
def Step.asked? : Step → Option String
  | get path => some path
  | _ => none

/-- The paths that were asked for since the session was last closed. -/
def asked (steps : List Step) : List String :=
  (steps.rtakeWhile (!·.isClose)).filterMap Step.asked?

/-- A path that is asked for is one more. -/
theorem asked_concat_get (steps : List Step) (path : String) :
    asked (steps ++ [.get path]) = asked steps ++ [path] := by
  rw [asked, List.rtakeWhile_concat_pos _ _ _ rfl, List.filterMap_append]
  rfl

/-- Writing asks for nothing. -/
theorem asked_concat_write (steps : List Step) (after : Workspace) :
    asked (steps ++ [.write after]) = asked steps := by
  rw [asked, List.rtakeWhile_concat_pos _ _ _ rfl, List.filterMap_append]
  exact List.append_nil _

/-- Nothing was asked for since the session was closed just now. -/
theorem asked_concat_close (steps : List Step) : asked (steps ++ [.close]) = [] := by
  rw [asked, List.rtakeWhile_concat_neg _ _ _ (by decide)]
  rfl

/-- A session and the workspace that it is used on. -/
structure Use where
  files : Workspace
  session : Session

namespace Use

variable {u : Use}

/-- A session that was not used yet. -/
def start (w : Workspace) : Use := ⟨w, .empty⟩

/-- What the session hands out for a path. -/
def answer (maxBytes : Int) (u : Use) (path : String) : Option Parsed :=
  (u.session.get u.files maxBytes path).1

/-- One step. -/
def step (maxBytes : Int) (u : Use) : Step → Use
  | .get path => { u with session := (u.session.get u.files maxBytes path).2 }
  | .write after => { u with files := after }
  | .close => { u with session := u.session.close }

/-- Several steps. -/
def run (maxBytes : Int) (u : Use) (steps : List Step) : Use := steps.foldl (step maxBytes) u

/-- Steps are made one after the other. -/
theorem run_append (early late : List Step) :
    u.run maxBytes (early ++ late) = (u.run maxBytes early).run maxBytes late :=
  List.foldl_append

/-- The last step is made after the others. -/
theorem run_concat (steps : List Step) (last : Step) :
    u.run maxBytes (steps ++ [last]) = (u.run maxBytes steps).step maxBytes last :=
  run_append steps [last]

/-- The paths that the session remembers. -/
def remembered (u : Use) : List String := u.session.cached.map (·.1)

/-- A path is remembered if something is found for it. -/
theorem find?_eq_none_iff :
    u.session.cached.find? (·.1 == path) = none ↔ path ∉ u.remembered := by
  simp only [remembered, List.find?_eq_none, List.mem_map, beq_iff_eq, not_exists, not_and]

/-- For a path that is not remembered the session hands out what it holds now. -/
theorem answer_of_notMem (h : path ∉ u.remembered) :
    u.answer maxBytes path =
      (readNow u.files maxBytes path).map fun source => ⟨source, u.session.readings⟩ := by
  unfold answer get
  rw [find?_eq_none_iff.2 h]

/-- What it hands out then has the source that the path holds now. -/
theorem map_source_answer (h : path ∉ u.remembered) :
    (u.answer maxBytes path).map Parsed.source = readNow u.files maxBytes path := by
  rw [answer_of_notMem h, Option.map_map]
  exact Option.map_id'

/-- Asking for a path changes nothing if it is remembered. -/
theorem step_get_of_mem (h : path ∈ u.remembered) : u.step maxBytes (.get path) = u := by
  rw [step, get]
  cases hfind : u.session.cached.find? (·.1 == path) with
  | none => exact absurd h (find?_eq_none_iff.1 hfind)
  | some x => rfl

/-- A path that is asked for first is remembered with what is handed out. -/
theorem step_get_of_notMem (h : path ∉ u.remembered) :
    (u.step maxBytes (.get path)).session =
      ⟨(path, u.answer maxBytes path) :: u.session.cached, u.session.readings + 1⟩ := by
  rw [step, answer, get, find?_eq_none_iff.2 h]

/-- A path that is asked for is remembered from then on. -/
theorem mem_remembered_step_get : path ∈ (u.step maxBytes (.get path)).remembered := by
  by_cases h : path ∈ u.remembered
  · rwa [step_get_of_mem h]
  · rw [remembered, step_get_of_notMem h]
    exact List.mem_cons_self

/-- What is remembered of a path is handed out, whatever the files are. -/
theorem answer_of_find? {found : String × Option Parsed}
    (h : u.session.cached.find? (·.1 == path) = some found) : u.answer maxBytes path = found.2 := by
  unfold answer get
  rw [h]

/-- Asking for a path does not change what is handed out for it. -/
theorem answer_step_get : (u.step maxBytes (.get path)).answer maxBytes path =
    u.answer maxBytes path := by
  by_cases h : path ∈ u.remembered
  · rw [step_get_of_mem h]
  · have hfirst : (u.step maxBytes (.get path)).session.cached.find? (·.1 == path) =
        some (path, u.answer maxBytes path) := by
      rw [step_get_of_notMem h]
      exact List.find?_cons_of_pos (beq_self_eq_true path)
    exact answer_of_find? hfirst

/-- A step other than closing keeps what is remembered of a path. -/
theorem find?_step {last : Step} (hopen : last.isClose = false) (h : path ∈ u.remembered) :
    (u.step maxBytes last).session.cached.find? (·.1 == path) =
      u.session.cached.find? (·.1 == path) := by
  cases last with
  | close => cases hopen
  | write after => rfl
  | get asked =>
    by_cases hasked : asked ∈ u.remembered
    · rw [step_get_of_mem hasked]
    · have hne : ¬ asked = path := fun heq => hasked (heq ▸ h)
      rw [step_get_of_notMem hasked]
      exact List.find?_cons_of_neg (by simpa using hne)

/-- So it keeps what is handed out for it. -/
theorem answer_step {last : Step} (hopen : last.isClose = false) (h : path ∈ u.remembered) :
    (u.step maxBytes last).answer maxBytes path = u.answer maxBytes path ∧
      path ∈ (u.step maxBytes last).remembered := by
  have hkept : (u.step maxBytes last).session.cached.find? (·.1 == path) =
      u.session.cached.find? (·.1 == path) := find?_step hopen h
  cases hfind : u.session.cached.find? (·.1 == path) with
  | none => exact absurd h (find?_eq_none_iff.1 hfind)
  | some found =>
    rw [hfind] at hkept
    refine ⟨(answer_of_find? hkept).trans (answer_of_find? hfind).symm, ?_⟩
    by_contra hnot
    rw [find?_eq_none_iff.2 hnot] at hkept
    cases hkept

/-- Until the session is closed the same is handed out for a path that is remembered. -/
theorem answer_run {late : List Step} (hopen : ∀ last ∈ late, last.isClose = false)
    (h : path ∈ u.remembered) :
    (u.run maxBytes late).answer maxBytes path = u.answer maxBytes path := by
  induction late generalizing u with
  | nil => rfl
  | cons last late ih =>
    obtain ⟨hlast, hlate⟩ := List.forall_mem_cons.1 hopen
    have hkept : (u.step maxBytes last).answer maxBytes path = u.answer maxBytes path ∧
        path ∈ (u.step maxBytes last).remembered := answer_step hlast h
    exact (ih hlate hkept.2).trans hkept.1

/-- After a path was asked for, the same is handed out for it until the session is closed. -/
theorem answer_since {early late : List Step} (hopen : ∀ last ∈ late, last.isClose = false) :
    (u.run maxBytes (early ++ .get path :: late)).answer maxBytes path =
      (u.run maxBytes early).answer maxBytes path := by
  calc (u.run maxBytes (early ++ .get path :: late)).answer maxBytes path
      = (((u.run maxBytes early).step maxBytes (.get path)).run maxBytes late).answer
          maxBytes path := by rw [← run_concat, ← run_append, List.append_assoc]; rfl
    _ = ((u.run maxBytes early).step maxBytes (.get path)).answer maxBytes path :=
        answer_run hopen mem_remembered_step_get
    _ = (u.run maxBytes early).answer maxBytes path := answer_step_get

/-! ## Histories -/

/-- The paths that a session remembers are those asked for since it was last closed. -/
theorem mem_remembered_run (steps : List Step) :
    path ∈ ((start w).run maxBytes steps).remembered ↔ path ∈ asked steps := by
  induction steps using List.reverseRecOn with
  | nil => exact Iff.rfl
  | append_singleton steps last ih =>
    rw [run_concat]
    cases last with
    | close =>
      rw [asked_concat_close]
      exact Iff.rfl
    | write after =>
      rw [asked_concat_write]
      exact ih
    | get new =>
      rw [asked_concat_get, List.mem_append, List.mem_singleton, ← ih]
      generalize (start w).run maxBytes steps = u
      -- A path that is remembered is not entered again.
      by_cases hnew : new ∈ u.remembered
      · rw [step_get_of_mem hnew]
        exact ⟨.inl, fun h => h.elim id fun heq => heq ▸ hnew⟩
      · rw [remembered, step_get_of_notMem hnew, List.map_cons, List.mem_cons, or_comm]
        rfl

/-- No path is remembered twice. -/
theorem nodup_remembered_run (steps : List Step) :
    ((start w).run maxBytes steps).remembered.Nodup := by
  induction steps using List.reverseRecOn with
  | nil => exact List.nodup_nil
  | append_singleton steps last ih =>
    rw [run_concat]
    cases last with
    | close => exact List.nodup_nil
    | write after => exact ih
    | get new =>
      by_cases hnew : new ∈ ((start w).run maxBytes steps).remembered
      · rwa [step_get_of_mem hnew]
      · rw [remembered, step_get_of_notMem hnew]
        exact List.nodup_cons.2 ⟨hnew, ih⟩

/-- A path that was asked for since the session was last closed was asked for first at some step,
and the session was not closed after that. -/
theorem exists_first_of_mem_asked {steps : List Step} (h : path ∈ asked steps) :
    ∃ early late, steps = early ++ .get path :: late ∧ (∀ last ∈ late, last.isClose = false) ∧
      path ∉ asked early := by
  induction steps using List.reverseRecOn with
  | nil => cases h
  | append_singleton steps last ih =>
    -- If the last step leaves the session open, the first asking among the others will do.
    have hearlier (hopen : last.isClose = false) (hmem : path ∈ asked steps) :
        ∃ early late, steps ++ [last] = early ++ .get path :: late ∧
          (∀ last ∈ late, last.isClose = false) ∧ path ∉ asked early := by
      obtain ⟨early, late, rfl, hlate, hnew⟩ := ih hmem
      refine ⟨early, late ++ [last], by simp, ?_, hnew⟩
      exact List.forall_mem_append.2 ⟨hlate, List.forall_mem_singleton.2 hopen⟩
    cases last with
    | close =>
      rw [asked_concat_close] at h
      cases h
    | write after =>
      rw [asked_concat_write] at h
      exact hearlier rfl h
    | get new =>
      by_cases hmem : path ∈ asked steps
      · exact hearlier rfl hmem
      · rw [asked_concat_get, List.mem_append, List.mem_singleton] at h
        obtain rfl := h.resolve_left hmem
        exact ⟨steps, [], rfl, by simp, hmem⟩

/-- What a session hands out for a path is what this held at some time. -/
theorem exists_content_of_answer {steps : List Step} {source : Source}
    (h : (((start w).run maxBytes steps).answer maxBytes path).map Parsed.source = some source) :
    ∃ early, early <+: steps ∧
      IsContent ((start w).run maxBytes early).files maxBytes path source := by
  -- The path was asked for first at some step, or it is asked for first now.
  obtain ⟨early, late, hsteps, hnew, hsame⟩ : ∃ early late, steps = early ++ late ∧
      path ∉ asked early ∧ ((start w).run maxBytes steps).answer maxBytes path =
        ((start w).run maxBytes early).answer maxBytes path := by
    by_cases hasked : path ∈ asked steps
    · obtain ⟨early, late, rfl, hopen, hnew⟩ := exists_first_of_mem_asked hasked
      exact ⟨early, _, rfl, hnew, answer_since hopen⟩
    · exact ⟨steps, [], (List.append_nil steps).symm, hasked, rfl⟩
  refine ⟨early, ⟨late, hsteps.symm⟩, readNow_eq_some.1 ?_⟩
  rw [← map_source_answer (mt (mem_remembered_run early).1 hnew), ← hsame]
  exact h

/-! ## Objects -/

/-- The number of readings never decreases. -/
theorem readings_le_run (steps : List Step) :
    u.session.readings ≤ (u.run maxBytes steps).session.readings := by
  induction steps using List.reverseRecOn with
  | nil => exact Nat.le_refl _
  | append_singleton steps last ih =>
    refine ih.trans ?_
    rw [run_concat]
    cases last with
    | close => exact Nat.le_refl _
    | write after => exact Nat.le_refl _
    | get new =>
      by_cases hnew : new ∈ (u.run maxBytes steps).remembered
      · rw [step_get_of_mem hnew]
      · rw [step_get_of_notMem hnew]
        exact Nat.le_succ _

/-- What a session remembers comes from one of its readings. -/
theorem reading_lt_run {steps : List Step} {found : String × Option Parsed}
    (h : found ∈ ((start w).run maxBytes steps).session.cached) {x : Parsed} (hx : x ∈ found.2) :
    x.reading < ((start w).run maxBytes steps).session.readings := by
  induction steps using List.reverseRecOn with
  | nil => cases h
  | append_singleton steps last ih =>
    rw [run_concat] at h ⊢
    cases last with
    | close => cases h
    | write after => exact ih h
    -- Only a path that is not remembered is read, and its reading has the greatest number so far.
    | get new =>
      by_cases hnew : new ∈ ((start w).run maxBytes steps).remembered
      · rw [step_get_of_mem hnew] at h ⊢
        exact ih h
      · rw [step_get_of_notMem hnew] at h ⊢
        rcases List.mem_cons.1 h with rfl | h
        · simp only [answer_of_notMem hnew, Option.mem_def, Option.map_eq_some_iff] at hx
          obtain ⟨source, -, rfl⟩ := hx
          exact Nat.lt_succ_self _
        · exact Nat.lt_succ_of_lt (ih h)

/-- So does what it hands out. -/
theorem reading_lt_of_answer {steps : List Step} {x : Parsed}
    (hx : x ∈ ((start w).run maxBytes steps).answer maxBytes path) :
    x.reading < ((start w).run maxBytes (steps ++ [.get path])).session.readings := by
  have hmem : path ∈ ((start w).run maxBytes (steps ++ [.get path])).remembered := by
    rw [run_concat]
    exact mem_remembered_step_get
  rw [← answer_step_get, ← run_concat] at hx
  cases hfind : ((start w).run maxBytes (steps ++ [.get path])).session.cached.find?
      (·.1 == path) with
  | none => exact absurd hmem (find?_eq_none_iff.1 hfind)
  | some found =>
    rw [answer_of_find? hfind] at hx
    exact reading_lt_run (List.mem_of_find?_eq_some hfind) hx

end Use

open Use

/-- A session is a snapshot, after any steps. For a path that was asked for since the session was
last closed it hands out the same object as every time since then, which is what the path held when
it was first asked for. For any other path it hands out what this holds now, as an object that was
not handed out before. It remembers as many paths as were asked for since it was last closed. -/
theorem session_is_snapshot (w : Workspace) (maxBytes : Int) (steps : List Step) :
    let now := (start w).run maxBytes steps
    (∀ path early late, steps = early ++ .get path :: late →
      (∀ last ∈ late, last.isClose = false) →
      now.answer maxBytes path = ((start w).run maxBytes early).answer maxBytes path ∧
        (path ∉ asked early → ∀ source, (now.answer maxBytes path).map Parsed.source = some source ↔
          IsContent ((start w).run maxBytes early).files maxBytes path source)) ∧
    (∀ path, path ∉ asked steps →
      (∀ source, (now.answer maxBytes path).map Parsed.source = some source ↔
        IsContent now.files maxBytes path source) ∧
      ∀ early other, early ++ [.get other] <+: steps →
        ∀ old ∈ ((start w).run maxBytes early).answer maxBytes other,
          ∀ new ∈ now.answer maxBytes path, old.reading ≠ new.reading) ∧
    now.session.count = (asked steps).toFinset.card := by
  intro now
  have hnew (steps : List Step) (path : String) (h : path ∉ asked steps) (source : Source) :
      (((start w).run maxBytes steps).answer maxBytes path).map Parsed.source = some source ↔
        IsContent ((start w).run maxBytes steps).files maxBytes path source := by
    rw [map_source_answer (mt (mem_remembered_run steps).1 h), readNow_eq_some]
  refine ⟨?_, fun path h => ⟨hnew steps path h, ?_⟩, ?_⟩
  · rintro path early late rfl hopen
    have hsame : now.answer maxBytes path =
        ((start w).run maxBytes early).answer maxBytes path := answer_since hopen
    refine ⟨hsame, fun hfirst source => ?_⟩
    rw [hsame]
    exact hnew early path hfirst source
  · rintro early other ⟨rest, hrest⟩ old hold new hnew'
    -- What was handed out before comes from an earlier reading than the next one.
    have hlt : old.reading < now.session.readings := by
      refine (reading_lt_of_answer hold).trans_le ?_
      calc ((start w).run maxBytes (early ++ [.get other])).session.readings
          ≤ (((start w).run maxBytes (early ++ [.get other])).run maxBytes rest).session.readings :=
            readings_le_run rest
        _ = now.session.readings := by rw [← run_append, hrest]
    rw [answer_of_notMem (mt (mem_remembered_run steps).1 h), Option.mem_def,
      Option.map_eq_some_iff] at hnew'
    obtain ⟨source, -, rfl⟩ := hnew'
    exact Nat.ne_of_lt hlt
  · have hset : now.remembered.toFinset = (asked steps).toFinset := by
      ext path
      rw [List.mem_toFinset, List.mem_toFinset, mem_remembered_run]
    rw [← hset, List.toFinset_card_of_nodup (nodup_remembered_run steps)]
    exact (List.length_map _).symm

/-- A file that is written after it was asked for stays missing until the session is closed. -/
theorem missing_file_is_remembered :
    let w : Workspace := ⟨.empty, [], fun _ => false⟩
    let written : Workspace := ⟨⟨[(["a.ts"], .file ByteArray.empty)]⟩, [], fun _ => false⟩
    let opened := (start w).run 0 [.get "a.ts", .write written]
    opened.answer 0 "a.ts" = none ∧ opened.session.count = 1 ∧
      ((opened.step 0 .close).answer 0 "a.ts").isSome := by
  intro w written opened
  obtain ⟨hkept, -, hcount⟩ := session_is_snapshot w 0 [.get "a.ts", .write written]
  obtain ⟨-, hclosed, -⟩ := session_is_snapshot w 0 [.get "a.ts", .write written, .close]
  refine ⟨?_, hcount, ?_⟩
  · obtain ⟨-, hfirst⟩ := hkept "a.ts" [] [.write written] rfl (by simp [Step.isClose])
    have hnone : ((opened.answer 0 "a.ts").map Parsed.source) = none := by
      refine Option.eq_none_iff_forall_ne_some.2 fun source hsource => ?_
      obtain ⟨bytes, hbytes, -⟩ := ((hfirst (by decide) source).1 hsource).content
      cases hbytes
    simpa using hnone
  · have hlanguage : scriptLanguage? "a.ts" = some .typescript := by decide +kernel
    -- After closing the file is read anew, and an empty text can be parsed.
    have hsource := (hclosed "a.ts" (by decide)).1 ⟨"a.ts", .typescript, textOf ByteArray.empty,
      (parse (.of .typescript) (textOf ByteArray.empty)).1,
      (parse (.of .typescript) (textOf ByteArray.empty)).2⟩
    have hcontent := hsource.2
      ⟨rfl, hlanguage, by decide +kernel, rfl, ⟨ByteArray.empty, rfl, by decide, rfl⟩, rfl⟩
    obtain ⟨x, hx, -⟩ := Option.map_eq_some_iff.1 hcontent
    exact Option.isSome_of_eq_some hx

end CodeSurvey.Syntax.Session
