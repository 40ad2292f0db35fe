import CodeSurvey.Proofs.Records.Shape
import CodeSurvey.Proofs.Storage.History
import CodeSurvey.Proofs.Storage.Succession

/-!
# Malformed documents are absent

What a document other than the research history gives is told by its text (`Finds`): the record that
its value describes, and nothing if there is no text, if it is malformed or if its value describes
none. The tasks are found one by one (`Lists`). An artifact that is stored then follows the one that
was found (`documents_are_read`).

The one exception are texts out of the reader's bounds: reading them fails, and so does what is
built on it (`long_number_ends_reading`).
-/

namespace CodeSurvey.Storage

open CodeSurvey.Artifact CodeSurvey.Files CodeSurvey.Planning CodeSurvey.Survey
open State (Moves)
open StoreAction

variable {α β : Type} {site : Site} {s s' : State}

/-! ## What reading ends with -/

/-- An operation ends with a result and changes nothing. -/
def Answers (site : Site) (s : State) (a : StoreAction α) (r : Except StoreError α) : Prop :=
  Ends a s fun r' s' => r' = r ∧ Moves site [] s s' ∧ ∀ d, s'.text? d = s.text? d

/-- What is made of the result of an operation. -/
theorem Answers.map {a : StoreAction α} {r : Except StoreError α} (h : Answers site s a r)
    (f : α → β) : Answers site s (do return f (← a)) (r.map f) := by
  refine h.bind ?_ ?_
  · rintro e s' ⟨rfl, hs'⟩
    exact ⟨rfl, hs'⟩
  · rintro x s' ⟨rfl, hs'⟩
    exact Ends.of_eq (run_pure (f x) s') ⟨rfl, hs'⟩

/-- Operations along a list that change nothing end as each of them does. -/
theorem Answers.mapM {f : β → StoreAction α} {r : β → Except StoreError α}
    (h : ∀ s', s'.Clear site → (∀ d, s'.text? d = s.text? d) → ∀ x, Answers site s' (f x) (r x))
    (hc : s.Clear site) (xs : List β) : Answers site s (xs.mapM f) (xs.mapM r) := by
  induction xs generalizing s with
  | nil => exact ⟨rfl, .refl s, fun _ => rfl⟩
  | cons x xs ih =>
    rw [List.mapM_cons, List.mapM_cons]
    refine (h s hc (fun _ => rfl) x).bind ?_ ?_
    · rintro e s₁ ⟨he, hs₁⟩
      rw [← he]
      exact ⟨rfl, hs₁⟩
    rintro y s₁ ⟨hy, hm₁, htext₁⟩
    -- The texts are the same after the first operation, so the hypothesis serves the rest.
    have hrest : Answers site s₁ (xs.mapM f) (xs.mapM r) :=
      ih (fun s' hc' htext' => h s' hc' fun d => (htext' d).trans (htext₁ d)) (hm₁.clear hc)
    have hall := hrest.map (y :: ·)
    refine hall.mono ?_
    rintro r' s₂ ⟨hr', hm₂, htext₂⟩
    refine ⟨?_, hm₁.trans hm₂, fun d => (htext₂ d).trans (htext₁ d)⟩
    rw [hr', ← hy]
    cases xs.mapM r <;> rfl

/-- What reading the record of a document ends with, by its text. -/
inductive Finds (IsOf : Json → α → Prop) : Option String → Except StoreError (Option α) → Prop
  /-- There is no text: no file, or none in UTF-8. -/
  | absent : Finds IsOf none (.ok none)
  /-- The text is no JSON. -/
  | malformed {text : String} {flaw : Json.Flaw} {place : Json.Place}
      (read : Json.read text = .error (.malformed flaw place)) : Finds IsOf (some text) (.ok none)
  /-- Its value describes no record. -/
  | wrong {text : String} {j : Json} (read : Json.read text = .ok j) (isNot : ∀ x, ¬ IsOf j x) :
      Finds IsOf (some text) (.ok none)
  | record {text : String} {j : Json} {x : α} (read : Json.read text = .ok j) (is : IsOf j x) :
      Finds IsOf (some text) (.ok (some x))
  /-- A number of the text is too long, or it is nested too deeply. -/
  | outOfBounds {text : String} {e : Json.ReadError} (read : Json.read text = .error e)
      (bounds : ∀ flaw place, e ≠ .malformed flaw place) :
      Finds IsOf (some text) (.error (.outOfBounds e))

/-- What is found in a value by a check. -/
theorem finds_of_check {IsOf : Json → α → Prop} {check : Json → Option α}
    (hcheck : ∀ {j x}, check j = some x ↔ IsOf j x) {text : String} {j : Json}
    (hread : Json.read text = .ok j) : Finds IsOf (some text) (.ok (check j)) := by
  cases hfound : check j with
  | none =>
    refine .wrong hread fun x hx => ?_
    cases hfound.symm.trans (hcheck.2 hx)
  | some x => exact .record hread (hcheck.1 hfound)

/-- In a text with a value it is what the check finds. -/
theorem Finds.eq_check {IsOf : Json → α → Prop} {check : Json → Option α}
    (hcheck : ∀ {j x}, check j = some x ↔ IsOf j x) {text : String} {j : Json}
    {r : Except StoreError (Option α)} (h : Finds IsOf (some text) r)
    (hread : Json.read text = .ok j) : r = .ok (check j) := by
  cases h with
  | malformed hread' => cases hread.symm.trans hread'
  | outOfBounds hread' _ => cases hread.symm.trans hread'
  | wrong hread' hnot =>
    obtain rfl := Except.ok.inj (hread.symm.trans hread')
    cases hfound : check j with
    | none => rfl
    | some x => exact absurd (hcheck.1 hfound) (hnot x)
  | record hread' his =>
    obtain rfl := Except.ok.inj (hread.symm.trans hread')
    rw [hcheck.2 his]

/-- In a text without a value nothing is found, or there is an error. -/
theorem Finds.eq_unread {IsOf : Json → α → Prop} {text : String} {e : Json.ReadError}
    {r : Except StoreError (Option α)} (h : Finds IsOf (some text) r)
    (hread : Json.read text = .error e) : r = unread none e := by
  cases h with
  | malformed hread' =>
    obtain rfl := Except.error.inj (hread.symm.trans hread')
    rfl
  | outOfBounds hread' hbounds =>
    obtain rfl := Except.error.inj (hread.symm.trans hread')
    exact (unread_of_bounds none hbounds).symm
  | wrong hread' _ => cases hread.symm.trans hread'
  | record hread' _ => cases hread.symm.trans hread'

/-- The text of a document determines what is found. -/
theorem Finds.unique {IsOf : Json → α → Prop} {check : Json → Option α}
    (hcheck : ∀ {j x}, check j = some x ↔ IsOf j x) {text? : Option String}
    {r r' : Except StoreError (Option α)} (h : Finds IsOf text? r) (h' : Finds IsOf text? r') :
    r = r' := by
  cases text? with
  | none =>
    cases h
    cases h'
    rfl
  | some text =>
    cases hread : Json.read text with
    | ok j => rw [h.eq_check hcheck hread, h'.eq_check hcheck hread]
    | error e => rw [h.eq_unread hread, h'.eq_unread hread]

/-- In a clear state what is read of a document is told by its text. -/
theorem answers_readJson (hc : s.Clear site) (d : Document) :
    ∃ r, GivesValue (s.text? d) r ∧
      Answers site s (do ensureReady; readJson d) r := by
  have hread : Ends (do ensureReady; readJson d) s fun r s' =>
      GivesValue (s.text? d) r ∧ Moves site [] s s' ∧ ∀ d, s'.text? d = s.text? d := by
    refine (ensureReady_clear hc).bind_ok fun s₁ ⟨hm₁, hready₁, htext₁⟩ => ?_
    refine (readJson_clear (hm₁.clear hc) d).mono ?_
    rintro r s₂ ⟨hgives, hm₂⟩
    have htext₂ (d' : Document) : s₂.text? d' = s₁.text? d' :=
      hm₂.text?_eq (hm₂.mode hready₁).2 List.not_mem_nil
    rw [htext₁] at hgives
    exact ⟨hgives, hm₁.trans hm₂, fun d' => (htext₂ d').trans (htext₁ d')⟩
  exact ⟨_, hread.1, rfl, hread.2⟩

/-- In a clear state the record of a document is found by its text. -/
theorem answers_check (hc : s.Clear site) (d : Document) {IsOf : Json → α → Prop}
    {check : Json → Option α} (hcheck : ∀ {j x}, check j = some x ↔ IsOf j x) :
    ∃ r, Finds IsOf (s.text? d) r ∧
      Answers site s (do ensureReady; return (← readJson d).bind check) r := by
  obtain ⟨r, hgives, hanswers⟩ := answers_readJson hc d
  have hfinds : Finds IsOf (s.text? d) (r.map (·.bind check)) := by
    generalize s.text? d = text? at hgives
    cases hgives with
    | absent => exact .absent
    | malformed hread => exact .malformed hread
    | value hread => exact finds_of_check hcheck hread
    | outOfBounds hread hbounds => exact .outOfBounds hread hbounds
  refine ⟨_, hfinds, ?_⟩
  have hmap := hanswers.map (·.bind check)
  rwa [bind_assoc] at hmap

/-! ## Tasks -/

/-- The records that values describe, in their order; each of the other values is passed over. -/
inductive Lists (IsOf : Json → α → Prop) : List Json → List α → Prop
  | nil : Lists IsOf [] []
  | keep {j : Json} {x : α} {values : List Json} {xs : List α} (is : IsOf j x)
      (rest : Lists IsOf values xs) : Lists IsOf (j :: values) (x :: xs)
  | skip {j : Json} {values : List Json} {xs : List α} (isNot : ∀ x, ¬ IsOf j x)
      (rest : Lists IsOf values xs) : Lists IsOf (j :: values) xs

/-- The records that a check finds. -/
theorem lists_filterMap {IsOf : Json → α → Prop} {check : Json → Option α}
    (hcheck : ∀ {j x}, check j = some x ↔ IsOf j x) (values : List Json) :
    Lists IsOf values (values.filterMap check) := by
  induction values with
  | nil => exact .nil
  | cons j values ih =>
    cases hfound : check j with
    | none =>
      rw [List.filterMap_cons_none hfound]
      refine .skip (fun x hx => ?_) ih
      cases hfound.symm.trans (hcheck.2 hx)
    | some x =>
      rw [List.filterMap_cons_some hfound]
      exact .keep (hcheck.1 hfound) ih

/-- What reading the tasks ends with, by their text: the tasks of the array in it, and none if there
is no such array. -/
inductive FindsTasks (text? : Option String) : Except StoreError (List Task) → Prop
  | none (no : Finds (fun j values => j.get? "tasks" = some (.arr values)) text? (.ok none)) :
      FindsTasks text? (.ok [])
  | tasks {values : List Json} {tasks : List Task}
      (array : Finds (fun j values => j.get? "tasks" = some (.arr values)) text?
        (.ok (some values)))
      (lists : Lists Task.IsOf values tasks) : FindsTasks text? (.ok tasks)
  | outOfBounds {e : StoreError}
      (no : Finds (fun j values => j.get? "tasks" = some (.arr values)) text? (.error e)) :
      FindsTasks text? (.error e)

/-- In a clear state the tasks are found by their text. -/
theorem answers_loadTasks (hc : s.Clear site) :
    ∃ r, FindsTasks (s.text? .tasks) r ∧ Answers site s Planning.loadTasks r := by
  have harray {j : Json} {values : List Json} :
      (j.get? "tasks").bind Json.arr? = some values ↔ j.get? "tasks" = some (.arr values) := by
    rw [Option.bind_eq_some_iff]
    simp only [Json.arr?_eq_some, exists_eq_right]
  obtain ⟨r, hfinds, hanswers⟩ := answers_check hc .tasks harray
  have hmap := hanswers.map fun found : Option (List Json) =>
    (found.getD []).filterMap Task.ofJson?
  refine ⟨r.map fun found => (found.getD []).filterMap Task.ofJson?, ?_, ?_⟩
  · cases r with
    | error e => exact .outOfBounds hfinds
    | ok found =>
      cases found with
      | none => exact .none hfinds
      | some values => exact .tasks hfinds (lists_filterMap Task.ofJson?_eq_some values)
  · simp only [bind_assoc, pure_bind, ← Option.bind_assoc] at hmap
    exact hmap

/-! ## Artifacts -/

namespace Artifacts

/-- The numbers of an artifact's record have no more digits than are written. -/
def Fits (m : Made) (former : Option Stored) : Prop :=
  m.fileCount.natAbs < 10 ^ Json.maxIntDigits ∧ m.errorCount.natAbs < 10 ^ Json.maxIntDigits ∧
    former.elim 0 (fun former => former.metadata.version.number) + 1 < 10 ^ Json.maxIntDigits

/-- The record of an artifact is written if its numbers fit. -/
theorem hasShortInts_recordOf (m : Made) (id path : String) (former : Option Stored) :
    (recordOf m id path former).toJson.hasShortInts ↔ Fits m former := by
  rw [Stored.hasShortInts_toJson]
  simp only [Json.hasShortInts_int_iff, Int.natAbs_natCast]
  rw [(recordOf_isNext m id path former).version]
  exact Iff.rfl

/-- How storing an artifact ends after what was found of the one before: its record follows that one
and is the text of its document, unless a number of it is too long. -/
def Follows (site : Site) (m : Made) (s : State) (found : Except StoreError (Option Stored))
    (r : Except StoreError Stored) (s' : State) : Prop :=
  match found with
  | .error e => r = .error e
  | .ok former =>
    (Fits m former → ∃ e, r = .ok e ∧ IsNext m former e ∧
      Moves site [.previous m.kind, .artifact m.kind] s s' ∧
      s'.text? (.artifact m.kind) = some e.toJson.stored) ∧
    (¬ Fits m former → r = .error .longNumber)

/-- What was found is short. -/
theorem hasShortInts_of_finds {text? : Option String} {e : Stored}
    (h : Finds Stored.IsOf text? (.ok (some e))) : e.toJson.hasShortInts := by
  cases h with
  | record hread his =>
    exact Stored.short_of_proper (Json.proper_of_read hread) (Stored.ofJson?_eq_some.2 his)

/-- In a clear state storing an artifact follows what is found. -/
theorem store_clear (hc : s.Clear site) {m : Made} {found : Except StoreError (Option Stored)}
    (hfinds : Finds Stored.IsOf (s.text? (.artifact m.kind)) found) :
    Ends (store m) s (Follows site m s found) := by
  unfold store
  refine (ensureReady_clear hc).bind_ok fun s₁ ⟨hm₁, hready₁, htext₁⟩ => ?_
  have hload : Answers site s₁ (load m.kind) found := by
    obtain ⟨found', hfinds', hanswers⟩ :=
      answers_check (hm₁.clear hc) (.artifact m.kind) Stored.ofJson?_eq_some
    rw [htext₁] at hfinds'
    rwa [hfinds.unique Stored.ofJson?_eq_some hfinds']
  refine hload.bind ?_ ?_
  · rintro e s₂ ⟨rfl, -⟩
    rfl
  rintro former s₂ ⟨rfl, hm₂, -⟩
  have hm₂' := hm₁.trans hm₂
  have hready₂ := (hm₂.mode hready₁).1
  -- The numbers of what was found are short, so it is kept as the one before.
  have hshort : ∀ e, former = some e → e.toJson.hasShortInts := by
    rintro e rfl
    exact hasShortInts_of_finds hfinds
  refine (keepFormer_short (hm₂'.sited hc.toSited) hready₂ m.kind hshort).bind_ok
    fun s₃ hm₃ => ?_
  have hm₃' := (hm₂'.mono (List.nil_subset _)).trans hm₃
  refine (replace_spec (hm₃'.sited hc.toSited) (hm₃.mode hready₂).1 m former).mono ?_
  rintro (e | e) s₄ h₄
  · obtain ⟨-, hwhy⟩ := h₄
    obtain ⟨rfl, id, path, hlong⟩ := hwhy (hm₃'.clear hc)
    rw [hasShortInts_recordOf] at hlong
    exact ⟨fun hfits => absurd hfits hlong, fun _ => rfl⟩
  · obtain ⟨⟨id, rfl⟩, hm₄, hholds, hshort⟩ := h₄
    have hfits := (hasShortInts_recordOf m id _ former).1 hshort
    refine ⟨fun _ => ⟨_, rfl, recordOf_isNext m id _ former, ?_, ?_⟩,
      fun hlong => absurd hfits hlong⟩
    · exact (hm₃'.mono (by simp)).trans (hm₄.mono (by simp))
    · refine hholds.text? ?_
      rintro t ⟨⟩
      exact Json.return_notMem_stored _

end Artifacts

/-! ## All documents -/

/-- In a clear state each document but the research history is read as its text says: what is
malformed, or is of another form, is absent. Reading fails for texts out of bounds only and changes
nothing. An artifact that is stored follows the one that was found. -/
theorem documents_are_read (hc : s.Clear site) :
    (∃ found : Kind → Except StoreError (Option Stored),
      (∀ k, Finds Stored.IsOf (s.text? (.artifact k)) (found k) ∧
        Answers site s (Artifacts.load k) (found k) ∧
        Answers site s (Artifacts.has k) ((found k).map Option.isSome) ∧
        Answers site s (Artifacts.madeAt? k) ((found k).map fun e => e.map (·.metadata.madeAt))) ∧
      Answers site s Artifacts.list
        ((Kind.all.mapM found).map fun all => all.filterMap fun e => e) ∧
      ∀ m, Ends (Artifacts.store m) s (Artifacts.Follows site m s (found m.kind))) ∧
    (∀ k, ∃ found, Finds Stored.IsOf (s.text? (.previous k)) found ∧
      Answers site s (Artifacts.loadPrevious k) found ∧
      Answers site s (Artifacts.hasPrevious k) (found.map Option.isSome)) ∧
    (∃ found, Finds Requirements.IsOf (s.text? .requirements) found ∧
      Answers site s Planning.loadRequirements found ∧
      Answers site s Planning.hasRequirements (found.map Option.isSome) ∧
      Answers site s Planning.requirementsSavedAt (found.map fun r => r.map (·.writtenAt))) ∧
    (∃ found, FindsTasks (s.text? .tasks) found ∧ Answers site s Planning.loadTasks found) ∧
    (∃ found, Finds (fun j now => j.get? "updatedAtUtc" = some (.str now)) (s.text? .tasks) found ∧
      Answers site s Planning.tasksSavedAt found) ∧
    ∃ found, Finds Snapshot.IsOf (s.text? .snapshot) found ∧
      Answers site s LastSnapshot.load found := by
  refine ⟨?_, fun k => ?_, ?_, answers_loadTasks hc, ?_, ?_⟩
  · choose found hfinds hload using fun k =>
      answers_check hc (.artifact k) Stored.ofJson?_eq_some
    refine ⟨found, fun k => ⟨hfinds k, hload k, (hload k).map _, (hload k).map _⟩, ?_, fun m => ?_⟩
    · -- Listing reads the kinds one after another, each in the state that the one before has left.
      refine (Answers.mapM (fun s' hc' htext' k => ?_) hc Kind.all).map _
      obtain ⟨found', hfinds', hload'⟩ := answers_check hc' (.artifact k) Stored.ofJson?_eq_some
      rw [htext'] at hfinds'
      rwa [(hfinds k).unique Stored.ofJson?_eq_some hfinds']
    · exact Artifacts.store_clear hc (hfinds m.kind)
  · obtain ⟨found, hfinds, hload⟩ := answers_check hc (.previous k) Stored.ofJson?_eq_some
    exact ⟨found, hfinds, hload, hload.map _⟩
  · obtain ⟨found, hfinds, hload⟩ := answers_check hc .requirements Requirements.ofJson?_eq_some
    exact ⟨found, hfinds, hload, hload.map _, hload.map _⟩
  · exact answers_check hc .tasks Json.getStr?_eq_some
  · exact answers_check hc .snapshot Snapshot.ofJson?_eq_some

/-- A workspace with the text of a value as one of its documents. -/
def withDocument (d : Document) (j : Json) : State :=
  State.withEntries
    [(Document.artifactsDir, .dir), (Document.cacheDir, .dir), (d.path, .file j.stored.toUTF8)]
    Faults.none

/-- Such a workspace is clear. -/
theorem clear_withDocument (d : Document) (j : Json) :
    (withDocument d j).Clear ⟨[], [], ["ws", ".contextscan"]⟩ := by
  refine State.clear_withEntries ?_ ?_ ?_
  · simp only [State.withEntries, List.map_cons, List.map_nil, List.cons_append, List.nil_append,
      List.forall_mem_cons]
    refine ⟨rfl, rfl, rfl, rfl, ?_, by simp⟩
    have hdirs : ∀ dir ∈ Document.dirs, Tree.entry?
        ⟨[(["ws"], .dir), (["ws", ".contextscan"], .dir),
          ("ws" :: ".contextscan" :: Document.artifactsDir, .dir),
          ("ws" :: ".contextscan" :: Document.cacheDir, .dir),
          ("ws" :: ".contextscan" :: d.path, .file j.stored.toUTF8)]⟩
        ("ws" :: ".contextscan" :: dir) = some .dir := by
      simp only [Document.dirs, List.forall_mem_cons]
      exact ⟨rfl, rfl, rfl, by simp⟩
    -- The document stands in one of the directories that have been made.
    have hdir : ("ws" :: ".contextscan" :: d.path).dropLast = "ws" :: ".contextscan" :: d.dir := by
      rw [d.path_eq, ← List.cons_append, ← List.cons_append, List.dropLast_concat]
    rw [hdir, hdirs _ d.dir_mem]
    rfl
  · simp
  · simp only [List.forall_mem_cons]
    refine ⟨rfl, rfl, ?_, by simp⟩
    have hnot : d.path ∉ Document.dirs := fun hin => (d.not_prefix_dirs hin).1 (List.prefix_refl _)
    exact (decide_eq_false hnot).symm

/-- The text of the document is that of the value. -/
theorem text?_withDocument (d : Document) (j : Json) :
    (withDocument d j).text? d = some j.stored := by
  have hnot : d.path ∉ Document.dirs := fun hin => (d.not_prefix_dirs hin).1 (List.prefix_refl _)
  -- The path of the document is none of the directories, so the last entry is its own.
  have hentry : (withDocument d j).host.tree.entry? (["ws", ".contextscan"] ++ d.path) =
      some (.file j.stored.toUTF8) := by
    refine Tree.entry?_of_mem ?_ (List.cons_ne_nil _ _) ?_
    · simp only [withDocument, State.withEntries, List.map_cons, List.map_nil, List.cons_append,
        List.nil_append, List.nodup_cons, List.mem_cons, List.cons.injEq, true_and]
      simp only [Document.dirs, List.mem_cons, not_or] at hnot
      obtain ⟨hbase, hartifacts, hcache, -⟩ := hnot
      simp only [Document.artifactsDir, Document.cacheDir, List.ne_cons_self, List.nil_eq,
        reduceCtorEq, List.not_mem_nil, or_self, not_false_eq_true, Ne.symm hbase,
        List.cons.injEq, String.reduceEq, and_true, or_false, false_or, List.nodup_nil, and_self,
        true_and] at hartifacts hcache ⊢
      exact ⟨Ne.symm hartifacts, Ne.symm hcache⟩
    · simp [withDocument, State.withEntries]
  have hholds : (withDocument d j).Holds d (some j.stored) := by
    refine (State.holds_iff_disk rfl d _).2 ?_
    rw [(clear_withDocument d j).disk?_eq]
    exact hentry
  refine hholds.text? ?_
  rintro t ⟨⟩
  exact Json.return_notMem_stored j

/-- The value of an artifact whose version has a value. -/
def artifactValue (version : Json) : Json :=
  .obj [("id", .str "a"), ("kind", .str "summary"), ("workspacePath", .str "ws"),
    ("content", .str "{}"),
    ("metadata", .obj [("generatedAtUtc", .str "2024-05-01T12:00:00.000Z"),
      ("fileCount", .int 0), ("errorCount", .int 0), ("version", version)])]

/-- The text of such a value is read as the value. -/
theorem read_artifactValue {version : Json} (h : Json.Readable 958 version) :
    Json.read (artifactValue version).stored = .ok (artifactValue version) := by
  have hzero : Json.Readable 958 (.int 0) := .of_short (by decide)
  refine Json.read_stored (.obj (by simp) ?_)
  simp only [List.forall_mem_cons]
  refine ⟨.str _, .str _, .str _, .str _, .obj (by simp) ?_, by simp⟩
  simp only [List.forall_mem_cons]
  exact ⟨.str _, hzero, hzero, h, by simp⟩

/-- An artifact whose version is a truth value is none, and the next one has version one. -/
theorem documents_are_read_past_boolean_version :
    (withDocument (.artifact (.core .summary)) (artifactValue (.bool true))).Clear
      ⟨[], [], ["ws", ".contextscan"]⟩ ∧
    ((Artifacts.load (.core .summary)).run
      (withDocument (.artifact (.core .summary)) (artifactValue (.bool true)))).1 = .ok none ∧
    ∃ e, ((Artifacts.store ⟨.core .summary, "[]", "2024-05-01T12:00:00Z", 1, 0, false⟩).run
        (withDocument (.artifact (.core .summary)) (artifactValue (.bool true)))).1 = .ok e ∧
      e.metadata.version.number = 1 := by
  have hclear := clear_withDocument (.artifact (.core .summary)) (artifactValue (.bool true))
  obtain ⟨⟨found, hfound, -, hstore⟩, -⟩ := documents_are_read hclear
  obtain ⟨hfinds, hload, -⟩ := hfound (.core .summary)
  rw [text?_withDocument] at hfinds
  -- The text is well formed, but no artifact has a truth value for its version.
  have hnone : Finds Stored.IsOf (some (artifactValue (.bool true)).stored) (.ok none) := by
    refine .wrong (read_artifactValue (.bool true)) fun e he => ?_
    obtain ⟨v, hv, hmetadata⟩ := he.metadata
    obtain rfl := Option.some.inj hv
    cases hmetadata.version
  have heq := hfinds.unique Stored.ofJson?_eq_some hnone
  have hfollows := hstore ⟨.core .summary, "[]", "2024-05-01T12:00:00Z", 1, 0, false⟩
  rw [heq] at hload hfollows
  have hbound : 1 < 10 ^ Json.maxIntDigits := Nat.one_lt_pow (by decide) (by decide)
  obtain ⟨e, he, hnext, -⟩ := hfollows.1 ⟨hbound, Nat.zero_lt_of_lt hbound, hbound⟩
  exact ⟨hclear, hload.1, e, he, hnext.version⟩

/-- The greatest number that is read. -/
def greatestNumber : Nat := 10 ^ Json.maxIntDigits - 1

/-- The text of the first number that is too long is the number, which has one digit too many. -/
theorem loadRequirements_longNumber :
    ∃ e, (Planning.loadRequirements.run
        (withDocument .requirements (.int (10 ^ Json.maxIntDigits)))).1 =
      .error (.outOfBounds e) := by
  have hlong := Json.toDigits_bound_long
  have hstored : (Json.int (10 ^ Json.maxIntDigits)).stored =
      toString (10 ^ Json.maxIntDigits : Nat) := by
    rw [Json.stored, Json.layout, String.ofList_toList, ← Json.natCast_bound]
    rfl
  obtain ⟨found, hfinds, hload⟩ := answers_check
    (clear_withDocument .requirements (.int (10 ^ Json.maxIntDigits))) .requirements
    Requirements.ofJson?_eq_some
  rw [text?_withDocument, hstored] at hfinds
  have herror : Finds Requirements.IsOf (some (toString (10 ^ Json.maxIntDigits : Nat)))
      (.error (.outOfBounds
        (.tooManyDigits (Nat.toDigits 10 (10 ^ Json.maxIntDigits)).length))) :=
    .outOfBounds (Json.read_long hlong) (by simp)
  rw [hfinds.unique Requirements.ofJson?_eq_some herror] at hload
  exact ⟨_, hload.1⟩

/-- The greatest number that is read is a version. -/
theorem one_le_greatestNumber : 1 ≤ greatestNumber := by
  have htwo : 10 ^ 1 ≤ 10 ^ Json.maxIntDigits := Nat.pow_le_pow_right (by decide) (by decide)
  rw [greatestNumber]
  omega

/-- An artifact with this version is found. -/
theorem finds_greatestNumber : Finds Stored.IsOf
    ((withDocument (.artifact (.core .summary)) (artifactValue (.int greatestNumber))).text?
      (.artifact (.core .summary)))
    (.ok (some ⟨"a", .core .summary, "ws", "{}",
      ⟨"2024-05-01T12:00:00.000Z", 0, 0, ⟨greatestNumber, one_le_greatestNumber⟩, none⟩⟩)) := by
  have hshort : (Json.int greatestNumber).hasShortInts := by
    rw [Json.hasShortInts_int_iff, Int.natAbs_natCast, greatestNumber]
    have := Nat.pow_pos (n := Json.maxIntDigits) (show 0 < 10 by decide)
    omega
  have hmoment : (Time.Moment.ofText? "2024-05-01T12:00:00.000Z").isSome := by decide +kernel
  rw [text?_withDocument]
  refine .record (read_artifactValue (.of_short hshort)) ⟨rfl, rfl, rfl, rfl, _, rfl, ?_⟩
  exact ⟨rfl, hmoment, rfl, Int.le_refl 0, rfl, Int.le_refl 0, rfl, .inl rfl⟩

/-- A document that is a whole number with too many digits is no record, but it is not absent: it
cannot be read. An artifact with the greatest version that is read has no next one. -/
theorem long_number_ends_reading :
    (∀ r, ¬ Requirements.IsOf (.int (10 ^ Json.maxIntDigits)) r) ∧
    (∃ e, (Planning.loadRequirements.run
      (withDocument .requirements (.int (10 ^ Json.maxIntDigits)))).1 = .error (.outOfBounds e)) ∧
    (∃ e, ((Artifacts.load (.core .summary)).run (withDocument (.artifact (.core .summary))
      (artifactValue (.int greatestNumber)))).1 = .ok (some e)) ∧
    ((Artifacts.store ⟨.core .summary, "[]", "2024-05-01T12:00:00Z", 1, 0, false⟩).run
      (withDocument (.artifact (.core .summary)) (artifactValue (.int greatestNumber)))).1 =
        .error .longNumber := by
  have hnot (r : Requirements) : ¬ Requirements.IsOf (.int (10 ^ Json.maxIntDigits)) r := by
    intro hr
    cases hr.text
  have hclear :=
    clear_withDocument (.artifact (.core .summary)) (artifactValue (.int greatestNumber))
  refine ⟨hnot, loadRequirements_longNumber, ?_, ?_⟩
  · obtain ⟨found, hfinds, hload⟩ :=
      answers_check hclear (.artifact (.core .summary)) Stored.ofJson?_eq_some
    rw [hfinds.unique Stored.ofJson?_eq_some finds_greatestNumber] at hload
    exact ⟨_, hload.1⟩
  · -- The next version would be the first number that is too long.
    have hstore := Artifacts.store_clear hclear
      (m := ⟨.core .summary, "[]", "2024-05-01T12:00:00Z", 1, 0, false⟩) finds_greatestNumber
    refine hstore.2 fun hfits => ?_
    obtain ⟨-, -, hnext⟩ := hfits
    have hone := one_le_greatestNumber
    simp only [Option.elim_some, greatestNumber] at hnext hone
    omega

end CodeSurvey.Storage
