import CodeSurvey.Proofs.Storage.Operations

/-!
# Current documents survive faults

On a store that was made ready and keeps its documents in files, whatever file primitives fail
(`current_documents_survive`): an operation that fails leaves the file of every current document as
it was; one that succeeds leaves its target with exactly the new text and the others as they were;
and a temporary file that was not there before is left only if its removal was made to fail.

Nothing in the control directory may be a link: a temporary file that is a link is written through
to what it leads to (`linked_temporary_is_written_through`).
-/

namespace CodeSurvey.Storage

open CodeSurvey.Artifact CodeSurvey.Files
open State (Moves)

/-- A store that was made ready and keeps its documents in files; nothing in its control directory
is a link. -/
structure State.OnDisk (s : State) : Prop where
  isReady : s.store.isReady
  inFiles : s.store.memory = none
  sited : ∃ site, s.Sited site

/-- Whether the file of a document has exactly the text of a value. -/
def State.Saved (s : State) (d : Document) (j : Json) : Prop :=
  s.disk? d = some (.file j.stored.toUTF8)

/-- However an operation from a state ends, current documents survive: if it fails they are all as
before, and if it succeeds all but its target, of which `saved` holds. A new temporary file is left
only if the schedule keeps it from being removed. -/
def Survives {α : Type} (a : StoreAction α) (s : State) (target : Document)
    (saved : α → State → Prop) : Prop :=
  Ends a s fun r s' =>
    (∀ d, s.temporary? d = none → s'.temporary? d ≠ none → s.Stuck s' d) ∧
    match r with
    | .ok x => saved x s' ∧ ∀ d : Document, d.isCurrent → d ≠ target → s'.disk? d = s.disk? d
    | .error _ => ∀ d : Document, d.isCurrent → s'.disk? d = s.disk? d

variable {site : Site} {s s' : State}

/-- A document that has a text in a store on disk has it in its file. -/
theorem State.OnDisk.saved {changed : List Document} (hs : s.OnDisk)
    (hmoves : Moves site changed s s') {d : Document} {j : Json} (h : s'.Holds d (some j.stored)) :
    s'.Saved d j := by
  have hmode := (hmoves.mode hs.isReady).2
  rw [hs.inFiles, Option.isSome_none, Option.isSome_eq_false_iff,
    Option.isNone_iff_eq_none] at hmode
  exact (State.holds_iff_disk hmode d _).1 h

/-- An earlier generation is no current document. -/
theorem BacksUp.disk_eq {earlier : Document} {changed : List Document} {P : String → Prop}
    (h : BacksUp site earlier changed P s s') (hearlier : earlier.isCurrent = false) {d : Document}
    (hd : d.isCurrent) (hchanged : d ∉ changed) : s'.disk? d = s.disk? d := by
  refine h.moves.disk d ?_
  rintro (_ | ⟨_, hin⟩)
  · rw [hearlier] at hd
    cases hd
  · exact hchanged hin

/-- Current documents survive an operation that may keep an earlier generation and then changes its
target only if it succeeds. -/
theorem survives_of_backsUp {α : Type} {a : StoreAction α} {target earlier : Document}
    {P : String → Prop} {saved : α → Json} (hs : s.OnDisk) (hearlier : earlier.isCurrent = false)
    (h : Ends a s (SavesOver site target earlier P saved s)) :
    Survives a s target fun x s' => s'.Saved target (saved x) := by
  refine h.mono ?_
  rintro (e | x) s' h
  · exact ⟨(BacksUp.moves h).left, fun d hd => BacksUp.disk_eq h hearlier hd (List.not_mem_nil)⟩
  · exact ⟨h.2.moves.left, hs.saved h.2.moves h.1, fun d hd hne =>
      h.2.disk_eq hearlier hd (by simpa using hne)⟩

/-- Restoring an artifact changes it and the one before, which is no current document. -/
theorem survives_restore {site : Site} (hs : s.OnDisk) (hsited : s.Sited site) (k : Kind) :
    Survives (Artifacts.restore k) s (.artifact k) fun restored s' =>
      if restored then ∃ e, s.record? (.previous k) = some e ∧ s'.Saved (.artifact k) e.toJson
      else s'.disk? (.artifact k) = s.disk? (.artifact k) := by
  refine (Artifacts.restore_spec hsited (fun _ => hs.isReady) k).mono ?_
  rintro (e | _ | _) s' h
  · exact ⟨Moves.left h, fun d _ => Moves.disk h d (List.not_mem_nil)⟩
  · exact ⟨Moves.left h, Moves.disk h _ (List.not_mem_nil), fun d _ _ =>
      Moves.disk h d (List.not_mem_nil)⟩
  · obtain ⟨hmoves, e, he, hholds⟩ := h
    refine ⟨hmoves.left, ⟨e, he, hs.saved hmoves hholds⟩, fun d hd hne => hmoves.disk d ?_⟩
    rintro (_ | ⟨_, _ | ⟨_, ⟨⟩⟩⟩)
    · exact hne rfl
    · cases hd

/-- A session is added to those that were found. -/
theorem survives_saveSession {site : Site} (hs : s.OnDisk) (hsited : s.Sited site) (query : String)
    (findings : List Research.Finding) (summary : String) (questions : List String) :
    Survives (ResearchHistory.save query findings summary questions) s .research
      fun session s' => ∃ old values,
        (s.sessions? = some old ∨ (old = [] ∧ s.Hidden s' .research)) ∧
        (ResearchHistory.lastOnes (old ++ [session])).mapM Research.Session.toJson? =
          some values ∧
        s'.Saved .research (ResearchHistory.sessionsJson values s.host.nowText) := by
  refine (ResearchHistory.save_spec hsited hs.isReady query findings summary questions).mono ?_
  rintro (e | session) s' h
  · exact ⟨Moves.left h, fun d _ => Moves.disk h d (List.not_mem_nil)⟩
  · obtain ⟨hmoves, old, values, hold, hvalues, hholds⟩ := h
    exact ⟨hmoves.left, ⟨old, values, hold, hvalues, hs.saved hmoves hholds⟩, fun d _ hne =>
      hmoves.disk d (by simpa using hne)⟩

/-- The last snapshot has no earlier generation. -/
theorem survives_saveSnapshot {site : Site} (hs : s.OnDisk) (hsited : s.Sited site)
    (snapshot : Survey.Snapshot) :
    Survives (LastSnapshot.save snapshot) s .snapshot fun _ s' =>
      s'.Saved .snapshot snapshot.toJson := by
  refine (LastSnapshot.save_spec hsited (fun _ => hs.isReady) snapshot).mono ?_
  rintro (e | ⟨⟩) s' h
  · exact ⟨Moves.left h, fun d _ => Moves.disk h d (List.not_mem_nil)⟩
  · exact ⟨h.1.left, hs.saved h.1 h.2, fun d _ hne => h.1.disk d (by simpa using hne)⟩

/-- Current documents survive faults in every saving operation. -/
theorem current_documents_survive (hs : s.OnDisk) :
    (∀ m : Made, Survives (Artifacts.store m) s (.artifact m.kind) fun stored s' =>
      s'.Saved (.artifact m.kind) stored.toJson) ∧
    (∀ k : Kind, Survives (Artifacts.restore k) s (.artifact k) fun restored s' =>
      if restored then ∃ e, s.record? (.previous k) = some e ∧ s'.Saved (.artifact k) e.toJson
      else s'.disk? (.artifact k) = s.disk? (.artifact k)) ∧
    (∀ text : String, Survives (Planning.saveRequirements text) s .requirements fun saved s' =>
      s'.Saved .requirements saved.toJson) ∧
    (∀ ts : List CodeSurvey.Planning.Task, Survives (Planning.saveTasks ts) s .tasks fun _ s' =>
      s'.Saved .tasks (Planning.tasksJson ts s.host.nowText)) ∧
    (∀ (query : String) (findings : List Research.Finding) (summary : String)
      (questions : List String),
      Survives (ResearchHistory.save query findings summary questions) s .research
        fun session s' => ∃ old values,
          (s.sessions? = some old ∨ (old = [] ∧ s.Hidden s' .research)) ∧
          (ResearchHistory.lastOnes (old ++ [session])).mapM Research.Session.toJson? =
            some values ∧
          s'.Saved .research (ResearchHistory.sessionsJson values s.host.nowText)) ∧
    (∀ snapshot : Survey.Snapshot, Survives (LastSnapshot.save snapshot) s .snapshot fun _ s' =>
      s'.Saved .snapshot snapshot.toJson) := by
  obtain ⟨site, hsited⟩ := hs.sited
  have hmem : s.store.memory.isSome → s.store.isReady := fun _ => hs.isReady
  exact ⟨fun m => survives_of_backsUp hs rfl (Artifacts.store_spec hsited hmem m),
    fun k => survives_restore hs hsited k,
    fun text => survives_of_backsUp hs rfl (Planning.saveRequirements_spec hsited hmem text),
    fun ts => survives_of_backsUp hs rfl (Planning.saveTasks_spec hsited hmem ts),
    fun query findings summary questions =>
      survives_saveSession hs hsited query findings summary questions,
    fun snapshot => survives_saveSnapshot hs hsited snapshot⟩

/-- A full device: no text can be written. -/
def State.onFullDevice : State :=
  State.withEntries [(["tasks.json"], .file "[]".toUTF8)] fun _ c =>
    if c.primitive = .write then some Errno.noSpace else none

/-- Current documents survive on a full device. -/
theorem current_documents_survive_on_full_device :
    State.onFullDevice.OnDisk ∧ Survives (Planning.saveTasks []) State.onFullDevice .tasks
      fun _ s' => s'.Saved .tasks (Planning.tasksJson [] State.onFullDevice.host.nowText) := by
  have hs : State.onFullDevice.OnDisk := {
    isReady := rfl
    inFiles := rfl
    sited := ⟨_, State.sited_withEntries (by decide) (by simp)⟩ }
  exact ⟨hs, (current_documents_survive hs).2.2.2.1 []⟩

/-- A control directory where the temporary file of the tasks is a link to the requirements. -/
def State.withLinkedTemporary (faults : Faults) : State :=
  State.withEntries
    [(["requirements.json"], .file ByteArray.empty),
      (["tasks.json.tmp"], .link "requirements.json")] faults

/-- Saving the tasks writes through a temporary file that is a link to the requirements. -/
theorem linked_temporary_is_written_through :
    (State.withLinkedTemporary Faults.none).store.isReady ∧
    (State.withLinkedTemporary Faults.none).store.memory = none ∧
    (State.withLinkedTemporary Faults.none).host.tree.Sound ∧
    ¬ Survives (Planning.saveTasks []) (State.withLinkedTemporary Faults.none) .tasks
      fun _ s' => s'.Saved .tasks
        (Planning.tasksJson [] (State.withLinkedTemporary Faults.none).host.nowText) := by
  refine ⟨rfl, rfl, Tree.sound_of_entries (by decide), fun h => ?_⟩
  have hdisk : ((Planning.saveTasks []).run (State.withLinkedTemporary Faults.none)).2.disk?
      .requirements = (State.withLinkedTemporary Faults.none).disk? .requirements := by
    have hsame := h.2
    split at hsame
    · exact hsame.2 .requirements rfl (by decide)
    · exact hsame .requirements rfl
  -- The requirements were empty, and now they are the text of the tasks.
  have hmem :
      ((Planning.saveTasks []).run (State.withLinkedTemporary Faults.none)).2.store.memory.isSome =
        (State.withLinkedTemporary Faults.none).store.memory.isSome := by
    decide +kernel
  have htext : ((Planning.saveTasks []).run (State.withLinkedTemporary Faults.none)).2.text?
      .requirements = some "" := by
    rw [State.text?, hdisk, hmem]
    decide +kernel
  revert htext
  decide +kernel

end CodeSurvey.Storage
