import CodeSurvey.Proofs.Storage.Mirror
import CodeSurvey.Proofs.Storage.VersionChain

/-!
# Both modes of a store are alike

A store whose workspace cannot be written to keeps its documents in memory. To whoever uses it that
makes no difference (`modes_are_alike`): beside a store that starts with an empty control directory
where no primitive fails, every operation gives the same value or error, the texts in memory are
those of the files after each one, and the store in memory leaves all files of its own tree.
-/

namespace CodeSurvey.Storage

open CodeSurvey.Artifact CodeSurvey.Files
open StoreAction

/-! ## Operations -/

/-- An operation of a store, by what it gives. Artifacts are named by their kind, and a name may be
that of no kind. -/
inductive StoreOp : Type → Type where
  | init : StoreOp Unit
  | store (name : String) (m : Made) : StoreOp Stored
  | load (name : String) : StoreOp (Option Stored)
  | loadPrevious (name : String) : StoreOp (Option Stored)
  | has (name : String) : StoreOp Bool
  | hasPrevious (name : String) : StoreOp Bool
  | madeAt (name : String) : StoreOp (Option String)
  | restore (name : String) : StoreOp Bool
  | delete (name : String) : StoreOp Bool
  | list : StoreOp (List Stored)
  | saveRequirements (text : String) : StoreOp CodeSurvey.Planning.Requirements
  | requirements : StoreOp (Option CodeSurvey.Planning.Requirements)
  | hasRequirements : StoreOp Bool
  | requirementsSavedAt : StoreOp (Option String)
  | saveTasks (ts : List CodeSurvey.Planning.Task) : StoreOp Unit
  | tasks : StoreOp (List CodeSurvey.Planning.Task)
  | tasksSavedAt : StoreOp (Option String)
  | saveResearch (query : String) (findings : List Research.Finding) (summary : String)
      (questions : List String) : StoreOp Research.Session
  | research : StoreOp (List Research.Session)
  | latestResearch : StoreOp (Option Research.Session)
  | researchCount : StoreOp Nat
  | clearResearch : StoreOp Unit
  | saveSnapshot (last : Survey.Snapshot) : StoreOp Unit
  | snapshot : StoreOp (Option Survey.Snapshot)
  | clearSnapshot : StoreOp Unit

/-- What an operation does. -/
def StoreOp.perform {α : Type} : StoreOp α → StoreAction α
  | init => ensureReady
  | store name m => Artifacts.onKind name fun kind => Artifacts.store { m with kind }
  | load name => Artifacts.onKind name Artifacts.load
  | loadPrevious name => Artifacts.onKind name Artifacts.loadPrevious
  | has name => Artifacts.onKind name Artifacts.has
  | hasPrevious name => Artifacts.onKind name Artifacts.hasPrevious
  | madeAt name => Artifacts.onKind name Artifacts.madeAt?
  | restore name => Artifacts.onKind name Artifacts.restore
  | delete name => Artifacts.onKind name Artifacts.delete
  | list => Artifacts.list
  | saveRequirements text => Planning.saveRequirements text
  | requirements => Planning.loadRequirements
  | hasRequirements => Planning.hasRequirements
  | requirementsSavedAt => Planning.requirementsSavedAt
  | saveTasks ts => Planning.saveTasks ts
  | tasks => Planning.loadTasks
  | tasksSavedAt => Planning.tasksSavedAt
  | saveResearch query findings summary questions =>
    ResearchHistory.save query findings summary questions
  | research => ResearchHistory.load
  | latestResearch => ResearchHistory.latest
  | researchCount => ResearchHistory.count
  | clearResearch => ResearchHistory.clear
  | saveSnapshot last => LastSnapshot.save last
  | snapshot => LastSnapshot.load
  | clearSnapshot => LastSnapshot.clear

/-- An operation at a moment. -/
structure Step where
  {α : Type}
  now : Time.Moment
  op : StoreOp α

/-! ## Stores in memory -/

/-- A store that keeps its documents in memory and has none yet: it was made ready so, or will be
whenever that is done. -/
structure State.MemoryOnly (s : State) : Prop where
  kept : s.store.memory.getD [] = []
  opens : ∀ now, ∃ s', ensureReady.run (s.setClock now) = (.ok (), s') ∧
    s'.store.memory = some []

/-- Making a workspace ready that cannot be written to. -/
theorem run_ensureReady_of_refused {s : State} {e : Errno} (hready : s.store.isReady = false)
    (hroot : s.host.tree.isDir s.store.root.path)
    (hrefused : s.host.faults s.host.calls ⟨.access, s.store.root.path⟩ = some e) :
    ensureReady.run s =
      (.ok (), ⟨s.host.counted, { s.store with memory := some [], isReady := true }⟩) := by
  have hasked : (FileAction.isWritable s.store.root.path).run s.host =
      (.ok false, s.host.counted) := by
    unfold FileAction.isWritable
    rw [run_tryCatch, run_bind, FileAction.change, FileAction.run_call, hrefused]
    rfl
  unfold ensureReady
  rw [run_bind, run_get]
  simp only
  rw [if_neg (by simp [hready]), if_neg (by simp [hroot]), run_bind, run_files, hasked]
  rfl

/-- A store whose workspace cannot be written to. -/
theorem State.memoryOnly_of_refused {s : State} {e : Errno} (hready : s.store.isReady = false)
    (hmem : s.store.memory = none) (hroot : s.host.tree.isDir s.store.root.path)
    (hrefused : s.host.faults s.host.calls ⟨.access, s.store.root.path⟩ = some e) :
    s.MemoryOnly where
  kept := by rw [hmem]; rfl
  opens := fun now =>
    ⟨_, run_ensureReady_of_refused (s := s.setClock now) hready hroot hrefused, rfl⟩

/-! ## Runs side by side -/

/-- The documents of a store in memory and of one in files at a site are the same: the same texts
under the same paths. The files of the former one's tree are those of another tree. -/
structure SameDocuments (site : Site) (t : Tree) (m d : State) : Prop where
  texts : ∀ x, d.fileAt? site x = (m.keptAt? x).map String.toUTF8
  files : t.Gains m.host.tree

/-- Two stores go alike through some steps: before and after each one their documents are the same,
and each operation gives the same value or error. -/
def GoAlike (site : Site) (t : Tree) : List Step → State → State → Prop
  | [], m, d => SameDocuments site t m d
  | step :: steps, m, d => SameDocuments site t m d ∧
      (step.op.perform.run (m.setClock step.now)).1 =
        (step.op.perform.run (d.setClock step.now)).1 ∧
      GoAlike site t steps (step.op.perform.run (m.setClock step.now)).2
        (step.op.perform.run (d.setClock step.now)).2

variable {site : Site} {t : Tree} {m d : State}

/-- An operation that begins with making the workspaces ready. -/
theorem agree_ensureReady_bind {α : Type} {f : Unit → StoreAction α}
    (hf : Agree (Mirrors site t) (Mirrors site t) (f ())) :
    Agree (Beside site t) (Mirrors site t) (ensureReady >>= f) :=
  agree_ensureReady.bind fun _ => hf

/-- Operations that agree may follow others that do. -/
theorem Agree.beside {α : Type} {a : StoreAction α}
    (h : Agree (Beside site t) (Mirrors site t) a) : Agree (Beside site t) (Beside site t) a :=
  h.mono (fun _ _ hP => hP) fun _ _ hQ => hQ.beside

/-- So they agree in workspaces that are ready. -/
theorem Agree.mirrors {α : Type} {a : StoreAction α}
    (h : Agree (Beside site t) (Mirrors site t) a) : Agree (Mirrors site t) (Mirrors site t) a :=
  h.mono (fun _ _ hP => hP.beside) fun _ _ hQ => hQ

namespace Artifacts

/-- An operation on the artifacts of the kind that a name names. -/
theorem agree_onKind {α : Type} {f : Kind → StoreAction α} (name : String)
    (hf : ∀ k, Agree (Beside site t) (Mirrors site t) (f k)) :
    Agree (Beside site t) (Beside site t) (onKind name f) := by
  unfold onKind
  cases Kind.ofName? name with
  | some k => exact (hf k).beside
  | none => exact agree_throw _

/-- Loading an artifact. -/
theorem agree_loadFrom (doc : Document) :
    Agree (Beside site t) (Mirrors site t) (loadFrom doc) :=
  agree_ensureReady_bind ((agree_readJson doc).bind fun _ => agree_pure _)

/-- Storing an artifact. -/
theorem agree_store (m : Made) : Agree (Beside site t) (Mirrors site t) (store m) := by
  refine agree_ensureReady_bind ((agree_loadFrom _).mirrors.bind fun former => ?_)
  have hkeep : Agree (Mirrors site t) (Mirrors site t) (keepFormer m.kind former) := by
    cases former with
    | none => exact agree_pure ()
    | some e => exact (agree_writeJson _ _).suppress
  refine hkeep.bind fun _ => agree_drawId.bind fun id => ?_
  refine agree_get (fun _ _ h => by rw [h.root]) fun s => ?_
  exact (agree_writeJson _ _).bind fun _ => agree_pure _

/-- Restoring an artifact. -/
theorem agree_restore (k : Kind) : Agree (Beside site t) (Mirrors site t) (restore k) := by
  refine (agree_loadFrom _).bind fun earlier => ?_
  cases earlier with
  | none => exact agree_pure false
  | some e =>
    exact (agree_writeJson _ _).bind fun _ => (agree_remove _).discard.suppress.bind fun _ =>
      agree_pure true

/-- Deleting an artifact. -/
theorem agree_delete (k : Kind) : Agree (Beside site t) (Mirrors site t) (delete k) :=
  agree_ensureReady_bind ((agree_remove _).bind fun _ => (agree_remove _).discard.bind fun _ =>
    agree_pure _)

end Artifacts

/-- Loading the requirements. -/
theorem Planning.agree_loadRequirements :
    Agree (Beside site t) (Mirrors site t) Planning.loadRequirements :=
  agree_ensureReady_bind ((agree_readJson _).bind fun _ => agree_pure _)

namespace ResearchHistory

/-- Loading the research sessions. -/
theorem agree_load : Agree (Beside site t) (Mirrors site t) load := by
  refine agree_ensureReady_bind ((agree_readJson _).bind fun found => ?_)
  dsimp only
  cases sessionsOf (((found.bind (·.get? "sessions")).bind Json.arr?).getD []) with
  | ok sessions => exact agree_pure sessions
  | error e =>
    cases e
    exact agree_throw .compoundName

/-- Adding a research session. -/
theorem agree_save (query : String) (findings : List Research.Finding) (summary : String)
    (questions : List String) :
    Agree (Beside site t) (Mirrors site t) (save query findings summary questions) := by
  refine agree_ensureReady_bind (agree_drawId.bind fun id => ?_)
  refine agree_get (fun _ _ h => by rw [h.supply.now]) fun s => ?_
  refine agree_load.mirrors.bind fun old => ?_
  dsimp only
  split
  · exact agree_throw .beyondCalendar
  · exact agree_nowText.bind fun _ => (agree_writeJson _ _).bind fun _ => agree_pure _

end ResearchHistory

/-- Every operation gives the same on both sides. -/
theorem StoreOp.agree {α : Type} (op : StoreOp α) :
    Agree (Beside site t) (Beside site t) op.perform := by
  have hload (k : Kind) : Agree (Beside site t) (Mirrors site t)
      (Artifacts.loadFrom (.artifact k)) := Artifacts.agree_loadFrom _
  have hprevious (k : Kind) : Agree (Beside site t) (Mirrors site t)
      (Artifacts.loadFrom (.previous k)) := Artifacts.agree_loadFrom _
  have hread (doc : Document) : Agree (Mirrors site t) (Mirrors site t) (readJson doc) :=
    agree_readJson doc
  cases op with
  | init => exact agree_ensureReady.beside
  | store name m => exact Artifacts.agree_onKind name fun k => Artifacts.agree_store _
  | load name => exact Artifacts.agree_onKind name hload
  | loadPrevious name => exact Artifacts.agree_onKind name hprevious
  | has name => exact Artifacts.agree_onKind name fun k => (hload k).bind fun _ => agree_pure _
  | hasPrevious name =>
    exact Artifacts.agree_onKind name fun k => (hprevious k).bind fun _ => agree_pure _
  | madeAt name => exact Artifacts.agree_onKind name fun k => (hload k).bind fun _ => agree_pure _
  | restore name => exact Artifacts.agree_onKind name Artifacts.agree_restore
  | delete name => exact Artifacts.agree_onKind name Artifacts.agree_delete
  | list => exact (Agree.mapM (fun k => (hload k).beside) _).bind fun _ => agree_pure _
  | saveRequirements text =>
    refine (agree_ensureReady_bind (agree_nowText.bind fun now => ?_)).beside
    exact (agree_backUp _ _).bind fun _ => (agree_writeJson _ _).bind fun _ => agree_pure _
  | requirements => exact Planning.agree_loadRequirements.beside
  | hasRequirements =>
    exact Planning.agree_loadRequirements.beside.bind fun _ => agree_pure _
  | requirementsSavedAt =>
    exact Planning.agree_loadRequirements.beside.bind fun _ => agree_pure _
  | saveTasks ts =>
    refine (agree_ensureReady_bind (agree_nowText.bind fun now => ?_)).beside
    exact (agree_backUp _ _).bind fun _ => agree_writeJson _ _
  | tasks => exact (agree_ensureReady_bind ((hread _).bind fun _ => agree_pure _)).beside
  | tasksSavedAt => exact (agree_ensureReady_bind ((hread _).bind fun _ => agree_pure _)).beside
  | saveResearch query findings summary questions =>
    exact (ResearchHistory.agree_save query findings summary questions).beside
  | research => exact ResearchHistory.agree_load.beside
  | latestResearch => exact ResearchHistory.agree_load.beside.bind fun _ => agree_pure _
  | researchCount => exact ResearchHistory.agree_load.beside.bind fun _ => agree_pure _
  | clearResearch => exact (agree_ensureReady_bind (agree_remove _).discard).beside
  | saveSnapshot last => exact (agree_ensureReady_bind (agree_writeJson _ _)).beside
  | snapshot => exact (agree_ensureReady_bind ((hread _).bind fun _ => agree_pure _)).beside
  | clearSnapshot => exact (agree_ensureReady_bind (agree_remove _).discard).beside

/-- States that operations start in have the same documents. -/
theorem Beside.sameDocuments (h : Beside site t m d) : SameDocuments site t m d := ⟨h.texts, h.tree⟩

/-- A run that starts in such states goes alike on both sides. -/
theorem Beside.goAlike (h : Beside site t m d) (steps : List Step) : GoAlike site t steps m d := by
  induction steps generalizing m d with
  | nil => exact h.sameDocuments
  | cons step steps ih =>
    obtain ⟨hsame, hnext⟩ := step.op.agree _ _ (h.setClock step.now)
    exact ⟨h.sameDocuments, hsame, ih hnext⟩

/-- A store in memory beside one that starts with an empty control directory. -/
theorem State.MemoryOnly.beside (hm : m.MemoryOnly) (hd : d.Fresh site)
    (hfiles : d.store.memory = none) (hroot : d.store.root.text = m.store.root.text)
    (hsupply : m.host.SameSupply d.host) : Beside site m.host.tree m d where
  clear := hd.clear
  inFiles := hfiles
  root := hroot
  supply := hsupply
  tree := .refl _
  texts := by
    intro x
    -- Neither side has any document to begin with.
    rw [State.keptAt?, hm.kept, State.fileAt?, Site.place, hd.entry? (List.prefix_refl _)]
    split_ifs <;> rfl
  documents := by
    intro x text htext
    rw [State.keptAt?, hm.kept] at htext
    cases htext
  opens := by
    intro now
    obtain ⟨m', hrun, hmemory⟩ := hm.opens now
    refine ⟨m', hrun, by rw [hmemory]; rfl, fun x => ?_⟩
    rw [State.keptAt?, State.keptAt?, hm.kept, hmemory]
    rfl

/-- A store in memory and one that starts with an empty control directory, where no primitive fails,
go alike through any steps, if they are of workspaces with the same name and draw the same names:
every operation gives the same value or error, the texts in memory are those of the files, and the
former store leaves all files as they are. -/
theorem modes_are_alike (hm : m.MemoryOnly) (hd : d.Fresh site) (hfiles : d.store.memory = none)
    (hroot : d.store.root.text = m.store.root.text) (hsupply : m.host.SameSupply d.host)
    (steps : List Step) : GoAlike site m.host.tree steps m d :=
  (hm.beside hd hfiles hroot hsupply).goAlike steps

/-- A workspace that cannot be written to, before it is made ready. -/
def State.readOnly : State where
  host :=
    { tree := ⟨[(["ws"], .dir)]⟩
      faults := fun _ c => if c.primitive = .access then some Errno.accessDenied else none
      calls := 0
      now := ⟨⟨2024, 1, 1⟩, .midnight, 0⟩
      ids := 0 }
  store := { root := ⟨["ws"], "ws"⟩ }

/-- Storing an artifact twice and restoring it in such a workspace and in one that can be written
to; an operation on no kind of artifact is an error in both. -/
theorem modes_are_alike_when_restored :
    State.readOnly.MemoryOnly ∧
    (State.withEntries [] Faults.none).Fresh ⟨["ws", ".contextscan"], ["ws", ".contextscan"], []⟩ ∧
    State.readOnly.host.SameSupply (State.withEntries [] Faults.none).host ∧
    GoAlike ⟨["ws", ".contextscan"], ["ws", ".contextscan"], []⟩ State.readOnly.host.tree
      [⟨⟨⟨2024, 1, 1⟩, .midnight, 0⟩,
          .store "summary" ⟨.core .summary, "{}", "2024-01-01T00:00:00Z", 1, 0, false⟩⟩,
        ⟨⟨⟨2024, 1, 2⟩, .midnight, 0⟩,
          .store "summary" ⟨.core .summary, "[]", "2024-01-02T00:00:00Z", 2, 1, true⟩⟩,
        ⟨⟨⟨2024, 1, 3⟩, .midnight, 0⟩, .restore "summary"⟩,
        ⟨⟨⟨2024, 1, 3⟩, .midnight, 0⟩, .delete "nothing"⟩]
      State.readOnly (State.withEntries [] Faults.none) := by
  have hm : State.readOnly.MemoryOnly := State.memoryOnly_of_refused rfl rfl (by decide) rfl
  have hsupply : State.readOnly.host.SameSupply (State.withEntries [] Faults.none).host :=
    ⟨rfl, rfl, rfl⟩
  exact ⟨hm, State.fresh_withEntries, hsupply,
    modes_are_alike hm State.fresh_withEntries rfl rfl hsupply _⟩

end CodeSurvey.Storage
