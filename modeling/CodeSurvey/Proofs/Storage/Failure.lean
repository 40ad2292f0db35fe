import CodeSurvey.Proofs.Storage.Operations

/-!
# What a failed operation leaves

An operation that fails changes at most one document (`failed_operations_keep_documents`), as long
as temporary files can be removed and nothing in the control directory is a link. Storing an
artifact and saving a planning document may have replaced the earlier generation by the text that is
current still; restoring changes nothing; deleting an artifact may have removed it and kept the one
before.

There is no rollback of the first of two steps, so no more can be said
(`failed_operation_changes_a_document`).
-/

namespace CodeSurvey.Storage

open CodeSurvey.Artifact CodeSurvey.Files
open State (Moves)
open FileAction (temporary)

namespace State

/-- Whether a document is as it was, in its file and in memory. -/
def Same (s s' : State) (d : Document) : Prop := s'.disk? d = s.disk? d ∧ s'.kept? d = s.kept? d

/-- Whether the removal of temporary files is never made to fail. -/
def CleansUp (s : State) : Prop :=
  ∀ n d, s.host.faults n ⟨.unlink, temporary (s.store.place d).path⟩ = none

/-- Whether there is no temporary file that was not there before. -/
def Tidy (s s' : State) : Prop := ∀ d, s.temporary? d = none → s'.temporary? d = none

end State

/-- If an operation from a state fails, then `Q` holds of the state that it leaves. -/
def IfFails {α : Type} (a : StoreAction α) (s : State) (Q : State → Prop) : Prop :=
  Ends a s fun r s' => ∀ e, r = .error e → Q s'

/-- If an operation from a state fails, it leaves all documents as they were. -/
def AllOrNothing {α : Type} (a : StoreAction α) (s : State) : Prop :=
  IfFails a s fun s' => s.Tidy s' ∧ ∀ d, s.Same s' d

/-- Only an earlier generation is changed, if anything, and then it has a text of which `P`
holds. -/
def KeepsBut (earlier : Document) (P : String → Prop) (s s' : State) : Prop :=
  s.Tidy s' ∧ (∀ d, d ≠ earlier → s.Same s' d) ∧
    (s.Same s' earlier ∨ ∃ text, P text ∧ s'.Holds earlier (some text))

variable {site : Site} {s s' : State}

/-- Without faults in removing temporary files no new one is left. -/
theorem State.CleansUp.tidy {changed : List Document} (h : s.CleansUp)
    (hmoves : Moves site changed s s') : s.Tidy s' := by
  intro d hnone
  by_contra hleft
  obtain ⟨n, -, -, hfault⟩ := hmoves.left d hnone hleft
  rw [h n d] at hfault
  cases hfault

/-- The record of a document that is not changed is the same in the same mode. -/
theorem State.Moves.record?_eq {changed : List Document} (h : Moves site changed s s')
    (hready : s.store.isReady) {d : Document} (hd : d ∉ changed) : s'.record? d = s.record? d := by
  rw [record?, record?, value?, value?, h.text?_eq (h.mode hready).2 hd]

/-- A document that is not changed is the same. -/
theorem State.Moves.same {changed : List Document} (h : Moves site changed s s') {d : Document}
    (hd : d ∉ changed) : s.Same s' d :=
  ⟨h.disk d hd, h.kept d hd⟩

/-- What is changed when saving fails after the earlier generation may have been replaced. -/
theorem ifFails_of_savesOver {α : Type} {a : StoreAction α} {target earlier : Document}
    {P : String → Prop} {saved : α → Json} (hclean : s.CleansUp)
    (h : Ends a s (SavesOver site target earlier P saved s)) :
    IfFails a s (KeepsBut earlier P s) := by
  refine h.mono ?_
  rintro (e | x) s' h e' he
  · -- Whether the earlier generation was replaced before the failure is not known.
    have hmoves := BacksUp.moves h
    refine ⟨hclean.tidy hmoves, fun d hd => ?_, ?_⟩
    · exact hmoves.same (by simpa using hd)
    · rcases h with hsame | ⟨text, hP, -, hholds⟩
      · exact .inl (hsame.same (List.not_mem_nil))
      · exact .inr ⟨text, hP, hholds⟩
  · cases he

/-- What a failed operation leaves: storing and saving may have replaced the earlier generation by
what is current still, restoring changes nothing, and deleting may have removed the artifact
alone. -/
theorem failed_operations_keep_documents (hs : s.Plain) (hclean : s.CleansUp) :
    (∀ m : Made, IfFails (Artifacts.store m) s fun s' =>
      KeepsBut (.previous m.kind) (Artifacts.IsRecordText s (.artifact m.kind)) s s' ∧
        (s.store.isReady → s'.record? (.previous m.kind) = s.record? (.previous m.kind) ∨
          s'.record? (.previous m.kind) = s.record? (.artifact m.kind))) ∧
    (∀ k : Kind, AllOrNothing (Artifacts.restore k) s) ∧
    (∀ k : Kind, IfFails (Artifacts.delete k) s fun s' => s.Tidy s' ∧
      (∀ d, d ≠ .artifact k → s.Same s' d) ∧
      (s.Same s' (.artifact k) ∨ s'.Holds (.artifact k) none)) ∧
    (∀ text : String, IfFails (Planning.saveRequirements text) s
      (KeepsBut .earlierRequirements (s.text? .requirements = some ·) s)) ∧
    (∀ ts : List CodeSurvey.Planning.Task, IfFails (Planning.saveTasks ts) s
      (KeepsBut .earlierTasks (s.text? .tasks = some ·) s)) := by
  obtain ⟨⟨site, hsited⟩, hmem⟩ := hs
  refine ⟨fun m => ?_, fun k => ?_, fun k => ?_, fun text => ?_, fun ts => ?_⟩
  · -- Storing.
    have hstore := Artifacts.store_spec hsited hmem m
    have hkeeps := ifFails_of_savesOver hclean hstore
    unfold IfFails Ends at hkeeps ⊢
    unfold Ends at hstore
    intro e he
    refine ⟨hkeeps e he, fun hready => ?_⟩
    rw [he] at hstore
    rcases hstore with hmoves | ⟨text, ⟨former, hformer, hshort, rfl⟩, -, hholds⟩
    · exact .inl (hmoves.record?_eq hready (List.not_mem_nil))
    · -- The record that was kept is read back.
      obtain ⟨j, -, hj⟩ := Option.bind_eq_some_iff.1 hformer
      rw [hformer]
      exact .inr (State.record?_of_holds hholds (Stored.valid_of_ofJson? hj) hshort)
  · -- Restoring: it only fails before anything is changed.
    unfold AllOrNothing IfFails
    refine (Artifacts.restore_spec hsited hmem k).mono ?_
    rintro (e | _) s' h e' he
    · exact ⟨hclean.tidy h, fun d => Moves.same h (List.not_mem_nil)⟩
    · cases he
  · -- Deleting: it fails before the first file is removed or before the second one is.
    refine (Artifacts.delete_spec hsited hmem k).mono ?_
    rintro (e | _) s' h e' he
    · rcases h with h | ⟨h, hgone⟩
      · exact ⟨hclean.tidy h, fun d _ => h.same List.not_mem_nil, .inl (h.same List.not_mem_nil)⟩
      · exact ⟨hclean.tidy h, fun d hd => h.same (by simpa using hd), .inr hgone⟩
    · cases he
  · exact ifFails_of_savesOver hclean (Planning.saveRequirements_spec hsited hmem text)
  · exact ifFails_of_savesOver hclean (Planning.saveTasks_spec hsited hmem ts)

/-! ## Operations that fail between their steps -/

/-- A workspace in which one primitive on the file of one document fails. -/
def State.failingAt (prim : Primitive) (d : Document) (entries : List (Path × Entry)) : State :=
  State.withEntries entries fun _ c =>
    if c = ⟨prim, ["ws", ".contextscan"] ++ d.path⟩ then some Errno.noSpace else none

/-- Temporary files can be removed if what fails is on the file of a document. -/
theorem State.cleansUp_failingAt (prim : Primitive) (d : Document)
    (entries : List (Path × Entry)) : (State.failingAt prim d entries).CleansUp := by
  intro n d'
  refine if_neg fun h => d.path_ne_temporary d' ?_
  have hpath : ((State.failingAt prim d entries).store.place d').path =
      [] ++ (["ws", ".contextscan"] ++ d'.path) := Place.below_path _ _
  rw [hpath, d'.path_eq, ← List.append_assoc ["ws", ".contextscan"], FileAction.temporary_route,
    List.append_assoc ["ws", ".contextscan"], ← d'.temporary_path, Call.mk.injEq] at h
  exact (List.append_right_inj ["ws", ".contextscan"]).1 h.2.symm

/-- An artifact to be stored. -/
def someSummary : Made := ⟨.core .summary, "{}", "2024-01-01T00:00:00.000Z", 1, 0, false⟩

/-- The record of such an artifact. -/
def someRecord : Stored :=
  ⟨"id-1", .core .summary, "ws", "{}", ⟨"2024-01-01T00:00:00.000Z", 1, 0, .after none, none⟩⟩

/-- A workspace with an artifact that cannot be replaced. -/
def State.withLockedArtifact : State :=
  State.failingAt .replace (.artifact (.core .summary))
    [(["artifacts"], .dir), (["artifacts", "summary.json"], .file someRecord.toJson.stored.toUTF8)]

/-- A workspace with an artifact and an earlier one that cannot be removed. -/
def State.withLockedPrevious : State :=
  State.failingAt .unlink (.previous (.core .summary))
    [(["artifacts"], .dir), (["artifacts", "summary.json"], .file ByteArray.empty),
      (["artifacts", "summary.previous.json"], .file ByteArray.empty)]

/-- A workspace with tasks that cannot be replaced. -/
def State.withLockedTasks (entries : List (Path × Entry)) : State :=
  State.failingAt .replace .tasks ((["tasks.json"], .file "[]".toUTF8) :: entries)

/-- What a failed store leaves where the artifact cannot be replaced. -/
theorem failed_store_keeps_documents :
    State.withLockedArtifact.Plain ∧ State.withLockedArtifact.CleansUp ∧
      IfFails (Artifacts.store someSummary) State.withLockedArtifact fun s' =>
        KeepsBut (.previous (.core .summary))
          (Artifacts.IsRecordText State.withLockedArtifact (.artifact (.core .summary)))
          State.withLockedArtifact s' ∧
        (State.withLockedArtifact.store.isReady →
          s'.record? (.previous (.core .summary)) =
              State.withLockedArtifact.record? (.previous (.core .summary)) ∨
            s'.record? (.previous (.core .summary)) =
              State.withLockedArtifact.record? (.artifact (.core .summary))) := by
  have hplain : State.withLockedArtifact.Plain := State.plain_withEntries (by decide) (by simp)
  have hclean : State.withLockedArtifact.CleansUp := State.cleansUp_failingAt _ _ _
  exact ⟨hplain, hclean, (failed_operations_keep_documents hplain hclean).1 someSummary⟩

/-- Loading an artifact whose text is that of a record. -/
theorem run_loadFrom {d : Document} {e : Stored} (hready : s.store.isReady) (hvalid : e.Valid)
    (hshort : e.toJson.hasShortInts)
    (hread : (StoreAction.readText d).run s = (.ok (some e.toJson.stored), s')) :
    (Artifacts.loadFrom d).run s = (.ok (some e), s') := by
  unfold Artifacts.loadFrom StoreAction.readJson
  rw [run_bind, StoreAction.run_ensureReady hready]
  simp only
  rw [run_bind, run_bind, hread]
  simp only [Stored.read_toJson_stored hshort, run_pure]
  rw [Option.bind_some, Stored.ofJson?_toJson hvalid]

/-- The workspace after its artifact was kept as the earlier one. -/
def State.withKeptArtifact : State :=
  { State.withLockedArtifact with
    host :=
      { State.withLockedArtifact.host with
        tree := State.withLockedArtifact.host.tree.put
          ["ws", ".contextscan", "artifacts", "summary.previous.json"]
          (.file someRecord.toJson.stored.toUTF8)
        calls := 6 } }

/-- The numbers of the record are short. -/
theorem hasShortInts_someRecord : someRecord.toJson.hasShortInts := by decide

/-- The artifact is loaded. -/
theorem run_load_withLockedArtifact :
    (Artifacts.load (.core .summary)).run State.withLockedArtifact = (.ok (some someRecord),
      { State.withLockedArtifact with host := State.withLockedArtifact.host.counted }) := by
  have hvalid : someRecord.Valid := ⟨by decide +kernel, by decide, by decide⟩
  have htext : (StoreAction.readText (.artifact (.core .summary))).run State.withLockedArtifact =
      (.ok ((utf8? someRecord.toJson.stored.toUTF8).map universalLines),
        { State.withLockedArtifact with host := State.withLockedArtifact.host.counted }) := by
    rfl
  rw [utf8?_toUTF8, Option.map_some,
    universalLines_eq_self (Json.return_notMem_stored _)] at htext
  exact run_loadFrom rfl hvalid hasShortInts_someRecord htext

/-- It is kept as the earlier one. -/
theorem run_keepFormer_withLockedArtifact :
    (Artifacts.keepFormer (.core .summary) (some someRecord)).run
      { State.withLockedArtifact with host := State.withLockedArtifact.host.counted } =
      (.ok (), State.withKeptArtifact) := by
  rw [Artifacts.keepFormer, StoreAction.suppress, run_tryCatch, StoreAction.writeJson,
    if_pos hasShortInts_someRecord, StoreAction.run_writeText rfl rfl,
    FileAction.run_writeWhole _ rfl rfl]
  rfl

/-- Then it cannot be replaced. -/
theorem run_replace_withKeptArtifact :
    ∃ e, (Artifacts.replace someSummary (some someRecord)).run State.withKeptArtifact =
      (.error e, { State.withKeptArtifact with
        host := { State.withKeptArtifact.host with calls := 12, ids := 1 } }) := by
  have hshort :
      (Artifacts.recordOf someSummary "id-1" "ws" (some someRecord)).toJson.hasShortInts := by
    decide
  unfold Artifacts.replace
  rw [run_bind, show StoreAction.drawId.run State.withKeptArtifact = (.ok "id-1",
    { State.withKeptArtifact with host := { State.withKeptArtifact.host with ids := 1 } }) from rfl]
  simp only
  rw [run_bind, run_get]
  simp only
  rw [run_bind, StoreAction.writeJson, show State.withKeptArtifact.store.root.text = "ws" from rfl,
    if_pos hshort, StoreAction.run_writeText rfl rfl, FileAction.run_writeWhole _ rfl rfl]
  generalize (Artifacts.recordOf someSummary "id-1" "ws" (some someRecord)).toJson.stored = text
  exact ⟨.storage (.ofSystem (.ofErrno Errno.noSpace) "ws/.contextscan/artifacts/summary.json"),
    rfl⟩

/-- Storing an artifact is to replace it after it was loaded and kept. -/
theorem run_store {m : Made} {former : Option Stored} {s'' : State} (hready : s.store.isReady)
    (hload : (Artifacts.load m.kind).run s = (.ok former, s'))
    (hkeep : (Artifacts.keepFormer m.kind former).run s' = (.ok (), s'')) :
    (Artifacts.store m).run s = (Artifacts.replace m former).run s'' := by
  unfold Artifacts.store
  rw [run_bind, StoreAction.run_ensureReady hready]
  simp only
  rw [run_bind, hload]
  simp only
  rw [run_bind, hkeep]

/-- What holds if an operation fails, which did and made a document or removed it. -/
theorem IfFails.of_change {α : Type} {a : StoreAction α} {Q : State → Prop} (h : IfFails a s Q)
    (d : Document) (herror : (a.run s).1.toOption.isNone)
    (hchange : ((a.run s).2.disk? d).isSome ≠ (s.disk? d).isSome) :
    ∃ s', Q s' ∧ ¬ s.Same s' d := by
  rcases hrun : a.run s with ⟨e | x, s'⟩
  · rw [hrun] at hchange
    exact ⟨s', Ends.of_run h hrun e rfl, fun hsame => hchange (congrArg Option.isSome hsame.1)⟩
  · rw [hrun] at herror
    cases herror

/-- A failed operation may change a document: the earlier generation of what could not be replaced,
an artifact whose earlier one could not be removed, or what a temporary file leads to. -/
theorem failed_operation_changes_a_document :
    (State.withLockedArtifact.Plain ∧ State.withLockedArtifact.CleansUp ∧
      ¬ AllOrNothing (Artifacts.store someSummary) State.withLockedArtifact) ∧
    (State.withLockedPrevious.Plain ∧ State.withLockedPrevious.CleansUp ∧
      ¬ AllOrNothing (Artifacts.delete (.core .summary)) State.withLockedPrevious) ∧
    ((State.withLockedTasks []).Plain ∧ (State.withLockedTasks []).CleansUp ∧
      ¬ AllOrNothing (Planning.saveTasks []) (State.withLockedTasks [])) ∧
    ((State.withLockedTasks [(["tasks.json.tmp"], .link "requirements.json")]).CleansUp ∧
      ¬ IfFails (Planning.saveTasks [])
        (State.withLockedTasks [(["tasks.json.tmp"], .link "requirements.json")]) fun s' =>
          (State.withLockedTasks [(["tasks.json.tmp"], .link "requirements.json")]).Same s'
            .requirements) := by
  refine ⟨⟨State.plain_withEntries (by decide) (by simp), State.cleansUp_failingAt _ _ _,
      fun h => ?_⟩,
    ⟨State.plain_withEntries (by decide) (by simp), State.cleansUp_failingAt _ _ _, fun h => ?_⟩,
    ⟨State.plain_withEntries (by decide) (by simp), State.cleansUp_failingAt _ _ _, fun h => ?_⟩,
    State.cleansUp_failingAt _ _ _, fun h => ?_⟩
  · -- The earlier artifact is made of the current one, which then is not replaced.
    obtain ⟨e, hrun⟩ := run_replace_withKeptArtifact
    rw [← run_store (m := someSummary) rfl run_load_withLockedArtifact
      run_keepFormer_withLockedArtifact] at hrun
    have hnone : State.withLockedArtifact.disk? (.previous (.core .summary)) = none := rfl
    obtain ⟨s', hsame, hchange⟩ := h.of_change (.previous (.core .summary)) (by rw [hrun]; rfl)
      (by rw [hrun, hnone]; exact Bool.noConfusion)
    exact hchange (hsame.2 _)
  · -- The artifact is removed, and the one before is not.
    obtain ⟨s', hsame, hchange⟩ := h.of_change (.artifact (.core .summary)) (by decide +kernel)
      (by decide +kernel)
    exact hchange (hsame.2 _)
  · -- The earlier tasks are made of the current ones.
    obtain ⟨s', hsame, hchange⟩ := h.of_change .earlierTasks (by decide +kernel) (by decide +kernel)
    exact hchange (hsame.2 _)
  · -- There were no requirements, and now they are what the temporary file led to.
    obtain ⟨s', hsame, hchange⟩ := h.of_change .requirements (by decide +kernel) (by decide +kernel)
    exact hchange hsame

end CodeSurvey.Storage
