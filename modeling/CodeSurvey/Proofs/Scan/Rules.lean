import CodeSurvey.Proofs.Ignore.Reading
import CodeSurvey.Proofs.Scan.Isolation
import CodeSurvey.Proofs.Storage.Supply
import CodeSurvey.Survey.Surveyor

/-!
# Scans of a workspace whose rules cannot be read

The rules of a workspace are read before the first stage of a scan, outside what isolates the stages
from each other. So a line of the ignore file that is refused ends the scan before anything is made,
and no surveyor of the workspace can be made either; any other line is read or passed over
(`refused_line_ends_scan`).

Nothing that a scan does after that is an error about a pattern: such errors do not come from
operations on a store (`PatternFree`).
-/

namespace CodeSurvey.Scan

open CodeSurvey.Artifact CodeSurvey.Storage CodeSurvey.Survey CodeSurvey.Ignore

/-! ## Errors about patterns -/

/-- Whether an error is about a pattern. -/
def IsPatternError (e : StoreError) : Prop := ∃ cause, e = .pattern cause

/-- An operation that never fails by an error about a pattern. -/
def PatternFree {α : Type} (a : StoreAction α) : Prop :=
  ∀ s e, (a.run s).1 = .error e → ¬ IsPatternError e

section Combinators

variable {α β : Type}

/-- Giving a value does not fail. -/
theorem patternFree_pure (x : α) : PatternFree (pure x : StoreAction α) := by
  intro s e h
  cases h

/-- Failing by another error is not failing by one about a pattern. -/
theorem patternFree_throw {e : StoreError} (he : ¬ IsPatternError e) :
    PatternFree (throw e : StoreAction α) := by
  intro s e' h
  obtain rfl := Except.error.inj h
  exact he

/-- Two operations one after the other. -/
theorem PatternFree.bind {a : StoreAction α} {f : α → StoreAction β} (ha : PatternFree a)
    (hf : ∀ x, PatternFree (f x)) : PatternFree (a >>= f) := by
  intro s e h
  rw [run_bind] at h
  rcases hrun : a.run s with ⟨e' | x, s'⟩
  · rw [hrun] at h
    obtain rfl := Except.error.inj h
    exact ha s e' (by rw [hrun])
  · rw [hrun] at h
    exact hf x s' e h

/-- An operation with another one for the case that it fails. -/
theorem PatternFree.tryCatch {a : StoreAction α} {f : StoreError → StoreAction α}
    (ha : PatternFree a) (hf : ∀ e, ¬ IsPatternError e → PatternFree (f e)) :
    PatternFree (tryCatch a f) := by
  intro s e h
  rw [run_tryCatch] at h
  rcases hrun : a.run s with ⟨e' | x, s'⟩
  · rw [hrun] at h
    exact hf e' (ha s e' (by rw [hrun])) s' e h
  · rw [hrun] at h
    cases h

/-- Looking at the state does not fail. -/
theorem patternFree_get : PatternFree (get : StoreAction State) := by
  intro s e h
  cases h

/-- File operations as a part of an operation on a store do not fail as such. -/
theorem patternFree_files (a : FileAction α) : PatternFree (StoreAction.files a) := by
  intro s e h
  cases h

/-- Nor does changing what the store remembers. -/
theorem patternFree_changeStore (f : Store → Store) : PatternFree (StoreAction.changeStore f) := by
  intro s e h
  cases h

end Combinators

/-! ## Operations on a store -/

section Operations

open StoreAction

/-- Making the workspace ready. -/
theorem patternFree_ensureReady : PatternFree ensureReady := by
  unfold ensureReady
  refine .bind patternFree_get fun s => ?_
  split_ifs
  · exact patternFree_pure ()
  · exact patternFree_throw (by rintro ⟨_, ⟨⟩⟩)
  have hkeep := patternFree_changeStore fun s : Store => { s with memory := some [] }
  have hdone := patternFree_changeStore fun s : Store => { s with isReady := true }
  refine .bind (patternFree_files _) fun asked => ?_
  dsimp only
  split
  · refine .bind (patternFree_files _) fun made => ?_
    split
    · exact hdone
    · split_ifs
      · exact hkeep.bind fun _ => hdone
      · exact (patternFree_throw (by rintro ⟨_, ⟨⟩⟩)).bind fun _ => hdone
  · exact hkeep.bind fun _ => hdone

/-- An error about a file. -/
theorem patternFree_throw_fileError {α : Type} (d : Document) (e : Files.Errno) :
    PatternFree (do throw (← fileError d e) : StoreAction α) := by
  intro s e' h
  obtain rfl := Except.error.inj h
  rintro ⟨_, ⟨⟩⟩

/-- Reading the text of a document. -/
theorem patternFree_readText (d : Document) : PatternFree (readText d) := by
  unfold readText
  refine .bind patternFree_get fun s => ?_
  split
  · exact patternFree_pure _
  · refine .bind (patternFree_files _) fun read => ?_
    split
    · exact patternFree_pure _
    · split_ifs
      · exact patternFree_pure _
      · exact patternFree_throw_fileError d _

/-- Reading the value of a document. -/
theorem patternFree_readJson (d : Document) : PatternFree (readJson d) := by
  unfold readJson
  refine .bind (patternFree_readText d) fun text => ?_
  split
  · exact patternFree_pure _
  · split
    · exact patternFree_pure _
    · exact patternFree_pure _
    · exact patternFree_throw (by rintro ⟨_, ⟨⟩⟩)

/-- Writing the value of a document. -/
theorem patternFree_writeJson (d : Document) (j : Json) : PatternFree (writeJson d j) := by
  unfold writeJson
  split_ifs
  · unfold writeText
    refine .bind patternFree_ensureReady fun _ => .bind patternFree_get fun s => ?_
    split
    · exact patternFree_changeStore _
    · refine .bind (patternFree_files _) fun written => ?_
      split
      · exact patternFree_pure ()
      · exact patternFree_throw_fileError d _
  · exact patternFree_throw (by rintro ⟨_, ⟨⟩⟩)

/-- Storing an artifact. -/
theorem patternFree_store (m : Made) : PatternFree (Artifacts.store m) := by
  have hload : PatternFree (Artifacts.load m.kind) :=
    .bind patternFree_ensureReady fun _ =>
      .bind (patternFree_readJson _) fun _ => patternFree_pure _
  refine .bind patternFree_ensureReady fun _ => .bind hload fun former => .bind ?_ fun _ => ?_
  · -- That the former artifact is not kept is passed over.
    cases former with
    | none => exact patternFree_pure ()
    | some e =>
      refine .tryCatch (patternFree_writeJson _ _) fun e he => ?_
      cases e with
      | storage e => exact patternFree_pure ()
      | _ => exact patternFree_throw he
  · have hid : PatternFree drawId := by
      intro s e h
      cases h
    exact .bind hid fun _ => .bind patternFree_get fun _ =>
      .bind (patternFree_writeJson _ _) fun _ => patternFree_pure _

end Operations

/-! ## Stages and documentation -/

variable {p : Plan} {m : Matcher} {s s₁ : State}

/-- Storing an artifact, or noting why not. -/
theorem patternFree_storeNoted (made : Made) (r : Report) : PatternFree (storeNoted made r) := by
  refine .tryCatch ?_ fun e he => ?_
  · exact .bind (.bind (patternFree_store made) fun _ => patternFree_pure _)
      fun _ => patternFree_pure r
  · cases e.told? with
    | some text => exact patternFree_pure _
    | none => exact patternFree_throw he

/-- Running an engine. -/
theorem patternFree_runEngine (k : CoreKind) (x : Syntax.Session) :
    PatternFree (runEngine p m k x) := by
  unfold runEngine
  split
  · exact patternFree_throw (by rintro ⟨_, ⟨⟩⟩)
  refine .bind patternFree_get fun s => ?_
  split
  · exact patternFree_pure _
  · exact patternFree_pure _
  · exact patternFree_pure _
  · split
    · exact patternFree_pure _
    · exact patternFree_throw (by rintro ⟨_, ⟨⟩⟩)

/-- All stages. -/
theorem patternFree_stages (total index : Nat) (ks : List CoreKind) (x : Syntax.Session)
    (r : Report) : PatternFree (stages p m total index ks x r) := by
  induction ks generalizing index x r with
  | nil => exact patternFree_pure r
  | cons k ks ih =>
    unfold stages
    split_ifs
    · exact patternFree_pure _
    · refine .bind ?_ fun _ => ih _ _ _
      exact .bind (patternFree_runEngine k x) fun made =>
        .bind (patternFree_storeNoted _ _) fun _ => patternFree_pure _

/-- Describing several artifacts. -/
theorem patternFree_describeAll (service : DocsService) (project : String) (ks : List DocsKind)
    (r : Report) : PatternFree (describeAll p service project ks r) := by
  induction ks generalizing r with
  | nil => exact patternFree_pure r
  | cons k ks ih =>
    refine .bind ?_ ih
    unfold describe
    split
    · exact patternFree_pure r
    · exact .bind (.bind patternFree_get fun _ => patternFree_pure _) fun _ =>
        .bind (patternFree_storeNoted _ _) fun _ => patternFree_pure _

/-- The documentation pass. -/
theorem patternFree_documentation (service : DocsService) (r : Report) :
    PatternFree (documentation p service r) := by
  unfold documentation
  split
  · refine .bind patternFree_get fun s => ?_
    split
    · exact patternFree_describeAll service _ _ r
    · exact patternFree_throw (by rintro ⟨_, ⟨⟩⟩)
  · exact patternFree_pure _

/-- What a scan does once it has the rules of the workspace. -/
def afterRules (p : Plan) (m : Matcher) : StoreAction Report := do
  let r ← stages p m p.selected.length 0 p.selected Syntax.Session.empty {}
  match p.options.generateDocs && !r.cancelled, p.docs with
  | true, some service => documentation p service r
  | _, _ => return r

/-- It never fails by an error about a pattern. -/
theorem patternFree_afterRules (p : Plan) (m : Matcher) : PatternFree (afterRules p m) := by
  refine .bind (patternFree_stages _ _ _ _ _) fun r => ?_
  split
  · exact patternFree_documentation _ r
  · exact patternFree_pure r

/-! ## The rules of the workspace -/

/-- The text that the rules of a workspace are read from. -/
def ignoreText (w : Files.Workspace) (o : Settings.Options) : String :=
  if !o.respectIgnoreFile then ""
  else match w.bytes? [Settings.ignoreFileName] with
    | some bytes => Files.universalLines (Files.lenientText bytes)
    | none => ""

/-- The lines of that text. -/
def ignoreLines (w : Files.Workspace) (o : Settings.Options) : List (List Char) :=
  Text.lineLists (ignoreText w o).toList

/-- The matcher of a workspace is that of the rules. -/
theorem matcherOf_eq (w : Files.Workspace) (o : Settings.Options) :
    Settings.matcherOf w o = (rulesOf (ignoreText w o)).map fun rules => ⟨rules, o.denied⟩ := by
  unfold Settings.matcherOf
  show (rulesOf (ignoreText w o) >>= fun rules =>
    (pure ⟨rules, o.denied⟩ : Except Glob.PatternError Matcher)) = _
  cases rulesOf (ignoreText w o) <;> rfl

/-- A workspace has a refused line if one is in its ignore file, and that counts. -/
def HasRefusedLine (w : Files.Workspace) (o : Settings.Options) : Prop :=
  ∃ line ∈ ignoreLines w o, Refused line

/-- A refused line leaves a workspace without a matcher. -/
theorem matcherOf_of_refused {w : Files.Workspace} {o : Settings.Options}
    (h : HasRefusedLine w o) : Settings.matcherOf w o = .error .badRange := by
  rw [matcherOf_eq, rulesOf_eq_error h]
  rfl

/-- Otherwise the matcher has the rules of all lines. -/
theorem matcherOf_of_not_refused {w : Files.Workspace} {o : Settings.Options}
    (h : ¬ HasRefusedLine w o) :
    Settings.matcherOf w o = .ok ⟨(ignoreLines w o).flatMap rulesOfLine, o.denied⟩ := by
  rw [matcherOf_eq, rulesOf_eq_flatMap fun line hline hrefused => h ⟨line, hline, hrefused⟩]
  rfl

/-- A workspace without a matcher has a refused line. -/
theorem hasRefusedLine_of_isNone {w : Files.Workspace} {o : Settings.Options}
    (h : (Settings.matcherOf w o).toOption.isNone) : HasRefusedLine w o := by
  by_contra hread
  rw [matcherOf_of_not_refused hread] at h
  cases h

/-- After the workspace was made ready, a scan of known kinds reads the rules and goes on with them,
or ends with what is wrong with them. -/
theorem run_eq_of_ready (hkinds : p.NamesKinds)
    (hready : StoreAction.ensureReady.run s = (.ok (), s₁)) :
    (run p).run s = match Settings.matcherOf (workspaceOf s₁) p.options with
      | .ok m => (afterRules p m).run s₁
      | .error e => (.error (.pattern e), s₁) := by
  unfold run matcher
  rw [select_eq hkinds]
  dsimp only
  rw [run_bind, hready]
  dsimp only
  -- The rules are read before the first stage, where nothing catches an error.
  rw [run_bind, run_bind, run_get]
  dsimp only
  cases Settings.matcherOf (workspaceOf s₁) p.options with
  | ok m => rfl
  | error e => rfl

/-- The rules of a workspace are those of the lines of its ignore file, and a line that cannot be
compiled is passed over, unless one of its ranges has its ends in the wrong order. Such a line is
refused: the text with it has no rules at all, no surveyor of the workspace is made, and a scan ends
as soon as the workspace is ready. Without such a line no error of a scan is about a pattern. -/
theorem refused_line_ends_scan (hkinds : p.NamesKinds)
    (hready : StoreAction.ensureReady.run s = (.ok (), s₁)) :
    (∀ text, ReadsByLine text) ∧
    (∀ line, Refused line → Glob.HasBackwardRange line) ∧
    (∀ w o k x,
      (HasRefusedLine w o → Surveyor.make k w o x = .error .badRange) ∧
      (¬ HasRefusedLine w o → Surveyor.make k w o x =
        .ok ⟨k, o, ⟨(ignoreLines w o).flatMap rulesOfLine, o.denied⟩, x.getD .empty, {}⟩)) ∧
    (HasRefusedLine (workspaceOf s₁) p.options →
      (run p).run s = (.error (.pattern .badRange), s₁)) ∧
    (¬ HasRefusedLine (workspaceOf s₁) p.options →
      ∀ e, ((run p).run s).1 = .error e → ¬ IsPatternError e) := by
  refine ⟨readsByLine, fun line => Refused.hasBackwardRange, fun w o k x => ⟨?_, ?_⟩, ?_, ?_⟩
  · intro hrefused
    unfold Surveyor.make
    rw [matcherOf_of_refused hrefused]
    rfl
  · intro hread
    unfold Surveyor.make
    rw [matcherOf_of_not_refused hread]
    rfl
  · intro hrefused
    rw [run_eq_of_ready hkinds hready, matcherOf_of_refused hrefused]
  · -- With rules no later step reads a pattern.
    intro hread e he
    rw [run_eq_of_ready hkinds hready, matcherOf_of_not_refused hread] at he
    exact patternFree_afterRules p _ s₁ e he

/-- A scan of the directories. -/
def plainPlan : Plan where
  options := { engineTimeout := .whole 60 }
  kinds := some ["directory"]

/-- The plan names a kind of surveys. -/
theorem namesKinds_plainPlan : plainPlan.NamesKinds := by
  rintro names ⟨⟩
  decide

/-- A workspace that is ready, with an ignore file. -/
def withIgnoreFile (text : String) : State :=
  let s := State.withEntries [] Faults.none
  { s with host :=
    { s.host with tree :=
      ⟨s.host.tree.entries ++ [(["ws", Settings.ignoreFileName], .file text.toUTF8)]⟩ } }

/-- A workspace whose ignore file has a line with a range from z to a after another line. -/
def withBackwardRange : State := withIgnoreFile "*.log\n[z-a]"

/-- That line is refused. -/
theorem hasRefusedLine_withBackwardRange :
    HasRefusedLine (workspaceOf withBackwardRange) plainPlan.options :=
  hasRefusedLine_of_isNone (by decide +kernel)

/-- It ends a scan of the workspace. -/
theorem backward_range_ends_plain_scan :
    plainPlan.NamesKinds ∧
      StoreAction.ensureReady.run withBackwardRange = (.ok (), withBackwardRange) ∧
      (run plainPlan).run withBackwardRange = (.error (.pattern .badRange), withBackwardRange) := by
  have hready : StoreAction.ensureReady.run withBackwardRange = (.ok (), withBackwardRange) :=
    StoreAction.run_ensureReady rfl
  obtain ⟨-, -, -, hends, -⟩ := refused_line_ends_scan namesKinds_plainPlan hready
  exact ⟨namesKinds_plainPlan, hready, hends hasRefusedLine_withBackwardRange⟩

/-- Where a range has its ends in the wrong order, the text is not read, another line in place of a
blank one is not the same, no surveyor is made, and the scan does not come to its end. -/
theorem rules_are_not_always_read :
    (¬ ∀ text, ∃ rules, rulesOf text = .ok rules) ∧
    rulesOf "*.log\n[z-a]" ≠ rulesOf "*.log\n " ∧
    (¬ ∀ w o k x, ∃ v, Surveyor.make k w o x = .ok v) ∧
    (¬ ∀ text, ∃ r, ((run plainPlan).run (withIgnoreFile text)).1 = .ok r) := by
  -- The same refused pattern stands behind all four parts: a range from `z` to `a`.
  have hrefused := matcherOf_of_refused hasRefusedLine_withBackwardRange
  refine ⟨fun h => ?_, by decide, fun h => ?_, fun h => ?_⟩
  · obtain ⟨rules, hrules⟩ := h "*.log\n[z-a]"
    have herror : rulesOf "*.log\n[z-a]" = .error .badRange := by decide
    cases herror.symm.trans hrules
  · obtain ⟨v, hv⟩ := h (workspaceOf withBackwardRange) plainPlan.options .directory none
    unfold Surveyor.make at hv
    rw [hrefused] at hv
    cases hv
  · obtain ⟨r, hr⟩ := h "*.log\n[z-a]"
    have hready : StoreAction.ensureReady.run withBackwardRange = (.ok (), withBackwardRange) :=
      StoreAction.run_ensureReady rfl
    have hrun := run_eq_of_ready namesKinds_plainPlan hready
    rw [hrefused] at hrun
    exact absurd (hr.symm.trans (congrArg Prod.fst hrun)) nofun

end CodeSurvey.Scan
