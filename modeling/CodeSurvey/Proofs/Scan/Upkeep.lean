import CodeSurvey.Proofs.Storage.Upkeep
import CodeSurvey.Proofs.Survey.Stability
import CodeSurvey.Scan.Run

/-!
# What a scan keeps up

A scan stays in every relation that the steps of operations on a store stay in (`staysIn_run`),
whatever its engines, its observer and its service do and wherever it breaks off.
-/

namespace CodeSurvey.Scan

open CodeSurvey.Artifact CodeSurvey.Storage CodeSurvey.Survey
open StoreAction (Stays)

section Stays

variable {R : State → State → Prop} (h : Stays R)
include h

/-- Storing an artifact, or noting why not. -/
theorem staysIn_storeNoted (m : Made) (r : Report) : StaysIn R (storeNoted m r) := by
  have hR := h.toChains
  refine .tryCatch hR (.bind hR (.bind hR (h.storeArtifact m) fun _ => staysIn_pure hR _)
    fun _ => staysIn_pure hR r) fun e => ?_
  cases e.told? with
  | some text => exact staysIn_pure hR _
  | none => exact staysIn_throw hR e

/-- Running an engine. -/
theorem staysIn_runEngine (p : Plan) (m : Ignore.Matcher) (k : CoreKind) (x : Syntax.Session) :
    StaysIn R (runEngine p m k x) := by
  have hR := h.toChains
  unfold runEngine
  split
  · exact staysIn_throw hR _
  refine staysIn_get fun s => ?_
  split
  · exact hR.refl s
  · exact hR.refl s
  · exact hR.refl s
  · split <;> exact hR.refl s

/-- One stage. -/
theorem staysIn_stage (p : Plan) (m : Ignore.Matcher) (total index : Nat) (k : CoreKind)
    (x : Syntax.Session) (r : Report) : StaysIn R (stage p m total index k x r) := by
  have hR := h.toChains
  refine .bind hR (staysIn_runEngine h p m k x) fun made => ?_
  exact .bind hR (staysIn_storeNoted h _ _) fun _ => staysIn_pure hR _

/-- All stages. -/
theorem staysIn_stages (p : Plan) (m : Ignore.Matcher) (total index : Nat) (ks : List CoreKind)
    (x : Syntax.Session) (r : Report) : StaysIn R (stages p m total index ks x r) := by
  have hR := h.toChains
  induction ks generalizing index x r with
  | nil => exact staysIn_pure hR r
  | cons k ks ih =>
    unfold stages
    split_ifs
    · exact staysIn_pure hR _
    · exact .bind hR (staysIn_stage h p m total index k x r) fun _ => ih _ _ _

/-- Describing an artifact. -/
theorem staysIn_describe (p : Plan) (service : DocsService) (project : String) (k : DocsKind)
    (r : Report) : StaysIn R (describe p service project k r) := by
  have hR := h.toChains
  unfold describe
  split
  · exact staysIn_pure hR r
  refine .bind hR (staysIn_get fun s => hR.refl s) fun now => ?_
  exact .bind hR (staysIn_storeNoted h _ _) fun _ => staysIn_pure hR _

/-- Describing several artifacts. -/
theorem staysIn_describeAll (p : Plan) (service : DocsService) (project : String)
    (ks : List DocsKind) (r : Report) : StaysIn R (describeAll p service project ks r) := by
  induction ks generalizing r with
  | nil => exact staysIn_pure h.toChains r
  | cons k ks ih => exact .bind h.toChains (staysIn_describe h p service project k r) ih

/-- The documentation pass. -/
theorem staysIn_documentation (p : Plan) (service : DocsService) (r : Report) :
    StaysIn R (documentation p service r) := by
  have hR := h.toChains
  unfold documentation
  split
  · refine staysIn_get fun s => ?_
    split
    · exact staysIn_describeAll h p service _ _ r s
    · exact hR.refl s
  · exact staysIn_pure hR _

/-- Making the matcher of the workspace. -/
theorem staysIn_matcher (o : Settings.Options) : StaysIn R (matcher o) := by
  refine staysIn_get fun s => ?_
  split <;> exact h.refl s

/-- What a scan does once the workspace is ready. -/
theorem staysIn_afterReady (p : Plan) (kinds : List CoreKind) :
    StaysIn R (do
      let m ← matcher p.options
      let r ← stages p m kinds.length 0 kinds Syntax.Session.empty {}
      match p.options.generateDocs && !r.cancelled, p.docs with
      | true, some service => documentation p service r
      | _, _ => return r) := by
  have hR := h.toChains
  refine .bind hR (staysIn_matcher h p.options) fun m =>
    .bind hR (staysIn_stages h p m _ _ _ _ _) fun r => ?_
  split
  · exact staysIn_documentation h p _ r
  · exact staysIn_pure hR r

/-- A scan. -/
theorem staysIn_run (p : Plan) : StaysIn R (run p) := by
  unfold run
  split
  · exact staysIn_throw h.toChains _
  · exact .bind h.toChains h.ensureReady fun _ => staysIn_afterReady h p _

end Stays

/-! ## A scan and the snapshot after it -/

open Files Settings
open State (Furnished Upkeep)
open FileAction (temporary)

variable {site : Site} {s : State} {o : Options}

/-- Where nothing is in the way a scan leaves a furnished state, if it comes to its end. -/
theorem run_clear (hc : s.Clear site) (hnot : s.store.isReady = false) (p : Plan) :
    Ends (run p) s fun r s' => ∀ report, r = .ok report → s.Upkeep site s' ∧ Furnished site s' := by
  have hstays := StoreAction.stays_keepsUp site
  have hup : Ends (run p) s fun _ s' => s.Upkeep site s' :=
    staysIn_run hstays p s hc.toSited hc.ready
  suffices hfurnished : Ends (run p) s fun r s' => ∀ report, r = .ok report → Furnished site s' by
    refine (hup.and hfurnished).mono ?_
    rintro r s' ⟨hup, hfurnished⟩ report hr
    exact ⟨hup, hfurnished report hr⟩
  unfold run
  split
  · exact Ends.of_eq (run_throw _ s) (by simp)
  rename_i kinds _
  have hmem : s.store.memory = none := by
    rw [← Option.not_isSome_iff_eq_none]
    exact fun h => Bool.false_ne_true (hnot.symm.trans (hc.ready h))
  have hready := (StoreAction.ensureReady_spec hc.toSited hc.ready).and
    (StoreAction.ensureReady_makes hc hnot)
  refine hready.bind (by simp) ?_
  rintro ⟨⟩ s₁ ⟨hready₁, hdirs₁⟩
  have hfurnished : Furnished site s₁ :=
    ⟨hready₁.moves.clear hc, hready₁.isReady rfl, (hready₁.clear hc).2.trans hmem, hdirs₁⟩
  -- The stages after that keep it up, whatever comes of them.
  have hrest := staysIn_afterReady hstays p kinds s₁ hfurnished.toSited hfurnished.ready
  exact fun report _ => hrest.furnished hfurnished

/-- Taking a snapshot of the workspace changes nothing. -/
theorem run_snapshot (o : Options) (s : State) :
    (snapshot o).run s = match matcherOf (workspaceOf s) o with
      | .ok m => (.ok (.take s.host.nowText (workspaceOf s) o.limits m), s)
      | .error e => (.error (.pattern e), s) := by
  unfold snapshot matcher
  rw [run_bind, run_bind, run_get]
  simp only
  cases matcherOf (workspaceOf s) o <;> rfl

/-- How taking a snapshot and saving it ends: the file of the snapshot has its text, and besides
only the temporary file beside it may be another one. -/
structure Records (site : Site) (o : Options) (s : State) (snap : Snapshot) (s' : State) :
    Prop where
  taken : ∃ m, matcherOf (workspaceOf s) o = .ok m ∧
    snap = .take s.host.nowText (workspaceOf s) o.limits m
  text : s'.text? .snapshot = some snap.toJson.stored
  short : snap.fileCount < 10 ^ Json.maxIntDigits
  same : Tree.SameBut [site.place Document.snapshot.path,
    site.place (temporary Document.snapshot.path)] s.host.tree s'.host.tree
  upkeep : s.Upkeep site s'
  furnished : Furnished site s'

/-- Whether a snapshot of the workspace can be saved: the rules of its ignore file are patterns, and
its number of files is not too long to be written. -/
def IsRecordable (o : Options) (s : State) : Prop :=
  ∃ m, matcherOf (workspaceOf s) o = .ok m ∧
    (Snapshot.take s.host.nowText (workspaceOf s) o.limits m).fileCount < 10 ^ Json.maxIntDigits

/-- In a furnished state a snapshot is taken and saved if it can be; otherwise there is an error
that users are not told. -/
theorem record_spec (h : Furnished site s) (o : Options) :
    Ends (record o) s fun r s' => match r with
      | .ok snap => Records site o s snap s'
      | .error e => e.told? = none ∧ ¬ IsRecordable o s := by
  have hstays := StoreAction.stays_keepsUp site
  unfold record
  cases hm : matcherOf (workspaceOf s) o with
  | error e =>
    have hrun := run_snapshot o s
    rw [hm] at hrun
    refine (Ends.of_eq (Q := fun r _ => r = .error (.pattern e)) hrun rfl).bind ?_ ?_
    · rintro e' s' he
      obtain rfl := Except.error.inj he
      exact ⟨rfl, fun ⟨m, hm', _⟩ => by cases hm.symm.trans hm'⟩
    · rintro snap s' hr
      cases hr
  | ok m =>
    have hrun := run_snapshot o s
    rw [hm] at hrun
    refine (Ends.of_eq (Q := fun r s' => r = .ok _ ∧ s' = s) hrun ⟨rfl, rfl⟩).bind_ok ?_
    intro s₁ hs₁
    rw [hs₁]
    set snap := Snapshot.take s.host.nowText (workspaceOf s) o.limits m
    have hupkeep : Ends (LastSnapshot.save snap) s fun _ s' => s.Upkeep site s' :=
      StaysIn.bind hstays.toChains hstays.ensureReady (fun _ => hstays.writeJson _ _) s
        h.toSited h.ready
    -- Saving writes one document by way of its temporary file, so no other place is touched.
    have hsame : Ends (LastSnapshot.save snap) s fun _ s' =>
        Tree.SameBut [site.place Document.snapshot.path,
          site.place (temporary Document.snapshot.path)] s.host.tree s'.host.tree := by
      refine StoreAction.ends_ensureReady_bind h.isReady ?_
      exact StoreAction.writeJson_sameBut h .snapshot _
    refine (((LastSnapshot.save_clear h.toClear snap).and hupkeep).and hsame).bind ?_ ?_
    · rintro e s' ⟨⟨⟨-, he, -⟩ | ⟨hlong, he, -⟩, -⟩, -⟩
      · cases he
      · obtain rfl := Except.error.inj he
        refine ⟨rfl, fun ⟨m', hm', hshort⟩ => hlong ?_⟩
        obtain rfl := Except.ok.inj (hm.symm.trans hm')
        exact hshort
    · rintro ⟨⟩ s' ⟨⟨⟨hshort, -, -, htext⟩ | ⟨-, he, -⟩, hup⟩, hsame'⟩
      · exact Ends.of_eq (run_pure snap s')
          ⟨⟨m, hm, rfl⟩, htext, hshort, hsame', hup, hup.furnished h⟩
      · cases he

end CodeSurvey.Scan
