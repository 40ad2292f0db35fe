import CodeSurvey.Proofs.Scan.Stage
import CodeSurvey.Proofs.Storage.Failure
import CodeSurvey.Proofs.Storage.Succession
import CodeSurvey.Proofs.Text.Pieces
import CodeSurvey.Proofs.Time.Reading
import CodeSurvey.Scan.Run

/-!
# Stages are isolated from each other

A scan of a workspace that can be made ready comes to its end whatever its engines do, whichever
artifacts cannot be stored, and whatever its observer does (`stages_are_isolated`). It makes the
artifacts of the selected kinds before it is cancelled, notes what went wrong stage by stage, and
leaves each artifact that was stored one version above the former one.

Each turn of the stages changes documents of its own kind only (`Goes.moves`), so what it found was
there in the beginning and what it stored is there in the end (`Goes.stored`).
-/

namespace CodeSurvey.Scan

open CodeSurvey.Artifact CodeSurvey.Storage CodeSurvey.Survey
open Artifacts (IsNext)
open State (Moves)

/-! ## The selected kinds -/

/-- The kinds that a scan is to make, in their order. -/
def Plan.selected (p : Plan) : List CoreKind :=
  match p.kinds with
  | none => CoreKind.all
  | some names => CoreKind.all.filter fun k => names.contains k.name

/-- The names that a scan is told are those of kinds. -/
def Plan.NamesKinds (p : Plan) : Prop :=
  ∀ names, p.kinds = some names → ∀ n ∈ names, (CoreKind.ofName? n).isSome

variable {p : Plan} {m : Ignore.Matcher} {site : Site} {s s' : State}

/-- Each kind is selected once. -/
theorem Plan.nodup_selected (p : Plan) : p.selected.Nodup := by
  have hall : CoreKind.all.Nodup := by decide
  unfold selected
  split
  · exact hall
  · exact hall.filter _

/-- The kinds are selected if there is no name of another one. -/
theorem select_eq (h : p.NamesKinds) : select p.kinds = .ok p.selected := by
  unfold select Plan.selected
  cases hkinds : p.kinds with
  | none => rfl
  | some names =>
    have hknown : ((Text.distinct names).filter fun n => (CoreKind.ofName? n).isNone) = [] := by
      rw [List.filter_eq_nil_iff]
      intro n hn
      rw [Option.isNone_iff_eq_none, ← ne_eq, Option.ne_none_iff_isSome]
      exact h names hkinds n (Text.mem_of_mem_distinct hn)
    simp only [hknown, List.isEmpty_nil, if_true]

/-! ## What the turns change -/

/-- The documents that a turn may change: those of its kind, and the artifact itself only if it is
stored. -/
def Turn.changed (t : Turn) : List Document :=
  match t.stored with
  | .ok _ => [.previous (.core t.kind), .artifact (.core t.kind)]
  | .error _ => [.previous (.core t.kind)]

/-- The artifact of a kind is not changed if none of the kind is stored. -/
theorem artifact_notMem_changed {ts : List Turn} {k : CoreKind}
    (h : ∀ t ∈ ts, t.kind = k → ∀ e, t.stored ≠ .ok e) :
    .artifact (.core k) ∉ ts.flatMap Turn.changed := by
  intro hmem
  obtain ⟨t, ht, hchanged⟩ := List.mem_flatMap.1 hmem
  unfold Turn.changed at hchanged
  split at hchanged
  · rename_i e he
    simp only [List.mem_cons, reduceCtorEq, Document.artifact.injEq, Kind.core.injEq,
      List.not_mem_nil, or_false, false_or] at hchanged
    exact h t ht hchanged.symm e he
  · simp at hchanged

/-- A turn changes documents of its kind only. -/
theorem Turn.moves {t : Turn} (hs : t.before.Sited site) (hready : t.before.store.isReady)
    (hkind : t.made.kind = .core t.kind)
    (hstore : (Artifacts.store t.made).run t.before = (t.stored, s)) :
    Moves site t.changed t.before s := by
  have hspec := (Artifacts.store_ready_spec hs hready t.made).of_run hstore
  unfold changed
  rw [hkind] at hspec
  cases hstored : t.stored with
  | ok e =>
    rw [hstored] at hspec
    exact hspec.2.1
  | error e =>
    rw [hstored] at hspec
    exact hspec

/-- Turns change documents of their kinds only. -/
theorem Goes.moves (hwait : p.options.engineTimeout.checkWait = .ok ()) (hs : s.Sited site)
    (hready : s.store.isReady) {ts : List Turn} {x x' : Syntax.Session}
    (h : Goes p m ts x s x' s') : Moves site (ts.flatMap Turn.changed) s s' := by
  -- By the turns, each of which leaves the store ready and at its site for the next one.
  induction h with
  | nil => exact .refl _
  | cons hengine hstore hrest ih =>
    have hkind := (Turn.byConduct_of_run hwait hengine).made_kind
    have hm := Turn.moves hs hready hkind hstore
    exact (hm.mono (by simp)).trans ((ih (hm.sited hs) (hm.mode hready).1).mono (by simp))

/-- Turns change no artifact of a kind of which none is stored. -/
theorem Goes.record?_eq (hwait : p.options.engineTimeout.checkWait = .ok ()) (hs : s.Sited site)
    (hready : s.store.isReady) {ts : List Turn} {x x' : Syntax.Session}
    (h : Goes p m ts x s x' s') {k : CoreKind}
    (hk : ∀ t ∈ ts, t.kind = k → ∀ e, t.stored ≠ .ok e) :
    s'.record? (.artifact (.core k)) = s.record? (.artifact (.core k)) :=
  (h.moves hwait hs hready).record?_eq hready (artifact_notMem_changed hk)

/-- If each kind has one turn, none of a turn's kind is stored before or after it. -/
theorem none_stored_of_nodup {before after : List Turn} {t : Turn}
    (h : ((before ++ t :: after).map Turn.kind).Nodup) :
    (∀ t' ∈ before, t'.kind = t.kind → ∀ e, t'.stored ≠ .ok e) ∧
      ∀ t' ∈ after, t'.kind = t.kind → ∀ e, t'.stored ≠ .ok e := by
  rw [List.map_append, List.map_cons, List.nodup_append, List.nodup_cons] at h
  obtain ⟨-, ⟨hafter, -⟩, hbefore⟩ := h
  constructor
  · intro t' ht' heq
    exact absurd heq (hbefore _ (List.mem_map_of_mem ht') _ List.mem_cons_self)
  · intro t' ht' heq
    exact absurd (heq ▸ List.mem_map_of_mem ht') hafter

/-- What a turn has stored follows the record that was there in the beginning, and it is there in
the end. -/
theorem Goes.stored (hwait : p.options.engineTimeout.checkWait = .ok ()) (hs : s.Sited site)
    (hready : s.store.isReady) (hnow : (Time.Moment.ofText? s.host.nowText).isSome) {ts : List Turn}
    {x x' : Syntax.Session} (h : Goes p m ts x s x' s') (hnodup : (ts.map Turn.kind).Nodup)
    {t : Turn} (ht : t ∈ ts) {e : Stored} (he : t.stored = .ok e) :
    (∃ former, s.Shows s' (.artifact (.core t.kind)) former ∧ IsNext t.made former e) ∧
    s'.record? (.artifact (.core t.kind)) = some e ∧
    (s'.LetsRead (.artifact (.core t.kind)) →
      Ends (Artifacts.load (.core t.kind)) s' fun r _ => r = .ok (some e)) := by
  obtain ⟨before, after, x₁, s₁, rfl, hbefore, hengine, hstore, hafter⟩ := h.at ht
  obtain ⟨hother, hother'⟩ := none_stored_of_nodup hnodup
  have hconduct := Turn.byConduct_of_run hwait hengine
  have hkind := hconduct.made_kind
  -- The turns before leave the record that the turn finds.
  have hm := hbefore.moves hwait hs hready
  have hs' := hm.sited hs
  have hready' := (hm.mode hready).1
  have hspec := (Artifacts.store_ready_spec hs' hready' t.made).of_run hstore
  rw [he, hkind] at hspec
  obtain ⟨⟨id, former, hshows, rfl⟩, hm₁, hholds, hshort⟩ := hspec
  have hs₁ := hm₁.sited hs'
  have hready₁ := (hm₁.mode hready').1
  have hvalid : (Artifacts.recordOf t.made id t.before.store.root.text former).Valid := by
    obtain ⟨hmade, hfiles, herrors⟩ := hconduct.made_readable
    refine Artifacts.recordOf_valid ⟨?_, hfiles, herrors⟩ _ _ _
    rw [hmade, Host.nowText, hm.host.now]
    exact hnow
  -- The turns after leave the record that the turn has stored.
  have hm' := hafter.moves hwait hs₁ hready₁
  have hkept := (hm'.holds_iff (hm'.mode hready₁).2 (artifact_notMem_changed hother') _).2 hholds
  refine ⟨⟨former, ?_, Artifacts.recordOf_isNext _ _ _ _⟩,
    State.record?_of_holds hkept hvalid hshort, fun hread => ?_⟩
  · rcases hshows with hformer | ⟨hnone, hhidden⟩
    · exact .inl (hformer.trans (hbefore.record?_eq hwait hs hready hother))
    · exact .inr ⟨hnone, hm.hidden hhidden hm'.host.calls⟩
  · exact Artifacts.loadFrom_of_holds (hm'.sited hs₁) (hm'.mode hready₁).1 hkept hvalid hshort hread

/-- Storing fails by errors only that users are told if each artifact that is there can be read, or
is malformed, and no number of a record that is made is too long. -/
theorem tellsFailures_of_readable (hwait : p.options.engineTimeout.checkWait = .ok ())
    (hs : s.Sited site) (hready : s.store.isReady) {ks : List CoreKind} (hnodup : ks.Nodup)
    (htext : ∀ k ∈ ks, ∀ text e, s.text? (.artifact (.core k)) = some text →
      Json.read text = .error e → ∃ flaw place, e = .malformed flaw place)
    (hshort : ∀ t : Turn, t.kind ∈ ks → t.ByConduct p m s.host.nowText → ∀ id path former,
      former = none ∨ former = s.record? (.artifact (.core t.kind)) →
        (Artifacts.recordOf t.made id path former).toJson.hasShortInts)
    (index : Nat) (x : Syntax.Session) : TellsFailures p m index ks x s := by
  intro ts x' s' hgoes hprefix _ t ht e he
  have hin : t.kind ∈ ks := hprefix.subset (List.mem_map_of_mem ht)
  have hnodup := hnodup.sublist hprefix.sublist
  obtain ⟨before, after, x₁, s₁, rfl, hbefore, hengine, hstore, -⟩ := hgoes.at ht
  have hconduct := Turn.byConduct_of_run hwait hengine
  have hkind := hconduct.made_kind
  -- What the turn finds was there in the beginning.
  have hm := hbefore.moves hwait hs hready
  have hnone := (none_stored_of_nodup hnodup).1
  have hfound := hm.text?_eq (hm.mode hready).2 (artifact_notMem_changed hnone)
  have hrecord := hbefore.record?_eq hwait hs hready hnone
  rw [Host.nowText, hm.host.now] at hconduct
  have htold := Artifacts.store_error_told (hm.sited hs) (hm.mode hready).1 (m := t.made)
    (by rw [hkind, hfound]; exact htext t.kind hin)
    (by rw [hkind, hrecord]; exact hshort t hin hconduct)
  exact htold.of_run hstore e he

/-! ## Scans -/

/-- The stages of a scan are isolated from each other: what the scan reports, and what it leaves in
the store, is by the turns that its stages took. -/
structure Isolates (p : Plan) (m : Ignore.Matcher) (s s' : State) (report : Report)
    (ts : List Turn) : Prop where
  goes : ∃ x, Goes p m ts Syntax.Session.empty s x s'
  /-- There is one turn for each selected kind before the scan is cancelled, in their order. -/
  kinds : ts.map Turn.kind = p.selected.take ts.length
  stops : StopsAfter p 0 p.selected ts.length report.cancelled
  cancelled : report.cancelled = true ↔ ∃ i < p.selected.length, p.isCancelled i = true
  /-- Each artifact is the engine's own or stands for it. -/
  artifacts : report.artifacts = ts.map Turn.made
  byConduct : ∀ t ∈ ts, t.ByConduct p m s.host.nowText
  /-- What went wrong is noted turn by turn, and nothing else is. -/
  errors : report.errors = ts.flatMap Turn.errors
  told : ∀ t ∈ ts, t.Told
  /-- What was stored is the version after the record that was there. It is there in the end, and is
  loaded unless its file cannot be read. -/
  stored : ∀ t ∈ ts, ∀ e, t.stored = .ok e →
    (∃ former, s.Shows s' (.artifact (.core t.kind)) former ∧ IsNext t.made former e) ∧
    s'.record? (.artifact (.core t.kind)) = some e ∧
    (s'.LetsRead (.artifact (.core t.kind)) →
      Ends (Artifacts.load (.core t.kind)) s' fun r _ => r = .ok (some e))
  /-- An artifact of a kind of which none was stored is as before. -/
  kept : ∀ k, (∀ t ∈ ts, t.kind = k → ∀ e, t.stored ≠ .ok e) →
    s'.record? (.artifact (.core k)) = s.record? (.artifact (.core k))

/-- A scan comes to its end with stages that are isolated from each other, after the workspace was
made ready. -/
def ScansIsolated (p : Plan) (s : State) : Prop :=
  ∃ s₁ m ts report s', StoreAction.ensureReady.run s = (.ok (), s₁) ∧
    Settings.matcherOf (workspaceOf s₁) p.options = .ok m ∧
    (run p).run s = (.ok report, s') ∧ Isolates p m s₁ s' report ts

/-- A scan without documentation of a workspace that is ready is a run of its stages. -/
theorem run_of_stages {s₁ : State} {r : Report} (hkinds : p.NamesKinds)
    (hready : StoreAction.ensureReady.run s = (.ok (), s₁))
    (hrules : Settings.matcherOf (workspaceOf s₁) p.options = .ok m)
    (hdocs : p.options.generateDocs = false ∨ p.docs = none)
    (hrun : (stages p m p.selected.length 0 p.selected Syntax.Session.empty {}).run s₁ =
      (.ok r, s')) : (run p).run s = (.ok r, s') := by
  have hmatcher : (matcher p.options).run s₁ = (.ok m, s₁) := by
    unfold matcher
    rw [run_bind, run_get]
    simp only [hrules]
    rfl
  -- The steps of a run one after the other; the last one is left out.
  unfold run
  rw [select_eq hkinds]
  simp only
  rw [run_bind, hready]
  simp only
  rw [run_bind, hmatcher]
  simp only
  rw [run_bind, hrun]
  simp only
  rcases hdocs with hdocs | hdocs
  · rw [hdocs, Bool.false_and]
    rfl
  · rw [hdocs]
    cases (p.options.generateDocs && !r.cancelled) <;> rfl

/-- The stages of a scan are isolated from each other, if the workspace can be made ready without
links in its control directory, its rules are patterns, no documentation is asked for, its engines
can be waited for, and storing fails by errors only that users are told. -/
theorem stages_are_isolated {s₁ : State} (hs : s.Plain) (hnow : s.host.now.universal?.isSome)
    (hkinds : p.NamesKinds) (hready : StoreAction.ensureReady.run s = (.ok (), s₁))
    (hrules : Settings.matcherOf (workspaceOf s₁) p.options = .ok m)
    (hdocs : p.options.generateDocs = false ∨ p.docs = none)
    (hwait : p.options.engineTimeout.checkWait = .ok ())
    (hduration : ∀ k, p.conduct k = .hangs → p.options.engineTimeout.text?.isSome)
    (htold : TellsFailures p m 0 p.selected Syntax.Session.empty s₁) : ScansIsolated p s := by
  obtain ⟨⟨site, hsited⟩, hmem⟩ := hs
  have hreadies := (StoreAction.ensureReady_spec hsited hmem).of_run hready
  have hsited₁ := hreadies.moves.sited hsited
  have hready₁ := hreadies.isReady rfl
  have hmoment : (Time.Moment.ofText? s₁.host.nowText).isSome := by
    obtain ⟨u, hu⟩ := Option.isSome_iff_exists.1 hnow
    obtain ⟨text, htext, hread⟩ := Time.Moment.ofText?_universalText? hu
    rw [Host.nowText, hreadies.moves.host.now, htext, Option.getD_some, hread]
    rfl
  obtain ⟨ts, x, s', report, hgoes, hturns, hrun, hadds, hstops⟩ :=
    run_stages hwait hduration p.selected.length 0 htold (r := {}) rfl
  have hprefix : ts.map Turn.kind <+: p.selected := hturns ▸ List.take_prefix _ _
  have hnodup := p.nodup_selected.sublist hprefix.sublist
  have hcancelled := hstops.cancelled_eq
  simp only [Nat.zero_add] at hcancelled
  refine ⟨s₁, m, ts, report, s', hready, hrules,
    run_of_stages hkinds hready hrules hdocs hrun, ?_⟩
  exact {
    goes := ⟨x, hgoes⟩
    kinds := hturns
    stops := hstops
    cancelled := hcancelled
    artifacts := by simpa using hadds.artifacts
    byConduct := by
      intro t ht
      obtain ⟨before, after, x₁, s₂, -, hbefore, hengine, -⟩ := hgoes.at ht
      have hconduct := Turn.byConduct_of_run hwait hengine
      -- The moment is the same in all turns.
      rwa [Host.nowText, (hbefore.moves hwait hsited₁ hready₁).host.now] at hconduct
    errors := by simpa using hadds.errors
    told := htold ts x s' hgoes hprefix hstops.going
    stored := fun t ht e he => hgoes.stored hwait hsited₁ hready₁ hmoment hnodup ht he
    kept := fun k hk => hgoes.record?_eq hwait hsited₁ hready₁ hk }

/-- A scan in which one engine fails, one does not end, the observer fails, and which is cancelled
before its fourth stage. -/
def troubledPlan : Plan where
  options := { engineTimeout := .whole 60 }
  conduct := fun
    | .summary => .fails ⟨"boom", "RuntimeError"⟩
    | .dataModel => .hangs
    | _ => .gives ⟨"{}", 1, 0⟩
  isCancelled := fun n => n == 3
  observer := fun _ _ => .error ⟨"", "RuntimeError"⟩

/-- A workspace without artifacts, where the summary cannot be stored. -/
def withLockedSummary : State := State.failingAt .replace (.artifact (.core .summary)) []

/-- In such a workspace storing fails by errors only that users are told. -/
theorem tellsFailures_withLockedSummary (m : Ignore.Matcher) :
    TellsFailures troubledPlan m 0 troubledPlan.selected Syntax.Session.empty
      withLockedSummary := by
  have hsited : withLockedSummary.Sited ⟨[], [], ["ws", ".contextscan"]⟩ :=
    State.sited_withEntries (by decide) (by simp)
  have htext : ∀ k, withLockedSummary.text? (.artifact (.core k)) = none := by
    intro k
    cases k <;> decide +kernel
  have hsmall : ∀ n < 10, n < 10 ^ Json.maxIntDigits := fun n hn =>
    Nat.lt_of_lt_of_le hn (Nat.le_self_pow (by decide) 10)
  refine tellsFailures_of_readable rfl hsited rfl troubledPlan.nodup_selected ?_ ?_ 0 _
  · intro k _ text e h
    rw [htext] at h
    cases h
  · intro t _ hconduct id path former hformer
    -- Each record is the first one of its kind, with counts of at most one.
    have hrecord : withLockedSummary.record? (.artifact (.core t.kind)) = none := by
      rw [State.record?, State.value?, htext]
      rfl
    rw [hrecord, or_self] at hformer
    have hcounts : t.made.fileCount.natAbs < 10 ∧ t.made.errorCount.natAbs < 10 := by
      cases hkind : t.kind <;> simp only [Turn.ByConduct, troubledPlan, hkind] at hconduct <;>
        rw [hconduct.2.2] <;> exact ⟨by decide, by decide⟩
    rw [Stored.hasShortInts_toJson, hformer]
    simp only [Json.hasShortInts_int_iff]
    exact ⟨hsmall _ hcounts.1, hsmall _ hcounts.2, hsmall 1 (by decide)⟩

/-- The stages of the scan are isolated in this workspace. -/
theorem stages_are_isolated_in_trouble :
    withLockedSummary.Plain ∧ troubledPlan.NamesKinds ∧
      ScansIsolated troubledPlan withLockedSummary := by
  have hplain : withLockedSummary.Plain := State.plain_withEntries (by decide) (by simp)
  have hkinds : troubledPlan.NamesKinds := by rintro names ⟨⟩
  obtain ⟨m, hrules⟩ :
      ∃ m, Settings.matcherOf (workspaceOf withLockedSummary) troubledPlan.options = .ok m :=
    ⟨_, rfl⟩
  exact ⟨hplain, hkinds, stages_are_isolated hplain (by decide +kernel) hkinds
    (StoreAction.run_ensureReady rfl) hrules (.inl rfl) rfl (fun _ _ => rfl)
    (tellsFailures_withLockedSummary m)⟩

/-- A scan of the directories with one engine that ends at once. -/
def directoryPlan (engineTimeout : Time.Seconds) : Plan where
  options := { engineTimeout }
  kinds := some ["directory"]
  conduct := fun _ => .gives ⟨"D", 0, 0⟩

/-- A control directory where the temporary file of an artifact is a link to that artifact. -/
def withLinkedArtifact : State :=
  State.withEntries
    [(["artifacts"], .dir), (["artifacts", "directory.json.tmp"], .link "directory.json")]
    Faults.none

/-- A workspace with a file in place of its control directory. -/
def withBlockedDirectory : State where
  host :=
    { tree := ⟨[(["ws"], .dir), (["ws", ".contextscan"], .file ByteArray.empty)]⟩
      faults := Faults.none
      calls := 0
      now := ⟨⟨2024, 1, 1⟩, .midnight, 0⟩
      ids := 0 }
  store := .atPlace ⟨["ws"], "ws"⟩

/-- Whether a scan is of known kinds without documentation, and the rules of its workspace are
patterns. -/
def IsProper (p : Plan) (s : State) : Prop :=
  p.NamesKinds ∧ p.options.generateDocs = false ∧
    (Settings.matcherOf (workspaceOf s) p.options).toOption.isSome

/-- A scan does not come to its end where the workspace cannot be made ready, or where an engine
cannot be waited for that long. What it has stored is not loaded where a link led the artifact to
itself. -/
theorem scans_not_isolated :
    (IsProper (directoryPlan (.whole 60)) withBlockedDirectory ∧
      ¬ ScansIsolated (directoryPlan (.whole 60)) withBlockedDirectory) ∧
    (IsProper (directoryPlan (.whole (10 ^ 10))) (State.withEntries [] Faults.none) ∧
      ¬ ScansIsolated (directoryPlan (.whole (10 ^ 10))) (State.withEntries [] Faults.none)) ∧
    (IsProper (directoryPlan (.whole 60)) withLinkedArtifact ∧
      ¬ ScansIsolated (directoryPlan (.whole 60)) withLinkedArtifact) := by
  have hnames : ∀ engineTimeout, (directoryPlan engineTimeout).NamesKinds := by
    rintro engineTimeout names ⟨⟩
    decide
  refine ⟨⟨⟨hnames _, rfl, by decide +kernel⟩, ?_⟩, ⟨⟨hnames _, rfl, by decide +kernel⟩, ?_⟩,
    ⟨hnames _, rfl, by decide +kernel⟩, ?_⟩
  · rintro ⟨s₁, m, ts, report, s', hready, -⟩
    have hfails : (StoreAction.ensureReady.run withBlockedDirectory).1.toOption.isNone := by
      decide +kernel
    rw [hready] at hfails
    cases hfails
  · rintro ⟨s₁, m, ts, report, s', -, -, hrun, -⟩
    have hfails : ((run (directoryPlan (.whole (10 ^ 10)))).run
        (State.withEntries [] Faults.none)).1.toOption.isNone := by
      decide +kernel
    rw [hrun] at hfails
    cases hfails
  · rintro ⟨s₁, m, ts, report, s', -, -, hrun, h⟩
    have hreport : ((run (directoryPlan (.whole 60))).run withLinkedArtifact).1.toOption.map
        (fun r => (r.artifacts.length, r.errors)) = some (1, []) := by
      decide +kernel
    have hrecord : ((run (directoryPlan (.whole 60))).run withLinkedArtifact).2.record?
        (.artifact (.core .directory)) = none := by
      decide +kernel
    rw [hrun] at hreport hrecord
    obtain ⟨hlength, herrors⟩ := Prod.mk.inj (Option.some.inj hreport)
    -- There was one turn, and nothing is said about it.
    rw [h.artifacts, List.length_map] at hlength
    obtain ⟨t, rfl⟩ := List.length_eq_one_iff.1 hlength
    have hkind : t.kind = .directory := (List.cons.inj h.kinds).1
    rw [h.errors] at herrors
    cases hstored : t.stored with
    | ok e =>
      have hthere := (h.stored t List.mem_cons_self e hstored).2.1
      rw [hkind, hrecord] at hthere
      cases hthere
    | error e => simp [Turn.errors, hstored] at herrors

end CodeSurvey.Scan
