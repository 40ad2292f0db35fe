import CodeSurvey.Scan.Stage
import CodeSurvey.Proofs.Storage.Host

/-!
# How the stages of a scan go

A stage as it went is a turn: the engine's artifact or what stands for it, what is said about the
engine, and how storing ended. The stages of a scan go from one turn to the next (`Goes`) whatever
went wrong in a turn, and the report of a scan is put together of its turns (`Report.Adds`).

A scan does not come to its end if an engine cannot be waited for, or if storing fails by an error
that users are not told; otherwise it goes through all stages before it is cancelled (`run_stages`).
-/

namespace CodeSurvey.Scan

open CodeSurvey.Artifact CodeSurvey.Storage CodeSurvey.Survey

/-! ## Turns -/

/-- One stage as it went. -/
structure Turn where
  kind : CoreKind
  /-- The parse session and the store in the beginning. -/
  session : Syntax.Session
  before : State
  made : Made
  state : EngineState
  /-- What is said about an engine that failed or did not end in time. -/
  said : Option String
  stored : Except StoreError Stored

namespace Turn

/-- Whether storing succeeded or failed by an error that users are told. -/
def Told (t : Turn) : Prop := ∀ e, t.stored = .error e → e.told?.isSome

/-- What is noted of a turn: what is said about the engine, and then how storing failed. -/
def errors (t : Turn) : List StageError :=
  (t.said.toList.map fun text => ⟨t.kind.name, text⟩) ++
    match t.stored with
    | .ok _ => []
    | .error e => [⟨t.kind.name, "Storage failed: " ++ e.told?.getD ""⟩]

/-- The artifact of a turn and what is said about the engine, by what the engine does: an artifact
of the engine's own, or one that stands for it. -/
def ByConduct (p : Plan) (m : Ignore.Matcher) (now : String) (t : Turn) : Prop :=
  match p.conduct t.kind with
  | .survey => t.state = .succeeded ∧ t.said = none ∧ t.made = madeBy t.kind now
      (Survey.run t.kind ⟨workspaceOf t.before, p.options, m⟩ t.session).1
  | .gives o => t.state = .succeeded ∧ t.said = none ∧ t.made = madeBy t.kind now o
  | .fails f => t.state = .failed ∧ t.said = some f.message ∧
      t.made = placeholder (.core t.kind) "{}" now
  | .hangs => t.state = .timedOut ∧
      (∃ duration, p.options.engineTimeout.text? = some duration ∧
        t.said = some (timeoutMessage t.kind duration)) ∧
      t.made = placeholder (.core t.kind) "{}" now

/-- The artifact of a turn is of its kind. -/
theorem ByConduct.made_kind {p : Plan} {m : Ignore.Matcher} {now : String} {t : Turn}
    (h : t.ByConduct p m now) : t.made.kind = .core t.kind := by
  unfold ByConduct at h
  split at h <;> rw [h.2.2] <;> rfl

/-- It was made at the moment of the scan, and its counts are not negative. -/
theorem ByConduct.made_readable {p : Plan} {m : Ignore.Matcher} {now : String} {t : Turn}
    (h : t.ByConduct p m now) :
    t.made.madeAt = now ∧ 0 ≤ t.made.fileCount ∧ 0 ≤ t.made.errorCount := by
  have hstand : (0 : Int) ≤ 1 := by decide
  unfold ByConduct at h
  split at h <;> rw [h.2.2]
  · exact ⟨rfl, Int.natCast_nonneg _, Int.natCast_nonneg _⟩
  · exact ⟨rfl, Int.natCast_nonneg _, Int.natCast_nonneg _⟩
  · exact ⟨rfl, Int.le_refl 0, hstand⟩
  · exact ⟨rfl, Int.le_refl 0, hstand⟩

end Turn

/-! ## Engines -/

variable {p : Plan} {m : Ignore.Matcher}

/-- A run of an engine that can be waited for leaves the store as it is. -/
theorem run_runEngine (hwait : p.options.engineTimeout.checkWait = .ok ()) (k : CoreKind)
    (x : Syntax.Session) (s : State) :
    (runEngine p m k x).run s = (match p.conduct k with
      | .survey =>
        let (o, x') := Survey.run k ⟨workspaceOf s, p.options, m⟩ x
        .ok (madeBy k s.host.nowText o, .succeeded, none, x')
      | .gives o => .ok (madeBy k s.host.nowText o, .succeeded, none, x)
      | .fails f =>
        .ok (placeholder (.core k) "{}" s.host.nowText, .failed, some f.message, x)
      | .hangs => match p.options.engineTimeout.text? with
        | some duration => .ok (placeholder (.core k) "{}" s.host.nowText, .timedOut,
            some (timeoutMessage k duration), x)
        | none => .error (.wait .tooLong), s) := by
  unfold runEngine
  rw [hwait]
  simp only
  rw [run_bind, run_get]
  simp only
  -- Only an engine that hangs is waited for, and its message tells how long.
  cases p.conduct k with
  | hangs => cases p.options.engineTimeout.text? <;> rfl
  | _ => rfl

/-- It comes to an end if what is said about one that takes too long can be written. -/
theorem runEngine_ends (hwait : p.options.engineTimeout.checkWait = .ok ()) {k : CoreKind}
    (hduration : p.conduct k = .hangs → p.options.engineTimeout.text?.isSome) (x : Syntax.Session)
    (s : State) :
    ∃ made state said x', (runEngine p m k x).run s = (.ok (made, state, said, x'), s) := by
  rw [run_runEngine hwait]
  cases hconduct : p.conduct k with
  | hangs =>
    obtain ⟨duration, htext⟩ := Option.isSome_iff_exists.1 (hduration hconduct)
    rw [htext]
    exact ⟨_, _, _, _, rfl⟩
  | _ => exact ⟨_, _, _, _, rfl⟩

/-- The artifact of a turn and what is said about the engine are by what the engine does. -/
theorem Turn.byConduct_of_run (hwait : p.options.engineTimeout.checkWait = .ok ()) {t : Turn}
    {x : Syntax.Session} {s : State}
    (h : (runEngine p m t.kind t.session).run t.before = (.ok (t.made, t.state, t.said, x), s)) :
    t.ByConduct p m t.before.host.nowText := by
  rw [run_runEngine hwait] at h
  obtain ⟨h, -⟩ := Prod.mk.inj h
  unfold ByConduct
  cases hconduct : p.conduct t.kind with
  -- A wait with no text for its duration would have been an error, not a result.
  | hangs =>
    rw [hconduct] at h
    cases htext : p.options.engineTimeout.text? with
    | none => simp [htext] at h
    | some duration =>
      simp only [htext, Except.ok.injEq, Prod.mk.injEq] at h
      obtain ⟨hmade, hstate, hsaid, -⟩ := h
      exact ⟨hstate.symm, ⟨duration, rfl, hsaid.symm⟩, hmade.symm⟩
  | _ =>
    simp only [hconduct, Except.ok.injEq, Prod.mk.injEq] at h
    obtain ⟨hmade, hstate, hsaid, -⟩ := h
    exact ⟨hstate.symm, hsaid.symm, hmade.symm⟩

/-! ## From turn to turn -/

/-- The turns that stages go through, with the parse session and the store in the beginning and in
the end: the engine ends, and its artifact is stored or not. -/
inductive Goes (p : Plan) (m : Ignore.Matcher) :
    List Turn → Syntax.Session → State → Syntax.Session → State → Prop
  | nil (x : Syntax.Session) (s : State) : Goes p m [] x s x s
  | cons {t : Turn} {ts : List Turn} {x x' : Syntax.Session} {s s' : State}
      (engine : (runEngine p m t.kind t.session).run t.before =
        (.ok (t.made, t.state, t.said, x), t.before))
      (store : (Artifacts.store t.made).run t.before = (t.stored, s))
      (rest : Goes p m ts x s x' s') : Goes p m (t :: ts) t.session t.before x' s'

/-- However far the stages of some kinds go before they are cancelled, the first of which has an
index, storing fails by errors only that users are told. -/
def TellsFailures (p : Plan) (m : Ignore.Matcher) (index : Nat) (ks : List CoreKind)
    (x : Syntax.Session) (s : State) : Prop :=
  ∀ ts x' s', Goes p m ts x s x' s' → ts.map Turn.kind <+: ks →
    (∀ i < ts.length, p.isCancelled (index + i) = false) → ∀ t ∈ ts, t.Told

/-- A turn of a scan with those before and after it. -/
theorem Goes.at {ts : List Turn} {x x' : Syntax.Session} {s s' : State} (h : Goes p m ts x s x' s')
    {t : Turn} (ht : t ∈ ts) : ∃ before after x₁ s₁, ts = before ++ t :: after ∧
      Goes p m before x s t.session t.before ∧
      (runEngine p m t.kind t.session).run t.before =
        (.ok (t.made, t.state, t.said, x₁), t.before) ∧
      (Artifacts.store t.made).run t.before = (t.stored, s₁) ∧ Goes p m after x₁ s₁ x' s' := by
  -- By the turns up to this one.
  induction h with
  | nil => cases ht
  | cons hengine hstore hrest ih =>
    rcases List.mem_cons.1 ht with rfl | ht
    · exact ⟨[], _, _, _, rfl, .nil _ _, hengine, hstore, hrest⟩
    · obtain ⟨before, after, x₁, s₁, rfl, hbefore, hturn⟩ := ih ht
      exact ⟨_ :: before, after, x₁, s₁, rfl, .cons hengine hstore hbefore, hturn⟩

/-! ## Reports -/

/-- What some turns add to a report. -/
structure Report.Adds (r r' : Report) (ts : List Turn) : Prop where
  artifacts : r'.artifacts = r.artifacts ++ ts.map Turn.made
  errors : r'.errors = r.errors ++ ts.flatMap Turn.errors
  states : r'.states = r.states ++ ts.map fun t => (t.kind, t.state)

/-- No turns add nothing. -/
theorem Report.Adds.nil {r r' : Report} (hartifacts : r'.artifacts = r.artifacts)
    (herrors : r'.errors = r.errors) (hstates : r'.states = r.states) : r.Adds r' [] :=
  ⟨by simp [hartifacts], by simp [herrors], by simp [hstates]⟩

/-- Turns add what the first one adds and then what the others add. -/
theorem Report.Adds.cons {r r' r'' : Report} {t : Turn} {ts : List Turn} (h : r.Adds r' [t])
    (h' : r'.Adds r'' ts) : r.Adds r'' (t :: ts) where
  artifacts := by rw [h'.artifacts, h.artifacts]; simp
  errors := by rw [h'.errors, h.errors]; simp
  states := by rw [h'.states, h.states]; simp

/-- Whatever the observer does, all that is kept of it is that it was told. -/
theorem Report.tell_eq (r : Report) (observer : Nat → Progress → Except Failure Unit)
    (x : Progress) : r.tell observer x = { r with progress := r.progress ++ [x] } := by
  unfold tell
  split <;> rfl

/-- The report after an artifact was to be stored: it is noted why it was not, but an error without
a text is thrown on. -/
def Report.noting (r : Report) (m : Made) : Except StoreError Stored → Except StoreError Report
  | .ok _ => .ok r
  | .error e =>
    match e.told? with
    | some text => .ok (r.addError m.kind.name ("Storage failed: " ++ text))
    | none => .error e

/-- An artifact is stored, or it is noted why not. -/
theorem run_storeNoted_eq {m : Made} {s s' : State} {stored : Except StoreError Stored}
    (hstore : (Artifacts.store m).run s = (stored, s')) (r : Report) :
    (storeNoted m r).run s = (r.noting m stored, s') := by
  unfold storeNoted Report.noting
  rw [run_tryCatch, run_bind, run_discard, hstore]
  cases stored with
  | ok e => rfl
  | error e =>
    dsimp only
    cases e.told? <;> rfl

/-- The error of a turn whose failure is told is noted. -/
theorem run_storeNoted {t : Turn} {s : State} (hkind : t.made.kind = .core t.kind)
    (hstore : (Artifacts.store t.made).run t.before = (t.stored, s)) (htold : t.Told) (r : Report) :
    (storeNoted t.made r).run t.before = (.ok { r with errors := r.errors ++ match t.stored with
      | .ok _ => []
      | .error e => [⟨t.kind.name, "Storage failed: " ++ e.told?.getD ""⟩] }, s) := by
  rw [run_storeNoted_eq hstore, Report.noting.eq_def]
  cases hstored : t.stored with
  | ok e => simp
  | error e =>
    -- The error has a text, so it is not thrown on.
    obtain ⟨text, htext⟩ := Option.isSome_iff_exists.1 (htold e hstored)
    simp only [htext, Report.addError, Option.getD_some, hkind, Kind.name]

/-- A stage whose engine ends, and whose artifact is stored or cannot be stored for a reason that
users are told, comes to its end and adds its turn to the report. -/
theorem run_stage (hwait : p.options.engineTimeout.checkWait = .ok ()) {t : Turn}
    {x : Syntax.Session} {s : State}
    (hengine : (runEngine p m t.kind t.session).run t.before =
      (.ok (t.made, t.state, t.said, x), t.before))
    (hstore : (Artifacts.store t.made).run t.before = (t.stored, s)) (htold : t.Told)
    (total index : Nat) (r : Report) :
    ∃ r', (stage p m total index t.kind t.session r).run t.before = (.ok (r', x), s) ∧
      r.Adds r' [t] ∧ r'.cancelled = r.cancelled := by
  have hkind := (Turn.byConduct_of_run hwait hengine).made_kind
  unfold stage
  rw [run_bind, hengine]
  simp only
  rw [run_bind, run_storeNoted hkind hstore htold]
  -- What the observer was told is all that is left, and no part of what is added.
  refine ⟨_, rfl, ?_, ?_⟩
  · cases hsaid : t.said <;> constructor <;>
      simp [Report.tell_eq, Report.addArtifact, Report.addError, Turn.errors, hsaid]
  · cases t.said <;> simp [Report.tell_eq, Report.addArtifact, Report.addError]

/-! ## The run of all stages -/

/-- The stages of some kinds, the first of which has an index, stop after so many, or they do not
stop: they are cancelled before the first one before which they are to be. -/
structure StopsAfter (p : Plan) (index : Nat) (ks : List CoreKind) (count : Nat)
    (cancelled : Bool) : Prop where
  count_le : count ≤ ks.length
  going : ∀ i < count, p.isCancelled (index + i) = false
  cancelled_iff : cancelled = true ↔ count < ks.length
  isCancelled : count < ks.length → p.isCancelled (index + count) = true

/-- Nothing is cancelled before some stages and the one before them. -/
theorem going_cons {index count : Nat} (hgoing : p.isCancelled index = false)
    (h : ∀ i < count, p.isCancelled (index + 1 + i) = false) :
    ∀ i < count + 1, p.isCancelled (index + i) = false := by
  rintro (_ | i) hi
  · exact hgoing
  · have := h i (by omega)
    rwa [Nat.add_right_comm] at this

/-- Stages with one before them from which they go on. -/
theorem StopsAfter.cons {index count : Nat} {k : CoreKind} {ks : List CoreKind} {cancelled : Bool}
    (h : StopsAfter p (index + 1) ks count cancelled) (hgoing : p.isCancelled index = false) :
    StopsAfter p index (k :: ks) (count + 1) cancelled where
  count_le := Nat.succ_le_succ h.count_le
  going := going_cons hgoing h.going
  cancelled_iff := h.cancelled_iff.trans Nat.succ_lt_succ_iff.symm
  isCancelled := by
    intro hlt
    have := h.isCancelled (Nat.succ_lt_succ_iff.1 hlt)
    rwa [Nat.add_right_comm] at this

/-- Stages are cancelled if they are to be before one of them. -/
theorem StopsAfter.cancelled_eq {index count : Nat} {ks : List CoreKind} {cancelled : Bool}
    (h : StopsAfter p index ks count cancelled) :
    cancelled = true ↔ ∃ i < ks.length, p.isCancelled (index + i) = true := by
  rw [h.cancelled_iff]
  constructor
  · exact fun hlt => ⟨count, hlt, h.isCancelled hlt⟩
  · rintro ⟨i, hi, hcancelled⟩
    by_contra hge
    rw [h.going i (by omega)] at hcancelled
    cases hcancelled

/-- The stages of some kinds go through a turn for each kind before they are cancelled, and what
these add is reported. -/
theorem run_stages (hwait : p.options.engineTimeout.checkWait = .ok ())
    (hduration : ∀ k, p.conduct k = .hangs → p.options.engineTimeout.text?.isSome)
    {ks : List CoreKind} {x : Syntax.Session} {s : State} (total index : Nat)
    (htold : TellsFailures p m index ks x s) {r : Report} (hr : r.cancelled = false) :
    ∃ ts x' s' r', Goes p m ts x s x' s' ∧ ts.map Turn.kind = ks.take ts.length ∧
      (stages p m total index ks x r).run s = (.ok r', s') ∧ r.Adds r' ts ∧
      StopsAfter p index ks ts.length r'.cancelled := by
  -- By the kinds that are left: the report of a stage is what the others add to.
  induction ks generalizing x s index r with
  | nil =>
    exact ⟨[], x, s, r, .nil x s, rfl, rfl, .nil rfl rfl rfl, by simp, by simp, by simp [hr],
      by simp⟩
  | cons k ks ih =>
    unfold stages
    cases hcancelled : p.isCancelled index with
    | true =>
      -- The scan is cancelled before this stage.
      exact ⟨[], x, s, { r with cancelled := true }, .nil x s, rfl, rfl, .nil rfl rfl rfl,
        by simp, by simp, by simp, fun _ => hcancelled⟩
    | false =>
      obtain ⟨made, state, said, x₁, hengine⟩ := runEngine_ends (m := m) hwait (hduration k) x s
      rcases hstore : (Artifacts.store made).run s with ⟨stored, s₁⟩
      obtain ⟨t, rfl, rfl, rfl, rfl, rfl, rfl, rfl⟩ : ∃ t : Turn, t.kind = k ∧ t.session = x ∧
          t.before = s ∧ t.made = made ∧ t.state = state ∧ t.said = said ∧ t.stored = stored :=
        ⟨⟨k, x, s, made, state, said, stored⟩, rfl, rfl, rfl, rfl, rfl, rfl, rfl⟩
      -- The turn of the stage may be all that the scan goes through, so its failure is told.
      have htold₁ := htold [t] x₁ s₁ (.cons hengine hstore (.nil x₁ s₁)) (by simp)
        (by simp [hcancelled]) t (List.mem_singleton_self t)
      obtain ⟨r₁, hrun₁, hadds₁, hr₁⟩ := run_stage hwait hengine hstore htold₁ total index r
      have htold' : TellsFailures p m (index + 1) ks x₁ s₁ := by
        intro ts x' s' hts hprefix hgoing t' ht'
        exact htold _ _ _ (.cons hengine hstore hts) (List.cons_prefix_cons.2 ⟨rfl, hprefix⟩)
          (going_cons hcancelled hgoing) t' (List.mem_cons_of_mem _ ht')
      obtain ⟨ts, x', s', r', hts, hkinds, hrun, hadds, hstops⟩ :=
        ih (index + 1) htold' (hr₁.trans hr)
      refine ⟨t :: ts, x', s', r', .cons hengine hstore hts, ?_, ?_, hadds₁.cons hadds,
        hstops.cons hcancelled⟩
      · rw [List.map_cons, hkinds, List.length_cons, List.take_succ_cons]
      · rw [if_neg Bool.false_ne_true, run_bind, hrun₁]
        exact hrun

end CodeSurvey.Scan
