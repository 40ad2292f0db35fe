import CodeSurvey.Proofs.Storage.History
import CodeSurvey.Proofs.Storage.Mirror
import CodeSurvey.Proofs.Storage.VersionChain
import Mathlib.Data.List.DropRight

/-!
# The research history keeps the last sessions

A run of operations on the research history is told by the sessions that were saved since the last
clear. Where nothing is in the way of documents, no operation fails, and before and after each one
reading gives the last fifty of these sessions, oldest first, as saving gave them
(`last_sessions_are_kept`).

Saving reads all sessions that are kept and writes the last of them with the new one, so what one
operation preserves (`Retained`) is that the document is the text of the last sessions: a session is
read back from its value, and to drop all but the last twice is to do it once
(`lastOnes_rtake_concat`).

A history that was written by other hands may hold sessions at any moments. To save another one is
to write these down to milliseconds (`save_of_yields`), whatever their offsets from universal time
(`sessions_are_rewritten_down_to_millis`); what is below a millisecond is lost
(`microseconds_are_not_rewritten`).
-/

namespace CodeSurvey.Storage

open CodeSurvey.Files CodeSurvey.Research
open State (Moves)
open StoreAction

/-! ## Operations and what they are to do -/

/-- An operation on the research history. -/
inductive HistoryOp where
  | save (query : String) (findings : List Finding) (summary : String) (questions : List String)
  | clear
  | load

/-- What an operation gives. -/
inductive HistoryAnswer where
  /-- The session that was saved. -/
  | saved (session : Session)
  | cleared
  /-- The sessions that were found. -/
  | found (sessions : List Session)

/-- An operation with what it gives. -/
def HistoryOp.perform : HistoryOp → StoreAction HistoryAnswer
  | save query findings summary questions =>
    return .saved (← ResearchHistory.save query findings summary questions)
  | clear => do
    ResearchHistory.clear
    return .cleared
  | load => return .found (← ResearchHistory.load)

/-- An operation at a moment. -/
structure HistoryStep where
  now : Time.Moment
  op : HistoryOp

namespace ResearchHistory

/-- What a step gives when sessions were saved since the last clear, and which ones were then. -/
def Gives (saved : List Session) (step : HistoryStep) (x : HistoryAnswer)
    (saved' : List Session) : Prop :=
  match step.op with
  | .save query findings summary questions => ∃ session : Session,
      (∃ id, session = ⟨id, query, findings, summary, questions, step.now⟩) ∧
      x = .saved session ∧ saved' = saved ++ [session]
  | .clear => x = .cleared ∧ saved' = []
  | .load => x = .found (saved.rtake 50) ∧ saved' = saved

/-- Reading the history of a store gives sessions, whenever that is done. -/
def Shows (s : State) (sessions : List Session) : Prop :=
  ∀ now, (load.run (s.setClock now)).1 = .ok sessions

/-- A run goes by the sessions that were saved since the last clear: reading gives the last fifty of
them before each step and at the end, and no step fails. -/
def Follows : List HistoryStep → List Session → State → Prop
  | [], saved, s => Shows s (saved.rtake 50)
  | step :: steps, saved, s => Shows s (saved.rtake 50) ∧
      Ends step.op.perform (s.setClock step.now) fun r s' => ∃ x saved', r = .ok x ∧
        Gives saved step x saved' ∧ Follows steps saved' s'

/-! ## The last sessions -/

/-- To drop all but the last sessions before another one comes makes no difference. -/
theorem lastOnes_rtake_concat (saved : List Session) (session : Session) :
    lastOnes (saved.rtake 50 ++ [session]) = (saved ++ [session]).rtake 50 := by
  have hlast : ∀ sessions : List Session, lastOnes sessions = sessions.rtake 50 := fun _ => rfl
  have htwice : (saved.rtake 50).rtake 49 = saved.rtake 49 := by
    simp [List.rtake_eq_reverse_take_reverse, List.take_take]
  calc lastOnes (saved.rtake 50 ++ [session])
      = (saved.rtake 50 ++ [session]).rtake (49 + 1) := hlast _
    _ = (saved.rtake 50).rtake 49 ++ [session] := List.rtake_concat_succ _ _ _
    _ = saved.rtake 49 ++ [session] := by rw [htwice]
    _ = (saved ++ [session]).rtake 50 := (List.rtake_concat_succ _ _ _).symm

/-- The last sessions, whatever is made of each, are all among the last ones. -/
theorem rtake_map_lastOnes (f : Session → Session) (sessions : List Session) :
    ((lastOnes sessions).map f).rtake 50 = (lastOnes sessions).map f := by
  have hfew : ((lastOnes sessions).map f).length - 50 = 0 := by
    have hcapacity : capacity = 50 := rfl
    rw [List.length_map, lastOnes, List.length_drop, hcapacity]
    omega
  rw [List.rtake, hfew, List.drop_zero]

variable {site : Site} {saved : List Session} {s s' : State}

/-- A document that has the text of the last sessions, or none if there are no sessions. -/
def Written (s : State) (sessions : List Session) : Prop :=
  (s.Holds .research none ∧ sessions = []) ∨
    ∃ values now, sessions.mapM Session.toJson? = some values ∧
      s.Holds .research (some (sessionsJson values now).stored)

/-- What every step preserves: the document is the text of the last sessions, which were all held at
moments that are read back. -/
structure Retained (site : Site) (saved : List Session) (s : State) : Prop where
  clear : s.Clear site
  inMillis : ∀ session ∈ saved, session.heldAt.InMillis
  written : Written s (saved.rtake 50)

/-- The text of sessions that were held at such moments is read as values that describe them. -/
theorem read_sessionsJson {sessions : List Session} {values : List Json}
    (hmillis : ∀ session ∈ sessions, session.heldAt.InMillis)
    (hvalues : sessions.mapM Session.toJson? = some values) (now : String) :
    Json.Readable Json.maxNesting (sessionsJson values now) ∧
      List.Forall₂ Session.IsOf values sessions := by
  obtain ⟨values', hvalues', hare, hreadable⟩ := Session.mapM_toJson? hmillis
  have hsame : values' = values := Option.some.inj (hvalues'.symm.trans hvalues)
  subst hsame
  refine ⟨.obj (by simp) ?_, hare⟩
  simp only [List.forall_mem_cons]
  exact ⟨.arr (hreadable 955), .str now, by simp⟩

/-- Values that describe sessions yield these: the check of none fails. -/
theorem keeps_of_forall₂ {values : List Json} {sessions : List Session}
    (h : List.Forall₂ Session.IsOf values sessions) :
    Keeps values sessions ∧ ∀ v ∈ values, ¬ Session.Stumbles v := by
  induction h with
  | nil => exact ⟨.nil, by simp⟩
  | @cons v session values sessions his _ ih =>
    have hchecked := Session.ofJson_eq_some.2 his
    refine ⟨.keep his ih.1, List.forall_mem_cons.2 ⟨fun hstumbles => ?_, ih.2⟩⟩
    cases hchecked.symm.trans (Session.ofJson_eq_error.2 hstumbles)

/-- The last sessions with a new one are on the calendar if all are. -/
theorem inCalendar_of_mem_lastOnes {sessions : List Session}
    (hin : ∀ x ∈ sessions, x.heldAt.InCalendar) (session : Session)
    (hnew : session.heldAt.InCalendar) :
    ∀ x ∈ lastOnes (sessions ++ [session]), x.heldAt.InCalendar := by
  intro x hx
  rcases List.mem_append.1 (List.mem_of_mem_drop hx) with hx | hx
  · exact hin x hx
  · rwa [List.mem_singleton.1 hx]

/-- Saving a session to a text that yields sessions: if they are on the calendar of universal time,
the last of them and the new one are kept down to milliseconds. -/
theorem save_of_yields (hc : s.Clear site) {sessions : List Session}
    (hyields : Yields (s.text? .research) (.ok sessions))
    (hin : ∀ x ∈ sessions, x.heldAt.InCalendar) (hnow : s.host.now.InCalendar) (query : String)
    (findings : List Finding) (summary : String) (questions : List String) :
    Ends (save query findings summary questions) s fun r s' => ∃ session : Session,
      r = .ok session ∧
      (∃ id, session = ⟨id, query, findings, summary, questions, s.host.now⟩) ∧
      Retained site ((lastOnes (sessions ++ [session])).map Session.inMillis) s' := by
  unfold save
  refine (ensureReady_clear hc).bind_ok fun s₁ ⟨hmoves₁, hready₁, htext₁⟩ => ?_
  -- The name of the session is drawn, and it is held now.
  refine (drawId_spec site s₁).bind ?_ ?_
  · rintro e s₂ ⟨⟨id, hid⟩, -⟩
    cases hid
  rintro id s₂ ⟨-, hmoves₂, hstore₂⟩
  have hmoves := hmoves₁.trans hmoves₂
  have hready₂ : s₂.store.isReady := by rwa [hstore₂]
  have htext₂ : s₂.text? .research = s.text? .research :=
    (hmoves₂.text?_eq (by rw [hstore₂]) List.not_mem_nil).trans (htext₁ _)
  refine ends_get ?_
  rw [hmoves.host.now]
  generalize hsession : (⟨id, query, findings, summary, questions, s.host.now⟩ : Session) = session
  -- The sessions of the text are found, and the last ones with the new one have values.
  have hfound := load_clear (hmoves.clear hc)
  rw [htext₂] at hfound
  have hload : Ends load s₂ fun r s₃ => r = .ok sessions ∧ Moves site [] s₂ s₃ :=
    hfound.mono fun r s₃ ⟨hr, hmoves₃⟩ => ⟨hr.unique hyields, hmoves₃⟩
  refine hload.bind_ok fun s₃ hmoves₃ => ?_
  have hclear₃ := (hmoves.trans hmoves₃).clear hc
  have hlast := inCalendar_of_mem_lastOnes hin session (by rwa [← hsession])
  have hmillis : ∀ x ∈ (lastOnes (sessions ++ [session])).map Session.inMillis,
      x.heldAt.InMillis := by
    intro x hx
    obtain ⟨y, hy, rfl⟩ := List.mem_map.1 hx
    exact (hlast y hy).inMillis
  obtain ⟨values, hvalues, -⟩ := Session.mapM_toJson? hmillis
  have hvalues' := (Session.mapM_toJson?_inMillis hlast).symm.trans hvalues
  dsimp only
  rw [hvalues']
  refine ends_nowText ?_
  -- They are written, for the text has no numbers and nothing is in its way.
  obtain ⟨hreadable, -⟩ := read_sessionsJson hmillis hvalues s₃.host.nowText
  refine (writeJson_spec hclear₃.toSited (hmoves₃.mode hready₂).1 .research
    (sessionsJson values s₃.host.nowText)).bind ?_ ?_
  · rintro e s₄ ⟨-, ⟨-, hlong⟩ | ⟨-, hnotClear⟩⟩
    · exact absurd hreadable.hasShortInts hlong
    · exact absurd hclear₃ hnotClear
  rintro ⟨⟩ s₄ ⟨hmoves₄, hholds, -⟩
  refine Ends.of_eq (run_pure _ s₄) ⟨session, rfl, ⟨id, hsession.symm⟩, hmoves₄.clear hclear₃,
    hmillis, .inr ⟨values, _, ?_, hholds⟩⟩
  rw [rtake_map_lastOnes, hvalues]

namespace Retained

/-- The sessions that the text of a store yields. -/
theorem yields (h : Retained site saved s) {r : Except StoreError (List Session)}
    (hr : Yields (s.text? .research) r) : r = .ok (saved.rtake 50) := by
  have hmillis : ∀ session ∈ saved.rtake 50, session.heldAt.InMillis := fun session hsession =>
    h.inMillis session (List.mem_of_mem_drop hsession)
  rcases h.written with ⟨hnone, hempty⟩ | ⟨values, now, hvalues, hholds⟩
  · -- There is no document, and no session was saved.
    rw [hnone.text? (by simp)] at hr
    rw [hempty]
    cases hr
    rfl
  · obtain ⟨hreadable, hare⟩ := read_sessionsJson hmillis hvalues now
    obtain ⟨hkeeps, hchecked⟩ := keeps_of_forall₂ hare
    have htext : s.text? .research = some (sessionsJson values now).stored := by
      refine hholds.text? ?_
      rintro t ⟨⟩
      exact Json.return_notMem_stored _
    rw [htext] at hr
    rcases hr.of_array (Json.read_stored hreadable) rfl with ⟨⟨v, hv, hstumbles⟩, -⟩ | hfound
    · exact absurd hstumbles (hchecked v hv)
    · obtain ⟨-, sessions, rfl, hkeeps'⟩ := hfound
      rw [hkeeps'.unique hkeeps]

/-- What changes no document and leaves the mode keeps the sessions. -/
theorem of_moves (h : Retained site saved s) (hmoves : Moves site [] s s')
    (hmode : s'.store.memory.isSome = s.store.memory.isSome) : Retained site saved s' where
  clear := hmoves.clear h.clear
  inMillis := h.inMillis
  written := by
    have hsame := hmoves.holds_iff hmode (List.not_mem_nil (a := Document.research))
    simpa only [Written, hsame] using h.written

/-- So does another moment. -/
theorem setClock (h : Retained site saved s) (now : Time.Moment) :
    Retained site saved (s.setClock now) where
  clear := h.clear.congr rfl rfl rfl (fun hnot => ⟨hnot, rfl⟩) h.clear.ready
  inMillis := h.inMillis
  written := h.written

/-- Making the workspace ready keeps the sessions and the time. -/
theorem ensureReady (h : Retained site saved s) :
    Ends StoreAction.ensureReady s fun r s' => r = .ok () ∧ Retained site saved s' ∧
      s'.store.isReady ∧ s'.host.now = s.host.now := by
  refine (StoreAction.ensureReady_spec h.clear.toSited h.clear.ready).mono ?_
  intro r s' hr
  obtain ⟨hok, hmemory⟩ := hr.clear h.clear
  exact ⟨hok, h.of_moves hr.moves (by rw [hmemory]), hr.isReady hok, hr.moves.host.now⟩

/-- Reading the history of a workspace that is ready gives the last sessions. -/
theorem load_of_isReady (h : Retained site saved s) (hready : s.store.isReady) :
    Ends load s fun r s' => r = .ok (saved.rtake 50) ∧ Retained site saved s' ∧
      s'.store.isReady ∧ s'.host.now = s.host.now := by
  refine (load_clear h.clear).mono fun r s' ⟨hyields, hmoves⟩ => ?_
  obtain ⟨hready', hmode⟩ := hmoves.mode hready
  exact ⟨h.yields hyields, h.of_moves hmoves hmode, hready', hmoves.host.now⟩

/-- Reading the history gives the last sessions: a workspace that is not ready is made so first. -/
theorem load (h : Retained site saved s) :
    Ends load s fun r s' => r = .ok (saved.rtake 50) ∧ Retained site saved s' := by
  obtain ⟨hok, hretained, hready, -⟩ := h.ensureReady
  have hrun : ResearchHistory.load.run s =
      ResearchHistory.load.run (StoreAction.ensureReady.run s).2 := by
    unfold ResearchHistory.load
    rw [run_bind, run_bind, run_ensureReady hready]
    generalize hfirst : StoreAction.ensureReady.run s = first at hok ⊢
    obtain ⟨r, s₁⟩ := first
    obtain rfl := hok
    rfl
  have hload := hretained.load_of_isReady hready
  unfold Ends at hload ⊢
  rw [hrun]
  exact ⟨hload.1, hload.2.1⟩

/-- Saving a session at such a moment does not fail: it is the last one then. -/
theorem save (h : Retained site saved s) (hnow : s.host.now.InMillis) (query : String)
    (findings : List Finding) (summary : String) (questions : List String) :
    Ends (save query findings summary questions) s fun r s' => ∃ session : Session,
      r = .ok session ∧
      (∃ id, session = ⟨id, query, findings, summary, questions, s.host.now⟩) ∧
      Retained site (saved ++ [session]) s' := by
  obtain ⟨hyields, -⟩ := load_clear h.clear
  rw [h.yields hyields] at hyields
  have hin : ∀ x ∈ saved.rtake 50, x.heldAt.InCalendar := fun x hx =>
    (h.inMillis x (List.mem_of_mem_drop hx)).inCalendar
  refine (save_of_yields h.clear hyields hin hnow.inCalendar query findings summary questions).mono
    ?_
  rintro r s' ⟨session, hok, ⟨id, hsession⟩, hretained⟩
  have hmillis : ∀ x ∈ saved ++ [session], x.heldAt.InMillis := by
    refine List.forall_mem_append.2 ⟨h.inMillis, List.forall_mem_singleton.2 ?_⟩
    rw [hsession]
    exact hnow
  -- These sessions are the same down to milliseconds.
  have hsame : ((saved ++ [session]).rtake 50).map Session.inMillis =
      (saved ++ [session]).rtake 50 := by
    refine (List.map_congr_left fun x hx => ?_).trans (List.map_id' _)
    exact Session.inMillis_eq_self (hmillis x (List.mem_of_mem_drop hx))
  have hwritten := hretained.written
  rw [rtake_map_lastOnes, lastOnes_rtake_concat, hsame] at hwritten
  exact ⟨session, hok, ⟨id, hsession⟩, hretained.clear, hmillis, hwritten⟩

/-- Clearing the history: there are no sessions then. -/
theorem forget (h : Retained site saved s) :
    Ends ResearchHistory.clear s fun r s' => r = .ok () ∧ Retained site [] s' := by
  unfold ResearchHistory.clear
  refine h.ensureReady.bind_ok fun s₁ ⟨h₁, hready₁, _⟩ => ?_
  have hholds : ∃ text, s₁.Holds .research text := by
    rcases h₁.written with ⟨hnone, -⟩ | ⟨values, now, -, hholds⟩
    · exact ⟨_, hnone⟩
    · exact ⟨_, hholds⟩
  obtain ⟨text, hholds⟩ := hholds
  refine (Chain.discard_remove h₁.clear hready₁ hholds).mono ?_
  rintro r s₂ ⟨hok, hmoves, hgone⟩
  exact ⟨hok, hmoves.clear h₁.clear, by simp, .inl ⟨hgone, rfl⟩⟩

/-! ## Runs -/

/-- Every step gives what it is to give and keeps the sessions. -/
theorem perform (h : Retained site saved s) {step : HistoryStep} (hnow : step.now.InMillis) :
    Ends step.op.perform (s.setClock step.now) fun r s' => ∃ x saved', r = .ok x ∧
      Gives saved step x saved' ∧ Retained site saved' s' := by
  obtain ⟨now, op⟩ := step
  have hclock := h.setClock now
  cases op with
  | save query findings summary questions =>
    refine (hclock.save hnow query findings summary questions).bind ?_ ?_
    · rintro e s' ⟨session, hok, -⟩
      cases hok
    · rintro session s' ⟨session', hok, hsession, hretained⟩
      obtain rfl := Except.ok.inj hok
      exact Ends.of_eq (run_pure _ s') ⟨_, _, rfl, ⟨session, hsession, rfl, rfl⟩, hretained⟩
  | clear =>
    refine hclock.forget.bind_ok fun s' hretained => ?_
    exact Ends.of_eq (run_pure _ s') ⟨_, _, rfl, ⟨rfl, rfl⟩, hretained⟩
  | load =>
    refine hclock.load.bind_ok fun s' hretained => ?_
    exact Ends.of_eq (run_pure _ s') ⟨_, _, rfl, ⟨rfl, rfl⟩, hretained⟩

/-- Reading gives the last sessions at every moment. -/
theorem shows (h : Retained site saved s) : Shows s (saved.rtake 50) :=
  fun now => (h.setClock now).load.1

/-- A run goes by the sessions that it starts with. -/
theorem follows {steps : List HistoryStep} (h : Retained site saved s)
    (hnow : ∀ step ∈ steps, step.now.InMillis) : Follows steps saved s := by
  -- By the steps of the run; the invariant is what `perform` preserves.
  induction steps generalizing saved s with
  | nil => exact h.shows
  | cons step steps ih =>
    obtain ⟨hfirst, hrest⟩ := List.forall_mem_cons.1 hnow
    refine ⟨h.shows, (h.perform hfirst).mono ?_⟩
    rintro r s' ⟨x, saved', hok, hgives, hretained⟩
    exact ⟨x, saved', hok, hgives, ih hretained hrest⟩

end Retained

/-- A run of operations on a research history that starts empty, where nothing is in the way of
documents, no primitive fails and the clock tells milliseconds: no operation fails, and before and
after each one reading gives the last fifty of the sessions that were saved since the last clear,
oldest first, as saving gave them. -/
theorem last_sessions_are_kept (hc : s.Clear site) (hempty : s.Holds .research none)
    {steps : List HistoryStep} (hnow : ∀ step ∈ steps, step.now.InMillis) :
    Follows steps [] s := by
  have hretained : Retained site [] s := ⟨hc, by simp, .inl ⟨hempty, rfl⟩⟩
  exact hretained.follows hnow

/-- Noon of a day in May. -/
def noon : Time.Moment := ⟨⟨2024, 5, 1⟩, ⟨12, 0, 0, 7000⟩, 0⟩

/-- Sessions are saved, cleared and saved in a workspace with an empty control directory. -/
theorem last_sessions_are_kept_when_cleared :
    (State.withEntries [] Faults.none).Fresh ⟨["ws", ".contextscan"], ["ws", ".contextscan"], []⟩ ∧
    Follows [⟨noon, .save "q" [⟨"f", "t", "c", .pitfall, .high, none⟩] "s" ["why?"]⟩,
      ⟨noon, .clear⟩, ⟨noon, .save "q" [] "" []⟩, ⟨noon, .load⟩] []
      (State.withEntries [] Faults.none) := by
  have hnoon : noon.InMillis := by
    refine ⟨?_, ?_, rfl, by decide⟩
    · exact ⟨by decide, by decide, by decide, by decide, by decide, by decide⟩
    · exact ⟨by decide, by decide, by decide, by decide⟩
  have hfresh := State.fresh_withEntries
  refine ⟨hfresh, last_sessions_are_kept hfresh.clear (hfresh.holds .research) ?_⟩
  simp only [List.forall_mem_cons]
  exact ⟨hnoon, hnoon, hnoon, hnoon, by simp⟩

/-! ## Sessions of any origin -/

/-- Every session that can be read, if it was held at a moment on the calendar of universal time,
has a value, which is read as the session down to milliseconds, and that one has the same value. So
where nothing is in the way of documents, saving another session to a history of such sessions does
not fail, and reading gives the last of them and the new one down to milliseconds from then on. -/
theorem sessions_are_rewritten_down_to_millis :
    (∀ j x, Session.ofJson j = .ok (some x) → x.heldAt.InCalendar →
      ∃ j' x', x.toJson? = some j' ∧ Session.ofJson j' = .ok (some x') ∧ x.DownToMillis x' ∧
        x'.toJson? = some j') ∧
    ∀ (site : Site) (s : State) (sessions : List Session), s.Clear site →
      (load.run s).1 = .ok sessions → (∀ x ∈ sessions, x.heldAt.InCalendar) →
      s.host.now.InCalendar → ∀ query findings summary questions,
      Ends (save query findings summary questions) s fun r s' => ∃ session kept,
        r = .ok session ∧ Shows s' kept ∧
        List.Forall₂ Session.DownToMillis (lastOnes (sessions ++ [session])) kept := by
  refine ⟨fun j x _ hx => ?_, ?_⟩
  · obtain ⟨j', hj', hread, hsame⟩ := Session.toJson?_of_inCalendar hx
    exact ⟨j', _, hj', hread, Session.downToMillis_inMillis hx, hsame⟩
  · intro site s sessions hc hload hin hnow query findings summary questions
    obtain ⟨hyields, -⟩ := load_clear hc
    rw [hload] at hyields
    refine (save_of_yields hc hyields hin hnow query findings summary questions).mono ?_
    rintro r s' ⟨session, hok, ⟨id, hsession⟩, hretained⟩
    have hshows := hretained.shows
    rw [rtake_map_lastOnes] at hshows
    refine ⟨session, _, hok, hshows, ?_⟩
    -- Each session that is kept was on the calendar before, or is the new one, held now.
    rw [List.forall₂_map_right_iff]
    refine List.forall₂_same.2 fun x hx => Session.downToMillis_inMillis ?_
    rcases List.mem_append.1 (List.mem_of_mem_drop hx) with hx | hx
    · exact hin x hx
    · rw [List.mem_singleton.1 hx, hsession]
      exact hnow

/-- The value of a session that was held at the moment of a text. -/
def sessionAt (moment : String) : Json :=
  .obj [("id", .str "s"), ("query", .str "q"), ("summary", .str ""), ("timestamp", .str moment),
    ("findings", .arr [])]

/-- The session of such a value. -/
def emptySession (heldAt : Time.Moment) : Session := ⟨"s", "q", [], "", [], heldAt⟩

/-- A moment with microseconds, ahead of universal time. -/
def halfPastOne : Time.Moment := ⟨⟨2024, 5, 1⟩, ⟨1, 30, 0, 123456⟩, 7200000000⟩

/-- Its text is read. -/
theorem ofJson_sessionAt_halfPastOne :
    Session.ofJson (sessionAt "2024-05-01T01:30:00.123456+02:00") =
      .ok (some (emptySession halfPastOne)) := by decide +kernel

/-- A history of such a session. -/
def historyAt (moment : String) : Json := .obj [("sessions", .arr [sessionAt moment])]

/-- Its text is read as its value. -/
theorem read_historyAt (moment : String) :
    Json.read (historyAt moment).stored = .ok (historyAt moment) := by
  refine Json.read_stored (.obj (by simp) (List.forall_mem_singleton.2 ?_))
  refine .arr (List.forall_mem_singleton.2 (.obj (by simp) ?_))
  simp only [List.forall_mem_cons]
  exact ⟨.str _, .str _, .str _, .str _, .arr (by simp), by simp⟩

/-- The session of such a history is found. -/
theorem load_historyAt {moment : String} {session : Session}
    (h : Session.ofJson (sessionAt moment) = .ok (some session)) :
    (load.run (withHistory (historyAt moment))).1 = .ok [session] := by
  obtain ⟨hyields, -⟩ := load_clear (clear_withHistory (historyAt moment))
  rw [text?_withHistory] at hyields
  obtain ⟨hkeeps, hchecked⟩ := keeps_of_forall₂ (.cons (Session.ofJson_eq_some.1 h) .nil)
  rw [hyields.unique (.sessions (read_historyAt moment) rfl hchecked hkeeps)]

/-- A session that was held ahead of universal time is there again after the next one was saved,
down to milliseconds. -/
theorem session_is_rewritten_in_universal_time :
    (withHistory (historyAt "2024-05-01T01:30:00.123456+02:00")).Clear
        ⟨[], [], ["ws", ".contextscan"]⟩ ∧
      (load.run (withHistory (historyAt "2024-05-01T01:30:00.123456+02:00"))).1 =
        .ok [emptySession halfPastOne] ∧
      ∃ j' x', (emptySession halfPastOne).toJson? = some j' ∧
        Session.ofJson j' = .ok (some x') ∧ (emptySession halfPastOne).DownToMillis x' ∧
        Ends (save "next" [] "" []) (withHistory (historyAt "2024-05-01T01:30:00.123456+02:00"))
          fun r s' => ∃ session kept, r = .ok session ∧ Shows s' kept ∧
            List.Forall₂ Session.DownToMillis [emptySession halfPastOne, session] kept := by
  have hread := ofJson_sessionAt_halfPastOne
  have hclear := clear_withHistory (historyAt "2024-05-01T01:30:00.123456+02:00")
  have hload := load_historyAt hread
  have hin : (emptySession halfPastOne).heldAt.InCalendar := by decide
  have hnow : (⟨⟨2024, 1, 1⟩, .midnight, 0⟩ : Time.Moment).InCalendar := by decide
  obtain ⟨hvalues, hsaves⟩ := sessions_are_rewritten_down_to_millis
  obtain ⟨j', x', hj', hx', hmillis, -⟩ := hvalues _ _ hread hin
  exact ⟨hclear, hload, j', x', hj', hx', hmillis,
    hsaves _ _ _ hclear hload (List.forall_mem_singleton.2 hin) hnow _ _ _ _⟩

/-- A session that was held some microseconds after a whole millisecond is not the same when it is
read back: it was held at another instant then. -/
theorem microseconds_are_not_rewritten :
    ∃ x j' x', Session.ofJson (sessionAt "2024-05-01T01:30:00.123456+02:00") = .ok (some x) ∧
      x.toJson? = some j' ∧ Session.ofJson j' = .ok (some x') ∧
      x'.heldAt.instant ≠ x.heldAt.instant := by
  have hin : (emptySession halfPastOne).heldAt.InCalendar := by decide
  obtain ⟨j', hj', hread', -⟩ := Session.toJson?_of_inCalendar hin
  refine ⟨_, j', _, ofJson_sessionAt_halfPastOne, hj', hread', ?_⟩
  obtain ⟨hinstant, -⟩ := Session.downToMillis_inMillis hin
  have hmicros : (emptySession halfPastOne).heldAt.instant % 1000 = 456 := by decide
  omega

end ResearchHistory

end CodeSurvey.Storage
