import CodeSurvey.Proofs.Research.Session
import CodeSurvey.Proofs.Storage.Operations

/-!
# Reading the research history

What the history gives is told by its text (`Yields`): no sessions if there is no text, if it is
malformed or if it holds no array of sessions, and otherwise the sessions that the elements of the
array describe, in their order; each other element is skipped (`Keeps`). Reading ends so wherever
the file itself can be read (`history_is_read`).

Reading fails for a text that is out of the reader's bounds, and for an element whose check fails.
One such element is enough (`compound_category_ends_reading`).
-/

namespace CodeSurvey.Storage

open CodeSurvey.Files CodeSurvey.Research
open State (Moves)
open StoreAction

variable {site : Site} {s : State}

/-! ## Reading in a clear state -/

namespace StoreAction

/-- In a clear state the workspace is made ready, and documents have the texts that they had. -/
theorem ensureReady_clear (hc : s.Clear site) :
    Ends ensureReady s fun r s' => r = .ok () ∧ Moves site [] s s' ∧ s'.store.isReady ∧
      ∀ d, s'.text? d = s.text? d := by
  refine (ensureReady_spec hc.toSited hc.ready).mono ?_
  intro r s' h
  obtain ⟨hok, hmemory⟩ := h.clear hc
  have hmode : s'.store.memory.isSome = s.store.memory.isSome := by rw [hmemory]
  exact ⟨hok, h.moves, h.isReady hok, fun d => h.moves.text?_eq hmode List.not_mem_nil⟩

/-- What reading the value of a document ends with, by its text. -/
inductive GivesValue : Option String → Except StoreError (Option Json) → Prop
  | absent : GivesValue none (.ok none)
  | malformed {text : String} {flaw : Json.Flaw} {place : Json.Place}
      (read : Json.read text = .error (.malformed flaw place)) : GivesValue (some text) (.ok none)
  | value {text : String} {j : Json} (read : Json.read text = .ok j) :
      GivesValue (some text) (.ok (some j))
  | outOfBounds {text : String} {e : Json.ReadError} (read : Json.read text = .error e)
      (bounds : ∀ flaw place, e ≠ .malformed flaw place) :
      GivesValue (some text) (.error (.outOfBounds e))

/-- What reading ends with if a text has no value: a malformed one counts as none. -/
def unread {α : Type} (nothing : α) : Json.ReadError → Except StoreError α
  | .malformed _ _ => .ok nothing
  | e => .error (.outOfBounds e)

/-- A text that is not malformed but out of bounds is an error. -/
theorem unread_of_bounds {α : Type} (nothing : α) {e : Json.ReadError}
    (h : ∀ flaw place, e ≠ .malformed flaw place) : unread nothing e = .error (.outOfBounds e) := by
  cases e with
  | malformed flaw place => exact absurd rfl (h flaw place)
  | _ => rfl

/-- In a clear state the value of a document's text is read. -/
theorem readJson_clear (hc : s.Clear site) (d : Document) :
    Ends (readJson d) s fun r s' => GivesValue (s.text? d) r ∧ Moves site [] s s' := by
  unfold readJson
  have htext : Ends (readText d) s fun r s' => r = .ok (s.text? d) ∧ Moves site [] s s' :=
    (readText_spec hc.toSited d).mono fun r s' h => ⟨h.clear hc, h.moves⟩
  refine htext.bind_ok fun s' hm => ?_
  cases s.text? d with
  | none => exact Ends.of_eq (run_pure none s') ⟨.absent, hm⟩
  | some text =>
    dsimp only
    cases hread : Json.read text with
    | ok j => exact Ends.of_eq (run_pure (some j) s') ⟨.value hread, hm⟩
    | error e =>
      cases e with
      | malformed flaw place => exact Ends.of_eq (run_pure none s') ⟨.malformed hread, hm⟩
      | tooManyDigits n => exact Ends.of_eq (run_throw _ s') ⟨.outOfBounds hread (by simp), hm⟩
      | tooDeep => exact Ends.of_eq (run_throw _ s') ⟨.outOfBounds hread (by simp), hm⟩

end StoreAction

namespace ResearchHistory

/-! ## The sessions of an array -/

/-- The sessions that values describe, in their order; each of the other values is skipped. -/
inductive Keeps : List Json → List Session → Prop
  | nil : Keeps [] []
  | keep {j : Json} {session : Session} {values : List Json} {sessions : List Session}
      (is : Session.IsOf j session) (rest : Keeps values sessions) :
      Keeps (j :: values) (session :: sessions)
  | skip {j : Json} {values : List Json} {sessions : List Session}
      (isNot : ∀ session, ¬ Session.IsOf j session) (rest : Keeps values sessions) :
      Keeps (j :: values) sessions

/-- A check that does not fail finds the session that a value describes, or that there is none. -/
theorem isOf_of_ofJson {j : Json} {found : Option Session} (h : Session.ofJson j = .ok found)
    (session : Session) : found = some session ↔ Session.IsOf j session := by
  rw [← Session.ofJson_eq_some, h, Except.ok.injEq]

/-- The sessions that were found are those that the values describe. -/
theorem keeps_of_found {values : List Json} {found : List (Option Session)}
    (h : List.Forall₂ (fun j f => Session.ofJson j = .ok f) values found) :
    Keeps values (found.filterMap fun f => f) := by
  induction h with
  | nil => exact .nil
  | @cons j f values found hj _ ih =>
    cases f with
    | none =>
      refine .skip (fun session his => ?_) ih
      cases (isOf_of_ofJson hj session).2 his
    | some session => exact .keep ((isOf_of_ofJson hj session).1 rfl) ih

/-- A value describes one session at most. -/
theorem isOf_unique {j : Json} {session session' : Session} (h : Session.IsOf j session)
    (h' : Session.IsOf j session') : session = session' := by
  have hsame := (Session.ofJson_eq_some.2 h).symm.trans (Session.ofJson_eq_some.2 h')
  exact Option.some.inj (Except.ok.inj hsame)

/-- So the sessions that values describe are determined. -/
theorem Keeps.unique {values : List Json} {sessions sessions' : List Session}
    (h : Keeps values sessions) (h' : Keeps values sessions') : sessions = sessions' := by
  induction h generalizing sessions' with
  | nil =>
    cases h'
    rfl
  | keep his _ ih =>
    cases h' with
    | keep his' hrest' => rw [isOf_unique his his', ih hrest']
    | skip hnot _ => exact absurd his (hnot _)
  | skip hnot _ ih =>
    cases h' with
    | keep his' _ => exact absurd his' (hnot _)
    | skip _ hrest' => exact ih hrest'

/-- The values describe these sessions if the check of none of them fails. -/
theorem sessionsOf_cases (values : List Json) :
    (∃ v ∈ values, Session.Stumbles v) ∧ sessionsOf values = .error .compound ∨
    (∀ v ∈ values, ¬ Session.Stumbles v) ∧
      ∃ sessions, sessionsOf values = .ok sessions ∧ Keeps values sessions := by
  unfold sessionsOf
  simp only [← Session.ofJson_eq_error]
  cases hfound : values.mapM Session.ofJson with
  | error e =>
    cases e
    exact .inl ⟨mapM_eq_error.1 hfound, rfl⟩
  | ok found =>
    refine .inr ⟨fun v hv hfails => ?_, _, rfl, keeps_of_found (mapM_eq_ok.1 hfound)⟩
    have herror := (mapM_eq_error (f := Session.ofJson)).2 ⟨v, hv, hfails⟩
    cases hfound.symm.trans herror

/-! ## The history -/

/-- What reading the history ends with, by its text. -/
inductive Yields : Option String → Except StoreError (List Session) → Prop
  /-- There is no text: no file, or none in UTF-8. -/
  | absent : Yields none (.ok [])
  /-- The text is no JSON. -/
  | malformed {text : String} {flaw : Json.Flaw} {place : Json.Place}
      (read : Json.read text = .error (.malformed flaw place)) : Yields (some text) (.ok [])
  /-- It is not an object with an array of sessions. -/
  | noArray {text : String} {j : Json} (read : Json.read text = .ok j)
      (no : ∀ values, j.get? "sessions" ≠ some (.arr values)) : Yields (some text) (.ok [])
  /-- It is one, and each element is kept or skipped. -/
  | sessions {text : String} {j : Json} {values : List Json} {sessions : List Session}
      (read : Json.read text = .ok j) (array : j.get? "sessions" = some (.arr values))
      (none : ∀ v ∈ values, ¬ Session.Stumbles v) (keeps : Keeps values sessions) :
      Yields (some text) (.ok sessions)
  /-- The check of an element fails, and so does reading. -/
  | stumbles {text : String} {j : Json} {values : List Json}
      (read : Json.read text = .ok j) (array : j.get? "sessions" = some (.arr values))
      (one : ∃ v ∈ values, Session.Stumbles v) : Yields (some text) (.error .compoundName)
  /-- A number of the text is too long, or it is nested too deeply. -/
  | outOfBounds {text : String} {e : Json.ReadError} (read : Json.read text = .error e)
      (bounds : ∀ flaw place, e ≠ .malformed flaw place) :
      Yields (some text) (.error (.outOfBounds e))

/-- A text with an array of sessions yields one thing only. -/
theorem Yields.of_array {text : String} {j : Json} {values : List Json}
    {r : Except StoreError (List Session)} (h : Yields (some text) r)
    (hread : Json.read text = .ok j) (harray : j.get? "sessions" = some (.arr values)) :
    (∃ v ∈ values, Session.Stumbles v) ∧ r = .error .compoundName ∨
    (∀ v ∈ values, ¬ Session.Stumbles v) ∧ ∃ sessions, r = .ok sessions ∧
      Keeps values sessions := by
  -- Only the last two cases have an array under that name.
  cases h with
  | malformed hread' => cases hread.symm.trans hread'
  | outOfBounds hread' _ => cases hread.symm.trans hread'
  | noArray hread' hno =>
    obtain rfl := Except.ok.inj (hread.symm.trans hread')
    exact absurd harray (hno values)
  | sessions hread' harray' hnone hkeeps =>
    obtain rfl := Except.ok.inj (hread.symm.trans hread')
    obtain rfl := Json.arr.inj (Option.some.inj (harray.symm.trans harray'))
    exact .inr ⟨hnone, _, rfl, hkeeps⟩
  | stumbles hread' harray' hone =>
    obtain rfl := Except.ok.inj (hread.symm.trans hread')
    obtain rfl := Json.arr.inj (Option.some.inj (harray.symm.trans harray'))
    exact .inl ⟨hone, rfl⟩

/-- A text without a value yields nothing, or an error. -/
theorem Yields.eq_unread {text : String} {e : Json.ReadError} {r : Except StoreError (List Session)}
    (h : Yields (some text) r) (hread : Json.read text = .error e) : r = unread [] e := by
  cases h with
  | malformed hread' =>
    obtain rfl := Except.error.inj (hread.symm.trans hread')
    rfl
  | outOfBounds hread' hbounds =>
    obtain rfl := Except.error.inj (hread.symm.trans hread')
    exact (unread_of_bounds [] hbounds).symm
  | noArray hread' _ => cases hread.symm.trans hread'
  | sessions hread' _ _ _ => cases hread.symm.trans hread'
  | stumbles hread' _ _ => cases hread.symm.trans hread'

/-- Neither does one without an array of sessions. -/
theorem Yields.eq_nil {text : String} {j : Json} {r : Except StoreError (List Session)}
    (h : Yields (some text) r) (hread : Json.read text = .ok j)
    (hno : ∀ values, j.get? "sessions" ≠ some (.arr values)) : r = .ok [] := by
  cases h with
  | malformed => rfl
  | noArray => rfl
  | outOfBounds hread' _ => cases hread.symm.trans hread'
  | sessions hread' harray _ _ =>
    obtain rfl := Except.ok.inj (hread.symm.trans hread')
    exact absurd harray (hno _)
  | stumbles hread' harray _ =>
    obtain rfl := Except.ok.inj (hread.symm.trans hread')
    exact absurd harray (hno _)

/-- A text yields one thing only. -/
theorem Yields.unique {text? : Option String} {r r' : Except StoreError (List Session)}
    (h : Yields text? r) (h' : Yields text? r') : r = r' := by
  cases text? with
  | none =>
    cases h
    cases h'
    rfl
  | some text =>
    cases hread : Json.read text with
    | error e => rw [h.eq_unread hread, h'.eq_unread hread]
    | ok j =>
      by_cases harray : ∃ values, j.get? "sessions" = some (.arr values)
      · -- With an array it depends on whether one of its values makes reading stumble.
        obtain ⟨values, harray⟩ := harray
        rcases h.of_array hread harray with ⟨⟨v, hv, hstumbles⟩, rfl⟩ | ⟨hnone, x, rfl, hkeeps⟩
        · rcases h'.of_array hread harray with ⟨-, rfl⟩ | ⟨hnone, -⟩
          · rfl
          · exact absurd hstumbles (hnone v hv)
        · rcases h'.of_array hread harray with ⟨⟨v, hv, hstumbles⟩, -⟩ | ⟨-, x', rfl, hkeeps'⟩
          · exact absurd hstumbles (hnone v hv)
          · rw [hkeeps.unique hkeeps']
      · rw [not_exists] at harray
        rw [h.eq_nil hread harray, h'.eq_nil hread harray]

/-- What the elements of a value yield. -/
theorem yields_of_sessionsOf {text : String} {j : Json} (hread : Json.read text = .ok j) :
    (∃ sessions, sessionsOf (((j.get? "sessions").bind Json.arr?).getD []) = .ok sessions ∧
      Yields (some text) (.ok sessions)) ∨
    (sessionsOf (((j.get? "sessions").bind Json.arr?).getD []) = .error .compound ∧
      Yields (some text) (.error .compoundName)) := by
  cases harray : (j.get? "sessions").bind Json.arr? with
  | none =>
    refine .inl ⟨[], rfl, .noArray hread fun values hvalues => ?_⟩
    rw [hvalues] at harray
    cases harray
  | some values =>
    obtain ⟨v, hv, hvalues⟩ := Option.bind_eq_some_iff.1 harray
    rw [Json.arr?_eq_some.1 hvalues] at hv
    rw [Option.getD_some]
    rcases sessionsOf_cases values with ⟨hone, hfails⟩ | ⟨hnone, sessions, hfound, hkeeps⟩
    · exact .inr ⟨hfails, .stumbles hread hv hone⟩
    · exact .inl ⟨sessions, hfound, .sessions hread hv hnone hkeeps⟩

/-- In a clear state reading the history ends with what its text yields, and changes nothing. -/
theorem load_clear (hc : s.Clear site) :
    Ends load s fun r s' => Yields (s.text? .research) r ∧ Moves site [] s s' := by
  unfold load
  refine (ensureReady_clear hc).bind_ok fun s₁ ⟨hm₁, _, htext⟩ => ?_
  have hvalue := readJson_clear (hm₁.clear hc) .research
  rw [htext] at hvalue
  -- From here on nothing but the text of the document matters.
  generalize s.text? .research = text? at hvalue ⊢
  refine hvalue.bind ?_ ?_
  · rintro e s₂ ⟨hgives, hm₂⟩
    cases hgives with
    | outOfBounds hread hbounds => exact ⟨.outOfBounds hread hbounds, hm₁.trans hm₂⟩
  · rintro found s₂ ⟨hgives, hm₂⟩
    have hm := hm₁.trans hm₂
    cases hgives with
    | absent => exact Ends.of_eq (run_pure [] s₂) ⟨.absent, hm⟩
    | malformed hread => exact Ends.of_eq (run_pure [] s₂) ⟨.malformed hread, hm⟩
    | value hread =>
      dsimp only [Option.bind_some]
      rcases yields_of_sessionsOf hread with ⟨sessions, hsessions, hyields⟩ | ⟨herror, hyields⟩
      · rw [hsessions]
        exact Ends.of_eq (run_pure sessions s₂) ⟨hyields, hm⟩
      · rw [herror]
        exact Ends.of_eq (run_throw _ s₂) ⟨hyields, hm⟩

/-- What is made of the sessions is made of what reading them ends with. -/
theorem run_load_map {α : Type} (f : List Session → α) (s : State) :
    (do return f (← load) : StoreAction α).run s =
      ((load.run s).1.map f, (load.run s).2) := by
  rw [run_bind]
  rcases load.run s with ⟨e | sessions, s'⟩ <;> rfl

/-- In a clear state the history, its latest session and their number are what its text yields:
reading fails for a text out of bounds or an element whose check fails, and otherwise the sessions
are those that the elements describe. Nothing is changed. -/
theorem history_is_read (hc : s.Clear site) :
    ∃ r, Yields (s.text? .research) r ∧
      (Ends load s fun r' s' => r' = r ∧ Moves site [] s s') ∧
      (Ends latest s fun r' s' => r' = r.map List.getLast? ∧ Moves site [] s s') ∧
      Ends count s fun r' s' => r' = r.map List.length ∧ Moves site [] s s' := by
  obtain ⟨hyields, hm⟩ := load_clear hc
  refine ⟨_, hyields, ⟨rfl, hm⟩, ?_, ?_⟩
  · exact Ends.of_eq (run_load_map List.getLast? s) ⟨rfl, hm⟩
  · exact Ends.of_eq (run_load_map List.length s) ⟨rfl, hm⟩

/-- A workspace with the text of a value as its research history. -/
def withHistory (j : Json) : State :=
  State.withEntries
    [(["artifacts"], .dir), (["cache"], .dir), (["research.json"], .file j.stored.toUTF8)]
    Faults.none

/-- Such a workspace is clear. -/
theorem clear_withHistory (j : Json) :
    (withHistory j).Clear ⟨[], [], ["ws", ".contextscan"]⟩ := by
  refine State.clear_withEntries ?_ ?_ ?_
  · simp only [State.withEntries, List.map_cons, List.map_nil, List.cons_append, List.nil_append,
      List.forall_mem_cons]
    exact ⟨rfl, rfl, rfl, rfl, rfl, by simp⟩
  · simp
  · simp only [List.forall_mem_cons]
    exact ⟨rfl, rfl, rfl, by simp⟩

/-- The text of its history is that of the value. -/
theorem text?_withHistory (j : Json) : (withHistory j).text? .research = some j.stored := by
  have hholds : (withHistory j).Holds .research (some j.stored) := rfl
  refine hholds.text? ?_
  rintro t ⟨⟩
  exact Json.return_notMem_stored j

/-- The value of a session with one finding, whose category has a value. -/
def sessionValue (category : Json) : Json :=
  .obj [("id", .str "s"), ("query", .str "q"), ("summary", .str ""),
    ("timestamp", .str "2024-05-01T12:00:00.000Z"),
    ("findings", .arr [.obj [("id", .str "f"), ("title", .str "t"), ("content", .str ""),
      ("category", category), ("relevance", .str "high")]])]

/-- A history of such a session and of an empty object. -/
def historyValue (category : Json) : Json :=
  .obj [("sessions", .arr [sessionValue category, .obj []])]

/-- The text of the history is read as its value. -/
theorem read_historyValue {category : Json} (h : Json.Readable 955 category) :
    Json.read (historyValue category).stored = .ok (historyValue category) := by
  have hfinding : Json.Readable 956 (.obj [("id", .str "f"), ("title", .str "t"),
      ("content", .str ""), ("category", category), ("relevance", .str "high")]) := by
    refine .obj (by simp) ?_
    simp only [List.forall_mem_cons]
    exact ⟨.str _, .str _, .str _, h, .str _, by simp⟩
  have hsession : Json.Readable 958 (sessionValue category) := by
    refine .obj (by simp) ?_
    simp only [List.forall_mem_cons]
    refine ⟨.str _, .str _, .str _, .str _, .arr ?_, by simp⟩
    exact List.forall_mem_singleton.2 hfinding
  refine Json.read_stored (.obj (by simp) ?_)
  refine List.forall_mem_singleton.2 (.arr ?_)
  simp only [List.forall_mem_cons]
  exact ⟨hsession, .obj (by simp) (by simp), by simp⟩

/-- The session of such a history with a known category. -/
def pitfallSession : Session where
  id := "s"
  query := "q"
  findings := [⟨"f", "t", "", .pitfall, .high, none⟩]
  summary := ""
  questions := []
  heldAt := ⟨⟨2024, 5, 1⟩, ⟨12, 0, 0, 0⟩, 0⟩

/-- The session is kept, and the empty object is skipped. -/
theorem history_is_read_past_empty_object :
    (withHistory (historyValue (.str "pitfall"))).Clear ⟨[], [], ["ws", ".contextscan"]⟩ ∧
    (load.run (withHistory (historyValue (.str "pitfall")))).1 = .ok [pitfallSession] ∧
    (count.run (withHistory (historyValue (.str "pitfall")))).1 = .ok 1 := by
  have hclear := clear_withHistory (historyValue (.str "pitfall"))
  obtain ⟨r, hyields, ⟨hload, -⟩, -, hcount, -⟩ := history_is_read hclear
  have hsession : Session.ofJson (sessionValue (.str "pitfall")) = .ok (some pitfallSession) := by
    decide +kernel
  have hempty : Session.ofJson (.obj []) = .ok none := rfl
  rw [text?_withHistory] at hyields
  rcases hyields.of_array (read_historyValue (.str _)) rfl with ⟨hone, -⟩ | ⟨-, found, rfl, hkeeps⟩
  · -- Neither check fails.
    obtain ⟨v, hv, hstumbles⟩ := hone
    have herror := Session.ofJson_eq_error.2 hstumbles
    rcases List.mem_pair.1 hv with rfl | rfl
    · cases hsession.symm.trans herror
    · cases hempty.symm.trans herror
  · have hfound : Keeps [sessionValue (.str "pitfall"), .obj []] [pitfallSession] := by
      refine .keep (Session.ofJson_eq_some.1 hsession) (.skip (fun session his => ?_) .nil)
      cases (isOf_of_ofJson hempty session).2 his
    obtain rfl := hkeeps.unique hfound
    exact ⟨hclear, hload, hcount⟩

/-- A session whose finding has an array as its category is no session, but it is not skipped: the
history, its latest session and their number cannot be read. -/
theorem compound_category_ends_reading :
    (withHistory (historyValue (.arr []))).Clear ⟨[], [], ["ws", ".contextscan"]⟩ ∧
    (∀ session, ¬ Session.IsOf (sessionValue (.arr [])) session) ∧
    (load.run (withHistory (historyValue (.arr [])))).1 = .error .compoundName ∧
    (latest.run (withHistory (historyValue (.arr [])))).1 = .error .compoundName ∧
    (count.run (withHistory (historyValue (.arr [])))).1 = .error .compoundName := by
  have hclear := clear_withHistory (historyValue (.arr []))
  have hfails : Session.ofJson (sessionValue (.arr [])) = .error .compound := by
    decide +kernel
  -- The other two readings are made of this one.
  have hload : (load.run (withHistory (historyValue (.arr [])))).1 = .error .compoundName := by
    obtain ⟨hyields, -⟩ := load_clear hclear
    rw [text?_withHistory] at hyields
    have hread := read_historyValue (.arr (List.forall_mem_nil _))
    rcases hyields.of_array hread rfl with ⟨-, herror⟩ | ⟨hnone, -⟩
    · exact herror
    · exact absurd (Session.ofJson_eq_error.1 hfails) (hnone _ List.mem_cons_self)
  refine ⟨hclear, fun session his => ?_, hload, ?_, ?_⟩
  · cases hfails.symm.trans (Session.ofJson_eq_some.2 his)
  · rw [latest, run_load_map, hload]
    rfl
  · rw [count, run_load_map, hload]
    rfl

end ResearchHistory

end CodeSurvey.Storage
