import CodeSurvey.Proofs.Records.Recovery
import CodeSurvey.Proofs.Time.NormalForm
import Mathlib.Data.List.Forall2

/-!
# Which values are research sessions

What a value must hold to be a finding (`Finding.IsOf`) or a session (`Session.IsOf`), and which
values cannot be checked because a name in them is an array or an object (`Finding.Stumbles`,
`Session.Stumbles`). The checks find just these (`Session.ofJson_eq_some`,
`Session.ofJson_eq_error`); every other value is passed over. The value of a session describes it
(`Session.toJson?_spec`), down to the millisecond it was held at (`Session.toJson?_of_inCalendar`).
-/

namespace CodeSurvey

/-! ## Computations that may fail -/

section Failing

variable {α β ε : Type}

/-- A computation of two parts succeeds if both do. -/
theorem bind_eq_ok {a : Except ε α} {f : α → Except ε β} {y : β} :
    (a >>= f) = .ok y ↔ ∃ x, a = .ok x ∧ f x = .ok y := by
  cases a with
  | error e => exact iff_of_false (fun h => by cases h) (fun ⟨x, hx, _⟩ => by cases hx)
  | ok x =>
    constructor
    · exact fun h => ⟨x, rfl, h⟩
    · rintro ⟨x', hx, h⟩
      cases hx
      exact h

/-- It fails as the first part does, or as the second. -/
theorem bind_eq_error {a : Except ε α} {f : α → Except ε β} {e : ε} :
    (a >>= f) = .error e ↔ a = .error e ∨ ∃ x, a = .ok x ∧ f x = .error e := by
  cases a with
  | error e' =>
    constructor
    · intro h
      obtain rfl := Except.error.inj h
      exact .inl rfl
    · rintro (h | ⟨x, hx, -⟩)
      · obtain rfl := Except.error.inj h
        rfl
      · cases hx
  | ok x =>
    constructor
    · exact fun h => .inr ⟨x, rfl, h⟩
    · rintro (h | ⟨x', hx, h⟩)
      · cases h
      · cases hx
        exact h

/-- A computation along a list succeeds if it does for each element. -/
theorem mapM_eq_ok {f : α → Except ε β} {xs : List α} {ys : List β} :
    xs.mapM f = .ok ys ↔ List.Forall₂ (fun x y => f x = .ok y) xs ys := by
  induction xs generalizing ys with
  | nil =>
    rw [List.forall₂_nil_left_iff]
    exact ⟨fun h => (Except.ok.inj h).symm, fun h => congrArg Except.ok h.symm⟩
  | cons x xs ih =>
    rw [List.mapM_cons, List.forall₂_cons_left_iff, bind_eq_ok]
    constructor
    · rintro ⟨y, hy, h⟩
      obtain ⟨rest, hrest, hys⟩ := bind_eq_ok.1 h
      exact ⟨y, rest, hy, ih.1 hrest, (Except.ok.inj hys).symm⟩
    · rintro ⟨y, rest, hy, hrest, rfl⟩
      exact ⟨y, hy, bind_eq_ok.2 ⟨rest, ih.2 hrest, rfl⟩⟩

/-- If there is one way to fail, it fails if it does for one element. -/
theorem mapM_eq_error [Subsingleton ε] {f : α → Except ε β} {xs : List α} {e : ε} :
    xs.mapM f = .error e ↔ ∃ x ∈ xs, f x = .error e := by
  induction xs with
  | nil => exact iff_of_false (fun h => by cases h) (fun ⟨x, hx, _⟩ => by cases hx)
  | cons x xs ih =>
    rw [List.mapM_cons, bind_eq_error, List.exists_mem_cons_iff]
    cases hx : f x with
    | error e' =>
      have hsame : e' = e := Subsingleton.elim e' e
      subst hsame
      exact iff_of_true (.inl rfl) (.inl rfl)
    | ok y =>
      -- The first element does not fail, so it is one of the others.
      refine or_congr Iff.rfl ?_
      constructor
      · rintro ⟨y', -, h⟩
        rcases bind_eq_error.1 h with hrest | ⟨rest, -, hnot⟩
        · exact ih.1 hrest
        · cases hnot
      · intro h
        exact ⟨y, rfl, bind_eq_error.2 (.inl (ih.2 h))⟩

/-- Elements that are all there. -/
theorem mapM_some_eq_some {xs : List (Option α)} {ys : List α} :
    xs.mapM (fun x => x) = some ys ↔ xs = ys.map some := by
  constructor
  · intro h
    have hmap := map_eq_of_mapM (f := fun x : Option α => x) (g := some) (fun y x hyx => hyx) h
    rw [List.map_id'] at hmap
    exact hmap.symm
  · rintro rfl
    exact mapM_decode_encode some (fun _ => rfl) ys

end Failing

/-! ## Members of a value -/

namespace Json

/-- A member that is a text. -/
theorem getStr?_eq_some {j : Json} {key s : String} :
    j.getStr? key = some s ↔ j.get? key = some (.str s) := by
  unfold getStr?
  cases hget : j.get? key with
  | none => simp
  | some v => cases v <;> simp [str?]

/-- A value that is an array. -/
theorem arr?_eq_some {j : Json} {items : List Json} : j.arr? = some items ↔ j = .arr items := by
  cases j <;> simp [arr?]

/-- The texts of a value are those of an array of texts. -/
theorem strings?_eq_some {j : Json} {xs : List String} :
    j.strings? = some xs ↔ j = texts xs := by
  constructor
  · intro h
    cases j with
    | arr items =>
      have hsame : xs.map Json.str = items.map fun item => item := by
        refine map_eq_of_mapM (fun y x hyx => ?_) h
        cases y with
        | str s =>
          obtain rfl := Option.some.inj hyx
          rfl
        | _ => cases hyx
      rw [texts, hsame, List.map_id']
    | _ => cases h
  · rintro rfl
    exact strings?_texts xs

end Json

namespace Research

open Time (Moment)

/-! ## Names -/

instance : Subsingleton LookupError where
  allEq := by rintro ⟨⟩ ⟨⟩; rfl

/-- A value that cannot be looked up among names: an array or an object. -/
def IsCompound : Option Json → Prop
  | some (.arr _) | some (.obj _) => True
  | _ => False

/-- Looking a value up fails for arrays and objects only. -/
theorem lookUp_eq_error {α : Type} {ofName? : String → Option α} {v : Option Json}
    {e : LookupError} : lookUp ofName? v = .error e ↔ IsCompound v := by
  cases e
  cases v with
  | none => simp [lookUp, IsCompound]
  | some j => cases j <;> simp [lookUp, IsCompound]

/-- What is found by looking a value up is what the text names. -/
theorem lookUp_eq_some {α : Type} {ofName? : String → Option α} {v : Option Json} {x : α} :
    lookUp ofName? v = .ok (some x) ↔ ∃ s, v = some (.str s) ∧ ofName? s = some x := by
  cases v with
  | none => simp [lookUp]
  | some j => cases j <;> simp [lookUp]

/-- A category is found under its name. -/
theorem lookUp_category {v : Option Json} {c : Category} :
    lookUp Category.ofName? v = .ok (some c) ↔ v = some (.str c.name) := by
  rw [lookUp_eq_some]
  constructor
  · rintro ⟨s, rfl, hs⟩
    have hname := List.find?_some hs
    rw [beq_iff_eq.1 hname]
  · rintro rfl
    exact ⟨c.name, rfl, Category.ofName?_name c⟩

/-- A relevance is found under its name. -/
theorem lookUp_relevance {v : Option Json} {r : Relevance} :
    lookUp Relevance.ofName? v = .ok (some r) ↔ v = some (.str r.name) := by
  rw [lookUp_eq_some]
  constructor
  · rintro ⟨s, rfl, hs⟩
    have hname := List.find?_some hs
    rw [beq_iff_eq.1 hname]
  · rintro rfl
    exact ⟨r.name, rfl, Relevance.ofName?_name r⟩

/-! ## Findings -/

namespace Finding

/-- A value that describes a finding. -/
structure IsOf (j : Json) (f : Finding) : Prop where
  id : j.get? "id" = some (.str f.id)
  title : j.get? "title" = some (.str f.title)
  content : j.get? "content" = some (.str f.content)
  category : j.get? "category" = some (.str f.category.name)
  relevance : j.get? "relevance" = some (.str f.relevance.name)
  /-- A source may be missing, or nothing. -/
  source : j.get? "source" = f.source.map .str ∨ (f.source = none ∧ j.get? "source" = some .null)

/-- A value whose category, or whose relevance if the category is known, cannot be looked up. What
stands before them is as it should be. -/
structure Stumbles (j : Json) : Prop where
  id : ∃ id, j.get? "id" = some (.str id)
  title : ∃ title, j.get? "title" = some (.str title)
  content : ∃ content, j.get? "content" = some (.str content)
  name : IsCompound (j.get? "category") ∨
    (∃ c : Category, j.get? "category" = some (.str c.name)) ∧ IsCompound (j.get? "relevance")

/-- A text that may be missing is found if it is there, and none if there is none or a null. -/
theorem optionalText?_eq_some {v : Option Json} {source : Option String} :
    optionalText? v = some source ↔
      v = source.map .str ∨ (source = none ∧ v = some .null) := by
  cases v with
  | none => cases source <;> simp [optionalText?]
  | some j => cases j <;> cases source <;> simp [optionalText?]

/-- The three texts of a finding are found if each is there. -/
theorem texts?_eq_some {j : Json} {id title content : String} :
    texts? j = some (id, title, content) ↔ j.get? "id" = some (.str id) ∧
      j.get? "title" = some (.str title) ∧ j.get? "content" = some (.str content) := by
  unfold texts?
  simp only [Option.bind_eq_bind, Option.bind_eq_some_iff, Option.pure_def, Option.some.injEq,
    Prod.mk.injEq, Json.getStr?_eq_some]
  constructor
  · rintro ⟨id', hid, title', htitle, content', hcontent, rfl, rfl, rfl⟩
    exact ⟨hid, htitle, hcontent⟩
  · rintro ⟨hid, htitle, hcontent⟩
    exact ⟨id, hid, title, htitle, content, hcontent, rfl, rfl, rfl⟩

/-- The findings that values are taken for. -/
theorem ofJson_eq_some {j : Json} {f : Finding} : ofJson j = .ok (some f) ↔ IsOf j f := by
  unfold ofJson
  constructor
  · intro h
    -- The texts are tested before the category, and that before the relevance.
    cases htexts : texts? j with
    | none =>
      rw [htexts] at h
      cases h
    | some texts =>
      obtain ⟨id, title, content⟩ := texts
      rw [htexts] at h
      obtain ⟨hid, htitle, hcontent⟩ := texts?_eq_some.1 htexts
      obtain ⟨_ | category, hcategory, h⟩ := bind_eq_ok.1 h
      · cases h
      obtain ⟨_ | relevance, hrelevance, h⟩ := bind_eq_ok.1 h
      · cases h
      obtain ⟨source, hsource, rfl⟩ := Option.map_eq_some_iff.1 (Except.ok.inj h)
      exact ⟨hid, htitle, hcontent, lookUp_category.1 hcategory, lookUp_relevance.1 hrelevance,
        optionalText?_eq_some.1 hsource⟩
  · intro h
    rw [texts?_eq_some.2 ⟨h.id, h.title, h.content⟩]
    refine bind_eq_ok.2 ⟨some f.category, lookUp_category.2 h.category, ?_⟩
    refine bind_eq_ok.2 ⟨some f.relevance, lookUp_relevance.2 h.relevance, ?_⟩
    rw [optionalText?_eq_some.2 h.source]
    rfl

/-- The values whose check fails. -/
theorem ofJson_eq_error {j : Json} : ofJson j = .error .compound ↔ Stumbles j := by
  unfold ofJson
  constructor
  · intro h
    -- The check can only fail where a name is looked up, so the texts before it are there.
    cases htexts : texts? j with
    | none =>
      rw [htexts] at h
      cases h
    | some texts =>
      obtain ⟨id, title, content⟩ := texts
      rw [htexts] at h
      obtain ⟨hid, htitle, hcontent⟩ := texts?_eq_some.1 htexts
      refine ⟨⟨id, hid⟩, ⟨title, htitle⟩, ⟨content, hcontent⟩, ?_⟩
      rcases bind_eq_error.1 h with hcategory | ⟨_ | category, hcategory, h⟩
      · exact .inl (lookUp_eq_error.1 hcategory)
      · cases h
      rcases bind_eq_error.1 h with hrelevance | ⟨_ | relevance, hrelevance, h⟩
      · exact .inr ⟨⟨category, lookUp_category.1 hcategory⟩, lookUp_eq_error.1 hrelevance⟩
      · cases h
      · cases h
  · rintro ⟨⟨id, hid⟩, ⟨title, htitle⟩, ⟨content, hcontent⟩, hname⟩
    rw [texts?_eq_some.2 ⟨hid, htitle, hcontent⟩]
    rcases hname with hcategory | ⟨⟨category, hcategory⟩, hrelevance⟩
    · exact bind_eq_error.2 (.inl (lookUp_eq_error.2 hcategory))
    · refine bind_eq_error.2 (.inr ⟨some category, lookUp_category.2 hcategory, ?_⟩)
      exact bind_eq_error.2 (.inl (lookUp_eq_error.2 hrelevance))

end Finding

/-! ## Sessions -/

namespace Session

/-- A value that describes a session. -/
structure IsOf (j : Json) (s : Session) : Prop where
  id : j.get? "id" = some (.str s.id)
  query : j.get? "query" = some (.str s.query)
  summary : j.get? "summary" = some (.str s.summary)
  heldAt : ∃ text, j.get? "timestamp" = some (.str text) ∧ Moment.ofText? text = some s.heldAt
  findings : ∃ values, j.get? "findings" = some (.arr values) ∧
    List.Forall₂ Finding.IsOf values s.findings
  /-- The questions may be missing. -/
  questions : (j.get? "suggestedQuestions").getD (.arr []) = Json.texts s.questions

/-- A value with a finding that cannot be checked. All that is looked at before its findings is as
it should be. -/
structure Stumbles (j : Json) : Prop where
  id : ∃ id, j.get? "id" = some (.str id)
  query : ∃ query, j.get? "query" = some (.str query)
  summary : ∃ summary, j.get? "summary" = some (.str summary)
  heldAt : ∃ text, j.get? "timestamp" = some (.str text) ∧ (Moment.ofText? text).isSome
  findings : ∃ values, j.get? "findings" = some (.arr values) ∧ ∃ v ∈ values, Finding.Stumbles v

/-- What comes before the findings of a session is found if each part of it is as it should be. -/
theorem parts?_eq_some {j : Json} {id query summary : String} {heldAt : Moment}
    {values : List Json} :
    parts? j = some (id, query, summary, heldAt, values) ↔ j.get? "id" = some (.str id) ∧
      j.get? "query" = some (.str query) ∧ j.get? "summary" = some (.str summary) ∧
      (∃ text, j.get? "timestamp" = some (.str text) ∧ Moment.ofText? text = some heldAt) ∧
      j.get? "findings" = some (.arr values) := by
  unfold parts?
  simp only [Option.bind_eq_bind, Option.bind_eq_some_iff, Option.pure_def, Option.some.injEq,
    Prod.mk.injEq, Json.getStr?_eq_some, Json.arr?_eq_some]
  constructor
  · rintro ⟨id', hid, query', hquery, summary', hsummary, text, htext, heldAt', hheldAt, findings,
      hfindings, values', rfl, rfl, rfl, rfl, rfl, rfl⟩
    exact ⟨hid, hquery, hsummary, ⟨text, htext, hheldAt⟩, hfindings⟩
  · rintro ⟨hid, hquery, hsummary, ⟨text, htext, hheldAt⟩, hfindings⟩
    exact ⟨id, hid, query, hquery, summary, hsummary, text, htext, heldAt, hheldAt, _, hfindings,
      values, rfl, rfl, rfl, rfl, rfl, rfl⟩

/-- All findings of a session are those that its values are taken for. -/
theorem mapM_findings {values : List Json} {findings : List Finding} :
    values.mapM Finding.ofJson = .ok (findings.map some) ↔
      List.Forall₂ Finding.IsOf values findings := by
  rw [mapM_eq_ok, List.forall₂_map_right_iff]
  simp only [Finding.ofJson_eq_some]

/-- The sessions that values are taken for. -/
theorem ofJson_eq_some {j : Json} {s : Session} : ofJson j = .ok (some s) ↔ IsOf j s := by
  unfold ofJson
  constructor
  · intro h
    cases hparts : parts? j with
    | none =>
      rw [hparts] at h
      cases h
    | some parts =>
      obtain ⟨id, query, summary, heldAt, values⟩ := parts
      rw [hparts] at h
      obtain ⟨hid, hquery, hsummary, hheldAt, hvalues⟩ := parts?_eq_some.1 hparts
      obtain ⟨found, hfound, h⟩ := bind_eq_ok.1 h
      -- All findings have to be taken, and then the questions.
      have hsession := Except.ok.inj h
      simp only [Option.bind_eq_bind, Option.bind_eq_some_iff, Option.pure_def,
        Option.some.injEq] at hsession
      obtain ⟨findings, hfindings, questions, hquestions, rfl⟩ := hsession
      rw [mapM_some_eq_some.1 hfindings] at hfound
      exact ⟨hid, hquery, hsummary, hheldAt, ⟨values, hvalues, mapM_findings.1 hfound⟩,
        Json.strings?_eq_some.1 hquestions⟩
  · rintro ⟨hid, hquery, hsummary, hheldAt, ⟨values, hvalues, hfindings⟩, hquestions⟩
    rw [parts?_eq_some.2 ⟨hid, hquery, hsummary, hheldAt, hvalues⟩]
    refine bind_eq_ok.2 ⟨s.findings.map some, mapM_findings.2 hfindings, ?_⟩
    rw [mapM_some_eq_some.2 rfl, Json.strings?_eq_some.2 hquestions]
    rfl

/-- The values whose check fails. -/
theorem ofJson_eq_error {j : Json} : ofJson j = .error .compound ↔ Stumbles j := by
  unfold ofJson
  constructor
  · intro h
    cases hparts : parts? j with
    | none =>
      rw [hparts] at h
      cases h
    | some parts =>
      obtain ⟨id, query, summary, heldAt, values⟩ := parts
      rw [hparts] at h
      obtain ⟨hid, hquery, hsummary, ⟨text, htext, hheldAt⟩, hvalues⟩ := parts?_eq_some.1 hparts
      -- Only the findings can fail.
      have hfails : ∃ v ∈ values, Finding.ofJson v = .error .compound := by
        rcases bind_eq_error.1 h with hfails | ⟨found, -, hnot⟩
        · exact mapM_eq_error.1 hfails
        · cases hnot
      simp only [Finding.ofJson_eq_error] at hfails
      exact ⟨⟨id, hid⟩, ⟨query, hquery⟩, ⟨summary, hsummary⟩, ⟨text, htext, by rw [hheldAt]; rfl⟩,
        ⟨values, hvalues, hfails⟩⟩
  · rintro ⟨⟨id, hid⟩, ⟨query, hquery⟩, ⟨summary, hsummary⟩, ⟨text, htext, hmoment⟩, values,
      hvalues, hfails⟩
    obtain ⟨heldAt, hheldAt⟩ := Option.isSome_iff_exists.1 hmoment
    rw [parts?_eq_some.2 ⟨hid, hquery, hsummary, ⟨text, htext, hheldAt⟩, hvalues⟩]
    simp only [← Finding.ofJson_eq_error] at hfails
    exact bind_eq_error.2 (.inl (mapM_eq_error.2 hfails))

/-- A session that was held at a moment down to milliseconds has a value, which describes it and can
be read back from its text. -/
theorem toJson?_spec {s : Session} (h : s.heldAt.InMillis) :
    ∃ j, s.toJson? = some j ∧ IsOf j s ∧ ∀ d, Json.Readable (d + 3) j := by
  obtain ⟨text, htext, hread⟩ := h.ofText?_universalText?
  refine ⟨_, by rw [toJson?, htext]; rfl, ⟨rfl, rfl, rfl, ⟨text, rfl, hread⟩, ?_, rfl⟩, fun d => ?_⟩
  · refine ⟨_, rfl, ?_⟩
    rw [← mapM_findings, mapM_eq_ok, List.forall₂_map_left_iff, List.forall₂_map_right_iff]
    exact List.forall₂_same.2 fun f _ => f.ofJson_toJson
  · refine .obj (by simp) ?_
    simp only [List.forall_mem_cons]
    refine ⟨.str _, .str _, .arr fun j hj => ?_, .str _, .texts _ _, .str _, by simp⟩
    obtain ⟨f, -, rfl⟩ := List.mem_map.1 hj
    exact f.readable_toJson d

/-- So all sessions have values if they were held at such moments. -/
theorem mapM_toJson? {sessions : List Session} (h : ∀ s ∈ sessions, s.heldAt.InMillis) :
    ∃ values, sessions.mapM toJson? = some values ∧ List.Forall₂ IsOf values sessions ∧
      ∀ d, ∀ v ∈ values, Json.Readable (d + 3) v := by
  induction sessions with
  | nil => exact ⟨[], rfl, .nil, by simp⟩
  | cons s sessions ih =>
    obtain ⟨hs, hsessions⟩ := List.forall_mem_cons.1 h
    obtain ⟨j, hj, his, hreadable⟩ := toJson?_spec hs
    obtain ⟨values, hvalues, hall, hreadables⟩ := ih hsessions
    refine ⟨j :: values, by simp [hj, hvalues], .cons his hall, fun d => ?_⟩
    exact List.forall_mem_cons.2 ⟨hreadable d, hreadables d⟩

/-! ## Down to milliseconds -/

/-- A session down to milliseconds. -/
def inMillis (s : Session) : Session := { s with heldAt := s.heldAt.inMillis }

/-- A session is another one down to milliseconds: it was held at the same instant but for what is
below a millisecond, and all else is the same. -/
def DownToMillis (s s' : Session) : Prop :=
  s'.heldAt.instant = s.heldAt.instant / 1000 * 1000 ∧ s' = { s with heldAt := s'.heldAt }

/-- A session of a moment on the calendar is its own down to milliseconds. -/
theorem downToMillis_inMillis {s : Session} (h : s.heldAt.InCalendar) :
    s.DownToMillis s.inMillis := ⟨h.instant_inMillis, rfl⟩

/-- What was held at a whole millisecond of universal time is the same down to milliseconds. -/
theorem inMillis_eq_self {s : Session} (h : s.heldAt.InMillis) : s.inMillis = s := by
  rw [inMillis, h.inMillis_eq]

/-- A session has the value that it has down to milliseconds. -/
theorem toJson?_inMillis {s : Session} (h : s.heldAt.InCalendar) :
    s.inMillis.toJson? = s.toJson? := by
  unfold toJson? inMillis
  rw [h.universalText?_inMillis]

/-- So have all sessions. -/
theorem mapM_toJson?_inMillis {sessions : List Session}
    (h : ∀ s ∈ sessions, s.heldAt.InCalendar) :
    (sessions.map inMillis).mapM toJson? = sessions.mapM toJson? := by
  induction sessions with
  | nil => rfl
  | cons s sessions ih =>
    obtain ⟨hs, hsessions⟩ := List.forall_mem_cons.1 h
    rw [List.map_cons, List.mapM_cons, List.mapM_cons, toJson?_inMillis hs, ih hsessions]

/-- A session whose moment is on the calendar of universal time has a value, which describes the
session down to milliseconds. -/
theorem toJson?_of_inCalendar {s : Session} (h : s.heldAt.InCalendar) :
    ∃ j, s.toJson? = some j ∧ ofJson j = .ok (some s.inMillis) ∧ s.inMillis.toJson? = some j := by
  obtain ⟨j, hj, his, -⟩ := toJson?_spec (s := s.inMillis) h.inMillis
  exact ⟨j, (toJson?_inMillis h).symm.trans hj, ofJson_eq_some.2 his, hj⟩

end Session

end Research

end CodeSurvey
