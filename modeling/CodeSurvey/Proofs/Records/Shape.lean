import CodeSurvey.Planning.Records
import CodeSurvey.Proofs.Records.Recovery
import CodeSurvey.Proofs.Research.Session

/-!
# The values that records are read from

What a value has to hold to be taken for a record, member by member (`IsOf`): for an artifact, the
requirements, a task and a snapshot. Each check finds a record if and only if the value describes it
(`ofJson?_eq_some`), so a value that describes none is never taken for one.
-/

namespace CodeSurvey

/-- A computation along a list gives something if it does for each element. -/
theorem mapM_eq_some {α β : Type} {f : α → Option β} {xs : List α} {ys : List β} :
    xs.mapM f = some ys ↔ List.Forall₂ (fun x y => f x = some y) xs ys := by
  induction xs generalizing ys with
  | nil =>
    rw [List.forall₂_nil_left_iff]
    exact ⟨fun h => (Option.some.inj h).symm, fun h => congrArg some h.symm⟩
  | cons x xs ih =>
    rw [List.mapM_cons, List.forall₂_cons_left_iff]
    simp only [Option.bind_eq_bind, Option.bind_eq_some_iff, Option.pure_def, Option.some.injEq, ih]
    constructor
    · rintro ⟨y, hy, ys', hys, rfl⟩
      exact ⟨y, ys', hy, hys, rfl⟩
    · rintro ⟨y, ys', hy, hys, rfl⟩
      exact ⟨y, hy, ys', hys, rfl⟩

namespace Json

/-- Only a truth value is found as one. -/
theorem bool?_eq_some {j : Json} {b : Bool} : j.bool? = some b ↔ j = .bool b := by
  cases j <;> simp [bool?]

/-- Only an object is found by its members. -/
theorem obj?_eq_some {j : Json} {members : List (String × Json)} :
    j.obj? = some members ↔ j = .obj members := by
  cases j <;> simp [obj?]

/-- Only a text is found as one. -/
theorem str?_eq_some {j : Json} {s : String} : j.str? = some s ↔ j = .str s := by
  cases j <;> simp [str?]

/-- A count is a whole number that is not negative; no truth value and no fraction is one. -/
theorem count?_eq_some {j : Json} {n : Nat} : j.count? = some n ↔ j = count n := by
  cases j with
  | int i =>
    simp only [count?, count, Option.ite_none_right_eq_some, Option.some.injEq, int.injEq]
    omega
  | _ => simp [count?, count]

end Json

/-! ## Artifacts -/

namespace Artifact

open Time (Moment)

/-- A value describes what is kept about an artifact. -/
structure Metadata.IsOf (j : Json) (m : Metadata) : Prop where
  madeAt : j.get? "generatedAtUtc" = some (.str m.madeAt)
  isMoment : (Moment.ofText? m.madeAt).isSome
  fileCount : j.get? "fileCount" = some (.int m.fileCount)
  fileCount_nonneg : 0 ≤ m.fileCount
  errorCount : j.get? "errorCount" = some (.int m.errorCount)
  errorCount_nonneg : 0 ≤ m.errorCount
  version : j.get? "version" = some (Json.count m.version.number)
  /-- Whether it is incomplete may be missing, or nothing. -/
  incomplete : j.get? "incomplete" = m.incomplete.map .bool ∨
    (m.incomplete = none ∧ j.get? "incomplete" = some .null)

/-- A value describes an artifact. -/
structure Stored.IsOf (j : Json) (s : Stored) : Prop where
  id : j.get? "id" = some (.str s.id)
  kind : j.get? "kind" = some (.str s.kind.name)
  workspacePath : j.get? "workspacePath" = some (.str s.workspacePath)
  content : j.get? "content" = some (.str s.content)
  metadata : ∃ v, j.get? "metadata" = some v ∧ Metadata.IsOf v s.metadata

/-- A kind is found by its own name only. -/
theorem Kind.ofName?_eq_some {name : String} {k : Kind} :
    ofName? name = some k ↔ name = k.name := by
  constructor
  · intro h
    have hname := List.find?_some h
    exact (beq_iff_eq.1 hname).symm
  · rintro rfl
    exact ofName?_name k

/-- A version is found by its own number only. -/
theorem Version.ofInt?_eq_some {n : Nat} {v : Version} :
    ofInt? (n : Int) = some v ↔ n = v.number := by
  constructor
  · intro h
    unfold ofInt? at h
    split at h
    · obtain rfl := Option.some.inj h
      exact (Int.toNat_natCast n).symm
    · cases h
  · rintro rfl
    exact ofInt?_number v

/-- A truth value that may be missing is found if it is there, and none if there is none or a null.
-/
theorem Metadata.optionalBool?_eq_some {v : Option Json} {b : Option Bool} :
    optionalBool? v = some b ↔ v = b.map .bool ∨ (b = none ∧ v = some .null) := by
  cases v with
  | none => cases b <;> simp [optionalBool?]
  | some j => cases j <;> cases b <;> simp [optionalBool?]

/-- What the check of the metadata finds. -/
theorem Metadata.ofJson?_eq_some {j : Json} {m : Metadata} : ofJson? j = some m ↔ IsOf j m := by
  unfold ofJson?
  simp only [Option.bind_eq_bind, Option.bind_eq_some_iff, Option.pure_def, Option.some.injEq,
    Json.getStr?_eq_some, Json.count?_eq_some, optionalBool?_eq_some]
  constructor
  · rintro ⟨madeAt, hmadeAt, moment, hmoment, _, hfiles, files, rfl, _, herrors, errors, rfl,
      _, hnumber, number, rfl, version, hversion, incomplete, hincomplete, rfl⟩
    obtain rfl := Version.ofInt?_eq_some.1 hversion
    exact ⟨hmadeAt, Option.isSome_of_eq_some hmoment, hfiles, Int.natCast_nonneg _, herrors,
      Int.natCast_nonneg _, hnumber, hincomplete⟩
  · intro h
    -- The moment is only tested: the record keeps its text.
    obtain ⟨moment, hmoment⟩ := Option.isSome_iff_exists.1 h.isMoment
    have hcount {n : Int} (hn : 0 ≤ n) : Json.count n.toNat = .int n := by
      rw [Json.count, Int.toNat_of_nonneg hn]
    refine ⟨m.madeAt, h.madeAt, moment, hmoment, _, h.fileCount, m.fileCount.toNat, ?_,
      _, h.errorCount, m.errorCount.toNat, ?_, _, h.version, m.version.number, rfl,
      m.version, Version.ofInt?_number _, m.incomplete, h.incomplete, ?_⟩
    · exact (hcount h.fileCount_nonneg).symm
    · exact (hcount h.errorCount_nonneg).symm
    · rw [Int.toNat_of_nonneg h.fileCount_nonneg, Int.toNat_of_nonneg h.errorCount_nonneg]

/-- The artifacts that values are taken for. -/
theorem Stored.ofJson?_eq_some {j : Json} {s : Stored} : ofJson? j = some s ↔ IsOf j s := by
  unfold ofJson?
  simp only [Option.bind_eq_bind, Option.bind_eq_some_iff, Option.pure_def, Option.some.injEq,
    Json.getStr?_eq_some, Metadata.ofJson?_eq_some]
  constructor
  · rintro ⟨id, hid, name, hname, kind, hkind, workspacePath, hpath, content, hcontent, v, hv,
      metadata, hmetadata, rfl⟩
    obtain rfl := Kind.ofName?_eq_some.1 hkind
    exact ⟨hid, hname, hpath, hcontent, v, hv, hmetadata⟩
  · intro h
    obtain ⟨v, hv, hmetadata⟩ := h.metadata
    exact ⟨s.id, h.id, s.kind.name, h.kind, s.kind, Kind.ofName?_name _, s.workspacePath,
      h.workspacePath, s.content, h.content, v, hv, s.metadata, hmetadata, rfl⟩

end Artifact

/-! ## Planning documents -/

namespace Planning

/-- A value describes the requirements. -/
structure Requirements.IsOf (j : Json) (r : Requirements) : Prop where
  text : j.get? "requirements" = some (.str r.text)
  writtenAt : j.get? "updatedAtUtc" = some (.str r.writtenAt)

/-- A value describes a step of a task. -/
structure Subtask.IsOf (j : Json) (s : Subtask) : Prop where
  id : j.get? "id" = some (.str s.id)
  title : j.get? "title" = some (.str s.title)
  completed : j.get? "completed" = some (.bool s.completed)

/-- A value describes a task. -/
structure Task.IsOf (j : Json) (t : Task) : Prop where
  id : j.get? "id" = some (.str t.id)
  title : j.get? "title" = some (.str t.title)
  description : j.get? "description" = some (.str t.description)
  completed : j.get? "completed" = some (.bool t.completed)
  /-- The steps may be missing. -/
  subtasks : ∃ values, (j.get? "subtasks").getD (.arr []) = .arr values ∧
    List.Forall₂ Subtask.IsOf values t.subtasks
  /-- So may the criteria. -/
  criteria : (j.get? "acceptanceCriteria").getD (.arr []) = Json.texts t.criteria

/-- The requirements that values are taken for. -/
theorem Requirements.ofJson?_eq_some {j : Json} {r : Requirements} :
    ofJson? j = some r ↔ IsOf j r := by
  unfold ofJson?
  simp only [Option.bind_eq_bind, Option.bind_eq_some_iff, Option.pure_def, Option.some.injEq,
    Json.getStr?_eq_some]
  constructor
  · rintro ⟨text, htext, writtenAt, hwrittenAt, rfl⟩
    exact ⟨htext, hwrittenAt⟩
  · exact fun h => ⟨r.text, h.text, r.writtenAt, h.writtenAt, rfl⟩

/-- The steps that values are taken for. -/
theorem Subtask.ofJson?_eq_some {j : Json} {s : Subtask} : ofJson? j = some s ↔ IsOf j s := by
  unfold ofJson?
  simp only [Option.bind_eq_bind, Option.bind_eq_some_iff, Option.pure_def, Option.some.injEq,
    Json.getStr?_eq_some, Json.bool?_eq_some]
  constructor
  · rintro ⟨id, hid, title, htitle, _, hcompleted, completed, rfl, rfl⟩
    exact ⟨hid, htitle, hcompleted⟩
  · exact fun h => ⟨s.id, h.id, s.title, h.title, _, h.completed, s.completed, rfl, rfl⟩

/-- The tasks that values are taken for. -/
theorem Task.ofJson?_eq_some {j : Json} {t : Task} : ofJson? j = some t ↔ IsOf j t := by
  unfold ofJson?
  simp only [Option.bind_eq_bind, Option.bind_eq_some_iff, Option.pure_def, Option.some.injEq,
    Json.getStr?_eq_some, Json.bool?_eq_some, Json.arr?_eq_some, Json.strings?_eq_some,
    mapM_eq_some, Subtask.ofJson?_eq_some]
  constructor
  · rintro ⟨id, hid, title, htitle, description, hdescription, _, hcompleted, completed, rfl,
      values, hvalues, subtasks, hsubtasks, criteria, hcriteria, rfl⟩
    exact ⟨hid, htitle, hdescription, hcompleted, ⟨values, hvalues, hsubtasks⟩, hcriteria⟩
  · intro h
    obtain ⟨values, hvalues, hsubtasks⟩ := h.subtasks
    exact ⟨t.id, h.id, t.title, h.title, t.description, h.description, _, h.completed, t.completed,
      rfl, values, hvalues, t.subtasks, hsubtasks, t.criteria, h.criteria, rfl⟩

end Planning

/-! ## Snapshots -/

namespace Survey.Snapshot

/-- A value describes a snapshot. -/
structure IsOf (j : Json) (s : Snapshot) : Prop where
  takenAt : j.get? "timestamp" = some (.str s.takenAt)
  digests : j.get? "fileHashes" = some (.obj (s.digests.map fun d => (d.1, .str d.2)))
  fileCount : j.get? "fileCount" = some (Json.count s.fileCount)

/-- The digests of members are their texts. -/
theorem mapM_digests {members : List (String × Json)} {digests : List (String × String)} :
    (members.mapM fun m => m.2.str?.map fun d => (m.1, d)) = some digests ↔
      members = digests.map fun d => (d.1, .str d.2) := by
  rw [mapM_eq_some]
  constructor
  · intro h
    induction h with
    | nil => rfl
    | @cons m d members digests hm _ ih =>
      obtain ⟨text, htext, rfl⟩ := Option.map_eq_some_iff.1 hm
      rw [List.map_cons, ← ih, ← Json.str?_eq_some.1 htext]
  · rintro rfl
    rw [List.forall₂_map_left_iff]
    exact List.forall₂_same.2 fun d _ => rfl

/-- The snapshots that values are taken for. -/
theorem ofJson?_eq_some {j : Json} {s : Snapshot} : ofJson? j = some s ↔ IsOf j s := by
  unfold ofJson?
  simp only [Option.bind_eq_bind, Option.bind_eq_some_iff, Option.pure_def, Option.some.injEq,
    Json.getStr?_eq_some, Json.obj?_eq_some, Json.count?_eq_some, mapM_digests]
  constructor
  · rintro ⟨takenAt, htakenAt, _, hmembers, members, rfl, digests, rfl, _, hfiles, files, rfl, rfl⟩
    exact ⟨htakenAt, hmembers, hfiles⟩
  · intro h
    exact ⟨s.takenAt, h.takenAt, _, h.digests, _, rfl, s.digests, rfl, _, h.fileCount, s.fileCount,
      rfl, rfl⟩

end Survey.Snapshot

end CodeSurvey
