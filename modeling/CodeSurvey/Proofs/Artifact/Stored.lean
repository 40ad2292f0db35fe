import CodeSurvey.Artifact.Stored
import CodeSurvey.Proofs.Json.RoundTrip

/-!
# Kept artifacts are read back

The value of a kept artifact is taken for that artifact (`ofJson?_toJson`) if its moment is one and
its counts are not negative (`Stored.Valid`), and only such artifacts are read (`valid_of_ofJson?`).
So the stored text of an artifact is read back as the artifact (`read_toJson_stored`), if its
numbers are short enough to be written.
-/

namespace CodeSurvey.Artifact

open CodeSurvey.Time (Moment)

/-- Every kind is found by its name. -/
theorem Kind.ofName?_name (k : Kind) : ofName? k.name = some k := by
  rcases k with k | k <;> cases k <;> decide

/-- A version is found by its number. -/
theorem Version.ofInt?_number (v : Version) : ofInt? (v.number : Int) = some v := by
  have := v.one_le_number
  rw [ofInt?, dif_pos (by omega)]
  simp only [Int.toNat_natCast]

/-- What is checked of an artifact when it is read: its moment is one, and its counts are not
negative. -/
structure Stored.Valid (s : Stored) : Prop where
  madeAt : (Moment.ofText? s.metadata.madeAt).isSome
  fileCount : 0 ≤ s.metadata.fileCount
  errorCount : 0 ≤ s.metadata.errorCount

/-- The same of an artifact as it was made. -/
structure Made.Readable (m : Made) : Prop where
  madeAt : (Moment.ofText? m.madeAt).isSome
  fileCount : 0 ≤ m.fileCount
  errorCount : 0 ≤ m.errorCount

/-- The number of a count. -/
theorem count?_int {n : Int} (h : 0 ≤ n) : Json.count? (.int n) = some n.toNat := if_pos h

/-- The members of metadata, whether it was written down that the artifact is incomplete or not. -/
theorem Metadata.toJson_get? (m : Metadata) :
    m.toJson.getStr? "generatedAtUtc" = some m.madeAt ∧
    m.toJson.get? "fileCount" = some (.int m.fileCount) ∧
    m.toJson.get? "errorCount" = some (.int m.errorCount) ∧
    m.toJson.get? "version" = some (Json.count m.version.number) ∧
    m.toJson.get? "incomplete" = m.incomplete.map .bool := by
  obtain ⟨madeAt, fileCount, errorCount, version, incomplete⟩ := m
  cases incomplete <;> exact ⟨rfl, rfl, rfl, rfl, rfl⟩

/-- Metadata is read back. -/
theorem Metadata.ofJson?_toJson {m : Metadata} (hmadeAt : (Moment.ofText? m.madeAt).isSome)
    (hfiles : 0 ≤ m.fileCount) (herrors : 0 ≤ m.errorCount) : ofJson? m.toJson = some m := by
  obtain ⟨h₁, h₂, h₃, h₄, h₅⟩ := m.toJson_get?
  obtain ⟨moment, hmoment⟩ := Option.isSome_iff_exists.1 hmadeAt
  have hversion : Json.count? (Json.count m.version.number) = some m.version.number := by
    rw [Json.count, count?_int (by omega), Int.toNat_natCast]
  have hincomplete : optionalBool? (m.incomplete.map .bool) = some m.incomplete := by
    cases m.incomplete <;> rfl
  unfold ofJson?
  simp only [h₁, h₂, h₃, h₄, h₅, hmoment, count?_int hfiles, count?_int herrors, hversion,
    Version.ofInt?_number, hincomplete, Option.bind_eq_bind, Option.bind_some, Option.pure_def]
  rw [Int.toNat_of_nonneg hfiles, Int.toNat_of_nonneg herrors]

namespace Stored

/-- An artifact is read back from its value as far as its metadata are. -/
theorem ofJson?_toJson_eq (s : Stored) : ofJson? s.toJson =
    (Metadata.ofJson? s.metadata.toJson).map fun metadata => { s with metadata } := by
  have hid : s.toJson.getStr? "id" = some s.id := rfl
  have hkind : s.toJson.getStr? "kind" = some s.kind.name := rfl
  have hpath : s.toJson.getStr? "workspacePath" = some s.workspacePath := rfl
  have hcontent : s.toJson.getStr? "content" = some s.content := rfl
  have hget : s.toJson.get? "metadata" = some s.metadata.toJson := rfl
  unfold ofJson?
  simp only [hid, hkind, hpath, hcontent, hget, Kind.ofName?_name, Option.bind_eq_bind,
    Option.bind_some, Option.pure_def]
  cases Metadata.ofJson? s.metadata.toJson <;> rfl

/-- An artifact is read back from its value. -/
theorem ofJson?_toJson {s : Stored} (h : s.Valid) : ofJson? s.toJson = some s := by
  rw [ofJson?_toJson_eq, Metadata.ofJson?_toJson h.madeAt h.fileCount h.errorCount]
  rfl

/-- An artifact that was made at no moment is not read back. -/
theorem ofJson?_toJson_eq_none {s : Stored} (h : Moment.ofText? s.metadata.madeAt = none) :
    ofJson? s.toJson = none := by
  have hmetadata : Metadata.ofJson? s.metadata.toJson = none := by
    unfold Metadata.ofJson?
    rw [s.metadata.toJson_get?.1]
    simp only [h, Option.bind_eq_bind, Option.bind_some, Option.bind_none]
  rw [ofJson?_toJson_eq, hmetadata]
  rfl

/-- What is read is valid. -/
theorem valid_of_ofJson? {j : Json} {s : Stored} (h : ofJson? j = some s) : s.Valid := by
  simp only [ofJson?, Option.bind_eq_bind, Option.bind_eq_some_iff, Option.pure_def,
    Option.some.injEq] at h
  obtain ⟨id, -, name, -, kind, -, path, -, content, -, value, -, metadata, hmetadata, rfl⟩ := h
  simp only [Metadata.ofJson?, Option.bind_eq_bind, Option.bind_eq_some_iff, Option.pure_def,
    Option.some.injEq] at hmetadata
  obtain ⟨madeAt, -, moment, hmoment, _, -, files, -, _, -, errors, -, _, -, version, -, v, -,
    incomplete, -, rfl⟩ := hmetadata
  exact ⟨by rw [hmoment]; rfl, Int.natCast_nonneg _, Int.natCast_nonneg _⟩

/-- The numbers of an artifact are its counts and its version. -/
theorem hasShortInts_toJson (s : Stored) :
    s.toJson.hasShortInts ↔ (Json.int s.metadata.fileCount).hasShortInts ∧
      (Json.int s.metadata.errorCount).hasShortInts ∧
      (Json.int s.metadata.version.number).hasShortInts := by
  -- All numbers stand in the metadata; the other members are texts.
  have hmetadata : s.metadata.toJson.hasShortInts ↔ (Json.int s.metadata.fileCount).hasShortInts ∧
      (Json.int s.metadata.errorCount).hasShortInts ∧
      (Json.int s.metadata.version.number).hasShortInts := by
    rw [Metadata.toJson, Json.hasShortInts_record]
    simp only [List.forall_mem_cons, Option.some.injEq, forall_eq', Json.count,
      Option.map_eq_some_iff]
    constructor
    · rintro ⟨-, hfiles, herrors, hversion, -⟩
      exact ⟨hfiles, herrors, hversion⟩
    · rintro ⟨hfiles, herrors, hversion⟩
      refine ⟨rfl, hfiles, herrors, hversion, ?_, by simp⟩
      rintro j ⟨b, -, rfl⟩
      rfl
  rw [← hmetadata, toJson, Json.hasShortInts, Json.membersHaveShortInts_iff]
  simp only [List.forall_mem_cons]
  exact ⟨fun h => h.2.2.2.2.1, fun h => ⟨rfl, rfl, rfl, rfl, h, by simp⟩⟩

/-- The value of an artifact is readable if its numbers are short. -/
theorem readable_toJson (d : Nat) {s : Stored} (h : s.toJson.hasShortInts) :
    Json.Readable (d + 2) s.toJson := by
  obtain ⟨hfiles, herrors, hversion⟩ := (hasShortInts_toJson s).1 h
  rw [Json.hasShortInts_int] at hfiles herrors hversion
  have hmetadata : Json.Readable (d + 1) s.metadata.toJson := by
    refine .record (by simp) ?_
    simp only [List.forall_mem_cons, Option.some.injEq, forall_eq', Option.map_eq_some_iff]
    refine ⟨.str _, .int hfiles, .int herrors, .int hversion, ?_, by simp⟩
    rintro j ⟨b, -, rfl⟩
    exact .bool b
  refine .obj (by simp) ?_
  simp only [List.forall_mem_cons]
  exact ⟨.str _, .str _, .str _, .str _, hmetadata, by simp⟩

/-- The stored text of an artifact is read as its value. -/
theorem read_toJson_stored {s : Stored} (h : s.toJson.hasShortInts) :
    Json.read s.toJson.stored = .ok s.toJson :=
  Json.read_stored (readable_toJson 958 h)

end Stored

end CodeSurvey.Artifact
