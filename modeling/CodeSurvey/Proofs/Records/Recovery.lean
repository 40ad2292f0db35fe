import CodeSurvey.Planning.Records
import CodeSurvey.Proofs.Artifact.Stored
import CodeSurvey.Proofs.Json.Reading
import CodeSurvey.Research.Session
import CodeSurvey.Storage.Store
import CodeSurvey.Survey.Snapshot

/-!
# Records come back from their texts

A record is written as the text of its value and comes back when the text is read and its value is
checked (`Coding.Recovers`). This holds of every kept artifact, task, finding and snapshot that
meets the conditions of its check, whatever its texts are, and of every one that is made from a
value that was read (`records_are_recovered`). Only whole numbers with more digits than are written
stand in the way (`long_version_is_not_recovered`).
-/

namespace CodeSurvey

open Json (maxIntDigits maxNesting)

/-! ## Lists of values -/

section Lists

variable {α β γ : Type} {decode : β → Option α}

/-- What was encoded one by one is decoded one by one. -/
theorem mapM_decode_encode (encode : α → β) (h : ∀ x, decode (encode x) = some x) (xs : List α) :
    (xs.map encode).mapM decode = some xs := by
  induction xs with
  | nil => rfl
  | cons x xs ih => simp [h x, ih]

/-- What decoding leaves as it is stays the same along a list. -/
theorem map_eq_of_mapM {f : β → γ} {g : α → γ} (h : ∀ y x, decode y = some x → f y = g x)
    {ys : List β} {xs : List α} (hxs : ys.mapM decode = some xs) : xs.map g = ys.map f := by
  induction ys generalizing xs with
  | nil =>
    obtain rfl := Option.some.inj hxs
    rfl
  | cons y ys ih =>
    rw [List.mapM_cons] at hxs
    simp only [Option.bind_eq_bind, Option.bind_eq_some_iff, Option.pure_def,
      Option.some.injEq] at hxs
    obtain ⟨x, hx, rest, hrest, rfl⟩ := hxs
    rw [List.map_cons, List.map_cons, ih hrest, h y x hx]

end Lists

/-! ## The text of a value -/

namespace Json

/-- The text that a value is written as, unless a number in it is too long. -/
def text? (j : Json) : Option String :=
  if j.hasShortInts then some j.stored else none

/-- The numbers of values are short if those of each are. -/
theorem itemsHaveShortInts_iff (js : List Json) :
    itemsHaveShortInts js ↔ ∀ j ∈ js, j.hasShortInts := by
  induction js with
  | nil => simp [itemsHaveShortInts]
  | cons j js ih => rw [itemsHaveShortInts, Bool.and_eq_true, ih, List.forall_mem_cons]

/-- The numbers of a readable value are short. -/
theorem Readable.hasShortInts {d : Nat} {j : Json} (h : Readable d j) : j.hasShortInts = true := by
  induction h with
  | null => rfl
  | bool b => rfl
  | @int d n short => exact (hasShortInts_int n).2 short
  | str s => rfl
  | @arr d items inner ih =>
    rw [Json.hasShortInts]
    exact (itemsHaveShortInts_iff items).2 ih
  | @obj d members keys inner ih =>
    rw [Json.hasShortInts]
    exact (membersHaveShortInts_iff members).2 ih

/-- The bound of short numbers, among the integers. -/
theorem natCast_bound : ((10 ^ maxIntDigits : Nat) : Int) = 10 ^ maxIntDigits := by
  push_cast
  rfl

/-- A count is short if it is small enough. -/
theorem hasShortInts_of_nonneg {n : Int} (hn : 0 ≤ n) (h : n < 10 ^ maxIntDigits) :
    (int n).hasShortInts = true := by
  refine (hasShortInts_int_iff n).2 ?_
  have hcast := natCast_bound
  omega

/-- A number that is short may stand in a readable value. -/
theorem Readable.of_short {d : Nat} {n : Int} (h : (Json.int n).hasShortInts = true) :
    Readable d (.int n) :=
  .int ((hasShortInts_int n).1 h)

/-- An array of texts is readable. -/
theorem Readable.texts (d : Nat) (xs : List String) : Readable (d + 1) (texts xs) := by
  refine .arr fun j hj => ?_
  obtain ⟨x, -, rfl⟩ := List.mem_map.1 hj
  exact .str x

/-- Texts come back from an array of them. -/
theorem strings?_texts (xs : List String) : (texts xs).strings? = some xs := by
  exact mapM_decode_encode str (fun _ => rfl) xs

end Json

/-! ## Kept artifacts -/

/-- The numbers of an artifact that is made from a proper value are short. -/
theorem Artifact.Stored.short_of_proper {j : Json} {s : Artifact.Stored} (hj : j.Proper)
    (h : ofJson? j = some s) : s.toJson.hasShortInts = true := by
  simp only [ofJson?, Option.bind_eq_bind, Option.bind_eq_some_iff, Option.pure_def,
    Option.some.injEq] at h
  obtain ⟨id, -, name, -, kind, -, path, -, content, -, value, hvalue, metadata, hmetadata,
    rfl⟩ := h
  have hproper := hj.get? hvalue
  simp only [Metadata.ofJson?, Option.bind_eq_bind, Option.bind_eq_some_iff, Option.pure_def,
    Option.some.injEq] at hmetadata
  obtain ⟨madeAt, -, moment, -, filesValue, hfilesValue, files, hfiles, errorsValue, herrorsValue,
    errors, herrors, versionValue, hversionValue, number, hnumber, version, hversion, incomplete, -,
    rfl⟩ := hmetadata
  -- The version is checked to be positive, and is not changed by that.
  have hsame : version.number = number := by
    rw [Version.ofInt?] at hversion
    split at hversion
    · obtain rfl := Option.some.inj hversion
      exact Int.toNat_natCast number
    · cases hversion
  refine (hasShortInts_toJson _).2 ⟨?_, ?_, ?_⟩
  · exact (hproper.get? hfilesValue).short_of_count? hfiles
  · exact (hproper.get? herrorsValue).short_of_count? herrors
  · rw [hsame]
    exact (hproper.get? hversionValue).short_of_count? hnumber

/-! ## Tasks -/

namespace Planning

/-- A step is read back from its value. -/
theorem Subtask.ofJson?_toJson (s : Subtask) : ofJson? s.toJson = some s := rfl

/-- The value of a subtask is readable. -/
theorem Subtask.readable_toJson (d : Nat) (s : Subtask) : Json.Readable (d + 1) s.toJson := by
  refine .obj (by simp) ?_
  simp only [List.forall_mem_cons]
  exact ⟨.str _, .str _, .bool _, by simp⟩

/-- A task is read back from its value. -/
theorem Task.ofJson?_toJson (t : Task) : ofJson? t.toJson = some t := by
  have hsubtasks := mapM_decode_encode Subtask.toJson Subtask.ofJson?_toJson t.subtasks
  have hcriteria := Json.strings?_texts t.criteria
  have hid : t.toJson.getStr? "id" = some t.id := rfl
  have htitle : t.toJson.getStr? "title" = some t.title := rfl
  have hdescription : t.toJson.getStr? "description" = some t.description := rfl
  have hcompleted : t.toJson.get? "completed" = some (.bool t.completed) := rfl
  have hsteps : t.toJson.get? "subtasks" = some (.arr (t.subtasks.map Subtask.toJson)) := rfl
  have htexts : t.toJson.get? "acceptanceCriteria" = some (Json.texts t.criteria) := rfl
  unfold ofJson?
  simp only [hid, htitle, hdescription, hcompleted, hsteps, htexts, hsubtasks, hcriteria,
    Json.bool?, Json.arr?, Option.getD_some, Option.bind_eq_bind, Option.bind_some,
    Option.pure_def]

/-- So is that of a task. -/
theorem Task.readable_toJson (d : Nat) (t : Task) : Json.Readable (d + 3) t.toJson := by
  refine .obj (by simp) ?_
  simp only [List.forall_mem_cons]
  refine ⟨.str _, .str _, .str _, .bool _, .arr fun j hj => ?_, .texts _ _, by simp⟩
  obtain ⟨s, -, rfl⟩ := List.mem_map.1 hj
  exact s.readable_toJson d

end Planning

/-! ## Findings -/

namespace Research

/-- A category is found by its name. -/
theorem Category.ofName?_name (c : Category) : ofName? c.name = some c := by
  cases c <;> decide

/-- So is a relevance. -/
theorem Relevance.ofName?_name (r : Relevance) : ofName? r.name = some r := by
  cases r <;> decide

/-- The members of a finding, whether it has a source or not. -/
theorem Finding.toJson_get? (f : Finding) :
    texts? f.toJson = some (f.id, f.title, f.content) ∧
    f.toJson.get? "category" = some (.str f.category.name) ∧
    f.toJson.get? "relevance" = some (.str f.relevance.name) ∧
    f.toJson.get? "source" = f.source.map .str := by
  obtain ⟨id, title, content, category, relevance, source⟩ := f
  cases source <;> exact ⟨rfl, rfl, rfl, rfl⟩

/-- A finding is read back from its value. -/
theorem Finding.ofJson_toJson (f : Finding) : ofJson f.toJson = .ok (some f) := by
  obtain ⟨htexts, hcategory, hrelevance, hsource⟩ := f.toJson_get?
  have htext : optionalText? (f.source.map .str) = some f.source := by
    cases f.source <;> rfl
  have hfound : lookUp Category.ofName? (some (.str f.category.name)) = .ok (some f.category) :=
    congrArg Except.ok (Category.ofName?_name _)
  have hweighed :
      lookUp Relevance.ofName? (some (.str f.relevance.name)) = .ok (some f.relevance) :=
    congrArg Except.ok (Relevance.ofName?_name _)
  unfold ofJson
  simp only [htexts, hcategory, hrelevance, hsource, hfound, hweighed, htext]
  rfl

/-- The value of a finding is readable. -/
theorem Finding.readable_toJson (d : Nat) (f : Finding) : Json.Readable (d + 1) f.toJson := by
  refine .record (by simp) ?_
  simp only [List.forall_mem_cons, Option.some.injEq, forall_eq', Option.map_eq_some_iff]
  refine ⟨.str _, .str _, .str _, .str _, .str _, ?_, by simp⟩
  rintro j ⟨source, -, rfl⟩
  exact .str source

end Research

/-! ## Snapshots -/

namespace Survey.Snapshot

/-- A snapshot is read back from its value. -/
theorem ofJson?_toJson (s : Snapshot) : ofJson? s.toJson = some s := by
  have hdigests : (s.digests.map fun d => (d.1, Json.str d.2)).mapM
      (fun m => m.2.str?.map fun d => (m.1, d)) = some s.digests :=
    mapM_decode_encode (fun d => (d.1, Json.str d.2)) (fun _ => rfl) s.digests
  have htakenAt : s.toJson.getStr? "timestamp" = some s.takenAt := rfl
  have hhashes : s.toJson.get? "fileHashes" =
      some (.obj (s.digests.map fun d => (d.1, .str d.2))) := rfl
  have hcount : s.toJson.get? "fileCount" = some (Json.count s.fileCount) := rfl
  have hnumber : (Json.count s.fileCount).count? = some s.fileCount := by
    rw [Json.count, Artifact.count?_int (by omega), Int.toNat_natCast]
  unfold ofJson?
  simp only [htakenAt, hhashes, hcount, hnumber, hdigests, Json.obj?, Option.bind_eq_bind,
    Option.bind_some, Option.pure_def]

/-- The value of a snapshot that lists each path once is readable, unless its count is too long. -/
theorem readable_toJson (d : Nat) {s : Snapshot} (hkeys : (s.digests.map Prod.fst).Nodup)
    (hcount : (Json.count s.fileCount).hasShortInts = true) :
    Json.Readable (d + 2) s.toJson := by
  have hdigests :
      Json.Readable (d + 1) (.obj (s.digests.map fun d => (d.1, Json.str d.2))) := by
    refine .obj ?_ fun m hm => ?_
    · rwa [List.map_map]
    · obtain ⟨digest, -, rfl⟩ := List.mem_map.1 hm
      exact .str _
  refine .obj (by simp) ?_
  simp only [List.forall_mem_cons]
  exact ⟨.str _, hdigests, .of_short hcount, by simp⟩

/-- No path stands twice in a snapshot that is made from a proper value, and its count is short. -/
theorem of_proper {j : Json} {s : Snapshot} (hj : j.Proper) (h : ofJson? j = some s) :
    (s.digests.map Prod.fst).Nodup ∧ (Json.count s.fileCount).hasShortInts = true := by
  simp only [ofJson?, Option.bind_eq_bind, Option.bind_eq_some_iff, Option.pure_def,
    Option.some.injEq] at h
  obtain ⟨takenAt, -, hashes, hhashes, members, hmembers, digests, hdigests, value, hvalue, files,
    hfiles, rfl⟩ := h
  refine ⟨?_, (hj.get? hvalue).short_of_count? hfiles⟩
  have hproper := hj.get? hhashes
  cases hproper with
  | @obj ms keys inner =>
    obtain rfl := Option.some.inj hmembers
    have hsame : digests.map Prod.fst = ms.map Prod.fst := by
      refine map_eq_of_mapM (fun m digest hm => ?_) hdigests
      obtain ⟨text, -, rfl⟩ := Option.map_eq_some_iff.1 hm
      rfl
    rwa [hsame]
  | _ => exact absurd hmembers (by simp [Json.obj?])

end Survey.Snapshot

/-! ## Records and their texts -/

/-- How the records of a sort are written and checked when they are read. -/
structure Coding (α : Type) where
  /-- The value of a record. -/
  toJson : α → Json
  /-- A value is taken for a record. -/
  Accepts : Json → α → Prop

namespace Coding

variable {α : Type}

/-- A record comes back: its value has a text, which is read as a value that is taken for it. -/
def Recovers (c : Coding α) (r : α) : Prop :=
  ∃ text j, (c.toJson r).text? = some text ∧ Json.read text = .ok j ∧ c.Accepts j r

/-- All records that meet a condition come back, and so do all that values are taken for. -/
def Faithful (c : Coding α) (Meets : α → Prop) : Prop :=
  (∀ r, Meets r → c.Recovers r) ∧ ∀ j r, j.Proper → c.Accepts j r → c.Recovers r

/-- A record comes back if its value is readable and is taken for it. -/
theorem recovers_of_readable {c : Coding α} {r : α} (h : Json.Readable maxNesting (c.toJson r))
    (haccepts : c.Accepts (c.toJson r) r) : c.Recovers r := by
  refine ⟨(c.toJson r).stored, c.toJson r, ?_, Json.read_stored h, haccepts⟩
  rw [Json.text?, if_pos h.hasShortInts]

/-- Kept artifacts. -/
def artifacts : Coding Artifact.Stored where
  toJson := Artifact.Stored.toJson
  Accepts j s := Artifact.Stored.ofJson? j = some s

/-- Tasks. -/
def tasks : Coding Planning.Task where
  toJson := Planning.Task.toJson
  Accepts j t := Planning.Task.ofJson? j = some t

/-- What was found in research. -/
def findings : Coding Research.Finding where
  toJson := Research.Finding.toJson
  Accepts j f := Research.Finding.ofJson j = .ok (some f)

/-- Snapshots. -/
def snapshots : Coding Survey.Snapshot where
  toJson := Survey.Snapshot.toJson
  Accepts j s := Survey.Snapshot.ofJson? j = some s

/-- A valid artifact comes back, unless a number in it is too long. -/
theorem artifacts_recovers {s : Artifact.Stored} (hvalid : s.Valid)
    (hshort : s.toJson.hasShortInts = true) : artifacts.Recovers s :=
  recovers_of_readable (Artifact.Stored.readable_toJson _ hshort)
    (Artifact.Stored.ofJson?_toJson hvalid)

/-- Every task comes back. -/
theorem tasks_recovers (t : Planning.Task) : tasks.Recovers t :=
  recovers_of_readable (t.readable_toJson _) t.ofJson?_toJson

/-- So does every finding. -/
theorem findings_recovers (f : Research.Finding) : findings.Recovers f :=
  recovers_of_readable (f.readable_toJson _) f.ofJson_toJson

/-- A snapshot that lists each path once comes back, unless its count is too long. -/
theorem snapshots_recovers {s : Survey.Snapshot} (hkeys : (s.digests.map Prod.fst).Nodup)
    (hshort : (Json.count s.fileCount).hasShortInts = true) : snapshots.Recovers s :=
  recovers_of_readable (Survey.Snapshot.readable_toJson _ hkeys hshort) s.ofJson?_toJson

/-- Records come back from their texts, whatever texts they hold: kept artifacts that are valid,
tasks, findings and snapshots that list each path once, where no number has more digits than are
written; and all records that values are taken for, as far as these values could have been read. -/
theorem records_are_recovered :
    artifacts.Faithful (fun s => s.Valid ∧ s.metadata.fileCount < 10 ^ maxIntDigits ∧
      s.metadata.errorCount < 10 ^ maxIntDigits ∧
      s.metadata.version.number < 10 ^ maxIntDigits) ∧
    tasks.Faithful (fun _ => True) ∧
    findings.Faithful (fun _ => True) ∧
    snapshots.Faithful (fun s => (s.digests.map Prod.fst).Nodup ∧
      s.fileCount < 10 ^ maxIntDigits) ∧
    ∀ text j, Json.read text = .ok j → j.Proper := by
  -- Tasks and findings have no numbers, so that nothing is asked of them.
  refine ⟨⟨?_, ?_⟩, ⟨fun t _ => tasks_recovers t, fun _ t _ _ => tasks_recovers t⟩,
    ⟨fun f _ => findings_recovers f, fun _ f _ _ => findings_recovers f⟩, ⟨?_, ?_⟩,
    fun text j => Json.proper_of_read⟩
  · rintro s ⟨hvalid, hfiles, herrors, hversion⟩
    refine artifacts_recovers hvalid ((Artifact.Stored.hasShortInts_toJson s).2 ⟨?_, ?_, ?_⟩)
    · exact Json.hasShortInts_of_nonneg hvalid.fileCount hfiles
    · exact Json.hasShortInts_of_nonneg hvalid.errorCount herrors
    · exact (Json.hasShortInts_int_iff _).2 (by omega)
  · intro j s hj haccepts
    exact artifacts_recovers (Artifact.Stored.valid_of_ofJson? haccepts)
      (Artifact.Stored.short_of_proper hj haccepts)
  · rintro s ⟨hkeys, hcount⟩
    exact snapshots_recovers hkeys ((Json.hasShortInts_int_iff _).2 (by omega))
  · intro j s hj haccepts
    obtain ⟨hkeys, hcount⟩ := Survey.Snapshot.of_proper hj haccepts
    exact snapshots_recovers hkeys hcount

/-- Records whose texts hold a quote, a backslash, control characters, a line separator and a
character beyond the basic plane come back. -/
theorem awkward_records_are_recovered :
    artifacts.Recovers ⟨"\"", .core .summary, "a\\b", "\u2028\x00", "2024-05-01T12:00:00Z", 2, 0,
      ⟨1, Nat.le_refl 1⟩, some true⟩ ∧
    tasks.Recovers ⟨"\r\n", "😀", "\x7f", false, [⟨"s", "\t", true⟩], ["", "\x0c"]⟩ ∧
    findings.Recovers ⟨"f", "\\u0041", "é", .edgeCase, .low, none⟩ ∧
    snapshots.Recovers ⟨"now", [("src/\"a\".ts", "0"), ("😀", "1")], 2⟩ ∧
    Json.Proper (.arr [.int (-7)]) := by
  obtain ⟨hartifacts, htasks, hfindings, hsnapshots, hread⟩ := records_are_recovered
  have hmoment : (Time.Moment.ofText? "2024-05-01T12:00:00Z").isSome := by decide +kernel
  have hsmall : ∀ n : Nat, n < 10 → n < 10 ^ maxIntDigits := fun n hn =>
    Nat.lt_of_lt_of_le hn (Nat.le_self_pow (by decide) 10)
  have hsmallInt : ∀ n : Nat, n < 10 → (n : Int) < 10 ^ maxIntDigits := fun n hn => by
    rw [← Json.natCast_bound]
    exact Int.ofNat_lt.2 (hsmall n hn)
  refine ⟨hartifacts.1 _ ⟨⟨hmoment, by decide, by decide⟩, ?_, ?_, ?_⟩, htasks.1 _ trivial,
    hfindings.1 _ trivial, hsnapshots.1 _ ⟨by decide, hsmall 2 (by decide)⟩, hread "[-7]" _ rfl⟩
  · exact hsmallInt 2 (by decide)
  · exact hsmallInt 0 (by decide)
  · exact hsmall 1 (by decide)

/-- A kept artifact of a version with one digit more than are written. -/
def longVersion : Artifact.Stored where
  id := "a"
  kind := .core .directory
  workspacePath := "ws"
  content := "x"
  metadata :=
    { madeAt := "2024-05-01T12:00:00.000Z", fileCount := 0, errorCount := 0
      version := ⟨10 ^ maxIntDigits, Nat.one_le_pow _ _ (by decide)⟩ }

/-- This artifact is valid, and its value is taken for it, but it has no text. -/
theorem long_version_is_not_recovered :
    longVersion.Valid ∧ artifacts.Accepts longVersion.toJson longVersion ∧
      ¬ artifacts.Recovers longVersion := by
  have hmoment : (Time.Moment.ofText? "2024-05-01T12:00:00.000Z").isSome := by decide +kernel
  have hvalid : longVersion.Valid := ⟨hmoment, Int.le_refl 0, Int.le_refl 0⟩
  refine ⟨hvalid, Artifact.Stored.ofJson?_toJson hvalid, ?_⟩
  rintro ⟨text, j, htext, -⟩
  have hshort : longVersion.toJson.hasShortInts = true := by
    change (if longVersion.toJson.hasShortInts then some longVersion.toJson.stored else none) =
      some text at htext
    exact (Option.ite_none_right_eq_some.1 htext).1
  have hversion := ((Artifact.Stored.hasShortInts_toJson _).1 hshort).2.2
  have hlt := (Json.hasShortInts_int_iff _).1 hversion
  rw [Int.natAbs_natCast] at hlt
  exact Nat.lt_irrefl _ hlt

end Coding

end CodeSurvey
