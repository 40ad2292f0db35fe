import CodeSurvey.Architecture.Layer
import CodeSurvey.Proofs.Text.Parts
import Mathlib.Data.Finset.Dedup
import Mathlib.Data.Finset.Insert
import Mathlib.Data.List.Find

/-!
# The layer of a directory is told by the names on its path

Some fragments of a layer are runs of several segments. Where such a run occurs on a path, each of
its segments does (`mem_split_of_occursOn`), and one of them is a fragment of the same layer by
itself (`exists_fragment_of_slash`). So these runs never decide, and neither the order nor the
number of the segments of a path makes a difference for its layer (`layer_is_told_by_segments`).
-/

namespace CodeSurvey.Architecture.Layer

/-- The names on a path, in lower case. -/
def segments (path : String) : Finset String := (Text.split (normalPath path) '/').toFinset

/-- The segments of a path are the pieces between the slashes of its normal form. -/
theorem mem_segments {path s : String} :
    s ∈ segments path ↔ s ∈ Text.split (normalPath path) '/' := List.mem_toFinset

/-- A fragment that occurs on a path has only segments of the path. -/
theorem mem_split_of_occursOn {path fragment s : String} (h : occursOn path fragment = true)
    (hs : s ∈ Text.split fragment '/') (hne : s ≠ "") : s ∈ Text.split path '/' := by
  unfold occursOn at h
  obtain ⟨p, hp, rfl⟩ := List.mem_map.1 hs
  split_ifs at h with hslash
  · -- A run of segments stands between two slashes of the path between slashes.
    have hinfix : '/' :: (fragment.toList ++ ['/']) <:+: '/' :: (path.toList ++ ['/']) := by
      have hpart := Text.hasPart_iff.1 h
      simpa using hpart
    refine List.mem_map.2 ⟨p, Text.mem_splitOn_of_infix hinfix hp ?_, rfl⟩
    rintro rfl
    exact hne rfl
  · have hno : '/' ∉ fragment.toList := by simpa using hslash
    rw [Text.splitOn_of_notMem hno, List.mem_singleton] at hp
    rw [hp, String.ofList_toList]
    exact List.contains_iff_mem.1 h

/-- A fragment of one segment occurs on a path if it is one of its segments. -/
theorem occursOn_iff {path fragment : String} (hno : '/' ∉ fragment.toList) :
    occursOn path fragment = true ↔ fragment ∈ Text.split path '/' := by
  have hslash : ¬ fragment.toList.contains '/' = true := by simpa using hno
  rw [occursOn, if_neg hslash, List.contains_iff_mem]

/-- Each fragment of several segments has one among them that is a fragment of the layer itself. -/
theorem exists_fragment_of_slash : ∀ l ∈ all, ∀ f ∈ l.fragments, '/' ∈ f.toList →
    ∃ s ∈ Text.split f '/', s ≠ "" ∧ s ∈ l.fragments ∧ '/' ∉ s.toList := by
  decide +kernel

/-- A layer has a fragment on a path if it has one of a single segment there. -/
theorem any_occursOn_iff {l : Layer} (hl : l ∈ all) (path : String) :
    l.fragments.any (occursOn path) = true ↔
      ∃ f ∈ l.fragments, '/' ∉ f.toList ∧ f ∈ Text.split path '/' := by
  rw [List.any_eq_true]
  constructor
  · rintro ⟨f, hf, hoccurs⟩
    by_cases hslash : '/' ∈ f.toList
    · obtain ⟨s, hs, hne, hfragment, hno⟩ := exists_fragment_of_slash l hl f hf hslash
      exact ⟨s, hfragment, hno, mem_split_of_occursOn hoccurs hs hne⟩
    · exact ⟨f, hf, hslash, (occursOn_iff hslash).1 hoccurs⟩
  · rintro ⟨f, hf, hno, hmem⟩
    exact ⟨f, hf, (occursOn_iff hno).2 hmem⟩

/-- The layer of a set of segments: `api` if it is among them, else the first layer with a fragment
of one segment among them. -/
def ofSegments? (segments : Finset String) : Option Layer :=
  if "api" ∈ segments then some api
  else all.find? fun l => ∃ f ∈ l.fragments, '/' ∉ f.toList ∧ f ∈ segments

/-- The layer of a path is that of the set of its segments. -/
theorem ofDirectory?_eq (path : String) : ofDirectory? path = ofSegments? (segments path) := by
  unfold ofDirectory? ofSegments?
  by_cases hempty : (normalPath path).isEmpty = true
  · -- An empty path has the empty segment only.
    have hsegments : segments path = {""} := by
      rw [segments, String.isEmpty_iff.1 hempty]
      decide +kernel
    rw [hsegments]
    simp only [hempty, if_true]
    decide +kernel
  · simp only [mem_segments, List.contains_iff_mem, if_neg hempty]
    split_ifs
    · rfl
    · refine List.find?_congr fun l hl => ?_
      rw [Bool.eq_iff_iff, any_occursOn_iff hl, decide_eq_true_eq]

/-- The layer of a directory is told by the set of the segments of its path: it is `api` if that is
one of them, else the first layer with a fragment of one segment among them. Fragments of several
segments never decide. -/
theorem layer_is_told_by_segments (path : String) :
    (∀ other, segments other = segments path → ofDirectory? other = ofDirectory? path) ∧
    ofDirectory? path = ofSegments? (segments path) :=
  ⟨fun other h => by rw [ofDirectory?_eq, ofDirectory?_eq, h], ofDirectory?_eq path⟩

/-- The order of the segments, their number and their letter case make no difference. -/
theorem layer_of_reordered_path :
    segments "/App\\SRC\\app/" = segments "src/app" ∧
    ofDirectory? "/App\\SRC\\app/" = ofDirectory? "src/app" ∧
    ofDirectory? "src/app" = some presentation := by
  have hsame : segments "/App\\SRC\\app/" = segments "src/app" := by decide +kernel
  obtain ⟨hcongr, htold⟩ := layer_is_told_by_segments "src/app"
  refine ⟨hsame, hcongr _ hsame, ?_⟩
  rw [htold]
  decide +kernel

end CodeSurvey.Architecture.Layer
