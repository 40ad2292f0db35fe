import CodeSurvey.Manifest.Info
import CodeSurvey.Proofs.Text.Pieces

/-!
# Putting manifests together

Several manifests tell the dependencies of all of them, each once and in the order in which they
first occur, and the first name, version and description that is there (`merge_tells`). This
determines what they tell, so that manifests may be put together in parts
(`merge_is_homomorphism`): the different elements of a list are those of its parts
(`distinct_append`), and the first text that is there is the first one of the first part that has
one.
-/

namespace CodeSurvey.Manifest

open CodeSurvey.Text

/-! ## The folds -/

/-- No text of a manifest is empty. -/
structure Info.IsProper (i : Info) : Prop where
  /-- Its name, if there is one. -/
  name : i.name ≠ some ""
  /-- Its version, if there is one. -/
  version : i.version ≠ some ""
  /-- Its description, if there is one. -/
  description : i.description ≠ some ""

/-- A text that is not empty is taken if it is there. -/
theorem orElse_eq_or {a : Option String} (h : a ≠ some "") (b : Option String) :
    orElse a b = a.or b := by
  unfold orElse
  split
  · exact absurd rfl h
  · rfl
  · rfl

/-- The first text that is there is that of the first manifest, if it has one. -/
theorem findSome?_cons_eq_or (f : Info → Option String) (i : Info) (told : List Info) :
    (i :: told).findSome? f = (f i).or (told.findSome? f) := by
  rw [List.findSome?_cons]
  cases f i <;> rfl

/-- Of texts that are not empty the first one that is there is taken. -/
theorem foldl_orElse {f : Info → Option String} {told : List Info} {a : Option String}
    (ha : a ≠ some "") (h : ∀ i ∈ told, f i ≠ some "") :
    told.foldl (fun a i => orElse a (f i)) a = a.or (told.findSome? f) := by
  induction told generalizing a with
  | nil => simp
  | cons i told ih =>
    obtain ⟨hi, htold⟩ := List.forall_mem_cons.1 h
    rw [List.foldl_cons, orElse_eq_or ha, ih _ htold, findSome?_cons_eq_or, Option.or_assoc]
    · cases a with
      | none => exact hi
      | some s => exact ha

/-- What manifests tell one after the other is told part by part. -/
theorem foldl_append_eq (told : List Info) (i : Info) :
    told.foldl Info.append i =
      { dependencies := i.dependencies ++ told.flatMap (·.dependencies)
        devDependencies := i.devDependencies ++ told.flatMap (·.devDependencies)
        name := told.foldl (fun a i => orElse a i.name) i.name
        version := told.foldl (fun a i => orElse a i.version) i.version
        description := told.foldl (fun a i => orElse a i.description) i.description } := by
  induction told generalizing i with
  | nil => simp
  | cons j told ih => simp [ih, Info.append]

/-! ## What is told together -/

/-- The manifests that are there. -/
def present (infos : List (Option Info)) : List Info := infos.filterMap id

/-- The members of a list are those of another one in the order in which they first occur there,
each once. -/
structure FirstOccurrences (all kept : List String) : Prop where
  /-- No member is left out and none is new. -/
  mem_iff : ∀ d, d ∈ kept ↔ d ∈ all
  /-- Each member stands once. -/
  nodup : kept.Nodup
  /-- What stands first occurs first. -/
  ordered : kept.Pairwise fun d e => all.idxOf d < all.idxOf e

/-- What manifests tell together. -/
structure Tells (told : List Info) (m : Info) : Prop where
  dependencies : FirstOccurrences (told.flatMap (·.dependencies)) m.dependencies
  devDependencies : FirstOccurrences (told.flatMap (·.devDependencies)) m.devDependencies
  name : m.name = told.findSome? (·.name)
  version : m.version = told.findSome? (·.version)
  description : m.description = told.findSome? (·.description)

/-- The distinct names are the first occurrences. -/
theorem firstOccurrences_distinct (all : List String) : FirstOccurrences all (distinct all) where
  mem_iff _ := mem_distinct
  nodup := nodup_distinct all
  ordered := pairwise_distinct all

/-- The parts of what proper manifests tell together. -/
theorem merge_eq {infos : List (Option Info)} (h : ∀ i ∈ present infos, i.IsProper) :
    merge infos =
      { dependencies := distinct ((present infos).flatMap (·.dependencies))
        devDependencies := distinct ((present infos).flatMap (·.devDependencies))
        name := (present infos).findSome? (·.name)
        version := (present infos).findSome? (·.version)
        description := (present infos).findSome? (·.description) } := by
  have hnone : (none : Option String) ≠ some "" := nofun
  unfold merge
  rw [← present, foldl_append_eq, foldl_orElse hnone fun i hi => (h i hi).name,
    foldl_orElse hnone fun i hi => (h i hi).version,
    foldl_orElse hnone fun i hi => (h i hi).description]
  rfl

/-- What proper manifests tell together is determined by what they tell one by one. -/
theorem merge_tells {infos : List (Option Info)} (h : ∀ i ∈ present infos, i.IsProper) :
    Tells (present infos) (merge infos) := by
  rw [merge_eq h]
  exact ⟨firstOccurrences_distinct _, firstOccurrences_distinct _, rfl, rfl, rfl⟩

/-- The first text that is there of texts that are not empty is not empty. -/
theorem findSome?_ne_empty {f : Info → Option String} {told : List Info}
    (h : ∀ i ∈ told, f i ≠ some "") : told.findSome? f ≠ some "" := by
  intro heq
  obtain ⟨i, hi, hfi⟩ := List.exists_of_findSome?_eq_some heq
  exact h i hi hfi

/-- What proper manifests tell together is proper. -/
theorem isProper_merge {infos : List (Option Info)} (h : ∀ i ∈ present infos, i.IsProper) :
    (merge infos).IsProper := by
  rw [merge_eq h]
  exact ⟨findSome?_ne_empty fun i hi => (h i hi).name,
    findSome?_ne_empty fun i hi => (h i hi).version,
    findSome?_ne_empty fun i hi => (h i hi).description⟩

/-- Proper manifests tell together what those of their parts tell together, in whatever way they
are parted; what they tell is not changed by a manifest that is missing; and it is the union of
their dependencies in the order of first occurrence with the first name, version and description
that is there. -/
theorem merge_is_homomorphism {xs ys : List (Option Info)}
    (hxs : ∀ i ∈ present xs, i.IsProper) (hys : ∀ i ∈ present ys, i.IsProper) :
    merge (xs ++ ys) = merge [some (merge xs), some (merge ys)] ∧
    merge [some (merge xs)] = merge xs ∧
    merge [some (merge xs), none] = merge xs ∧
    merge [none, some (merge xs)] = merge xs ∧
    Tells (present xs) (merge xs) := by
  have happend : present (xs ++ ys) = present xs ++ present ys := List.filterMap_append
  have hall : ∀ i ∈ present (xs ++ ys), i.IsProper := by
    rw [happend]
    exact List.forall_mem_append.2 ⟨hxs, hys⟩
  have hone : ∀ i ∈ present [some (merge xs)], i.IsProper :=
    List.forall_mem_singleton.2 (isProper_merge hxs)
  have htwo : ∀ i ∈ present [some (merge xs), some (merge ys)], i.IsProper :=
    List.forall_mem_cons.2
      ⟨isProper_merge hxs, List.forall_mem_singleton.2 (isProper_merge hys)⟩
  -- What was merged has no dependency twice, so merging it again keeps them all.
  have hunit : merge [some (merge xs)] = merge xs := by
    rw [merge_eq hone, merge_eq hxs]
    simp [present, distinct_eq_self (nodup_distinct _)]
  refine ⟨?_, hunit, hunit, hunit, merge_tells hxs⟩
  rw [merge_eq hall, merge_eq htwo, happend, merge_eq hxs, merge_eq hys]
  simp [present, distinct_append, findSome?_cons_eq_or]

/-- A manifest without version that lists a dependency twice. -/
def webManifest : Info := { dependencies := ["a", "b", "a"], name := some "first" }

/-- A manifest with a dependency of the other one. -/
def apiManifest : Info :=
  { dependencies := ["b", "c"], name := some "second", version := some "2.0" }

/-- The two are put together with one that is missing. -/
theorem merge_is_homomorphism_of_two :
    (∀ i ∈ present [none, some webManifest], i.IsProper) ∧
    (∀ i ∈ present [some apiManifest], i.IsProper) ∧
    merge ([none, some webManifest] ++ [some apiManifest]) =
      merge [some (merge [none, some webManifest]), some (merge [some apiManifest])] ∧
    Tells (present [none, some webManifest]) (merge [none, some webManifest]) ∧
    merge [none, some webManifest, some apiManifest] =
      { dependencies := ["a", "b", "c"], name := some "first", version := some "2.0" } := by
  have hxs : ∀ i ∈ present [none, some webManifest], i.IsProper :=
    List.forall_mem_singleton.2 ⟨by decide, by decide, by decide⟩
  have hys : ∀ i ∈ present [some apiManifest], i.IsProper :=
    List.forall_mem_singleton.2 ⟨by decide, by decide, by decide⟩
  obtain ⟨happend, -, -, -, htells⟩ := merge_is_homomorphism hxs hys
  exact ⟨hxs, hys, happend, htells, by decide⟩

end CodeSurvey.Manifest
