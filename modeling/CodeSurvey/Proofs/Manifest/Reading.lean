import CodeSurvey.Manifest.Files
import CodeSurvey.Proofs.Files.Agreement
import CodeSurvey.Proofs.Files.Content
import CodeSurvey.Proofs.Research.Session
import CodeSurvey.Proofs.Toml.Reading

/-!
# When manifests are read

Lists of lines are read whatever they hold. A package manifest is read unless it is out of the
bounds of the JSON reader, a crate or project manifest if it is malformed, which counts as
nothing, or if what is looked into in its table is of the sort that is expected there:
`Opens` for what is to be a table, `IsListed` for what is gone through. `IsCrate` and `IsProject`
say so of a whole manifest (`ofCrate_ok_iff`, `ofProject_ok_iff`), and
`manifests_are_read_iff` of the manifests of a workspace.
-/

namespace CodeSurvey.Manifest

open CodeSurvey.Glob (exists_of_map_eq_ok)
open CodeSurvey.Toml (Value isTable_of_read)
open CodeSurvey.Toml.Value (IsTable)

/-! ## Values that are looked into -/

/-- The table under a key of a table, if there is one: an empty one for a value that is missing or
void, and the value itself if it is none. -/
def inner (v : Value) (key : String) : Value :=
  match v.get? key with
  | some x => if isVoid x then .table [] else x
  | none => .table []

/-- What is under a key can be looked into: it is missing, void or a table. -/
def Opens (v : Value) (key : String) : Prop :=
  ∀ x, v.get? key = some x → isVoid x = true ∨ x.IsTable

/-- A value can be gone through: it is a list, a text or a table. -/
def IsListed (v : Value) : Prop :=
  (∃ items, v = .array items) ∨ (∃ s, v = .str s) ∨ v.IsTable

/-- The entries of a table. -/
def entriesOf : Value → List (String × Value)
  | .table entries => entries
  | _ => []

/-- There is a table to look into under a key if the key opens. -/
theorem isTable_inner_iff {v : Value} {key : String} : (inner v key).IsTable ↔ Opens v key := by
  unfold inner Opens
  cases v.get? key with
  | none => exact iff_of_true ⟨[], rfl⟩ (fun x hx => by cases hx)
  | some x =>
    simp only [Option.some.injEq, forall_eq']
    split
    · rename_i hvoid
      exact iff_of_true ⟨[], rfl⟩ (.inl hvoid)
    · rename_i hvoid
      rw [or_iff_right hvoid]

/-- A table can be looked into under any key, and nothing else can. -/
theorem tableAt_eq_ok_iff {v t : Value} {key : String} :
    tableAt v key = .ok t ↔ v.IsTable ∧ t = inner v key := by
  cases v with
  | table entries =>
    have htable : tableAt (.table entries) key = .ok (inner (.table entries) key) := by
      unfold tableAt inner
      dsimp only
      cases Value.get? (.table entries) key <;> rfl
    rw [htable, Except.ok.injEq]
    exact ⟨fun h => ⟨⟨_, rfl⟩, h.symm⟩, fun h => h.2.symm⟩
  | _ => exact iff_of_false (fun h => by cases h) (fun ⟨⟨_, h⟩, _⟩ => by cases h)

/-- A key is looked for in a table only. -/
theorem at?_eq_ok_iff {v : Value} {key : String} {x : Option Value} :
    at? v key = .ok x ↔ v.IsTable ∧ x = v.get? key := by
  cases v with
  | table entries =>
    exact ⟨fun h => ⟨⟨_, rfl⟩, (Except.ok.inj h).symm⟩, fun h => congrArg Except.ok h.2.symm⟩
  | _ => exact iff_of_false (fun h => by cases h) (fun ⟨⟨_, h⟩, _⟩ => by cases h)

/-- What is made of the value of a key is there if the key is looked for in a table. -/
theorem exists_map_at?_iff {α : Type} {f : Option Value → α} {v : Value} {key : String} :
    (∃ x, (at? v key).map f = .ok x) ↔ v.IsTable := by
  cases v with
  | table entries => exact iff_of_true ⟨_, rfl⟩ ⟨_, rfl⟩
  | _ => exact iff_of_false (fun ⟨_, h⟩ => by cases h) (fun ⟨_, h⟩ => by cases h)

/-- Only a table has values. -/
theorem valuesOf_eq_ok_iff {v : Value} {xs : List Value} :
    valuesOf v = .ok xs ↔ v.IsTable ∧ xs = (entriesOf v).map Prod.snd := by
  cases v with
  | table entries =>
    exact ⟨fun h => ⟨⟨_, rfl⟩, (Except.ok.inj h).symm⟩, fun h => congrArg Except.ok h.2.symm⟩
  | _ => exact iff_of_false (fun h => by cases h) (fun ⟨⟨_, h⟩, _⟩ => by cases h)

/-- The keys under a key are read if it is looked for in a table. -/
theorem exists_keysAt_iff {v : Value} {key : String} :
    (∃ keys, keysAt v key = .ok keys) ↔ v.IsTable := exists_map_at?_iff

/-- So is the text. -/
theorem exists_textAt?_iff {v : Value} {key : String} :
    (∃ text, textAt? v key = .ok text) ↔ v.IsTable := exists_map_at?_iff

/-- Of two tables the text of either is read. -/
theorem exists_textAtEither? {v w : Value} (hv : v.IsTable) (hw : w.IsTable) (key : String) :
    ∃ text, textAtEither? v w key = .ok text := by
  obtain ⟨text, htext⟩ := exists_textAt?_iff.2 hv
  cases text with
  | some s => exact ⟨some s, bind_eq_ok.2 ⟨_, htext, rfl⟩⟩
  | none =>
    obtain ⟨other, hother⟩ := exists_textAt?_iff.2 hw
    exact ⟨other, bind_eq_ok.2 ⟨_, htext, hother⟩⟩

/-- Requirements are read from what can be gone through. -/
theorem exists_requirementsIn_iff {v : Value} : (∃ xs, requirementsIn v = .ok xs) ↔ IsListed v := by
  cases v with
  | array items => exact iff_of_true ⟨_, rfl⟩ (.inl ⟨_, rfl⟩)
  | str s => exact iff_of_true ⟨_, rfl⟩ (.inr (.inl ⟨_, rfl⟩))
  | table entries => exact iff_of_true ⟨_, rfl⟩ (.inr (.inr ⟨_, rfl⟩))
  | _ =>
    refine iff_of_false (fun ⟨_, h⟩ => by cases h) ?_
    rintro (⟨_, h⟩ | ⟨_, h⟩ | ⟨_, h⟩) <;> cases h

/-- Under a key they are read if it is looked for in a table, and there is nothing under it or
something that can be gone through. -/
theorem exists_requirementsAt_iff {v : Value} {key : String} :
    (∃ xs, requirementsAt v key = .ok xs) ↔
      v.IsTable ∧ ∀ x, v.get? key = some x → IsListed x := by
  constructor
  · rintro ⟨xs, h⟩
    obtain ⟨found, hfound, h⟩ := bind_eq_ok.1 h
    obtain ⟨hv, rfl⟩ := at?_eq_ok_iff.1 hfound
    refine ⟨hv, fun x hx => ?_⟩
    rw [hx] at h
    exact exists_requirementsIn_iff.1 ⟨xs, h⟩
  · rintro ⟨hv, hlisted⟩
    have hfound : at? v key = .ok (v.get? key) := at?_eq_ok_iff.2 ⟨hv, rfl⟩
    cases hget : v.get? key with
    | none => exact ⟨[], bind_eq_ok.2 ⟨_, hfound, by rw [hget]; rfl⟩⟩
    | some x =>
      obtain ⟨xs, hxs⟩ := exists_requirementsIn_iff.2 (hlisted x hget)
      exact ⟨xs, bind_eq_ok.2 ⟨_, hfound, by rw [hget]; exact hxs⟩⟩

/-- A computation goes on after a part that succeeds. -/
theorem exists_bind {α β ε : Type} {a : Except ε α} {f : α → Except ε β} {x : α} (ha : a = .ok x)
    (hf : ∃ y, f x = .ok y) : ∃ y, (a >>= f) = .ok y := by
  obtain ⟨y, hy⟩ := hf
  exact ⟨y, bind_eq_ok.2 ⟨x, ha, hy⟩⟩

/-- A computation succeeds along a list if it does for each element. -/
theorem exists_mapM_iff {α β ε : Type} {f : α → Except ε β} {xs : List α} :
    (∃ ys, xs.mapM f = .ok ys) ↔ ∀ x ∈ xs, ∃ y, f x = .ok y := by
  induction xs with
  | nil => exact iff_of_true ⟨[], rfl⟩ (fun _ h => absurd h List.not_mem_nil)
  | cons x xs ih =>
    rw [List.forall_mem_cons, ← ih, List.mapM_cons]
    constructor
    · rintro ⟨zs, h⟩
      obtain ⟨y, hy, h⟩ := bind_eq_ok.1 h
      obtain ⟨ys, hys, -⟩ := bind_eq_ok.1 h
      exact ⟨⟨y, hy⟩, ys, hys⟩
    · rintro ⟨⟨y, hy⟩, ys, hys⟩
      exact ⟨y :: ys, bind_eq_ok.2 ⟨y, hy, bind_eq_ok.2 ⟨ys, hys, rfl⟩⟩⟩

/-! ## Crate and project manifests -/

/-- What is looked into in a crate manifest is a table. -/
def IsCrate (root : Value) : Prop := Opens root "package"

/-- A table is read as a crate manifest exactly if it is one. -/
theorem ofCrate_ok_iff {root : Value} (hroot : root.IsTable) :
    (∃ i, ofCrate root = .ok i) ↔ IsCrate root := by
  constructor
  · rintro ⟨i, h⟩
    obtain ⟨package, hpackage, h⟩ := bind_eq_ok.1 h
    obtain ⟨-, rfl⟩ := tableAt_eq_ok_iff.1 hpackage
    obtain ⟨_, -, h⟩ := bind_eq_ok.1 h
    obtain ⟨_, -, h⟩ := bind_eq_ok.1 h
    obtain ⟨name, hname, -⟩ := bind_eq_ok.1 h
    exact isTable_inner_iff.1 (exists_textAt?_iff.1 ⟨name, hname⟩)
  · intro h
    have hpackage : (inner root "package").IsTable := isTable_inner_iff.2 h
    obtain ⟨_, hdependencies⟩ := exists_keysAt_iff.2 hroot
    obtain ⟨_, hdevDependencies⟩ := exists_keysAt_iff.2 hroot
    obtain ⟨_, hname⟩ := exists_textAt?_iff.2 hpackage
    obtain ⟨_, hversion⟩ := exists_textAt?_iff.2 hpackage
    obtain ⟨_, hdescription⟩ := exists_textAt?_iff.2 hpackage
    -- The parts in the order in which they are looked up.
    refine exists_bind (tableAt_eq_ok_iff.2 ⟨hroot, rfl⟩) ?_
    refine exists_bind hdependencies (exists_bind hdevDependencies ?_)
    exact exists_bind hname (exists_bind hversion (exists_bind hdescription ⟨_, rfl⟩))

/-- What is looked into in a project manifest is of the sort that is expected. -/
structure IsProject (root : Value) : Prop where
  project : Opens root "project"
  tool : Opens root "tool"
  poetry : Opens (inner root "tool") "poetry"
  required : ∀ v, (inner root "project").get? "dependencies" = some v → IsListed v
  optional : Opens (inner root "project") "optional-dependencies"
  extras : ∀ e ∈ entriesOf (inner (inner root "project") "optional-dependencies"), IsListed e.2
  groups : Opens (inner (inner root "tool") "poetry") "group"

/-- Each step that reads a project manifest tells what sort its table is of. -/
theorem isProject_of_ofProject {root : Value} {i : Info} (h : ofProject root = .ok i) :
    IsProject root := by
  obtain ⟨project, hproject, h⟩ := bind_eq_ok.1 h
  obtain ⟨-, rfl⟩ := tableAt_eq_ok_iff.1 hproject
  obtain ⟨tool, htool, h⟩ := bind_eq_ok.1 h
  obtain ⟨-, rfl⟩ := tableAt_eq_ok_iff.1 htool
  obtain ⟨poetry, hpoetry, h⟩ := bind_eq_ok.1 h
  obtain ⟨htool, rfl⟩ := tableAt_eq_ok_iff.1 hpoetry
  obtain ⟨required, hrequired, h⟩ := bind_eq_ok.1 h
  obtain ⟨hproject, hrequired⟩ := exists_requirementsAt_iff.1 ⟨required, hrequired⟩
  obtain ⟨optional, hoptional, h⟩ := bind_eq_ok.1 h
  obtain ⟨-, rfl⟩ := tableAt_eq_ok_iff.1 hoptional
  obtain ⟨lists, hlists, h⟩ := bind_eq_ok.1 h
  obtain ⟨hoptional, rfl⟩ := valuesOf_eq_ok_iff.1 hlists
  obtain ⟨extras, hextras, h⟩ := bind_eq_ok.1 h
  obtain ⟨keys, hkeys, h⟩ := bind_eq_ok.1 h
  have hpoetry := exists_keysAt_iff.1 ⟨keys, hkeys⟩
  obtain ⟨_, -, h⟩ := bind_eq_ok.1 h
  obtain ⟨group, hgroup, h⟩ := bind_eq_ok.1 h
  obtain ⟨-, rfl⟩ := tableAt_eq_ok_iff.1 hgroup
  obtain ⟨groups, hgroups, -⟩ := bind_eq_ok.1 h
  obtain ⟨hgroups, -⟩ := valuesOf_eq_ok_iff.1 hgroups
  have hlisted := exists_mapM_iff.1 ⟨extras, hextras⟩
  -- What a step looks into is a table, since the step succeeded.
  exact
    { project := isTable_inner_iff.1 hproject
      tool := isTable_inner_iff.1 htool
      poetry := isTable_inner_iff.1 hpoetry
      required := hrequired
      optional := isTable_inner_iff.1 hoptional
      extras := fun e he => exists_requirementsIn_iff.1 (hlisted e.2 (List.mem_map_of_mem he))
      groups := isTable_inner_iff.1 hgroups }

/-- A project manifest is read if each of the steps succeeds, in their order. -/
theorem exists_ofProject {root : Value} (hroot : root.IsTable) (h : IsProject root) :
    ∃ i, ofProject root = .ok i := by
  have hproject := isTable_inner_iff.2 h.project
  have htool := isTable_inner_iff.2 h.tool
  have hpoetry := isTable_inner_iff.2 h.poetry
  have hoptional := isTable_inner_iff.2 h.optional
  have hgroups := isTable_inner_iff.2 h.groups
  have hlisted : ∀ v ∈ (entriesOf (inner (inner root "project") "optional-dependencies")).map
      Prod.snd, ∃ xs, requirementsIn v = .ok xs :=
    List.forall_mem_map.2 fun e he => exists_requirementsIn_iff.2 (h.extras e he)
  obtain ⟨_, hrequired⟩ := exists_requirementsAt_iff.2 ⟨hproject, h.required⟩
  obtain ⟨_, hextras⟩ := exists_mapM_iff.2 hlisted
  obtain ⟨_, hkeys⟩ := exists_keysAt_iff.2 hpoetry
  obtain ⟨_, hdevKeys⟩ := exists_keysAt_iff.2 hpoetry
  obtain ⟨_, hname⟩ := exists_textAtEither? hproject hpoetry "name"
  obtain ⟨_, hversion⟩ := exists_textAtEither? hproject hpoetry "version"
  obtain ⟨_, hdescription⟩ := exists_textAtEither? hproject hpoetry "description"
  -- The tables first, then the requirements in them, then those of the packaging tool.
  refine exists_bind (tableAt_eq_ok_iff.2 ⟨hroot, rfl⟩) ?_
  refine exists_bind (tableAt_eq_ok_iff.2 ⟨hroot, rfl⟩) ?_
  refine exists_bind (tableAt_eq_ok_iff.2 ⟨htool, rfl⟩) ?_
  refine exists_bind hrequired ?_
  refine exists_bind (tableAt_eq_ok_iff.2 ⟨hproject, rfl⟩) ?_
  refine exists_bind (valuesOf_eq_ok_iff.2 ⟨hoptional, rfl⟩) ?_
  refine exists_bind hextras ?_
  refine exists_bind hkeys (exists_bind hdevKeys ?_)
  refine exists_bind (tableAt_eq_ok_iff.2 ⟨hpoetry, rfl⟩) ?_
  refine exists_bind (valuesOf_eq_ok_iff.2 ⟨hgroups, rfl⟩) ?_
  exact exists_bind hname (exists_bind hversion (exists_bind hdescription ⟨_, rfl⟩))

/-- A table is read as a project manifest exactly if it is one. -/
theorem ofProject_ok_iff {root : Value} (hroot : root.IsTable) :
    (∃ i, ofProject root = .ok i) ↔ IsProject root :=
  ⟨fun ⟨_, h⟩ => isProject_of_ofProject h, exists_ofProject hroot⟩

/-! ## The manifests of a workspace -/

/-- A manifest that is a file of text in bounds is read as its text. -/
theorem manifestText?_of_bytes {w : Files.Workspace} {name text : String}
    (hbytes : w.tree.bytes (w.locate [name]) = .ok text.toUTF8)
    (hreadable : w.unreadable (w.locate [name]) = false) (hname : Files.isBinaryName name = false)
    (hsize : text.toUTF8.size ≤ Settings.maxManifestBytes) : manifestText? w name = some text := by
  have hfile : w.isFile [name] = true := by
    unfold Files.Workspace.isFile Files.Tree.isFile
    unfold Files.Tree.bytes at hbytes
    split at hbytes
    · rename_i heq
      rw [heq]
    · cases hbytes
    · cases hbytes
  have hread : w.bytes? [name] = some text.toUTF8 := by
    rw [Files.Workspace.bytes?, hreadable, hbytes]
    rfl
  have hlast : ([name].getLast?).getD "" = name := rfl
  rw [manifestText?, if_pos hfile, Files.Workspace.text?, hlast, hname]
  simp only [Files.Workspace.size?, hbytes, Bool.false_eq_true, if_false]
  rw [if_neg (by omega), hread, Option.map_some, Files.textOf, Files.utf8?_toUTF8]

/-- A package manifest is read unless the JSON reader gives up on it. -/
theorem exists_packageJson_iff {w : Files.Workspace} : (∃ i, packageJson w = .ok i) ↔
    ∀ text, manifestText? w "package.json" = some text →
      ∀ e, Json.read text = .error e → ∃ flaw place, e = .malformed flaw place := by
  unfold packageJson
  cases manifestText? w "package.json" with
  | none => exact iff_of_true ⟨_, rfl⟩ (fun text h => by cases h)
  | some text =>
    simp only [Option.some.injEq, forall_eq']
    unfold ofPackage
    cases hread : Json.read text with
    | ok j => cases j <;> exact iff_of_true ⟨_, rfl⟩ (fun e h => by cases h)
    | error e =>
      simp only [Except.error.injEq, forall_eq']
      cases e with
      | malformed flaw place => exact iff_of_true ⟨_, rfl⟩ ⟨flaw, place, rfl⟩
      | _ => exact iff_of_false (fun ⟨_, h⟩ => by cases h) (fun ⟨_, _, h⟩ => by cases h)

/-- A settings manifest is read if it is malformed, or if what its table tells is. -/
theorem exists_settingsManifest_iff {w : Files.Workspace} {name : String}
    {ofTable : Value → Except ManifestError Info} {IsSound : Value → Prop}
    (hof : ∀ {root}, root.IsTable → ((∃ i, ofTable root = .ok i) ↔ IsSound root)) :
    (∃ i, settingsManifest w name ofTable = .ok i) ↔
      ∀ text, manifestText? w name = some text →
        Toml.read text = .error .malformed ∨ ∃ root, Toml.read text = .ok root ∧ IsSound root := by
  unfold settingsManifest
  cases manifestText? w name with
  | none => exact iff_of_true ⟨_, rfl⟩ (fun text h => by cases h)
  | some text =>
    simp only [Option.some.injEq, forall_eq']
    unfold settings?
    cases hread : Toml.read text with
    | error e =>
      cases e with
      | malformed => exact iff_of_true ⟨_, rfl⟩ (.inl rfl)
      | _ =>
        refine iff_of_false (fun ⟨_, h⟩ => by cases h) ?_
        rintro (h | ⟨_, h, _⟩) <;> cases h
    | ok root =>
      rw [or_iff_right (by simp)]
      simp only [Except.ok.injEq, exists_eq_left', ← hof (isTable_of_read hread)]
      constructor
      · -- What is told of the table is all that can fail once the text is read.
        rintro ⟨i, h⟩
        obtain ⟨_, hroot, h⟩ := bind_eq_ok.1 h
        obtain rfl := Except.ok.inj hroot
        obtain ⟨i, hi, -⟩ := exists_of_map_eq_ok h
        exact ⟨i, hi⟩
      · rintro ⟨i, h⟩
        refine ⟨some i, bind_eq_ok.2 ⟨_, rfl, ?_⟩⟩
        dsimp only
        rw [h]
        rfl

/-- Which manifests of a workspace are read. Lists of lines always are; a package manifest is unless
it is neither JSON nor malformed, as it is out of the bounds of the reader; and a settings manifest
is if it is malformed or if what is looked into in its table is of the sort that is expected
there. -/
theorem manifests_are_read_iff (w : Files.Workspace) :
    (∃ i, requirementsTxt w = .ok i) ∧
    (∃ i, goMod w = .ok i) ∧
    ((∃ i, packageJson w = .ok i) ↔
      ∀ text, manifestText? w "package.json" = some text →
        ∀ e, Json.read text = .error e → ∃ flaw place, e = .malformed flaw place) ∧
    ((∃ i, cargoToml w = .ok i) ↔
      ∀ text, manifestText? w "Cargo.toml" = some text →
        Toml.read text = .error .malformed ∨ ∃ root, Toml.read text = .ok root ∧ IsCrate root) ∧
    ((∃ i, pyprojectToml w = .ok i) ↔
      ∀ text, manifestText? w "pyproject.toml" = some text →
        Toml.read text = .error .malformed ∨
          ∃ root, Toml.read text = .ok root ∧ IsProject root) :=
  ⟨⟨_, rfl⟩, ⟨_, rfl⟩, exists_packageJson_iff, exists_settingsManifest_iff ofCrate_ok_iff,
    exists_settingsManifest_iff ofProject_ok_iff⟩

/-- A workspace of one manifest. -/
def ofManifest (name text : String) : Files.Workspace :=
  Files.Workspace.ofEntries [([name], .file text.toUTF8)]

/-- A crate manifest whose package is a text. -/
def textPackage : String := "package = \"str\"\n"

/-- It is not read. -/
theorem crate_with_text_is_not_read :
    cargoToml (ofManifest "Cargo.toml" textPackage) = .error .notATable := by
  have htext : manifestText? (ofManifest "Cargo.toml" textPackage) "Cargo.toml" =
      some textPackage := by
    refine manifestText?_of_bytes rfl rfl (by decide) (by decide)
  rw [cargoToml, settingsManifest, htext]
  decide +kernel

end CodeSurvey.Manifest
