import CodeSurvey.Calls.Function
import CodeSurvey.Proofs.Syntax.Preorder
import Mathlib.Data.List.Nodup
import Mathlib.Tactic.Common

/-!
# By which name a function is exported

A place holds a named function if it has a name (`nameAt?`) and a body (`bodyAt?`); the function is
exported if the statement around it exports it (`isExportedAt`), or if its name is among those that
the source exports (`functionAt?_eq`).

An entry of a list in braces exports something of the source by the name that it has there, or under
another name. A source makes the outer names known (`mem_ownExports_iff`), and a function counts as
exported if its own name is among them or if it is declared in an export statement. So a function
that is listed under another name does not count, and one whose name is given to something else does
(`exported_by_outer_name`).
-/

namespace CodeSurvey.Calls

open CodeSurvey.Syntax

/-- The name that stands at a place, if it is a plain one. -/
def nameAt? (p : Place) : Option Node := (p.node.part? .name).filter (·.kind == .identifier)

/-- The function at a place: a declaration, or the value of a variable. -/
def bodyAt? (p : Place) : Option Node :=
  if declaresFunction p.node.kind then some p.node
  else (p.node.part? .value).filter fun v => isFunctionValue v.kind

/-- Whether the declaration at a place is part of an export statement. A variable is declared by the
node above it. -/
def isExportedAt (p : Place) : Bool :=
  (if declaresFunction p.node.kind then p.above.head? else p.above[1]?) == some .exportStatement

/-- A named function, by its parts. -/
theorem functionAt?_eq (exported : List String) (p : Place) :
    functionAt? exported p = (nameAt? p).bind fun name => (bodyAt? p).map fun body =>
      ⟨name.text, body, p.node.line, isExportedAt p || exported.contains name.text⟩ := by
  unfold functionAt? bodyAt? isExportedAt
  refine Option.bind_congr fun name _ => ?_
  cases declaresFunction p.node.kind with
  | true => rfl
  | false => exact (Option.map_eq_bind ..).symm

/-- The places at which a source may hold a named function. -/
def functionPlaces (s : Source) : List Place :=
  s.root.places fun k => declaresFunction k || k == .variableDeclarator

/-- The functions of a source are those at the places that may hold one. -/
theorem functionsOf_eq (s : Source) :
    functionsOf s = (functionPlaces s).filterMap (functionAt? (ownExports s)) := rfl

/-- A text as a file of its own. -/
def typescriptSource (text : String) : Source :=
  let (root, hasFaults) := parse (.of .typescript) text
  { path := "a.ts", language := .typescript, text, root, hasFaults }

/-- A text under the name `a.ts` is a source in TypeScript. -/
theorem ofText?_typescript (text : String) :
    Source.ofText? "a.ts" text = some (typescriptSource text) := by
  have hlanguage : Files.scriptLanguage? "a.ts" = some .typescript := by decide
  rw [Source.ofText?, hlanguage, Option.map_some]
  unfold typescriptSource
  rfl

end CodeSurvey.Calls

namespace CodeSurvey.Imports

open CodeSurvey.Syntax

/-- The entries of the lists in braces of an export statement. -/
def specifiersOf (statement : Node) : List Node :=
  (statement.namedParts.filter (·.kind == .exportClause)).flatMap fun clause =>
    clause.namedParts.filter (·.kind == .exportSpecifier)

/-- The name in the source of what an entry exports. -/
def localName? (specifier : Node) : Option String := (specifier.part? .name).map Node.text

/-- The other name under which an entry exports it, if there is one. -/
def otherName? (specifier : Node) : Option String := (specifier.part? .otherName).map Node.text

/-- The names that a declaration in an export statement, or the word for the default, makes
known. -/
def namesDeclared (statement : Node) : List String :=
  (if statement.hasMark "default" then ["default"] else []) ++
    ((statement.part? .declaration).map declaredNames).getD []

/-- A statement exports what it declares, and each entry of its lists under the other name or else
its own. -/
theorem exportedNames_eq_append (statement : Node) : exportedNames statement =
    namesDeclared statement ++
      (specifiersOf statement).filterMap fun s => (otherName? s).or (localName? s) := by
  rw [specifiersOf, List.filterMap_flatMap]
  simp only [otherName?, localName?, ← Option.map_or]
  rfl

end CodeSurvey.Imports

namespace CodeSurvey.Calls

open CodeSurvey.Syntax
open CodeSurvey.Imports (specifiersOf localName? otherName? namesDeclared)

variable {s : Source} {name : String}

/-! ## Names in lists -/

/-- The statements with which a source exports what is its own. -/
def ownStatements (s : Source) : List Node :=
  (s.root.select (· == .exportStatement)).filter fun n => (n.part? .source).isNone

/-- Some entry of the lists in these statements is of a kind. -/
def Lists (s : Source) (P : Node → Prop) : Prop :=
  ∃ e ∈ ownStatements s, ∃ specifier ∈ specifiersOf e, P specifier

/-- A name of the source is listed, under whatever other name. -/
def IsListed (s : Source) (name : String) : Prop :=
  Lists s fun specifier => localName? specifier = some name

/-- A name of the source is listed without another name. -/
def IsListedPlainly (s : Source) (name : String) : Prop :=
  Lists s fun specifier => localName? specifier = some name ∧ otherName? specifier = none

/-- A name of the source is listed under another name. -/
def IsRenamed (s : Source) (name : String) : Prop :=
  Lists s fun specifier => localName? specifier = some name ∧ (otherName? specifier).isSome

/-- Something is listed under this name as another name. -/
def IsOtherName (s : Source) (name : String) : Prop :=
  Lists s fun specifier => otherName? specifier = some name

/-- A name is declared in an export statement, or stands for the default. -/
def IsDeclaredOutside (s : Source) (name : String) : Prop :=
  ∃ e ∈ ownStatements s, name ∈ namesDeclared e

/-- Conditions that agree on all entries are met by the same lists. -/
theorem lists_congr {P Q : Node → Prop} (h : ∀ specifier, P specifier ↔ Q specifier) :
    Lists s P ↔ Lists s Q := by
  simp only [Lists, h]

/-- An entry that meets one of two conditions is listed exactly if one is that meets the first or
one that meets the second. -/
theorem lists_or {P Q : Node → Prop} :
    Lists s (fun specifier => P specifier ∨ Q specifier) ↔ Lists s P ∨ Lists s Q := by
  simp only [Lists, and_or_left, exists_or]

/-- A name is listed plainly or under another name. -/
theorem isListed_iff : IsListed s name ↔ IsListedPlainly s name ∨ IsRenamed s name := by
  rw [IsListedPlainly, IsRenamed, ← lists_or]
  refine lists_congr fun specifier => ?_
  cases otherName? specifier <;> simp

/-- A source makes the outer names of its lists known, and what it declares in export statements. -/
theorem mem_ownExports_iff : name ∈ ownExports s ↔
    IsDeclaredOutside s name ∨ IsListedPlainly s name ∨ IsOtherName s name := by
  have hexports : ownExports s = (ownStatements s).flatMap Imports.exportedNames := rfl
  have houter : Lists s (fun specifier =>
        (otherName? specifier).or (localName? specifier) = some name) ↔
      IsListedPlainly s name ∨ IsOtherName s name := by
    rw [IsListedPlainly, IsOtherName, ← lists_or]
    refine lists_congr fun specifier => ?_
    cases otherName? specifier <;> simp [and_comm]
  rw [← houter, hexports, List.mem_flatMap]
  simp only [Imports.exportedNames_eq_append, List.mem_append, List.mem_filterMap, and_or_left,
    exists_or]
  exact Iff.rfl

/-! ## Functions -/

/-- At each place with a name and a body is a function of the source, the only one of its name if no
two share one. It is exported if the statement around it exports it, or if its name is made
known. -/
theorem exists_function (hnames : ((functionsOf s).map (·.name)).Nodup) {p : Place}
    (hp : p ∈ functionPlaces s) {id body : Node} (hid : nameAt? p = some id)
    (hbody : bodyAt? p = some body) : ∃ f ∈ functionsOf s, f.name = id.text ∧ f.node = body ∧
      (∀ g ∈ functionsOf s, g.name = id.text → g = f) ∧
      (f.isExported = true ↔ isExportedAt p = true ∨ id.text ∈ ownExports s) := by
  let f : LocalFunction :=
    ⟨id.text, body, p.node.line, isExportedAt p || (ownExports s).contains id.text⟩
  have hat : functionAt? (ownExports s) p = some f := by
    rw [functionAt?_eq, hid, hbody]
    rfl
  have hf : f ∈ functionsOf s := List.mem_filterMap.2 ⟨p, hp, hat⟩
  refine ⟨f, hf, rfl, rfl, fun g hg hname => List.inj_on_of_nodup_map hnames hg hf hname, ?_⟩
  rw [Bool.or_eq_true, List.contains_iff_mem]

/-- A function counts as exported exactly if its declaration is part of an export statement, or its
name is declared in one, is listed without another name, or is the other name of something listed.
It should count if its declaration is part of an export statement or its name is listed. The two
agree exactly if the first holds, or the name is listed without another one, or it is both or
neither made known otherwise and listed under another one. -/
theorem exported_by_outer_name (s : Source) (hnames : ((functionsOf s).map (·.name)).Nodup)
    {p : Place} (hp : p ∈ functionPlaces s) {id body : Node} (hid : nameAt? p = some id)
    (hbody : bodyAt? p = some body) :
    ∃ f ∈ functionsOf s, f.name = id.text ∧ f.node = body ∧
      (∀ g ∈ functionsOf s, g.name = id.text → g = f) ∧
      (f.isExported = true ↔ isExportedAt p = true ∨ IsDeclaredOutside s id.text ∨
        IsListedPlainly s id.text ∨ IsOtherName s id.text) ∧
      ((f.isExported = true ↔ isExportedAt p = true ∨ IsListed s id.text) ↔
        isExportedAt p = true ∨ IsListedPlainly s id.text ∨
          (IsDeclaredOutside s id.text ∨ IsOtherName s id.text ↔ IsRenamed s id.text)) := by
  obtain ⟨f, hf, hname, hnode, honly, hexported⟩ := exists_function hnames hp hid hbody
  rw [mem_ownExports_iff] at hexported
  refine ⟨f, hf, hname, hnode, honly, hexported, ?_⟩
  rw [hexported, isListed_iff]
  by_cases hdirect : isExportedAt p = true
  · simp [hdirect]
  · by_cases hplain : IsListedPlainly s id.text
    · simp [hplain]
    · simp [hdirect, hplain]

/-- A text in which a variable that holds a function is listed by its name, and a function is
exported where it is declared. -/
def listingText : String :=
  "const run = () => stop();\nexport \x7b run \x7d;\nexport function stop() \x7b\x7d\n"

/-- A function that is listed by its own name counts as exported. -/
theorem listed_function_is_exported : ∃ s, Source.ofText? "a.ts" listingText = some s ∧
    ∃ f ∈ functionsOf s, f.name = "run" ∧ (f.isExported = true ↔ IsListed s "run") ∧
      f.isExported = true := by
  refine ⟨_, ofText?_typescript listingText, ?_⟩
  have hnames : ((functionsOf (typescriptSource listingText)).map (·.name)).Nodup := by
    simp only [functionsOf, Node.places_eq, ownExports, Node.select_eq]
    decide +kernel
  -- The one function of the file is found by evaluation; that it is exported follows from the
  -- theorem.
  obtain ⟨p, hp, hname, hbody, hdirect⟩ : ∃ p ∈ functionPlaces (typescriptSource listingText),
      (nameAt? p).map Node.text = some "run" ∧ (bodyAt? p).isSome ∧ isExportedAt p = false := by
    simp only [functionPlaces, Node.places_eq]
    decide +kernel
  obtain ⟨id, hid, hname⟩ := Option.map_eq_some_iff.1 hname
  obtain ⟨body, hbody⟩ := Option.isSome_iff_exists.1 hbody
  have hplain : IsListedPlainly (typescriptSource listingText) "run" := by
    simp only [IsListedPlainly, Lists, ownStatements, Node.select_eq]
    decide +kernel
  obtain ⟨f, hf, hf', -, -, -, hagree⟩ := exported_by_outer_name _ hnames hp hid hbody
  rw [hname] at hf' hagree
  have hlisted := hagree.2 (.inr (.inl hplain))
  simp only [hdirect, Bool.false_eq_true, false_or] at hlisted
  exact ⟨f, hf, hf', hlisted, hlisted.2 (isListed_iff.2 (.inl hplain))⟩

/-! ## A function under the name of another one -/

/-- Two functions, of which the first is exported under the name of the second. -/
def renamingText : String :=
  "function f() \x7b\x7d\nfunction g() \x7b\x7d\nexport \x7b f as g \x7d;\n"

/-- The first function is listed but not told as exported, and with the second one it is the other
way round: no function stands in an export statement, and only the first name is listed. -/
theorem renamed_function_is_not_exported :
    ∃ s, Source.ofText? "a.ts" renamingText = some s ∧ s.hasFaults = false ∧
      ((functionsOf s).map (·.name)).Nodup ∧
      (functionsOf s).map (fun f => (f.name, f.isExported)) = [("f", false), ("g", true)] ∧
      (∀ p ∈ functionPlaces s, p.above = [.program] ∧ isExportedAt p = false) ∧
      IsListed s "f" ∧ ¬ IsListed s "g" := by
  refine ⟨_, ofText?_typescript renamingText, ?_⟩
  simp only [functionsOf, functionPlaces, Node.places_eq, ownExports, Node.select_eq, IsListed,
    Lists, ownStatements]
  decide +kernel

end CodeSurvey.Calls
