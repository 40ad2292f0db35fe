import CodeSurvey.Proofs.Calls.ExportedNames
import CodeSurvey.Proofs.Syntax.Likeness

/-!
# The order of statements

What is read off the functions of a source, apart from their lines, is the profile of each of them
(`Profile`): its name, whether it is exported, and the names that are called inside it. The profiles
depend on the statement that a function is in and on which names are exported. So if the statements
of a source are put in another order, the profiles are the same in another order
(`profiles_perm`), and with them the handlers and the calls (`statements_are_unordered`).
-/

namespace CodeSurvey.Syntax

/-- The root of a tree that is parsed is a program. -/
theorem Source.root_kind {path text : String} {s : Source} (h : Source.ofText? path text = some s) :
    s.root.kind = .program := by
  have hparse (dialect : Dialect) : (parse dialect text).1.kind = .program := by
    unfold parse
    dsimp only
    split <;> rfl
  obtain ⟨language, -, rfl⟩ := Option.map_eq_some_iff.1 h
  exact hparse _

/-- The statements of one source are those of another, in another order, in other lines and with
other white space between them. -/
def Source.IsRearranged (s t : Source) : Prop :=
  s.root.kind = .program ∧ t.root.kind = .program ∧
    ∃ statements, s.root.children.Perm statements ∧
      List.Forall₂ Alike statements t.root.children

/-- The places that are found inside the statements are like each other, in another order. -/
theorem Source.IsRearranged.places {s t : Source} (h : s.IsRearranged t) (wanted : Kind → Bool)
    (hwanted : wanted .program = false) : ∃ ps, (s.root.places wanted).Perm ps ∧
      List.Forall₂ Place.IsLike ps (t.root.places wanted) := by
  obtain ⟨hs, ht, statements, hperm, halike⟩ := h
  -- The root itself is not wanted.
  have hplaces {root : Node} (hroot : root.kind = .program) : root.places wanted =
      (root.children.flatMap (Place.preorder [.program])).filter fun p => wanted p.node.kind := by
    have hunwanted : wanted root.kind = false := by rw [hroot, hwanted]
    rw [Node.places_eq, Place.preorder_eq ⟨root, []⟩, List.filter_cons_of_neg (by simp [hunwanted]),
      Place.below, List.flatMap_map, hroot]
  have hlike : List.Forall₂ Place.IsLike (statements.flatMap (Place.preorder [.program]))
      (t.root.children.flatMap (Place.preorder [.program])) :=
    List.rel_flatMap halike fun _ _ h => h.preorder [.program]
  refine ⟨(statements.flatMap (Place.preorder [.program])).filter fun p => wanted p.node.kind,
    ?_, ?_⟩
  · rw [hplaces hs]
    exact (hperm.flatMap_right _).filter _
  · rw [hplaces ht]
    exact forall₂_filter hlike fun _ _ h => by rw [h.node.kind_eq]

end CodeSurvey.Syntax

namespace CodeSurvey.Imports

open CodeSurvey.Syntax

variable {n m : Node}

/-- Statements that are like each other list the same names. -/
theorem listedNames_eq (h : Alike n m) : listedNames n = listedNames m := by
  refine flatMap_eq_of_forall₂ (Alike.filter_kind h.namedParts _) fun clause clause' hclause => ?_
  refine filterMap_eq_of_forall₂ (Alike.filter_kind hclause.namedParts _) fun s s' hs => ?_
  exact map_eq_of_rel (rel_or (hs.part? .otherName) (hs.part? .name)) fun _ _ h => h.text_eq

/-- Declarations that are like each other declare the same names. -/
theorem declaredNames_eq (h : Alike n m) : declaredNames n = declaredNames m := by
  have hname := map_eq_of_rel (h.part? .name) fun _ _ h => h.text_eq
  have hdeclarators := filterMap_eq_of_forall₂
    (f := fun d => ((d.part? .name).filter (·.kind == .identifier)).map Node.text)
    (Alike.filter_kind h.namedParts .variableDeclarator)
    fun _ _ h => map_eq_of_rel (h.part?_kind .name .identifier) fun _ _ h => h.text_eq
  rw [declaredNames, declaredNames, h.kind_eq, hname, hdeclarators]

/-- Statements that are like each other export the same names. -/
theorem exportedNames_eq (h : Alike n m) : exportedNames n = exportedNames m := by
  have hdeclaration := map_eq_of_rel (h.part? .declaration) fun _ _ h => declaredNames_eq h
  rw [exportedNames, exportedNames, h.hasMark_eq, hdeclaration, listedNames_eq h]

end CodeSurvey.Imports

namespace CodeSurvey.Calls

open CodeSurvey.Syntax

/-- What is told of a named function, apart from lines. -/
structure Profile where
  name : String
  isExported : Bool
  /-- The names that are called inside it, as often as they are. -/
  called : List String

/-- The profile of a named function. -/
def LocalFunction.profile (f : LocalFunction) : Profile :=
  ⟨f.name, f.isExported, (calledNames f.node).map (·.1)⟩

/-- In nodes that are like each other the same names are called, in the same order. -/
theorem calledNames_eq {n m : Node} (h : Alike n m) :
    (calledNames n).map (·.1) = (calledNames m).map (·.1) := by
  have hcalls := forall₂_filter (p := fun p => p.node.kind == .callExpression)
    (q := fun p => p.node.kind == .callExpression) (h.preorder [])
    fun _ _ h => by rw [h.node.kind_eq]
  rw [calledNames, calledNames, Node.select_eq, Node.select_eq, List.map_filterMap,
    List.map_filterMap, List.filterMap_map, List.filterMap_map]
  refine filterMap_eq_of_forall₂ hcalls fun p q h => ?_
  simp only [Function.comp_apply, Option.map_map]
  exact map_eq_of_rel (h.node.part?_kind .callee .identifier) fun _ _ h => h.text_eq

/-- Like places hold functions of the same profile, if the same names are exported. -/
theorem profile_functionAt?_eq {exported exported' : List String}
    (hexported : ∀ name, exported.contains name = exported'.contains name) {p q : Place}
    (h : p.IsLike q) :
    (functionAt? exported p).map (·.profile) = (functionAt? exported' q).map (·.profile) := by
  have hname : Option.Rel Alike (nameAt? p) (nameAt? q) := h.node.part?_kind .name .identifier
  have hbody : Option.Rel Alike (bodyAt? p) (bodyAt? q) := by
    unfold bodyAt?
    rw [h.node.kind_eq]
    cases declaresFunction q.node.kind with
    | true => exact .some h.node
    | false => exact rel_filter (h.node.part? .value) fun _ _ h => by rw [h.kind_eq]
  have hdirect : isExportedAt p = isExportedAt q := by
    rw [isExportedAt, isExportedAt, h.node.kind_eq, h.above]
  rw [functionAt?_eq, functionAt?_eq, Option.map_bind, Option.map_bind]
  refine bind_eq_of_rel hname fun name name' hname => ?_
  simp only [Function.comp_apply, Option.map_map]
  refine map_eq_of_rel hbody fun body body' hbody => ?_
  simp only [Function.comp_apply, LocalFunction.profile, hname.text_eq, calledNames_eq hbody,
    hdirect, hexported]

/-- The exported names are the same, in another order. -/
theorem ownExports_perm {s t : Source} (h : s.IsRearranged t) :
    (ownExports s).Perm (ownExports t) := by
  obtain ⟨ps, hperm, hlike⟩ := h.places (· == .exportStatement) rfl
  have halike : List.Forall₂ Alike (ps.map (·.node)) (t.root.select (· == .exportStatement)) :=
    List.rel_map (fun _ _ h => h.node) hlike
  have hown := forall₂_filter (p := fun n => (n.part? .source).isNone)
    (q := fun n => (n.part? .source).isNone) halike
    fun _ _ h => isNone_eq_of_rel (h.part? .source)
  unfold ownExports
  rw [← flatMap_eq_of_forall₂ hown fun _ _ h => Imports.exportedNames_eq h]
  exact ((hperm.map _).filter _).flatMap_right _

/-- The profiles of the functions are the same, in another order. -/
theorem profiles_perm {s t : Source} (h : s.IsRearranged t) :
    ((functionsOf s).map (·.profile)).Perm ((functionsOf t).map (·.profile)) := by
  have hexported (name : String) :
      (ownExports s).contains name = (ownExports t).contains name := by
    rw [Bool.eq_iff_iff, List.contains_iff_mem, List.contains_iff_mem, (ownExports_perm h).mem_iff]
  obtain ⟨ps, hperm, hlike⟩ :=
    h.places (fun k => declaresFunction k || k == .variableDeclarator) rfl
  rw [functionsOf_eq, functionsOf_eq, List.map_filterMap, List.map_filterMap, functionPlaces,
    functionPlaces, ← filterMap_eq_of_forall₂ hlike fun _ _ h => profile_functionAt?_eq hexported h]
  exact hperm.filterMap _

/-! ## Handlers and calls -/

/-- What is told of the handlers, apart from lines, is told by the profiles. -/
theorem handlersOf_eq (s : Source) :
    (handlersOf s).map (fun h => (h.name, h.category, h.isExported)) =
      ((functionsOf s).map (·.profile)).map fun f =>
        (f.name, Workflow.Category.ofFunctionName f.name, f.isExported) := by
  simp only [handlersOf, List.map_map, Function.comp_def, LocalFunction.handler,
    LocalFunction.profile]

/-- And so is what is told of the calls. -/
theorem edgesOf_eq (s : Source) :
    (edgesOf s).map (fun e => (e.caller, e.callee)) =
      ((functionsOf s).map (·.profile)).flatMap fun f =>
        (f.called.filter ((functionsOf s).map (·.name)).contains).map fun callee =>
          (f.name, callee) := by
  rw [edgesOf, List.map_flatMap, List.flatMap_map]
  refine List.flatMap_congr fun f _ => ?_
  rw [edgesFrom, List.map_map, LocalFunction.profile, List.filter_map, List.map_map]
  rfl

/-- Both ends of a call are functions of the source. -/
theorem names_of_mem_edgesOf {s : Source} {e : Edge} (he : e ∈ edgesOf s) :
    e.caller ∈ (functionsOf s).map (·.name) ∧ e.callee ∈ (functionsOf s).map (·.name) := by
  obtain ⟨f, hf, he⟩ := List.mem_flatMap.1 he
  obtain ⟨c, hc, rfl⟩ := List.mem_map.1 he
  exact ⟨List.mem_map_of_mem hf, List.contains_iff_mem.1 (List.mem_filter.1 hc).2⟩

/-- If the statements of a source are put in another order, its handlers are the same in another
order, and so are its calls, all apart from their lines. The calls are between functions of the
source. -/
theorem statements_are_unordered {s t : Source} (h : s.IsRearranged t) :
    ((handlersOf s).map fun h => (h.name, h.category, h.isExported)).Perm
        ((handlersOf t).map fun h => (h.name, h.category, h.isExported)) ∧
      ((edgesOf s).map fun e => (e.caller, e.callee)).Perm
        ((edgesOf t).map fun e => (e.caller, e.callee)) ∧
      ∀ e ∈ edgesOf s,
        e.caller ∈ (handlersOf s).map (·.name) ∧ e.callee ∈ (handlersOf s).map (·.name) := by
  have hprofiles := profiles_perm h
  have hnames (s : Source) : (handlersOf s).map (·.name) = (functionsOf s).map (·.name) := by
    rw [handlersOf, List.map_map]
    rfl
  -- A call is kept if some function has the name, wherever that stands.
  have hknown (name : String) : ((functionsOf s).map (·.name)).contains name =
      ((functionsOf t).map (·.name)).contains name := by
    have hperm : ((functionsOf s).map (·.name)).Perm ((functionsOf t).map (·.name)) := by
      have hmap := hprofiles.map (·.name)
      rwa [List.map_map, List.map_map] at hmap
    rw [Bool.eq_iff_iff, List.contains_iff_mem, List.contains_iff_mem, hperm.mem_iff]
  refine ⟨?_, ?_, ?_⟩
  · rw [handlersOf_eq, handlersOf_eq]
    exact hprofiles.map _
  · rw [edgesOf_eq, edgesOf_eq, funext hknown]
    exact hprofiles.flatMap_right _
  · rw [hnames]
    exact fun e he => names_of_mem_edgesOf he

/-- A function that calls another one. -/
def callingText : String := "function f() \x7b g(); \x7d\n"

/-- The function that is called. -/
def calledText : String := "export function g() \x7b\x7d\n"

/-- The call is found whether the function that is called stands behind the other one or before
it. -/
theorem call_before_and_after : ∃ s t,
    Source.ofText? "a.ts" (callingText ++ calledText) = some s ∧
      Source.ofText? "a.ts" (calledText ++ "\n" ++ callingText) = some t ∧ s.IsRearranged t ∧
      (edgesOf s).map (fun e => (e.caller, e.callee)) = [("f", "g")] ∧
      (edgesOf t).map (fun e => (e.caller, e.callee)) = [("f", "g")] := by
  have h : (typescriptSource (callingText ++ calledText)).IsRearranged
      (typescriptSource (calledText ++ "\n" ++ callingText)) := by
    refine ⟨Source.root_kind (ofText?_typescript _), Source.root_kind (ofText?_typescript _), _,
      (List.reverse_perm _).symm, ?_⟩
    rw [List.forall₂_iff_get]
    decide +kernel
  have hedges : (edgesOf (typescriptSource (callingText ++ calledText))).map
      (fun e => (e.caller, e.callee)) = [("f", "g")] := by
    simp only [edgesOf, functionsOf, Node.places_eq, ownExports, Node.select_eq]
    decide +kernel
  have hperm := (statements_are_unordered h).2.1
  rw [hedges] at hperm
  exact ⟨_, _, ofText?_typescript _, ofText?_typescript _, h, hedges,
    (List.singleton_perm.1 hperm).symm⟩

end CodeSurvey.Calls
