import CodeSurvey.DataModel.Relationship
import Mathlib.Data.List.Nodup

/-!
# Multiplicities on both sides

A relationship is told by a field and by the fields that lead back from the entity that it leads
to. If no two entities share a name, these are the fields of the one entity of that name
(`leadsBack_iff`), so that relationships are given field by field (`relationships_eq`), each with
`multiplicityOf`. A field that leads back is itself led back to, by the first one. So it has the
same multiplicity, if it is marked as a relation (`relationships_are_reciprocal`).
-/

namespace CodeSurvey.DataModel

variable {entities : List Entity}

/-- A field with its entity and its place. -/
structure PlacedField where
  entity : Entity
  field : Field
  place : FieldPlace
  deriving DecidableEq

/-- The fields of a list of entities, in the order of entities and fields. -/
def placedFields (entities : List Entity) : List PlacedField :=
  entities.zipIdx.flatMap fun e => e.1.fields.zipIdx.map fun f => ⟨e.1, f.1, ⟨e.2, f.2⟩⟩

/-- Whether a field is marked as a relation and its type names one of the entities. -/
def leads (entities : List Entity) (f : PlacedField) : Bool :=
  f.field.isRelation && (entities.map (·.name)).contains (baseType f.field.type)

/-- The fields that lead to entities. -/
def leadingFields (entities : List Entity) : List PlacedField :=
  (placedFields entities).filter (leads entities)

/-- Whether a field leads from the entity that another one leads to back to the entity of that one,
at another place. -/
def IsBack (f g : PlacedField) : Prop :=
  g.entity.name = baseType f.field.type ∧ baseType g.field.type = f.entity.name ∧
    g.place ≠ f.place

instance (f g : PlacedField) : Decidable (IsBack f g) :=
  inferInstanceAs (Decidable (_ ∧ _ ∧ _))

/-- Whether a field of the same arity leads back. -/
def HasBack (entities : List Entity) (f : PlacedField) : Prop :=
  ∃ g ∈ placedFields entities, IsBack f g ∧ g.field.isArray = f.field.isArray

instance (f : PlacedField) : Decidable (HasBack entities f) :=
  inferInstanceAs (Decidable (∃ g ∈ _, _))

/-- The multiplicity of the relationship that a field is. -/
def multiplicityOf (entities : List Entity) (f : PlacedField) : Multiplicity :=
  if f.field.isArray then (if HasBack entities f then .manyToMany else .oneToMany)
  else if HasBack entities f then .oneToOne else .manyToOne

/-- The relationship that a field is, with a given multiplicity. -/
def PlacedField.relationship (f : PlacedField) (m : Multiplicity) : Relationship :=
  ⟨f.entity.name, baseType f.field.type, m, f.field.name⟩

/-- What a multiplicity of a field tells of the fields that lead back. -/
structure IsReciprocal (entities : List Entity) (m : PlacedField → Multiplicity) : Prop where
  /-- Where there are many on both sides, or one, a field that leads back tells the same. -/
  symmetric : ∀ f ∈ leadingFields entities, m f = .manyToMany ∨ m f = .oneToOne →
    ∃ g ∈ leadingFields entities, IsBack f g ∧ m g = m f
  /-- One to many: nothing else of the other entity leads back to many. -/
  one_to_many : ∀ f ∈ leadingFields entities, m f = .oneToMany →
    ∀ g ∈ placedFields entities, IsBack f g → g.field.isArray = false
  /-- Many to one: nothing else of the other entity leads back to one. -/
  many_to_one : ∀ f ∈ leadingFields entities, m f = .manyToOne →
    ∀ g ∈ placedFields entities, IsBack f g → g.field.isArray = true
  /-- An array leads to many, any other field to one. -/
  arity : ∀ f ∈ leadingFields entities,
    f.field.isArray = true ↔ m f = .manyToMany ∨ m f = .oneToMany

/-! ## Fields and their places -/

/-- A field with its place is one of an entity's at that place. -/
theorem mem_placedFields {f : PlacedField} : f ∈ placedFields entities ↔
    (f.entity, f.place.entity) ∈ entities.zipIdx ∧
      (f.field, f.place.field) ∈ f.entity.fields.zipIdx := by
  rw [placedFields, List.mem_flatMap]
  constructor
  · rintro ⟨e, he, hf⟩
    obtain ⟨g, hg, rfl⟩ := List.mem_map.1 hf
    exact ⟨he, hg⟩
  · rintro ⟨he, hf⟩
    exact ⟨_, he, List.mem_map.2 ⟨_, hf, rfl⟩⟩

/-- The entity of a placed field is one of the entities. -/
theorem entity_mem {f : PlacedField} (h : f ∈ placedFields entities) : f.entity ∈ entities :=
  List.fst_mem_of_mem_zipIdx (mem_placedFields.1 h).1

/-- The field itself is one of its entity's. -/
theorem field_mem {f : PlacedField} (h : f ∈ placedFields entities) : f.field ∈ f.entity.fields :=
  List.fst_mem_of_mem_zipIdx (mem_placedFields.1 h).2

/-- If no two entities share a name, entities at places are told by their names. -/
theorem eq_of_name_eq (hnames : (entities.map (·.name)).Nodup) {e e' : Entity × Nat}
    (he : e ∈ entities.zipIdx) (he' : e' ∈ entities.zipIdx) (hname : e.1.name = e'.1.name) :
    e = e' := by
  have hnames' : (entities.zipIdx.map fun e => e.1.name).Nodup := by
    have hmap : (entities.zipIdx.map Prod.fst).map (·.name) = entities.map (·.name) := by
      rw [List.zipIdx_map_fst]
    rwa [← hmap, List.map_map] at hnames
  exact List.inj_on_of_nodup_map hnames' he he' hname

/-- The last entity of a name is one of the entities at their places, if there is one. -/
theorem lastNamed?_cases (entities : List Entity) (name : String) :
    (∃ e, lastNamed? entities name = some e ∧ e ∈ entities.zipIdx ∧ e.1.name = name) ∨
      lastNamed? entities name = none ∧ name ∉ entities.map (·.name) := by
  unfold lastNamed?
  cases hfind : entities.zipIdx.reverse.find? fun e => e.1.name == name with
  | none =>
    refine .inr ⟨rfl, fun hmem => ?_⟩
    obtain ⟨e, he, hname⟩ := List.mem_map.1 hmem
    obtain ⟨i, hi, rfl⟩ := List.mem_iff_getElem.1 he
    have hat : (entities[i], i) ∈ entities.zipIdx.reverse := by
      rw [List.mem_reverse, List.mk_mem_zipIdx_iff_getElem?]
      exact List.getElem?_eq_getElem hi
    exact List.find?_eq_none.1 hfind _ hat (beq_iff_eq.2 hname)
  | some e =>
    obtain ⟨hname, -⟩ := List.find?_eq_some_iff_append.1 hfind
    exact .inl ⟨e, rfl, List.mem_reverse.1 (List.mem_of_find?_eq_some hfind), beq_iff_eq.1 hname⟩

/-! ## One relationship -/

/-- Fields that lead back are found in the entity that is led to. -/
theorem leadsBack_iff (hnames : (entities.map (·.name)).Nodup) {f : PlacedField}
    {target : Entity × Nat} (htarget : target ∈ entities.zipIdx)
    (hname : target.1.name = baseType f.field.type) :
    leadsBack target f.entity.name f.place f.field.isArray = true ↔ HasBack entities f := by
  simp only [leadsBack, List.any_eq_true, Bool.and_eq_true, bne_iff_ne, beq_iff_eq]
  constructor
  · rintro ⟨g, hg, ⟨hplace, harray⟩, htype⟩
    exact ⟨⟨target.1, g.1, ⟨target.2, g.2⟩⟩, mem_placedFields.2 ⟨htarget, hg⟩,
      ⟨hname, htype, hplace⟩, harray⟩
  · -- The entity that leads back has the name of the target, so it is the target.
    rintro ⟨g, hg, ⟨hname', htype, hplace⟩, harray⟩
    obtain ⟨hentity, hfield⟩ := mem_placedFields.1 hg
    obtain rfl := eq_of_name_eq hnames hentity htarget (hname'.trans hname.symm)
    exact ⟨_, hfield, ⟨hplace, harray⟩, htype⟩

/-- A field is a relationship if it leads to an entity. -/
theorem relationshipOf?_eq (hnames : (entities.map (·.name)).Nodup) {source : Entity × Nat}
    {f : Field × Nat} {p : PlacedField} (hp : p = ⟨source.1, f.1, ⟨source.2, f.2⟩⟩) :
    relationshipOf? entities source f =
      if leads entities p then some (p.relationship (multiplicityOf entities p)) else none := by
  obtain ⟨hentity, hfield, hplace⟩ :
      p.entity = source.1 ∧ p.field = f.1 ∧ p.place = ⟨source.2, f.2⟩ := by simp [hp]
  rw [relationshipOf?, leads, ← hentity, ← hfield, ← hplace]
  cases hrelation : p.field.isRelation with
  | false => rfl
  | true =>
    rcases lastNamed?_cases entities (baseType p.field.type) with
      ⟨target, hfind, htarget, hname⟩ | ⟨hfind, hmem⟩
    · have hmem : baseType p.field.type ∈ entities.map (·.name) :=
        List.mem_map.2 ⟨target.1, List.fst_mem_of_mem_zipIdx htarget, hname⟩
      -- The target is the only entity of its name, so that something leads back is a matter of
      -- names.
      have hback := leadsBack_iff hnames htarget hname
      rw [hfind, Bool.true_and, if_pos (List.contains_iff_mem.2 hmem)]
      show some (Relationship.mk p.entity.name target.1.name
        (if p.field.isArray then
          (if leadsBack target p.entity.name p.place p.field.isArray then .manyToMany
            else .oneToMany)
        else if leadsBack target p.entity.name p.place p.field.isArray then .oneToOne
          else .manyToOne) p.field.name) = _
      rw [hname, PlacedField.relationship, multiplicityOf]
      simp only [hback]
    · rw [hfind, Bool.true_and, if_neg fun h => hmem (List.contains_iff_mem.1 h)]
      rfl

/-- The relationships are given by the fields that lead to entities, in order. -/
theorem relationships_eq (hnames : (entities.map (·.name)).Nodup) :
    relationships entities =
      (leadingFields entities).map fun f => f.relationship (multiplicityOf entities f) := by
  rw [relationships, leadingFields, placedFields, List.filter_flatMap, List.map_flatMap]
  refine List.flatMap_congr fun source _ => ?_
  rw [← List.filterMap_eq_filter, List.filterMap_map, List.map_filterMap]
  refine List.filterMap_congr fun f _ => ?_
  rw [relationshipOf?_eq hnames rfl, Function.comp_apply, Option.guard]
  split_ifs <;> rfl

/-! ## Both sides -/

/-- A field that is led back to leads back itself. -/
theorem IsBack.symm {f g : PlacedField} (h : IsBack f g) : IsBack g f :=
  ⟨h.2.1.symm, h.1.symm, h.2.2.symm⟩

/-- An array leads to many. -/
theorem array_iff (entities : List Entity) (f : PlacedField) : f.field.isArray = true ↔
    multiplicityOf entities f = .manyToMany ∨ multiplicityOf entities f = .oneToMany := by
  unfold multiplicityOf
  split_ifs <;> simp_all

/-- If a field of the same arity leads back, there are many on both sides, or one. -/
theorem hasBack_iff (f : PlacedField) : HasBack entities f ↔
    multiplicityOf entities f = .manyToMany ∨ multiplicityOf entities f = .oneToOne := by
  unfold multiplicityOf
  split_ifs <;> simp_all

/-- If no field of the same arity leads back, those that do have the other one. -/
theorem isArray_of_not_hasBack {f g : PlacedField} (h : ¬ HasBack entities f)
    (hg : g ∈ placedFields entities) (hback : IsBack f g) :
    g.field.isArray = !f.field.isArray := by
  rw [Bool.eq_not]
  exact fun harray => h ⟨g, hg, hback, harray⟩

/-- A field that leads to an entity and is led back to by one of the same arity is so alike. -/
theorem IsBack.multiplicityOf_eq {f g : PlacedField} (hf : f ∈ placedFields entities)
    (hg : g ∈ placedFields entities) (h : IsBack f g)
    (harray : g.field.isArray = f.field.isArray) :
    multiplicityOf entities g = multiplicityOf entities f := by
  have hback : HasBack entities f := ⟨g, hg, h, harray⟩
  have hback' : HasBack entities g := ⟨f, hf, h.symm, harray.symm⟩
  rw [multiplicityOf, multiplicityOf, harray, if_pos hback, if_pos hback', if_pos hback,
    if_pos hback']

/-- If no two entities share a name and all fields that lead to entities are marked as relations,
there is a relationship for each of these fields, and its multiplicity is told on both sides. -/
theorem relationships_are_reciprocal (entities : List Entity)
    (hnames : (entities.map (·.name)).Nodup)
    (hmarked : ∀ e ∈ entities, ∀ f ∈ e.fields, baseType f.type ∈ entities.map (·.name) →
      f.isRelation = true) :
    ∃ m : PlacedField → Multiplicity,
      relationships entities = (leadingFields entities).map (fun f => f.relationship (m f)) ∧
        IsReciprocal entities m := by
  refine ⟨multiplicityOf entities, relationships_eq hnames, ?_⟩
  have hplaced : ∀ {f}, f ∈ leadingFields entities → f ∈ placedFields entities :=
    fun hf => (List.mem_filter.1 hf).1
  constructor
  case symmetric =>
    intro f hf hm
    obtain ⟨g, hg, hback, harray⟩ := (hasBack_iff f).2 hm
    -- The field that leads back is marked, for it leads to the entity of the first one.
    have hnamed : baseType g.field.type ∈ entities.map (·.name) := by
      rw [hback.2.1]
      exact List.mem_map_of_mem (entity_mem (hplaced hf))
    have hrelation := hmarked g.entity (entity_mem hg) g.field (field_mem hg) hnamed
    refine ⟨g, List.mem_filter.2 ⟨hg, ?_⟩, hback, hback.multiplicityOf_eq (hplaced hf) hg harray⟩
    rw [leads, hrelation, Bool.true_and]
    exact List.contains_iff_mem.2 hnamed
  case one_to_many =>
    intro f _ hm g hg hback
    have harray : f.field.isArray = true := (array_iff entities f).2 (.inr hm)
    have hnone : ¬ HasBack entities f := by simp [hasBack_iff, hm]
    rw [isArray_of_not_hasBack hnone hg hback, harray, Bool.not_true]
  case many_to_one =>
    intro f _ hm g hg hback
    have harray : f.field.isArray = false := by
      rw [Bool.eq_false_iff, Ne, array_iff entities, hm]
      decide
    have hnone : ¬ HasBack entities f := by simp [hasBack_iff, hm]
    rw [isArray_of_not_hasBack hnone hg hback, harray, Bool.not_false]
  case arity => exact fun f _ => array_iff entities f

/-- Users with posts and friends, and posts with their authors and the post that they answer. -/
def usersAndPosts : List Entity :=
  [{ name := "User", origin := .declared
     fields := [{ name := "posts", type := "Post[]", isArray := true, isRelation := true },
       { name := "friends", type := "User[]", isArray := true, isRelation := true }] },
   { name := "Post", origin := .schema
     fields := [{ name := "title", type := "string" },
       { name := "authors", type := "User[] | null", isArray := true, isRelation := true },
       { name := "answered", type := "null | Post", isRelation := true }] }]

/-- Posts and authors lead to many on both sides, friends are the many of one user, as they are none
in return, and answering posts are many to one. -/
theorem users_and_posts_are_reciprocal :
    relationships usersAndPosts =
        [⟨"User", "Post", .manyToMany, "posts"⟩, ⟨"User", "User", .oneToMany, "friends"⟩,
         ⟨"Post", "User", .manyToMany, "authors"⟩, ⟨"Post", "Post", .manyToOne, "answered"⟩] ∧
      ∃ m : PlacedField → Multiplicity, relationships usersAndPosts =
          (leadingFields usersAndPosts).map (fun f => f.relationship (m f)) ∧
        IsReciprocal usersAndPosts m :=
  ⟨by decide, relationships_are_reciprocal usersAndPosts (by decide) (by decide)⟩

end CodeSurvey.DataModel
