import CodeSurvey.Calls.Sequence
import CodeSurvey.Proofs.Text.Pieces

/-!
# The calls between names

Of a list of calls only those between the given names count (`IsCall`). What a name calls is told by
these alone: each name once, in the order of the first calls (`calleesOf`). The adjacency that is
put together call by call says the same of each name (`callees_adjacency`), and the names that a
search begins with are those that call and are never called (`callRoots_adjacency`,
`mem_entryPoints`).
-/

namespace CodeSurvey.Calls

variable {names : List String} {calls : List (String × String)} {caller callee name : String}

/-! ## Calls -/

/-- One of the names calls another, or itself. -/
def IsCall (names : List String) (calls : List (String × String)) (caller callee : String) : Prop :=
  (caller, callee) ∈ calls ∧ caller ∈ names ∧ callee ∈ names

/-- A name that calls one of the names and is called by none of them. -/
structure IsEntry (names : List String) (calls : List (String × String)) (name : String) :
    Prop where
  isCaller : ∃ callee, IsCall names calls name callee
  uncalled : ∀ caller, ¬ IsCall names calls caller name

/-- The calls between the names. -/
def callsAmong (names : List String) (calls : List (String × String)) : List (String × String) :=
  calls.filter fun c => names.contains c.1 && names.contains c.2

/-- The calls between the names are those of one of them by another or itself. -/
theorem mem_callsAmong : (caller, callee) ∈ callsAmong names calls ↔
    IsCall names calls caller callee := by
  rw [callsAmong, List.mem_filter, Bool.and_eq_true, List.contains_iff_mem, List.contains_iff_mem]
  exact Iff.rfl

/-- The names that a name calls, each once, in the order of the first calls. -/
def calleesOf (names : List String) (calls : List (String × String)) (caller : String) :
    List String :=
  Text.distinct (((callsAmong names calls).filter (·.1 == caller)).map (·.2))

/-- The names that a name calls are those with a call between the two. -/
theorem mem_calleesOf : callee ∈ calleesOf names calls caller ↔
    IsCall names calls caller callee := by
  rw [calleesOf, Text.mem_distinct, List.mem_map, ← mem_callsAmong]
  constructor
  · rintro ⟨⟨c, d⟩, hcall, rfl⟩
    obtain ⟨hcall, hcaller⟩ := List.mem_filter.1 hcall
    rwa [← eq_of_beq hcaller]
  · intro hcall
    exact ⟨(caller, callee), List.mem_filter.2 ⟨hcall, beq_self_eq_true caller⟩, rfl⟩

/-- Only names are called. -/
theorem calleesOf_subset : calleesOf names calls caller ⊆ names :=
  fun _ hcallee => (mem_calleesOf.1 hcallee).2.2

/-- The names that call and are never called, in order. -/
def entryPoints (names : List String) (calls : List (String × String)) : List String :=
  names.filter fun n => !(calleesOf names calls n).isEmpty &&
    names.all fun caller => !(calleesOf names calls caller).contains n

/-- The entry points are the names that call and are never called. -/
theorem mem_entryPoints : name ∈ entryPoints names calls ↔ IsEntry names calls name := by
  simp only [entryPoints, List.mem_filter, Bool.and_eq_true, Bool.not_eq_true', List.all_eq_true,
    List.isEmpty_eq_false_iff_exists_mem, List.contains_eq_mem, decide_eq_false_iff_not,
    mem_calleesOf]
  constructor
  · rintro ⟨-, hcalls, huncalled⟩
    exact ⟨hcalls, fun caller hcall => huncalled caller hcall.2.1 hcall⟩
  · rintro ⟨⟨callee, hcall⟩, huncalled⟩
    exact ⟨hcall.2.1, ⟨callee, hcall⟩, fun caller _ => huncalled caller⟩

/-! ## The adjacency -/

namespace Adjacency

variable {a : Adjacency}

/-- What a name calls after one more call. -/
theorem callees_addCall (a : Adjacency) (caller callee name : String) :
    (a.addCall caller callee).callees name =
      if caller = name ∧ callee ∉ a.callees name then a.callees name ++ [callee]
      else a.callees name := by
  induction a with
  | nil => by_cases hname : caller = name <;> simp [addCall, callees, hname]
  | cons entry rest ih =>
    obtain ⟨c, cs⟩ := entry
    rw [addCall]
    by_cases hcaller : c = caller
    · subst hcaller
      by_cases hname : c = name <;> by_cases hthere : callee ∈ cs <;>
        simp [callees, hname, hthere]
    · simp only [beq_eq_false_iff_ne.2 hcaller, Bool.false_eq_true, if_false]
      by_cases hname : c = name
      · subst hname
        simp [callees, Ne.symm hcaller]
      · simp only [callees, List.find?_cons, beq_eq_false_iff_ne.2 hname] at ih ⊢
        exact ih

/-- The callers after one more call. -/
theorem mem_callers_addCall :
    name ∈ (a.addCall caller callee).map (·.1) ↔ name = caller ∨ name ∈ a.map (·.1) := by
  induction a with
  | nil => simp [addCall]
  | cons entry rest ih =>
    obtain ⟨c, cs⟩ := entry
    rw [addCall]
    by_cases hcaller : c = caller
    · simp [hcaller]
    · rw [if_neg (by simpa using hcaller), List.map_cons, List.map_cons, List.mem_cons,
        List.mem_cons, ih]
      tauto

/-- The names that are called after one more call. -/
theorem mem_called_addCall :
    name ∈ (a.addCall caller callee).flatMap (·.2) ↔ name = callee ∨ name ∈ a.flatMap (·.2) := by
  induction a with
  | nil => simp [addCall]
  | cons entry rest ih =>
    obtain ⟨c, cs⟩ := entry
    rw [addCall]
    split_ifs with hcaller hthere
    · rw [List.contains_iff_mem] at hthere
      simp only [List.flatMap_cons, List.mem_append]
      grind
    · simp only [List.flatMap_cons, List.mem_append, List.mem_singleton]
      tauto
    · rw [List.flatMap_cons, List.flatMap_cons, List.mem_append, List.mem_append, ih]
      tauto

end Adjacency

/-- The adjacency is put together from the calls between the names. -/
theorem adjacency_eq (names : List String) (calls : List (String × String)) :
    adjacency names calls =
      (callsAmong names calls).foldl (fun (a : Adjacency) c => a.addCall c.1 c.2) [] :=
  rfl

/-- The adjacency says of each name what it calls. -/
theorem callees_adjacency (names : List String) (calls : List (String × String)) (name : String) :
    (adjacency names calls).callees name = calleesOf names calls name := by
  rw [adjacency_eq, calleesOf]
  -- By the calls, the last one added at the end.
  induction callsAmong names calls using List.reverseRecOn with
  | nil => rfl
  | append_singleton cs c ih =>
    rw [List.foldl_append, List.foldl_cons, List.foldl_nil, Adjacency.callees_addCall, ih,
      List.filter_append, List.map_append]
    by_cases hname : c.1 = name
    · simp only [hname, List.filter_cons, beq_self_eq_true, if_true, List.filter_nil,
        List.map_cons, List.map_nil, Text.distinct_concat, true_and, List.contains_eq_mem,
        decide_eq_true_eq]
      split_ifs <;> rfl
    · simp [hname]

/-- What one more call makes true holds of the adjacency if it is made true by a call. -/
theorem adjacency_iff {P : Adjacency → Prop} {Q : String × String → Prop} (hnil : ¬ P [])
    (hadd : ∀ (a : Adjacency) c, P (a.addCall c.1 c.2) ↔ Q c ∨ P a) :
    P (adjacency names calls) ↔ ∃ c ∈ callsAmong names calls, Q c := by
  rw [adjacency_eq]
  induction callsAmong names calls using List.reverseRecOn with
  | nil => simp [hnil]
  | append_singleton cs c ih =>
    rw [List.foldl_append, List.foldl_cons, List.foldl_nil, hadd, ih]
    simp only [List.mem_append, List.mem_singleton, or_and_right, exists_or, exists_eq_left]
    exact or_comm

/-- The callers of the adjacency are the names that call. -/
theorem mem_callers_adjacency :
    name ∈ (adjacency names calls).map (·.1) ↔ ∃ callee, IsCall names calls name callee := by
  have hadd : ∀ (a : Adjacency) (c : String × String),
      name ∈ (a.addCall c.1 c.2).map (·.1) ↔ name = c.1 ∨ name ∈ a.map (·.1) :=
    fun _ _ => Adjacency.mem_callers_addCall
  rw [adjacency_iff (P := fun a => name ∈ a.map (·.1)) List.not_mem_nil hadd]
  simp [← mem_callsAmong]

/-- The names that the adjacency has as called are the names that are called. -/
theorem mem_called_adjacency :
    name ∈ (adjacency names calls).flatMap (·.2) ↔ ∃ caller, IsCall names calls caller name := by
  have hadd : ∀ (a : Adjacency) (c : String × String),
      name ∈ (a.addCall c.1 c.2).flatMap (·.2) ↔ name = c.2 ∨ name ∈ a.flatMap (·.2) :=
    fun _ _ => Adjacency.mem_called_addCall
  rw [adjacency_iff (P := fun a => name ∈ a.flatMap (·.2)) List.not_mem_nil hadd]
  simp [← mem_callsAmong]

/-- A search begins with the names that call and are never called. -/
theorem callRoots_adjacency (names : List String) (calls : List (String × String)) :
    callRoots names (adjacency names calls) = entryPoints names calls := by
  unfold callRoots entryPoints
  refine List.filter_congr fun n hn => ?_
  have hcaller : (adjacency names calls).any (·.1 == n) = true ↔
      n ∈ (adjacency names calls).map (·.1) := by
    simp
  have hroot : (adjacency names calls).any (·.1 == n) = true ∧
      n ∉ (adjacency names calls).flatMap (·.2) ↔ IsEntry names calls n := by
    rw [hcaller, mem_callers_adjacency, mem_called_adjacency, not_exists]
    exact ⟨fun h => ⟨h.1, h.2⟩, fun h => ⟨h.1, h.2⟩⟩
  have hentry : n ∈ entryPoints names calls ↔ IsEntry names calls n := mem_entryPoints
  rw [entryPoints, List.mem_filter, and_iff_right hn] at hentry
  rw [Bool.eq_iff_iff, hentry, ← hroot, Bool.and_eq_true, Bool.not_eq_true', List.contains_eq_mem,
    decide_eq_false_iff_not]

end CodeSurvey.Calls
