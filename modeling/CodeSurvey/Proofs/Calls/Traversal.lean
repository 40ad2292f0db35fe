import CodeSurvey.Proofs.Calls.Graph

/-!
# Call sequences are depth first

A call sequence is what a search with a stack puts together: the stack may hold a name several
times, and names that were visited since they were put on it. It is the same as visiting each name
recursively before what it calls (`callSequence_is_preorder`). So it depends on nothing but what
each name calls (`callSequence_congr`).

Both ways of visiting are written down here as relations, without a bound on how long they go on
(`Searches`, `Visits`): they hold of the names visited in the end, and of none where there is no
end. That they come to an end is a part of what is proved, by the names that were not visited yet:
the stack above a given part is emptied by visiting it recursively, whatever stands below
(`exists_visits_searches`).
-/

namespace CodeSurvey.Calls

variable {names visited visited' pending last last' sequence : List String}
  {callees : String → List String} {calls : List (String × String)}

/-! ## Two ways of visiting -/

/-- A search with a stack, its next name first, ends with the last names visited. A name that was
visited is dropped; any other is visited, and what it calls is put in its place. -/
inductive Searches (callees : String → List String) :
    List String → List String → List String → Prop
  | done (visited : List String) : Searches callees visited [] visited
  | drop {visited stack last : List String} {name : String} (hold : name ∈ visited)
      (hrest : Searches callees visited stack last) : Searches callees visited (name :: stack) last
  | visit {visited stack last : List String} {name : String} (hnew : name ∉ visited)
      (hrest : Searches callees (visited ++ [name]) (callees name ++ stack) last) :
      Searches callees visited (name :: stack) last

/-- The recursion over pending names ends with the last names visited. A name that was visited is
passed over; any other is visited, then what it calls, and then the other pending names. -/
inductive Visits (callees : String → List String) :
    List String → List String → List String → Prop
  | done (visited : List String) : Visits callees visited [] visited
  | pass {visited rest last : List String} {name : String} (hold : name ∈ visited)
      (hrest : Visits callees visited rest last) : Visits callees visited (name :: rest) last
  | visit {visited inner rest last : List String} {name : String} (hnew : name ∉ visited)
      (hcallees : Visits callees (visited ++ [name]) (callees name) inner)
      (hrest : Visits callees inner rest last) : Visits callees visited (name :: rest) last

/-- The names are visited from each of the given ones, one after the other. -/
def InTurn (visits : List String → List String → List String → Prop) (visited : List String) :
    List String → List String → Prop
  | [], last => last = visited
  | name :: rest, last => ∃ inner, visits visited [name] inner ∧ InTurn visits inner rest last

/-- The different names as they are visited from the entry points in turn, and then the names that
are left, in their own order. -/
def IsSequence (visits : (String → List String) → List String → List String → List String → Prop)
    (names : List String) (calls : List (String × String)) (sequence : List String) : Prop :=
  let names := Text.distinct names
  ∃ visited, InTurn (visits (calleesOf names calls)) [] (entryPoints names calls) visited ∧
    sequence = visited ++ names.filter fun n => !visited.contains n

/-- A search ends in one way. -/
theorem Searches.unique (h : Searches callees visited pending last)
    (h' : Searches callees visited pending last') : last = last' := by
  induction h with
  | done visited =>
    cases h'
    rfl
  | drop hold _ ih =>
    cases h' with
    | drop _ hrest => exact ih hrest
    | visit hnew _ => exact absurd hold hnew
  | visit hnew _ ih =>
    cases h' with
    | drop hold _ => exact absurd hold hnew
    | visit _ hrest => exact ih hrest

/-- The recursion ends in one way. -/
theorem Visits.unique (h : Visits callees visited pending last)
    (h' : Visits callees visited pending last') : last = last' := by
  induction h generalizing last' with
  | done visited =>
    cases h'
    rfl
  | pass hold _ ih =>
    cases h' with
    | pass _ hrest => exact ih hrest
    | visit hnew _ _ => exact absurd hold hnew
  | visit hnew _ _ ihcallees ihrest =>
    cases h' with
    | pass hold _ => exact absurd hold hnew
    | visit _ hcallees hrest =>
      obtain rfl := ihcallees hcallees
      exact ihrest hrest

/-! ## Visited names -/

/-- When more names are visited, no more are left. -/
theorem length_unvisited_anti (h : visited ⊆ visited') :
    (unvisited names visited').length ≤ (unvisited names visited).length := by
  rw [unvisited, unvisited, ← List.countP_eq_length_filter, ← List.countP_eq_length_filter]
  refine List.countP_mono_left fun n _ hn => ?_
  rw [Bool.not_eq_true', List.contains_eq_mem, decide_eq_false_iff_not] at hn ⊢
  exact fun hin => hn (h hin)

/-- In which order the names were visited does not matter for those that are left. -/
theorem unvisited_reverse (names visited : List String) :
    unvisited names visited.reverse = unvisited names visited := by
  simp only [unvisited, List.contains_reverse]

/-! ## Both end, and alike -/

/-- Pending names on top of a stack are visited recursively, and come to an end, before the search
comes to the rest of the stack. -/
theorem exists_visits_searches (hcallees : ∀ n, callees n ⊆ names) (hpending : pending ⊆ names)
    (visited : List String) :
    ∃ inner, Visits callees visited pending inner ∧ visited ⊆ inner ∧
      ∀ {stack last}, Searches callees inner stack last →
        Searches callees visited (pending ++ stack) last := by
  -- By the number of names that are left, and where a name was visited by the pending names.
  obtain ⟨left, hleft⟩ : ∃ left, (unvisited names visited).length = left := ⟨_, rfl⟩
  induction left using Nat.strongRecOn generalizing visited pending with
  | ind left ihleft =>
    induction pending with
    | nil => exact ⟨visited, .done visited, List.Subset.refl _, fun hrest => hrest⟩
    | cons name rest ih =>
      obtain ⟨hname, hrest⟩ := List.cons_subset.1 hpending
      by_cases hold : name ∈ visited
      · obtain ⟨inner, hinner, hgrows, hsearch⟩ := ih hrest
        exact ⟨inner, .pass hold hinner, hgrows, fun hend => .drop hold (hsearch hend)⟩
      · have hfewer : ∀ {visited'}, visited ++ [name] ⊆ visited' →
            (unvisited names visited').length < left := by
          intro visited' hmore
          rw [← hleft]
          refine Nat.lt_of_le_of_lt (length_unvisited_anti ?_) (length_unvisited_lt hname hold)
          exact List.cons_subset.2
            ⟨hmore (by simp), fun n hn => hmore (List.mem_append_left _ hn)⟩
        -- First what the name calls, then the other pending names.
        obtain ⟨inner, hinner, hgrows, hsearch⟩ :=
          ihleft _ (hfewer (List.Subset.refl _)) (hcallees name) _ rfl
        obtain ⟨outer, houter, hgrows', hsearch'⟩ := ihleft _ (hfewer hgrows) hrest _ rfl
        refine ⟨outer, .visit hold hinner houter, ?_, fun hend => ?_⟩
        · exact fun n hn => hgrows' (hgrows (List.mem_append_left _ hn))
        · exact .visit hold (hsearch (hsearch' hend))

/-- The recursion visits what the search with a stack does. -/
theorem visits_iff_searches (hcallees : ∀ n, callees n ⊆ names) (hpending : pending ⊆ names) :
    Visits callees visited pending last ↔ Searches callees visited pending last := by
  obtain ⟨inner, hvisits, -, hsearch⟩ := exists_visits_searches hcallees hpending visited
  have hsearches : Searches callees visited pending inner := by
    rw [← List.append_nil pending]
    exact hsearch (.done inner)
  constructor
  · intro h
    obtain rfl := h.unique hvisits
    exact hsearches
  · intro h
    obtain rfl := h.unique hsearches
    exact hvisits

/-- The search that goes on only with the given names ends as the other, as there are no other
names. -/
theorem searches_reach {a : Adjacency} (hcallees : ∀ n, a.callees n ⊆ names)
    (hpending : pending ⊆ names) :
    Searches a.callees visited.reverse pending (reach names a visited pending).reverse := by
  fun_induction reach names a visited pending with
  | case1 visited => exact .done _
  | case2 visited name rest hold ih =>
    exact .drop (List.mem_reverse.2 hold) (ih (List.cons_subset.1 hpending).2)
  | case3 visited name rest hnew hname ih =>
    have hrest := ih (List.append_subset.2 ⟨hcallees name, (List.cons_subset.1 hpending).2⟩)
    rw [List.reverse_cons] at hrest
    exact .visit (by rwa [List.mem_reverse]) hrest
  | case4 visited name rest hnew hname ih =>
    exact absurd (List.cons_subset.1 hpending).1 hname

/-- What the search ends with is computed. -/
theorem searches_iff {a : Adjacency} (hcallees : ∀ n, a.callees n ⊆ names)
    (hpending : pending ⊆ names) :
    Searches a.callees visited.reverse pending last ↔
      last = (reach names a visited pending).reverse := by
  constructor
  · exact fun h => h.unique (searches_reach hcallees hpending)
  · rintro rfl
    exact searches_reach hcallees hpending

/-! ## Call sequences -/

/-- Whatever visits names as the search does gives the call sequence, and nothing else. -/
theorem isSequence_iff
    {visits : (String → List String) → List String → List String → List String → Prop}
    (hvisits : ∀ {names : List String} {callees visited pending last},
      (∀ n, callees n ⊆ names) → pending ⊆ names →
        (visits callees visited pending last ↔ Searches callees visited pending last)) :
    IsSequence visits names calls sequence ↔ sequence = callSequence names calls := by
  unfold IsSequence callSequence
  generalize Text.distinct names = names
  have hcallees : calleesOf names calls = (adjacency names calls).callees :=
    funext fun name => (callees_adjacency names calls name).symm
  have hsubset : ∀ n, (adjacency names calls).callees n ⊆ names := by
    intro n
    rw [callees_adjacency]
    exact calleesOf_subset
  -- By the entry points, with what was visited before.
  have hturns : ∀ roots ⊆ names, ∀ visited last,
      InTurn (visits (adjacency names calls).callees) visited.reverse roots last ↔
        last = (roots.foldl (fun visited root => reach names (adjacency names calls) visited [root])
          visited).reverse := by
    intro roots hroots
    induction roots with
    | nil => exact fun _ _ => Iff.rfl
    | cons root rest ih =>
      obtain ⟨hroot, hrest⟩ := List.cons_subset.1 hroots
      have hpending : [root] ⊆ names := List.cons_subset.2 ⟨hroot, List.nil_subset _⟩
      intro visited last
      simp only [InTurn, hvisits hsubset hpending, searches_iff hsubset hpending, exists_eq_left,
        List.foldl_cons]
      exact ih hrest _ _
  have hentries := hturns (entryPoints names calls) (List.filter_subset_self _) []
  rw [List.reverse_nil] at hentries
  simp only [hcallees, hentries, exists_eq_left, callRoots_adjacency]
  rw [← unvisited_reverse]
  rfl

/-- A call sequence is told by what each name calls. -/
theorem callSequence_congr {calls' : List (String × String)}
    (h : ∀ caller, calleesOf (Text.distinct names) calls caller =
      calleesOf (Text.distinct names) calls' caller) :
    callSequence names calls = callSequence names calls' := by
  have hcallees := funext h
  have hentries : entryPoints (Text.distinct names) calls =
      entryPoints (Text.distinct names) calls' := by
    unfold entryPoints
    rw [hcallees]
  have hsequence : ∀ calls sequence, IsSequence Searches names calls sequence ↔
      sequence = callSequence names calls := fun _ _ => isSequence_iff fun _ _ => Iff.rfl
  rw [← hsequence, IsSequence, ← hcallees, ← hentries]
  exact (hsequence calls _).2 rfl

/-- The search with a stack comes to an end, and so does the recursion; both end with the call
sequence and with nothing else: from each name that calls and is never called, in the order of the
names, each name before what it calls, and then the names that are left. -/
theorem callSequence_is_preorder (names : List String) (calls : List (String × String))
    (sequence : List String) :
    (IsSequence Searches names calls sequence ↔ sequence = callSequence names calls) ∧
    (IsSequence Visits names calls sequence ↔ sequence = callSequence names calls) :=
  ⟨isSequence_iff fun _ _ => Iff.rfl, isSequence_iff visits_iff_searches⟩

end CodeSurvey.Calls
