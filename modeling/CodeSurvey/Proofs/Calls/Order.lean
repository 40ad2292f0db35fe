import CodeSurvey.Proofs.Calls.Graph
import Mathlib.Logic.Relation

/-!
# Callers come first

A call sequence has two parts. The first one has the names that are reached by calls from the entry
points, and there every name but an entry point comes after one that calls it. The second one has
the other names, in their own order (`callSequence_is_ordered`).

What is said of the names visited so far and of those pending holds in each step of a search
(`Searching`): what a visited name calls is visited or pending, and each of these names is an entry
point or is called by a name visited before. In the end nothing is pending.
-/

namespace CodeSurvey.Calls

variable {names : List String} {calls : List (String × String)} {visited pending : List String}
  {name : String}

/-- A name that is reached by calls from an entry point, or is one. -/
def IsReached (names : List String) (calls : List (String × String)) (name : String) : Prop :=
  ∃ entry, IsEntry names calls entry ∧ Relation.ReflTransGen (IsCall names calls) entry name

/-- A name that may be visited after the ones before: it is an entry point or called by one of
them. -/
def IsLed (names : List String) (calls : List (String × String)) (before : List String)
    (name : String) : Prop :=
  IsEntry names calls name ∨ ∃ caller ∈ before, IsCall names calls caller name

/-- Such a name is one of the names. -/
theorem IsLed.mem_names {before : List String} (h : IsLed names calls before name) :
    name ∈ names := by
  rcases h with hentry | ⟨caller, -, hcall⟩
  · obtain ⟨callee, hcall⟩ := hentry.isCaller
    exact hcall.2.1
  · exact hcall.2.2

/-- A search under way, with the names visited so far, the last one first, and those pending. -/
structure Searching (names : List String) (calls : List (String × String))
    (visited pending : List String) : Prop where
  /-- No name is visited twice. -/
  nodup : visited.Nodup
  /-- What a visited name calls is visited or pending. -/
  closed : ∀ n ∈ visited, ∀ callee, IsCall names calls n callee →
    callee ∈ visited ∨ callee ∈ pending
  ledPending : ∀ n ∈ pending, IsLed names calls visited n
  ledVisited : ∀ n before, n :: before <:+ visited → IsLed names calls before n

/-! ## The steps of a search -/

namespace Searching

/-- Nothing is visited at first. -/
theorem start (names : List String) (calls : List (String × String)) :
    Searching names calls [] [] where
  nodup := List.nodup_nil
  closed := by simp
  ledPending := by simp
  ledVisited := by simp

/-- The search goes on from an entry point. -/
theorem enter (h : Searching names calls visited []) (hentry : IsEntry names calls name) :
    Searching names calls visited [name] where
  nodup := h.nodup
  closed := fun n hn callee hcall => .inl ((h.closed n hn callee hcall).resolve_right (by simp))
  ledPending := List.forall_mem_singleton.2 (.inl hentry)
  ledVisited := h.ledVisited

/-- A pending name that was visited is dropped. -/
theorem drop (h : Searching names calls visited (name :: pending)) (hold : name ∈ visited) :
    Searching names calls visited pending where
  nodup := h.nodup
  closed := by
    intro n hn callee hcall
    rcases h.closed n hn callee hcall with hvisited | hpending
    · exact .inl hvisited
    · rcases List.mem_cons.1 hpending with rfl | hpending
      · exact .inl hold
      · exact .inr hpending
  ledPending := (List.forall_mem_cons.1 h.ledPending).2
  ledVisited := h.ledVisited

/-- Any other is visited, and what it calls is put in its place. -/
theorem visit (h : Searching names calls visited (name :: pending)) (hnew : name ∉ visited) :
    Searching names calls (name :: visited) (calleesOf names calls name ++ pending) where
  nodup := List.nodup_cons.2 ⟨hnew, h.nodup⟩
  closed := by
    intro n hn callee hcall
    rcases List.mem_cons.1 hn with rfl | hn
    · exact .inr (List.mem_append_left _ (mem_calleesOf.2 hcall))
    · -- The callee was pending: either it is the name that is visited now, or it is pending still.
      rcases h.closed n hn callee hcall with hvisited | hpending
      · exact .inl (List.mem_cons_of_mem _ hvisited)
      · rcases List.mem_cons.1 hpending with rfl | hpending
        · exact .inl List.mem_cons_self
        · exact .inr (List.mem_append_right _ hpending)
  ledPending := by
    intro n hn
    rcases List.mem_append.1 hn with hn | hn
    · exact .inr ⟨name, List.mem_cons_self, mem_calleesOf.1 hn⟩
    · refine (h.ledPending n (List.mem_cons_of_mem _ hn)).imp_right ?_
      rintro ⟨caller, hcaller, hcall⟩
      exact ⟨caller, List.mem_cons_of_mem _ hcaller, hcall⟩
  ledVisited := by
    intro n before hbefore
    rcases List.suffix_cons_iff.1 hbefore with heq | hbefore
    · obtain ⟨rfl, rfl⟩ := List.cons.inj heq
      exact h.ledPending n List.mem_cons_self
    · exact h.ledVisited n before hbefore

/-! ## A whole search -/

/-- A search ends with nothing pending, and with all visited that was visited or pending. -/
theorem finish (h : Searching names calls visited pending) :
    Searching names calls (reach names (adjacency names calls) visited pending) [] ∧
      visited ⊆ reach names (adjacency names calls) visited pending ∧
      pending ⊆ reach names (adjacency names calls) visited pending := by
  generalize ha : adjacency names calls = a
  fun_induction reach names a visited pending with
  | case1 visited => exact ⟨h, List.Subset.refl _, List.nil_subset _⟩
  | case2 visited name rest hold ih =>
    obtain ⟨hsearching, hvisited, hpending⟩ := ih (h.drop hold)
    exact ⟨hsearching, hvisited, List.cons_subset.2 ⟨hvisited hold, hpending⟩⟩
  | case3 visited name rest hnew hname ih =>
    subst ha
    rw [callees_adjacency] at ih ⊢
    obtain ⟨hsearching, hvisited, hpending⟩ := ih (h.visit hnew)
    obtain ⟨hself, hvisited⟩ := List.cons_subset.1 hvisited
    exact ⟨hsearching, hvisited, List.cons_subset.2 ⟨hself, (List.append_subset.1 hpending).2⟩⟩
  | case4 visited name rest hnew hname ih =>
    exact absurd (h.ledPending name List.mem_cons_self).mem_names hname

/-- So it does from several entry points in turn. -/
theorem finish_all (h : Searching names calls visited []) {roots : List String}
    (hroots : ∀ root ∈ roots, IsEntry names calls root) :
    Searching names calls (roots.foldl (fun visited root =>
      reach names (adjacency names calls) visited [root]) visited) [] ∧
    visited ++ roots ⊆ roots.foldl (fun visited root =>
      reach names (adjacency names calls) visited [root]) visited := by
  induction roots generalizing visited with
  | nil => exact ⟨h, by simp⟩
  | cons root rest ih =>
    obtain ⟨hroot, hrest⟩ := List.forall_mem_cons.1 hroots
    obtain ⟨hsearching, hvisited, hpending⟩ := (h.enter hroot).finish
    obtain ⟨hend, hsubset⟩ := ih hsearching hrest
    obtain ⟨hafter, hrest⟩ := List.append_subset.1 hsubset
    have hroot := hafter (hpending (List.mem_singleton_self root))
    exact ⟨hend, List.append_subset.2
      ⟨List.Subset.trans hvisited hafter, List.cons_subset.2 ⟨hroot, hrest⟩⟩⟩

/-! ## What is visited in the end -/

/-- What is visited is one of the names. -/
theorem subset_names (h : Searching names calls visited pending) : visited ⊆ names := by
  intro n hn
  obtain ⟨after, before, rfl⟩ := List.append_of_mem hn
  exact (h.ledVisited n before (List.suffix_append _ _)).mem_names

/-- What is visited is reached by calls. -/
theorem isReached (h : Searching names calls visited []) (hname : name ∈ visited) :
    IsReached names calls name := by
  -- By the names visited before, from the first one on.
  have hpart : ∀ part, part <:+ visited → ∀ n ∈ part, IsReached names calls n := by
    intro part
    induction part with
    | nil => simp
    | cons n before ih =>
      intro hpart
      have hbefore := ih ((List.suffix_cons n before).trans hpart)
      refine List.forall_mem_cons.2 ⟨?_, hbefore⟩
      rcases h.ledVisited n before hpart with hentry | ⟨caller, hcaller, hcall⟩
      · exact ⟨n, hentry, .refl⟩
      · obtain ⟨entry, hentry, hreach⟩ := hbefore caller hcaller
        exact ⟨entry, hentry, hreach.tail hcall⟩
  exact hpart visited (List.suffix_refl visited) name hname

/-- If the entry points are visited, so is what is reached by calls. -/
theorem mem_of_isReached (h : Searching names calls visited [])
    (hentries : ∀ entry, IsEntry names calls entry → entry ∈ visited)
    (hname : IsReached names calls name) : name ∈ visited := by
  obtain ⟨entry, hentry, hreach⟩ := hname
  induction hreach with
  | refl => exact hentries entry hentry
  | tail _ hcall ih => exact (h.closed _ ih _ hcall).resolve_right List.not_mem_nil

/-- With the names that are left, all names are there. -/
theorem perm_append_unvisited (h : Searching names calls visited []) (hnames : names.Nodup) :
    (visited.reverse ++ unvisited names visited).Perm names := by
  have hleft : (unvisited names visited).Nodup := hnames.filter _
  have hdisjoint : visited.reverse.Disjoint (unvisited names visited) := by
    intro n hn hn'
    simp only [unvisited, List.mem_filter, List.contains_eq_mem] at hn'
    simp [List.mem_reverse.1 hn] at hn'
  have hnodup := (List.nodup_reverse.2 h.nodup).append hleft hdisjoint
  refine (List.perm_ext_iff_of_nodup hnodup hnames).2 fun n => ?_
  simp only [List.mem_append, List.mem_reverse, unvisited, List.mem_filter, List.contains_eq_mem,
    Bool.not_eq_true', decide_eq_false_iff_not]
  constructor
  · rintro (hn | hn)
    · exact h.subset_names hn
    · exact hn.1
  · intro hn
    by_cases hvisited : n ∈ visited
    · exact .inl hvisited
    · exact .inr ⟨hn, hvisited⟩

end Searching

/-- A call sequence has the names that a search from all entry points visits, and then the names
that are left. -/
theorem exists_searching (names : List String) (calls : List (String × String)) :
    ∃ visited, callSequence names calls =
        visited.reverse ++ unvisited (Text.distinct names) visited ∧
      Searching (Text.distinct names) calls visited [] ∧
      ∀ entry, IsEntry (Text.distinct names) calls entry → entry ∈ visited := by
  unfold callSequence
  generalize Text.distinct names = names
  obtain ⟨hsearching, hsubset⟩ := (Searching.start names calls).finish_all
    fun root hroot => mem_entryPoints.1 hroot
  dsimp only
  rw [callRoots_adjacency]
  refine ⟨_, rfl, hsearching, fun entry hentry => ?_⟩
  exact hsubset (mem_entryPoints.2 hentry)

/-! ## The order of a call sequence -/

/-- The calls between names do not depend on how often a name is given. -/
theorem isCall_distinct : IsCall (Text.distinct names) calls = IsCall names calls := by
  funext caller callee
  simp only [IsCall, Text.mem_distinct]

/-- Nor do the entry points. -/
theorem isEntry_distinct : IsEntry (Text.distinct names) calls name ↔ IsEntry names calls name := by
  constructor
  · rintro ⟨hcaller, huncalled⟩
    rw [isCall_distinct] at hcaller huncalled
    exact ⟨hcaller, huncalled⟩
  · rintro ⟨hcaller, huncalled⟩
    rw [← isCall_distinct] at hcaller huncalled
    exact ⟨hcaller, huncalled⟩

/-- Nor does what is reached from them. -/
theorem isReached_distinct :
    IsReached (Text.distinct names) calls name ↔ IsReached names calls name := by
  simp only [IsReached, isCall_distinct, isEntry_distinct]

/-- A call sequence has each of the names once. First come the names that are reached by calls from
an entry point, each of them after a name that calls it unless it is an entry point itself; then
come the other names, in their own order. -/
theorem callSequence_is_ordered (names : List String) (calls : List (String × String)) :
    (callSequence names calls).Perm (Text.distinct names) ∧
    ∃ first, callSequence names calls =
        first ++ (Text.distinct names).filter (fun n => !first.contains n) ∧
      (∀ n, n ∈ first ↔ IsReached names calls n) ∧
      ∀ before n after, first = before ++ n :: after → ¬ IsEntry names calls n →
        ∃ caller ∈ before, IsCall names calls caller n := by
  obtain ⟨visited, hsequence, hsearching, hentries⟩ := exists_searching names calls
  -- What the search has visited when it ends is what calls reach from the entry points.
  have hreached : ∀ n, n ∈ visited ↔ IsReached names calls n := by
    intro n
    rw [← isReached_distinct]
    exact ⟨hsearching.isReached, hsearching.mem_of_isReached hentries⟩
  constructor
  · rw [hsequence]
    exact hsearching.perm_append_unvisited (Text.nodup_distinct names)
  · refine ⟨visited.reverse, ?_, fun n => by rw [List.mem_reverse, hreached], ?_⟩
    · rw [hsequence]
      simp only [unvisited, List.contains_reverse]
    · intro before n after hfirst hentry
      -- The visited names are kept last one first, so what comes before a name is what was visited
      -- then.
      have hsuffix : n :: before.reverse <:+ visited := by
        refine ⟨after.reverse, ?_⟩
        rw [← List.reverse_reverse visited, hfirst]
        simp
      rcases hsearching.ledVisited n _ hsuffix with hled | ⟨caller, hcaller, hcall⟩
      · exact absurd (isEntry_distinct.1 hled) hentry
      · rw [isCall_distinct] at hcall
        exact ⟨caller, List.mem_reverse.1 hcaller, hcall⟩

end CodeSurvey.Calls
