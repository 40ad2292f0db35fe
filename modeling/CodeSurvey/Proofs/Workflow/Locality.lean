import CodeSurvey.Proofs.Calls.Traversal
import CodeSurvey.Workflow.Model

/-!
# Whose calls order a workflow

The calls of a code base have a say in the call sequences of its workflows only
(`workflowsOf_eq_map`), and there only those between names of the workflow's own functions. A call
is known by these names and not by the file that it is made in. So the calls of other files can be
left out as long as each of them leads from or to a name that the workflow has not, or repeats a
call of the workflow's own files (`own_calls_order_workflow`).

Where a call in another file has the names of two functions of a workflow, it is taken for a call
between these (`call_in_other_file_orders_workflow`).
-/

namespace CodeSurvey.Workflow

open CodeSurvey.Calls

variable {operations : List Operation} {handlers : List Handler} {edges edges' : List Edge}

/-! ## Calls and call sequences -/

/-- Whether a call has the names of two functions of a workflow. -/
def Flow.joins (w : Flow) (e : Edge) : Bool :=
  w.handlers.any (·.name == e.caller) && w.handlers.any (·.name == e.callee)

/-- Whether a call is made in the file of a function of a workflow. -/
def Flow.owns (w : Flow) (e : Edge) : Bool := w.handlers.any (·.path == e.path)

/-- Each call between the names of a workflow's functions is first made in one of its files. -/
def Flow.CallsFirst (w : Flow) (edges : List Edge) : Prop :=
  ∀ before e after, edges = before ++ e :: after → w.joins e = true → w.owns e = false →
    ∃ e' ∈ before, w.owns e' = true ∧ e'.caller = e.caller ∧ e'.callee = e.callee

/-- What a name calls is told by the calls between the names of the functions. -/
theorem calleesOf_edges (w : Flow) (edges : List Edge) (caller : String) :
    calleesOf (Text.distinct (w.handlers.map (·.name))) (edges.map fun e => (e.caller, e.callee))
      caller = Text.distinct ((edges.filter fun e => w.joins e && e.caller == caller).map
        (·.callee)) := by
  have hname : ∀ name, (Text.distinct (w.handlers.map (·.name))).contains name =
      w.handlers.any (·.name == name) := by
    intro name
    rw [Bool.eq_iff_iff, List.contains_iff_mem, Text.mem_distinct]
    simp
  simp only [calleesOf, callsAmong, List.filter_map, List.map_map, List.filter_filter, hname,
    Function.comp_def, Flow.joins, Bool.and_comm]

/-- Leaving out calls makes no difference for a workflow if those between its names each repeat one
before that is kept. -/
theorem sequenceOf_filter {w : Flow} {keep : Edge → Bool}
    (h : ∀ before e after, edges = before ++ e :: after → w.joins e = true → keep e = false →
      ∃ e' ∈ before, keep e' = true ∧ e'.caller = e.caller ∧ e'.callee = e.callee) :
    sequenceOf w.handlers (edges.filter keep) = sequenceOf w.handlers edges := by
  refine callSequence_congr fun caller => ?_
  rw [calleesOf_edges, calleesOf_edges, List.filter_comm]
  refine Text.distinct_map_filter fun before e after heq hleft => ?_
  -- The calls before it that count are among those before it.
  obtain ⟨front, back, rfl, rfl, hback⟩ := List.filter_eq_append_iff.1 heq
  obtain ⟨between, back, rfl, hbetween, he, -⟩ := List.filter_eq_cons_iff.1 hback
  rw [Bool.and_eq_true] at he
  obtain ⟨e', he', hkept, hcaller, hcallee⟩ :=
    h (front ++ between) e back (List.append_assoc _ _ _).symm he.1 hleft
  have hcounts : (w.joins e' && e'.caller == caller) = true := by
    rw [Flow.joins, hcaller, hcallee, Bool.and_eq_true]
    exact he
  refine ⟨e', List.mem_filter.2 ⟨?_, hcounts⟩, hkept, hcallee⟩
  exact (List.mem_append.1 he').resolve_right fun hin => hbetween e' hin hcounts

/-! ## Workflows -/

/-- The workflows of the resources, by the calls. -/
theorem resourceWorkflows_eq_map (edges edges' : List Edge)
    (resources : List (String × List Operation)) (handlers : List Handler) :
    resourceWorkflows edges' resources handlers =
      ((resourceWorkflows edges resources handlers).1.map fun w =>
        { w with callSequence := sequenceOf w.handlers edges' },
        (resourceWorkflows edges resources handlers).2) := by
  induction resources generalizing handlers with
  | nil => rfl
  | cons resource rest ih =>
    obtain ⟨name, operations⟩ := resource
    simp only [resourceWorkflows, ih, List.map_cons, resourceWorkflow]

/-- Other calls give the same workflows but for their call sequences. -/
theorem workflowsOf_eq_map (operations : List Operation) (handlers : List Handler)
    (edges edges' : List Edge) :
    workflowsOf operations handlers edges' = (workflowsOf operations handlers edges).map fun w =>
      { w with callSequence := sequenceOf w.handlers edges' } := by
  unfold workflowsOf
  rw [resourceWorkflows_eq_map edges edges']
  simp only [List.map_append, List.map_map]
  rfl

/-- The call sequence of a workflow is that of its functions. -/
theorem callSequence_eq {w : Flow} (hw : w ∈ workflowsOf operations handlers edges) :
    w.callSequence = sequenceOf w.handlers edges := by
  rw [workflowsOf_eq_map operations handlers edges edges] at hw
  obtain ⟨w, -, rfl⟩ := List.mem_map.1 hw
  rfl

/-- The functions of the workflows do not depend on the calls. -/
theorem map_handlers_workflowsOf (operations : List Operation) (handlers : List Handler)
    (edges edges' : List Edge) :
    (workflowsOf operations handlers edges').map (·.handlers) =
      (workflowsOf operations handlers edges).map (·.handlers) := by
  rw [workflowsOf_eq_map operations handlers edges edges', List.map_map]
  rfl

/-- A workflow is the same without the calls between other names. It is the same without the calls
that are made in other files, if each of them that has the names of two of its functions repeats a
call before it in one of its own files. -/
theorem own_calls_order_workflow {i : Nat} {w : Flow}
    (hw : (workflowsOf operations handlers edges)[i]? = some w) :
    (workflowsOf operations handlers (edges.filter w.joins))[i]? = some w ∧
    (w.CallsFirst edges →
      (workflowsOf operations handlers (edges.filter w.owns))[i]? = some w) := by
  have hmem := List.mem_of_getElem? hw
  -- Only the call sequence could be another one.
  have hsame : ∀ edges', sequenceOf w.handlers edges' = sequenceOf w.handlers edges →
      (workflowsOf operations handlers edges')[i]? = some w := by
    intro edges' hsequence
    rw [workflowsOf_eq_map operations handlers edges, List.getElem?_map, hw, Option.map_some,
      hsequence, ← callSequence_eq hmem]
  constructor
  · refine hsame _ (sequenceOf_filter fun before e after _ hjoins hleft => ?_)
    cases hjoins.symm.trans hleft
  · intro hfirst
    exact hsame _ (sequenceOf_filter hfirst)

/-! ## Two routes with functions of the same names -/

/-- The operations of two routes. -/
def twoRoutes : List Operation :=
  [⟨.get, "/api/posts", "app/api/posts/route.ts"⟩, ⟨.post, "/api/posts", "app/api/posts/route.ts"⟩,
    ⟨.get, "/api/users", "app/api/users/route.ts"⟩, ⟨.post, "/api/users", "app/api/users/route.ts"⟩]

/-- The functions of the first route. -/
def postsHandlers : List Handler :=
  [⟨"GET", "app/api/posts/route.ts", .crud, 1, true⟩,
    ⟨"POST", "app/api/posts/route.ts", .unknown, 2, true⟩]

/-- The functions of the second route, which have the same names in another order. -/
def usersHandlers : List Handler :=
  [⟨"POST", "app/api/users/route.ts", .unknown, 1, true⟩,
    ⟨"GET", "app/api/users/route.ts", .crud, 2, true⟩]

/-- A call between functions of these names in the file of the first route. -/
def postsCall : Edge := ⟨"GET", "POST", "app/api/posts/route.ts", 1⟩

/-- The same call in the file of the second route. -/
def usersCall : Edge := ⟨"GET", "POST", "app/api/users/route.ts", 2⟩

/-- Each route has a workflow with its functions, whatever the calls are. -/
theorem workflowsOf_twoRoutes (edges : List Edge) :
    ∃ posts users,
      workflowsOf twoRoutes (postsHandlers ++ usersHandlers) edges = [posts, users] ∧
      posts.handlers = postsHandlers ∧ users.handlers = usersHandlers ∧
      users.callSequence = sequenceOf usersHandlers edges := by
  have hhandlers : (workflowsOf twoRoutes (postsHandlers ++ usersHandlers) edges).map (·.handlers) =
      [postsHandlers, usersHandlers] := by
    rw [map_handlers_workflowsOf _ _ []]
    decide +kernel
  obtain ⟨posts, rest, hworkflows, hposts, hrest⟩ := List.map_eq_cons_iff.1 hhandlers
  obtain ⟨users, rest, rfl, husers, hrest⟩ := List.map_eq_cons_iff.1 hrest
  obtain rfl := List.map_eq_nil_iff.1 hrest
  have hmem : users ∈ workflowsOf twoRoutes (postsHandlers ++ usersHandlers) edges := by
    rw [hworkflows]
    simp
  exact ⟨posts, users, hworkflows, hposts, husers, husers ▸ callSequence_eq hmem⟩

/-- A call in the file of the first route orders the workflow of the second one, whose own file has
no call: without the calls of other files its sequence is another one. -/
theorem call_in_other_file_orders_workflow :
    ∃ w w', (workflowsOf twoRoutes (postsHandlers ++ usersHandlers) [postsCall])[1]? = some w ∧
      (workflowsOf twoRoutes (postsHandlers ++ usersHandlers)
        ([postsCall].filter w.owns))[1]? = some w' ∧
      w.handlers = usersHandlers ∧ w.callSequence = ["GET", "POST"] ∧
      w'.callSequence = ["POST", "GET"] := by
  obtain ⟨posts, users, hworkflows, -, husers, hsequence⟩ := workflowsOf_twoRoutes [postsCall]
  obtain ⟨posts', users', hworkflows', -, -, hsequence'⟩ := workflowsOf_twoRoutes []
  have hown : [postsCall].filter users.owns = [] := by
    simp [Flow.owns, husers, usersHandlers, postsCall]
  have hdistinct : Text.distinct ["POST", "GET"] = ["POST", "GET"] := by decide
  refine ⟨users, users', by rw [hworkflows]; rfl, by rw [hown, hworkflows']; rfl, husers, ?_, ?_⟩
  · have hadjacency : adjacency ["POST", "GET"] [("GET", "POST")] = [("GET", ["POST"])] := by decide
    have hroots : callRoots ["POST", "GET"] [("GET", ["POST"])] = ["GET"] := by decide
    simp [hsequence, sequenceOf, usersHandlers, postsCall, callSequence, hdistinct, hadjacency,
      hroots, reach, Adjacency.callees, unvisited]
  · have hadjacency : adjacency ["POST", "GET"] [] = [] := rfl
    simp [hsequence', sequenceOf, usersHandlers, callSequence, hdistinct, hadjacency, callRoots,
      unvisited]

/-- The call in the file of the second route makes no difference for the workflow of the first one
where it repeats the call in that one's own file. -/
theorem repeated_call_orders_no_workflow :
    ∃ w, (workflowsOf twoRoutes (postsHandlers ++ usersHandlers)
        [postsCall, usersCall])[0]? = some w ∧
      w.CallsFirst [postsCall, usersCall] ∧
      (workflowsOf twoRoutes (postsHandlers ++ usersHandlers)
        ([postsCall, usersCall].filter w.owns))[0]? = some w := by
  obtain ⟨posts, users, hworkflows, hposts, -, -⟩ := workflowsOf_twoRoutes [postsCall, usersCall]
  have hfound : (workflowsOf twoRoutes (postsHandlers ++ usersHandlers)
      [postsCall, usersCall])[0]? = some posts := by
    rw [hworkflows]
    rfl
  have hown : posts.owns postsCall = true := by
    simp [Flow.owns, hposts, postsHandlers, postsCall]
  have hfirst : posts.CallsFirst [postsCall, usersCall] := by
    intro before e after hedges _ hother
    rcases before with _ | ⟨first, before⟩
    · -- The first call is one of its own file.
      obtain ⟨rfl, -⟩ := List.cons.inj hedges
      cases hown.symm.trans hother
    · obtain ⟨rfl, hrest⟩ := List.cons.inj hedges
      rcases before with _ | ⟨second, before⟩
      · obtain ⟨rfl, -⟩ := List.cons.inj hrest
        exact ⟨postsCall, List.mem_cons_self, hown, rfl, rfl⟩
      · simp at hrest
  exact ⟨posts, hfound, hfirst, (own_calls_order_workflow hfound).2 hfirst⟩

end CodeSurvey.Workflow
