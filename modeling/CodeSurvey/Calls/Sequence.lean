import CodeSurvey.Text.Basic

/-!
# Call sequences

An order of named functions in which callers come before what they call: from each name that calls
and is never called, depth first; the names that are not reached so follow in their own order.
-/

namespace CodeSurvey.Calls

/-- For each caller, the names it calls, each once; callers in the order of their first call. -/
abbrev Adjacency := List (String × List String)

/-- The names that a caller calls. -/
def Adjacency.callees (a : Adjacency) (caller : String) : List String :=
  ((a.find? (·.1 == caller)).map (·.2)).getD []

/-- One more call: a new caller stands last, and a call known already changes nothing. -/
def Adjacency.addCall (caller callee : String) : Adjacency → Adjacency
  | [] => [(caller, [callee])]
  | (c, callees) :: rest =>
    if c == caller then
      (c, if callees.contains callee then callees else callees ++ [callee]) :: rest
    else (c, callees) :: Adjacency.addCall caller callee rest

/-- The calls between the given names. -/
def adjacency (names : List String) (calls : List (String × String)) : Adjacency :=
  (calls.filter fun c => names.contains c.1 && names.contains c.2).foldl
    (fun a c => a.addCall c.1 c.2) []

/-- The names not in the list of visited ones. -/
def unvisited (names visited : List String) : List String :=
  names.filter fun n => !visited.contains n

/-- Visiting one more of the names leaves fewer to visit. -/
theorem length_unvisited_lt {names visited : List String} {name : String} (hn : name ∈ names)
    (hv : name ∉ visited) :
    (unvisited names (name :: visited)).length < (unvisited names visited).length := by
  have hsub : (unvisited names (name :: visited)).Sublist (unvisited names visited) := by
    have : unvisited names (name :: visited) =
        (unvisited names visited).filter (fun n => n != name) := by
      simp only [unvisited, List.filter_filter]
      congr 1
      funext n
      cases hq : (n == name) <;> simp_all [bne]
    rw [this]
    exact List.filter_sublist
  apply Nat.lt_of_le_of_ne hsub.length_le
  intro heq
  have hall := hsub.eq_of_length heq
  have hmem : name ∈ unvisited names visited := by simp [unvisited, hn, hv]
  rw [← hall] at hmem
  simp [unvisited] at hmem

/-- The names that are reached from the pending ones, depth first, after those visited already
(which are held in reverse). A name outside `names` has nothing to visit behind it. -/
def reach (names : List String) (a : Adjacency) (visited : List String) (pending : List String) :
    List String :=
  match pending with
  | [] => visited
  | name :: rest =>
    if _ : name ∈ visited then reach names a visited rest
    else if _ : name ∈ names then reach names a (name :: visited) (a.callees name ++ rest)
    else reach names a visited rest
termination_by ((unvisited names visited).length, pending.length)
decreasing_by
  · exact Prod.Lex.right _ (by simp)
  · exact Prod.Lex.left _ _ (length_unvisited_lt ‹_› ‹_›)
  · exact Prod.Lex.right _ (by simp)

/-- The names that call and are never called. -/
def callRoots (names : List String) (a : Adjacency) : List String :=
  let called := a.flatMap (·.2)
  names.filter fun n => a.any (·.1 == n) && !called.contains n

/-- The order of the names by the calls between them. -/
def callSequence (names : List String) (calls : List (String × String)) : List String :=
  let names := Text.distinct names
  let a := adjacency names calls
  let visited := (callRoots names a).foldl (fun visited root => reach names a visited [root]) []
  visited.reverse ++ unvisited names visited

end CodeSurvey.Calls
