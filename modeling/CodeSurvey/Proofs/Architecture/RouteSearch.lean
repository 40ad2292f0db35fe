import CodeSurvey.Proofs.Architecture.EntryPoint

/-!
# The search for a route

The route of a path is what stands behind the first `app` with an accepted rest
(`exists_of_routeAfterApp?_eq_some`). A group that is put into the path may stand in the route, or
before it, or between the `app` and a route that is no longer found (`routeAfterApp?_insert`). A
page takes any rest on one line, so that its name stays (`pageRoute_insert`); the route of a file
that answers requests has to begin with `/api`, which no group does (`nameOr_insert_iff`).
-/

namespace CodeSurvey.Architecture

open Workflow

variable {accepts : List Char → Bool} {above behind cs ds route name : List Char}

/-- An `app` before a character that is none of its own has its rest before that. -/
theorem routeAfterApp?_cons_append (h : ∀ d ∈ ds.head?, d ∉ "app".toList) (c : Char)
    (cs : List Char) : routeAfterApp? accepts (c :: cs ++ ds) =
      match Text.dropStart? "app".toList (c :: cs) with
      | some rest =>
        if accepts (rest ++ ds) then some (rest ++ ds) else routeAfterApp? accepts (cs ++ ds)
      | none => routeAfterApp? accepts (cs ++ ds) := by
  have hdrop := Text.dropStart?_append h (c :: cs)
  rw [List.cons_append] at hdrop ⊢
  rw [routeAfterApp?, hdrop]
  cases Text.dropStart? "app".toList (c :: cs) <;> rfl

/-- A text that is empty or begins with a slash begins with no character of `app`. -/
theorem head?_of_atSlash (h : AtSlash ds) : ∀ d ∈ ds.head?, d ∉ "app".toList := by
  rcases h with rfl | ⟨rest, rfl⟩ <;> simp

/-- The route stands behind an `app`, and it is accepted. -/
theorem exists_of_routeAfterApp?_eq_some (h : routeAfterApp? accepts cs = some route) :
    accepts route = true ∧ ∃ before, cs = before ++ ("app".toList ++ route) := by
  induction cs with
  | nil => cases h
  | cons c cs ih =>
    have hrest (h : routeAfterApp? accepts cs = some route) :
        accepts route = true ∧ ∃ before, c :: cs = before ++ ("app".toList ++ route) := by
      obtain ⟨haccepts, before, rfl⟩ := ih h
      exact ⟨haccepts, c :: before, rfl⟩
    rw [routeAfterApp?] at h
    split at h
    · rename_i rest hdrop
      split_ifs at h with haccepts
      · obtain rfl := Option.some.inj h
        refine ⟨haccepts, [], ?_⟩
        rw [List.nil_append, Text.dropStart?_eq_some_iff.1 hdrop]
      · exact hrest h
    · exact hrest h

/-- No route begins inside the name of a group. -/
theorem routeAfterApp?_name (haccepts : ∀ rest, accepts rest = true → AtSlash rest)
    (hslash : '/' ∉ name) (hclose : ')' ∉ name) (ds : List Char) :
    routeAfterApp? accepts (name ++ ')' :: ds) = routeAfterApp? accepts ds := by
  induction name with
  | nil =>
    have hdrop : Text.dropStart? "app".toList (')' :: ds) = none := rfl
    rw [List.nil_append, routeAfterApp?, hdrop]
  | cons c name ih =>
    have ih := ih (List.not_mem_of_not_mem_cons hslash) (List.not_mem_of_not_mem_cons hclose)
    rw [routeAfterApp?_cons_append (by simp)]
    split
    · rename_i rest hdrop
      -- What follows is not accepted, since it begins in the name.
      have hrest : accepts (rest ++ ')' :: ds) = false := by
        rw [Bool.eq_false_iff]
        intro h
        have hname : c :: name = "app".toList ++ rest := Text.dropStart?_eq_some_iff.1 hdrop
        rcases haccepts _ h with hnil | ⟨after, hafter⟩
        · exact List.append_ne_nil_of_right_ne_nil _ (List.cons_ne_nil _ _) hnil
        · cases rest with
          | nil => cases hafter
          | cons b rest =>
            obtain ⟨rfl, -⟩ := List.cons.inj hafter
            exact hslash (hname ▸ List.mem_append_right _ List.mem_cons_self)
      rw [hrest, if_neg Bool.false_ne_true, ih]
    · exact ih

/-- A group at the front makes no difference, if a route is empty or begins with a slash. -/
theorem routeAfterApp?_groupChars (haccepts : ∀ rest, accepts rest = true → AtSlash rest)
    (hslash : '/' ∉ name) (hclose : ')' ∉ name) (ds : List Char) :
    routeAfterApp? accepts (groupChars name ++ ds) = routeAfterApp? accepts ds := by
  have hname := routeAfterApp?_name haccepts hslash hclose ds
  have hgroup : groupChars name ++ ds = '/' :: '(' :: (name ++ ')' :: ds) := by simp [groupChars]
  rw [← hname, hgroup]
  rfl

/-- With a group between two parts of a path the route is what it is without it, with the group in
it; or it lies behind the group; or it was all that lies behind the group, and another route there
takes its place. -/
theorem routeAfterApp?_insert (haccepts : ∀ rest, accepts rest = true → AtSlash rest)
    (hinsert : ∀ rest ≠ [],
      accepts (rest ++ (groupChars name ++ behind)) = accepts (rest ++ behind))
    (hgroup : accepts (groupChars name ++ behind) = true → accepts behind = true)
    (hslash : '/' ∉ name) (hclose : ')' ∉ name) (hbehind : AtSlash behind) (above : List Char) :
    (∃ rest, routeAfterApp? accepts (above ++ behind) = some (rest ++ behind) ∧
        routeAfterApp? accepts (above ++ (groupChars name ++ behind)) =
          some (rest ++ (groupChars name ++ behind))) ∨
      routeAfterApp? accepts (above ++ (groupChars name ++ behind)) =
          routeAfterApp? accepts behind ∧
        (routeAfterApp? accepts (above ++ behind) = routeAfterApp? accepts behind ∨
          routeAfterApp? accepts (above ++ behind) = some behind ∧
            accepts (groupChars name ++ behind) = false) := by
  have hskip := routeAfterApp?_groupChars haccepts hslash hclose behind
  have hat : AtSlash (groupChars name ++ behind) := .inr ⟨_, rfl⟩
  -- Each `app` before the group has both rests, with and without it.
  induction above with
  | nil => exact .inr ⟨hskip, .inl rfl⟩
  | cons c above ih =>
    rw [routeAfterApp?_cons_append (head?_of_atSlash hbehind),
      routeAfterApp?_cons_append (head?_of_atSlash hat)]
    cases hdrop : Text.dropStart? "app".toList (c :: above) with
    | none => exact ih
    | some rest =>
      dsimp only
      by_cases hrest : rest = []
      · subst hrest
        rw [List.nil_append, List.nil_append]
        -- Nothing stands between this `app` and the group.
        by_cases hg : accepts (groupChars name ++ behind) = true
        · exact .inl ⟨[], by rw [if_pos (hgroup hg)]; rfl, by rw [if_pos hg]; rfl⟩
        · rw [if_neg hg]
          by_cases hb : accepts behind = true
          · have happ : c :: above = ['a', 'p', 'p'] := Text.dropStart?_eq_some_iff.1 hdrop
            obtain ⟨-, rfl⟩ := List.cons.inj happ
            rw [if_pos hb]
            exact .inr ⟨hskip, .inr ⟨rfl, Bool.eq_false_iff.2 hg⟩⟩
          · rw [if_neg hb]
            exact ih
      · rw [hinsert rest hrest]
        by_cases ha : accepts (rest ++ behind) = true
        · rw [if_pos ha, if_pos ha]
          exact .inl ⟨rest, rfl, rfl⟩
        · rw [if_neg ha, if_neg ha]
          exact ih

/-- What is accepted as the rest of a path begins with a slash. -/
theorem atSlash_of_isRouteTail (cs : List Char) (h : isRouteTail cs = true) : AtSlash cs := by
  cases cs with
  | nil => exact .inl rfl
  | cons c cs =>
    rw [isRouteTail, Bool.and_eq_true, beq_iff_eq] at h
    exact .inr ⟨cs, by rw [h.1]⟩

/-- A route of requests is `/api` with a rest. -/
theorem exists_of_isApiRoute (h : isApiRoute cs = true) : ∃ rest, cs = "/api".toList ++ rest := by
  unfold isApiRoute at h
  split at h
  · exact ⟨_, Text.dropStart?_eq_some_iff.1 ‹_›⟩
  · cases h

/-- A route of requests begins with a slash. -/
theorem atSlash_of_isApiRoute (cs : List Char) (h : isApiRoute cs = true) : AtSlash cs := by
  obtain ⟨rest, rfl⟩ := exists_of_isApiRoute h
  exact .inr ⟨_, rfl⟩

/-- A group on one line makes no difference for what is on one line. -/
theorem isRouteTail_insert (hline : '\n' ∉ name) (hbehind : AtSlash behind) (rest : List Char) :
    isRouteTail (rest ++ (groupChars name ++ behind)) = isRouteTail (rest ++ behind) := by
  cases rest with
  | nil => rcases hbehind with rfl | ⟨rest, rfl⟩ <;> simp [groupChars, isRouteTail, hline]
  | cons c rest => simp [groupChars, isRouteTail, hline]

/-- The `/api` of a route stands before or behind a group. -/
theorem isApiRoute_insert (hline : '\n' ∉ name) (hbehind : AtSlash behind) {rest : List Char}
    (hrest : rest ≠ []) :
    isApiRoute (rest ++ (groupChars name ++ behind)) = isApiRoute (rest ++ behind) := by
  obtain ⟨c, rest, rfl⟩ := List.exists_cons_of_ne_nil hrest
  have hdrop {ds : List Char} (hds : AtSlash ds) : Text.dropStart? "/api".toList (c :: rest ++ ds) =
      (Text.dropStart? "/api".toList (c :: rest)).map (· ++ ds) := by
    have hapi : ∀ d ∈ ds.head?, d ∉ "api".toList := by
      rcases hds with rfl | ⟨rest, rfl⟩ <;> simp
    show (if '/' = c then Text.dropStart? "api".toList (rest ++ ds) else none) =
      (if '/' = c then Text.dropStart? "api".toList rest else none).map (· ++ ds)
    split_ifs
    · exact Text.dropStart?_append hapi rest
    · rfl
  have hat : AtSlash (groupChars name ++ behind) := .inr ⟨_, rfl⟩
  rw [isApiRoute, isApiRoute, hdrop hbehind, hdrop hat]
  cases Text.dropStart? "/api".toList (c :: rest) with
  | none => rfl
  | some tail => exact isRouteTail_insert hline hbehind tail

/-- A group does not begin with `/api`. -/
theorem isApiRoute_groupChars (name behind : List Char) :
    isApiRoute (groupChars name ++ behind) = false := rfl

/-- The route of a page is the same without groups. -/
theorem pageRoute_insert (hslash : '/' ∉ name) (hclose : ')' ∉ name) (hline : '\n' ∉ name)
    (hbehind : AtSlash behind) (above : List Char) :
    (routeAfterApp? isRouteTail (above ++ (groupChars name ++ behind))).map dropGroups =
      (routeAfterApp? isRouteTail (above ++ behind)).map dropGroups := by
  have hinsert := isRouteTail_insert hline hbehind
  rcases routeAfterApp?_insert atSlash_of_isRouteTail (fun rest _ => hinsert rest)
      (fun h => (hinsert []).symm.trans h) hslash hclose hbehind above with
    ⟨rest, hroute, hgrouped⟩ | ⟨hgrouped, hroute | ⟨hroute, hrefused⟩⟩
  · rw [hroute, hgrouped, Option.map_some, Option.map_some,
      dropGroups_groupChars _ hslash hclose hbehind]
  · rw [hroute, hgrouped]
  · have hsame : isRouteTail (groupChars name ++ behind) = isRouteTail behind := hinsert []
    rw [hsame, (exists_of_routeAfterApp?_eq_some hroute).1] at hrefused
    cases hrefused

/-- The name that a route gives, or else this one. -/
def nameOr (name : String) (route? : Option (List Char)) : String :=
  (route?.map fun route => String.ofList (dropGroups route)).getD name

/-- If a route lies behind another one, the two give other names. -/
theorem dropGroups_ne_of_routeAfterApp?_eq_some
    (h : routeAfterApp? isApiRoute cs = some route) : dropGroups route ≠ dropGroups cs := by
  obtain ⟨haccepts, before, rfl⟩ := exists_of_routeAfterApp?_eq_some h
  intro heq
  rw [← List.append_assoc, dropGroups_append_of_atSlash _ (atSlash_of_isApiRoute route haccepts),
    dropGroups_append _ (by decide) (by decide)] at heq
  have hlength := congrArg List.length heq
  simp only [List.length_append, String.length_toList] at hlength
  have happ : "app".length = 3 := rfl
  omega

/-- The name of a file that answers requests is the same without groups, unless its route was all
that lies behind the group. -/
theorem nameOr_insert_iff (hslash : '/' ∉ name) (hclose : ')' ∉ name) (hline : '\n' ∉ name)
    (hbehind : AtSlash behind) (above : List Char) :
    nameOr "route" (routeAfterApp? isApiRoute (above ++ (groupChars name ++ behind))) =
        nameOr "route" (routeAfterApp? isApiRoute (above ++ behind)) ↔
      routeAfterApp? isApiRoute (above ++ behind) ≠ some behind := by
  have hrefused : isApiRoute (groupChars name ++ behind) ≠ true := by
    rw [isApiRoute_groupChars]
    exact Bool.false_ne_true
  rcases routeAfterApp?_insert atSlash_of_isApiRoute
      (fun rest hrest => isApiRoute_insert hline hbehind hrest) (fun h => absurd h hrefused)
      hslash hclose hbehind above with
    ⟨rest, hroute, hgrouped⟩ | ⟨hgrouped, hroute | ⟨hroute, -⟩⟩
  · have hrest : rest ≠ [] := by
      rintro rfl
      exact hrefused (exists_of_routeAfterApp?_eq_some hgrouped).1
    rw [hroute, hgrouped, nameOr, nameOr, Option.map_some, Option.map_some,
      dropGroups_groupChars _ hslash hclose hbehind]
    exact iff_of_true rfl fun heq => hrest (List.append_left_eq_self.1 (Option.some.inj heq))
  · rw [hroute, hgrouped]
    exact iff_of_true rfl fun heq => dropGroups_ne_of_routeAfterApp?_eq_some heq rfl
  · rw [hroute, hgrouped]
    refine iff_of_false (fun heq => ?_) fun hne => hne rfl
    cases hbelow : routeAfterApp? isApiRoute behind with
    | none =>
      -- The name of the file does not begin with a slash.
      obtain ⟨rest, rfl⟩ := exists_of_isApiRoute (exists_of_routeAfterApp?_eq_some hroute).1
      rw [hbelow, nameOr, nameOr, Option.map_some, RouteFile.dropGroups_api] at heq
      have hfirst := congrArg (fun s : String => s.toList.head?) heq
      simp at hfirst
    | some route =>
      rw [hbelow] at heq
      exact dropGroups_ne_of_routeAfterApp?_eq_some hbelow (String.ofList_inj.1 heq)

/-- What a group has no part in lies before or behind it. -/
theorem infix_groupChars_iff {part : List Char} (hopen : '(' ∉ part) (hclose : ')' ∉ part)
    (hpart : '/' ∈ part) (hslash : '/' ∉ name) :
    part <:+: cs ++ (groupChars name ++ '/' :: ds) ↔
      part <:+: cs ++ ['/'] ∨ part <:+: '/' :: ds := by
  have hgroup : cs ++ (groupChars name ++ '/' :: ds) =
      (cs ++ ['/']) ++ '(' :: (name ++ ')' :: ('/' :: ds)) := by simp [groupChars]
  have hname : ¬ part <:+: name := fun h => hslash (h.subset hpart)
  rw [hgroup, Text.infix_append_cons_iff hopen, Text.infix_append_cons_iff hclose,
    or_iff_right hname]

end CodeSurvey.Architecture
