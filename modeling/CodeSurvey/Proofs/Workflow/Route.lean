import CodeSurvey.Proofs.Text.Parts
import CodeSurvey.Workflow.Route
import Mathlib.Data.List.Find

/-!
# Routes without groups

A group is taken out of a path wherever one begins (`dropGroups_group`), and every other character
stays (`dropGroups_char`). So what has no slash and no closing bracket stays at the end
(`dropGroups_append`), and slashes in place of backslashes, which may make groups of what is none
and end what is one, leave more slashes if no backslash stays (`count_dropGroups_lt`).
-/

namespace CodeSurvey.Workflow

variable {cs ds name rest : List Char} {c : Char}

/-! ## Groups -/

/-- A group is a name in round brackets after a slash. -/
theorem dropGroup?_eq_some_iff : dropGroup? cs = some rest ↔
    ∃ name, '/' ∉ name ∧ ')' ∉ name ∧ cs = '/' :: '(' :: (name ++ ')' :: rest) := by
  constructor
  · intro h
    unfold dropGroup? at h
    split at h
    · rename_i inner
      split at h
      · rename_i after hafter
        obtain rfl := Option.some.inj h
        refine ⟨inner.takeWhile fun c => c != '/' && c != ')', ?_, ?_, ?_⟩
        · intro hmem
          simpa using List.mem_takeWhile_imp hmem
        · intro hmem
          simpa using List.mem_takeWhile_imp hmem
        · rw [← hafter, List.takeWhile_append_dropWhile]
      · cases h
    · cases h
  · rintro ⟨name, hslash, hclose, rfl⟩
    -- A name has none of the characters at which it would end before the bracket.
    have hname : ∀ c ∈ name, (c != '/' && c != ')') = true := by
      intro c hc
      rw [Bool.and_eq_true, bne_iff_ne, bne_iff_ne]
      exact ⟨fun h => hslash (h ▸ hc), fun h => hclose (h ▸ hc)⟩
    simp [dropGroup?, List.dropWhile_append_of_pos hname]

/-- More fuel than there are characters makes no difference. -/
theorem dropGroupsFrom_eq {n m : Nat} (hn : cs.length ≤ n) (hm : cs.length ≤ m) :
    dropGroupsFrom n cs = dropGroupsFrom m cs := by
  induction n generalizing m cs with
  | zero =>
    obtain rfl := List.length_eq_zero_iff.1 (Nat.le_zero.1 hn)
    cases m <;> rfl
  | succ n ih =>
    cases cs with
    | nil => cases m <;> rfl
    | cons c cs =>
      obtain ⟨m, rfl⟩ := Nat.exists_eq_succ_of_ne_zero (Nat.pos_iff_ne_zero.1
        (Nat.lt_of_lt_of_le (Nat.succ_pos _) hm))
      rw [List.length_cons] at hn hm
      rw [dropGroupsFrom, dropGroupsFrom]
      cases hgroup : dropGroup? (c :: cs) with
      | none => exact congrArg _ (ih (by omega) (by omega))
      | some rest =>
        -- Dropping a group makes the text shorter by three characters at least.
        obtain ⟨name, -, -, heq⟩ := dropGroup?_eq_some_iff.1 hgroup
        have hlength := congrArg List.length heq
        simp only [List.length_cons, List.length_append] at hlength
        exact ih (by omega) (by omega)

/-- In an empty path there are no groups. -/
@[simp] theorem dropGroups_nil : dropGroups [] = [] := rfl

/-- A group in front is taken out. -/
theorem dropGroups_group (hslash : '/' ∉ name) (hclose : ')' ∉ name) :
    dropGroups ('/' :: '(' :: (name ++ ')' :: rest)) = dropGroups rest := by
  have hgroup : dropGroup? ('/' :: '(' :: (name ++ ')' :: rest)) = some rest :=
    dropGroup?_eq_some_iff.2 ⟨name, hslash, hclose, rfl⟩
  unfold dropGroups
  rw [List.length_cons, dropGroupsFrom, hgroup]
  refine dropGroupsFrom_eq ?_ (Nat.le_refl _)
  simp only [List.length_cons, List.length_append]
  omega

/-- A character in front with which no group begins stays. -/
theorem dropGroups_char (h : dropGroup? (c :: cs) = none) :
    dropGroups (c :: cs) = c :: dropGroups cs := by
  unfold dropGroups
  rw [List.length_cons, dropGroupsFrom, h]

/-- What holds of nothing, of a path behind a group and of one behind a character with which no
group begins, if it holds of the rest, holds of every path. -/
theorem groups_induction {P : List Char → Prop} (cs : List Char) (nil : P [])
    (group : ∀ name rest, '/' ∉ name → ')' ∉ name → P rest →
      P ('/' :: '(' :: (name ++ ')' :: rest)))
    (char : ∀ c cs, dropGroup? (c :: cs) = none → P cs → P (c :: cs)) : P cs := by
  induction hlength : cs.length using Nat.strongRecOn generalizing cs with
  | ind n ih =>
    subst hlength
    cases cs with
    | nil => exact nil
    | cons c cs =>
      cases hgroup : dropGroup? (c :: cs) with
      | none => exact char c cs hgroup (ih _ (Nat.lt_succ_self _) cs rfl)
      | some rest =>
        obtain ⟨name, hslash, hclose, heq⟩ := dropGroup?_eq_some_iff.1 hgroup
        have hlength := congrArg List.length heq
        simp only [List.length_cons, List.length_append] at hlength
        rw [heq]
        exact group name rest hslash hclose (ih _ (by rw [List.length_cons]; omega) rest rfl)

/-- No character comes in. -/
theorem dropGroups_sublist (cs : List Char) : (dropGroups cs).Sublist cs := by
  induction cs using groups_induction with
  | nil => exact List.Sublist.refl []
  | group name rest hslash hclose ih =>
    rw [dropGroups_group hslash hclose]
    have hrest : rest.Sublist ('/' :: '(' :: (name ++ ')' :: rest)) :=
      ((List.suffix_cons ')' rest).trans (List.suffix_append name _)).sublist.cons _ |>.cons _
    exact ih.trans hrest
  | char c cs hgroup ih =>
    rw [dropGroups_char hgroup]
    exact ih.cons_cons c

/-- No group begins with another character than a slash. -/
theorem dropGroup?_eq_none (hc : c ≠ '/') : dropGroup? (c :: cs) = none := by
  rw [Option.eq_none_iff_forall_not_mem]
  intro rest hrest
  obtain ⟨name, -, -, heq⟩ := dropGroup?_eq_some_iff.1 hrest
  exact hc (List.cons.inj heq).1

/-- Characters without a slash stay, whatever follows. -/
theorem dropGroups_append_left (h : '/' ∉ cs) (rest : List Char) :
    dropGroups (cs ++ rest) = cs ++ dropGroups rest := by
  induction cs with
  | nil => rfl
  | cons c cs ih =>
    obtain ⟨hc, hcs⟩ : '/' ≠ c ∧ '/' ∉ cs := by simpa using h
    rw [List.cons_append, dropGroups_char (dropGroup?_eq_none hc.symm), ih hcs, List.cons_append]

/-- Nothing that has neither a slash nor a closing bracket makes a difference for the groups before
it. -/
theorem dropGroups_append (cs : List Char) (hslash : '/' ∉ ds) (hclose : ')' ∉ ds) :
    dropGroups (cs ++ ds) = dropGroups cs ++ ds := by
  induction cs using groups_induction with
  | nil => simpa using dropGroups_append_left hslash []
  | group name rest hname hname' ih =>
    have hassoc : '/' :: '(' :: (name ++ ')' :: rest) ++ ds =
        '/' :: '(' :: (name ++ ')' :: (rest ++ ds)) := by simp
    rw [hassoc, dropGroups_group hname hname', ih, dropGroups_group hname hname']
  | char c cs hgroup ih =>
    have hgroup' : dropGroup? (c :: (cs ++ ds)) = none := by
      rw [Option.eq_none_iff_forall_not_mem]
      intro rest hrest
      obtain ⟨name, hname, hname', heq⟩ := dropGroup?_eq_some_iff.1 hrest
      -- The closing bracket of a group would stand in the first part, and so would the group.
      have hsplit : c :: cs ++ ds = '/' :: '(' :: name ++ ')' :: rest := heq
      rcases List.append_eq_append_iff.1 hsplit with ⟨inner, -, hds⟩ | ⟨inner, hcs, hrest⟩
      · exact hclose (hds ▸ List.mem_append_right _ List.mem_cons_self)
      · cases inner with
        | nil =>
          rw [List.nil_append] at hrest
          exact hclose (hrest ▸ List.mem_cons_self)
        | cons b inner =>
          obtain ⟨rfl, -⟩ := List.cons.inj hrest
          have hsome := dropGroup?_eq_some_iff.2 ⟨name, hname, hname', hcs⟩
          rw [hgroup] at hsome
          cases hsome
    rw [List.cons_append, dropGroups_char hgroup', ih, dropGroups_char hgroup, List.cons_append]

/-- A path in which no slash stands before another one or at the end has none at the end without its
groups either. -/
theorem getLast?_dropGroups_ne
    (h : ∀ before after, cs = before ++ '/' :: after → ∃ c rest, after = c :: rest ∧ c ≠ '/') :
    (dropGroups cs).getLast? ≠ some '/' := by
  induction cs using groups_induction with
  | nil => simp
  | group name rest hslash hclose ih =>
    rw [dropGroups_group hslash hclose]
    exact ih fun before after heq => h ('/' :: '(' :: (name ++ ')' :: before)) after (by simp [heq])
  | char c cs hgroup ih =>
    have hlast := ih fun before after heq => h (c :: before) after (by simp [heq])
    rw [dropGroups_char hgroup]
    cases hrest : dropGroups cs with
    | cons d ds =>
      rw [List.getLast?_cons_cons, ← hrest]
      exact hlast
    | nil =>
      -- What follows a slash is another character, which stays.
      rw [List.getLast?_singleton]
      rintro ⟨rfl⟩
      obtain ⟨d, ds, rfl, hd⟩ := h [] cs rfl
      rw [dropGroups_char (dropGroup?_eq_none hd)] at hrest
      cases hrest

/-- A list is nothing, or begins with a slash. -/
def AtSlash (cs : List Char) : Prop := cs = [] ∨ ∃ rest, cs = '/' :: rest

/-- With a slash behind it such a list begins with a slash. -/
theorem AtSlash.exists_append (h : AtSlash cs) (ds : List Char) :
    ∃ rest, cs ++ '/' :: ds = '/' :: rest := by
  rcases h with rfl | ⟨rest, rfl⟩
  · exact ⟨ds, rfl⟩
  · exact ⟨rest ++ '/' :: ds, rfl⟩

/-- The groups before a slash are taken out as if nothing followed. -/
theorem dropGroups_append_of_atSlash (cs : List Char) (h : AtSlash ds) :
    dropGroups (cs ++ ds) = dropGroups cs ++ dropGroups ds := by
  induction cs using groups_induction with
  | nil => rfl
  | group name rest hslash hclose ih =>
    have hassoc : '/' :: '(' :: (name ++ ')' :: rest) ++ ds =
        '/' :: '(' :: (name ++ ')' :: (rest ++ ds)) := by simp
    rw [hassoc, dropGroups_group hslash hclose, ih, dropGroups_group hslash hclose]
  | char c cs hgroup ih =>
    have hgroup' : dropGroup? (c :: (cs ++ ds)) = none := by
      rw [Option.eq_none_iff_forall_not_mem]
      intro rest hrest
      obtain ⟨name, hslash, hclose, heq⟩ := dropGroup?_eq_some_iff.1 hrest
      -- The group would be there without what follows, or go on behind a slash.
      have hnone (inner : List Char) : c :: cs ≠ '/' :: '(' :: (name ++ ')' :: inner) := fun heq =>
        Option.some_ne_none _ ((dropGroup?_eq_some_iff.2 ⟨name, hslash, hclose, heq⟩).symm.trans
          hgroup)
      have hsplit : c :: cs ++ ds = '/' :: '(' :: (name ++ [')']) ++ rest := by simpa using heq
      rcases List.append_eq_append_iff.1 hsplit with ⟨inner, hbody, hds⟩ | ⟨inner, hcs, -⟩
      · cases inner with
        | nil => exact hnone [] (by simpa using hbody.symm)
        | cons b inner =>
          obtain rfl : b = '/' := by
            rcases h with rfl | ⟨after, rfl⟩
            · cases hds
            · exact (List.cons.inj hds).1.symm
          have hmem : '/' ∈ '(' :: (name ++ [')']) := (List.cons.inj hbody).2 ▸ by simp
          simp [hslash] at hmem
      · exact hnone inner (by simpa using hcs)
    rw [List.cons_append, dropGroups_char hgroup', ih, dropGroups_char hgroup, List.cons_append]

/-- A group of this name. -/
def groupChars (name : List Char) : List Char := '/' :: '(' :: (name ++ [')'])

/-- A group before a slash makes no difference. -/
theorem dropGroups_groupChars (cs : List Char) (hslash : '/' ∉ name) (hclose : ')' ∉ name)
    (h : AtSlash ds) : dropGroups (cs ++ (groupChars name ++ ds)) = dropGroups (cs ++ ds) := by
  have hgroup : groupChars name ++ ds = '/' :: '(' :: (name ++ ')' :: ds) := by simp [groupChars]
  rw [dropGroups_append_of_atSlash _ (.inr ⟨_, hgroup⟩), hgroup, dropGroups_group hslash hclose,
    dropGroups_append_of_atSlash _ h]

/-! ## Segments -/

/-- The path that segments make up, each with a slash in front. -/
def segmentChars (segments : List String) : List Char := segments.flatMap fun s => '/' :: s.toList

/-- The path of segments begins with the first, behind a slash. -/
theorem segmentChars_cons (s : String) (segments : List String) :
    segmentChars (s :: segments) = '/' :: (s.toList ++ segmentChars segments) := rfl

/-- The path of segments goes on with that of further ones. -/
theorem segmentChars_append (segments segments' : List String) :
    segmentChars (segments ++ segments') = segmentChars segments ++ segmentChars segments' :=
  List.flatMap_append

/-- It is nothing, or begins with a slash. -/
theorem atSlash_segmentChars (segments : List String) : AtSlash (segmentChars segments) := by
  cases segments with
  | nil => exact .inl rfl
  | cons s segments => exact .inr ⟨_, rfl⟩

/-- What the path of a file is made of. -/
theorem toList_join_path (root : String) (dirs : List String) (file : String) :
    (Text.join "/" (root :: (dirs ++ [file]))).toList =
      root.toList ++ (segmentChars dirs ++ '/' :: file.toList) := by
  have hbetween : "/".toList = ['/'] := rfl
  rw [Text.toList_join_cons hbetween, List.flatMap_append, List.flatMap_singleton]
  rfl

/-- Behind a slash of the path a segment begins, and so does another character. -/
theorem exists_of_segmentChars_eq {segments : List String} {before after : List Char}
    (h : ∀ s ∈ segments, s ≠ "" ∧ '/' ∉ s.toList)
    (heq : segmentChars segments = before ++ '/' :: after) :
    ∃ c rest, after = c :: rest ∧ c ≠ '/' := by
  induction segments generalizing before with
  | nil => simp [segmentChars] at heq
  | cons s segments ih =>
    obtain ⟨⟨hne, hslash⟩, hsegments⟩ := List.forall_mem_cons.1 h
    rw [segmentChars_cons] at heq
    cases before with
    | nil =>
      obtain ⟨-, rfl⟩ := List.cons.inj heq
      cases hs : s.toList with
      | nil => exact absurd (String.toList_eq_nil_iff.1 hs) hne
      | cons c rest =>
        rw [hs] at hslash
        exact ⟨c, rest ++ segmentChars segments, rfl, (List.ne_of_not_mem_cons hslash).symm⟩
    | cons b before =>
      obtain ⟨-, heq⟩ := List.cons.inj heq
      -- The slash does not stand in the segment, so it stands behind it.
      rcases List.append_eq_append_iff.1 heq with ⟨inner, -, hrest⟩ | ⟨inner, hs, hrest⟩
      · exact ih hsegments hrest
      · cases inner with
        | nil =>
          have hrest' : segmentChars segments = [] ++ '/' :: after := hrest.symm
          exact ih hsegments hrest'
        | cons c inner =>
          obtain ⟨rfl, -⟩ := List.cons.inj hrest
          simp [hs] at hslash

/-- Without its groups the path does not end with a slash. -/
theorem getLast?_dropGroups_segmentChars {segments : List String}
    (h : ∀ s ∈ segments, s ≠ "" ∧ '/' ∉ s.toList) :
    (dropGroups (segmentChars segments)).getLast? ≠ some '/' :=
  getLast?_dropGroups_ne fun _ _ heq => exists_of_segmentChars_eq h heq

/-! ## Endings -/

/-- Without a line feed at its end a text is not cut. -/
theorem cutLastFeed_eq (h : cs.getLast? ≠ some '\n') : cutLastFeed cs = (cs, []) := by
  unfold cutLastFeed
  split
  · rename_i before hcs
    rw [List.getLast?_eq_head?_reverse, hcs] at h
    exact absurd rfl h
  · rfl

/-- The cut takes nothing away, and nothing but a line feed off. -/
theorem cutLastFeed_spec (cs : List Char) :
    (cutLastFeed cs).1 ++ (cutLastFeed cs).2 = cs ∧
      ((cutLastFeed cs).2 = [] ∨ (cutLastFeed cs).2 = ['\n']) := by
  by_cases h : cs.getLast? = some '\n'
  · obtain ⟨before, rfl⟩ := List.getLast?_eq_some_iff.1 h
    simp [cutLastFeed]
  · simp [cutLastFeed_eq h]

/-- What stands before the last character is not cut. -/
theorem cutLastFeed_append (cs : List Char) (hne : ds ≠ []) :
    cutLastFeed (cs ++ ds) = (cs ++ (cutLastFeed ds).1, (cutLastFeed ds).2) := by
  obtain ⟨init, c, rfl⟩ := (List.eq_nil_or_concat ds).resolve_left hne
  by_cases hc : c = '\n'
  · subst hc
    simp [cutLastFeed, ← List.append_assoc]
  · rw [cutLastFeed_eq (by simpa using hc), cutLastFeed_eq (by simpa using hc)]

/-- A slash in front stays in front. -/
theorem cutLastFeed_slash (cs : List Char) :
    cutLastFeed ('/' :: cs) = ('/' :: (cutLastFeed cs).1, (cutLastFeed cs).2) := by
  cases cs with
  | nil => rfl
  | cons c cs => exact cutLastFeed_append ['/'] (List.cons_ne_nil c cs)

/-- Either one of the endings is dropped from before the last line feed, or the text has none of
them there. -/
theorem dropEnding_cut (endings : List String) (cs : List Char) :
    (∃ e ∈ endings, e.toList <:+ (cutLastFeed cs).1 ∧
        ∃ before, cs = before ++ (e.toList ++ (cutLastFeed cs).2) ∧
          dropEnding endings cs = before ++ (cutLastFeed cs).2) ∨
      (∀ e ∈ endings, ¬ e.toList <:+ (cutLastFeed cs).1) ∧ dropEnding endings cs = cs := by
  have hcut := (cutLastFeed_spec cs).1
  unfold dropEnding
  dsimp only
  cases hfind : endings.find? fun e => e.toList.isSuffixOf (cutLastFeed cs).1 with
  | none =>
    refine .inr ⟨fun e he hsuffix => ?_, rfl⟩
    exact List.find?_eq_none.1 hfind e he (List.isSuffixOf_iff_suffix.2 hsuffix)
  | some e =>
    obtain ⟨hends, -⟩ := List.find?_eq_some_iff_append.1 hfind
    -- What is taken is all but as many characters as the ending has.
    have hsuffix := List.isSuffixOf_iff_suffix.1 hends
    have ⟨before, hbefore⟩ := hsuffix
    refine .inl ⟨e, List.mem_of_find?_eq_some hfind, hsuffix, before, ?_, ?_⟩
    · rw [← List.append_assoc, hbefore, hcut]
    · simp only [← hbefore, List.length_append, String.length_toList, Nat.add_sub_cancel,
        List.take_left']

/-- Either one of the endings is dropped, or the text has none of them. -/
theorem dropEnding_cases (endings : List String) (h : cs.getLast? ≠ some '\n') :
    (∃ e ∈ endings, cs = dropEnding endings cs ++ e.toList) ∨
      (∀ e ∈ endings, ¬ e.toList <:+ cs) ∧ dropEnding endings cs = cs := by
  have hcases := dropEnding_cut endings cs
  simp only [cutLastFeed_eq h, List.append_nil] at hcases
  rcases hcases with ⟨e, he, -, before, hcs, hdrop⟩ | hnone
  · exact .inl ⟨e, he, by rw [hdrop, ← hcs]⟩
  · exact .inr hnone

/-- An ending without a slash is dropped from what stands behind the last slash. -/
theorem dropEnding_append_slash {endings : List String} (hslash : ∀ e ∈ endings, '/' ∉ e.toList)
    (cs ds : List Char) :
    dropEnding endings (cs ++ '/' :: ds) = cs ++ dropEnding endings ('/' :: ds) := by
  obtain ⟨body, feed, hcut⟩ : ∃ body feed, cutLastFeed ('/' :: ds) = ('/' :: body, feed) :=
    ⟨_, _, cutLastFeed_slash ds⟩
  have hcut' := cutLastFeed_append cs (List.cons_ne_nil '/' ds)
  rw [hcut] at hcut'
  -- An ending without a slash does not reach over the last one.
  have hfind : (endings.find? fun e => e.toList.isSuffixOf (cs ++ '/' :: body)) =
      endings.find? fun e => e.toList.isSuffixOf ('/' :: body) := by
    refine List.find?_congr fun e he => ?_
    rw [Bool.eq_iff_iff, List.isSuffixOf_iff_suffix, List.isSuffixOf_iff_suffix,
      Text.suffix_append_sep_iff (hslash e he)]
    exact (@Text.suffix_append_sep_iff '/' [] body e.toList (hslash e he)).symm
  unfold dropEnding
  simp only [hcut', hcut, hfind]
  cases hfound : endings.find? fun e => e.toList.isSuffixOf ('/' :: body) with
  | none => rfl
  | some e =>
    obtain ⟨hends, -⟩ := List.find?_eq_some_iff_append.1 hfound
    have hlength := (List.isSuffixOf_iff_suffix.1 hends).length_le
    rw [String.length_toList] at hlength
    simp only [List.length_append, Nat.add_sub_assoc hlength, List.take_length_add_append,
      List.append_assoc]

/-- Of endings that are not endings of each other, the one that is put behind a text is dropped. -/
theorem dropEnding_append {endings : List String} {e : String}
    (hfree : ∀ e ∈ endings, ∀ e' ∈ endings, e.toList <:+ e'.toList → e = e') (he : e ∈ endings)
    (hfeed : (cs ++ e.toList).getLast? ≠ some '\n') :
    dropEnding endings (cs ++ e.toList) = cs := by
  rcases dropEnding_cases endings hfeed with ⟨e', he', heq⟩ | ⟨hnone, -⟩
  · have hends : e' = e := by
      rcases List.suffix_or_suffix_of_suffix (List.suffix_append cs e.toList) ⟨_, heq.symm⟩ with
        h | h
      · exact (hfree e he e' he' h).symm
      · exact hfree e' he' e he h
    subst hends
    exact (List.append_cancel_right heq).symm
  · exact absurd (List.suffix_append cs e.toList) (hnone e he)

/-! ## Backslashes -/

/-- A backslash taken for a slash. -/
def toSlash (c : Char) : Char := if c = '\\' then '/' else c

/-- A slash is left as it is. -/
@[simp] theorem toSlash_slash : toSlash '/' = '/' := rfl

/-- So is anything but a backslash. -/
theorem toSlash_of_ne (hc : c ≠ '\\') : toSlash c = c := if_neg hc

/-- Only a backslash is taken for another character. -/
theorem eq_of_toSlash_eq {d : Char} (h : toSlash d = c) (hc : c ≠ '/') : d = c := by
  unfold toSlash at h
  split_ifs at h with hd
  · exact absurd h.symm hc
  · exact h

/-- A text without a backslash is left as it is. -/
theorem map_toSlash_of_not_mem (h : '\\' ∉ cs) : cs.map toSlash = cs := by
  have hself : cs.map toSlash = cs.map id :=
    List.map_congr_left fun c hc => toSlash_of_ne (ne_of_mem_of_not_mem hc h)
  rw [hself, List.map_id]

/-- Such a list stays one. -/
theorem AtSlash.map_toSlash (h : AtSlash cs) : AtSlash (cs.map toSlash) := by
  rcases h with rfl | ⟨rest, rfl⟩
  · exact .inl rfl
  · exact .inr ⟨rest.map toSlash, rfl⟩

/-- No backslash is left. -/
theorem not_mem_map_toSlash (cs : List Char) : '\\' ∉ cs.map toSlash := by
  rw [List.mem_map]
  rintro ⟨c, -, hc⟩
  obtain rfl := eq_of_toSlash_eq hc (by decide)
  exact absurd hc (by decide)

/-- Where the closing bracket comes after a slash, there is no group. -/
theorem dropGroup?_eq_none_of_slash (hclose : ')' ∉ name) :
    dropGroup? ('/' :: '(' :: (name ++ '/' :: rest)) = none := by
  rw [Option.eq_none_iff_forall_not_mem]
  intro after hafter
  obtain ⟨name', hslash, -, heq⟩ := dropGroup?_eq_some_iff.1 hafter
  rw [List.cons.injEq, List.cons.injEq] at heq
  rcases List.append_eq_append_iff.1 heq.2.2 with ⟨inner, rfl, hrest⟩ | ⟨inner, rfl, hrest⟩
  · cases inner with
    | nil => cases hrest
    | cons c inner =>
      obtain ⟨rfl, -⟩ := List.cons.inj hrest
      simp at hslash
  · cases inner with
    | nil => cases hrest
    | cons c inner =>
      obtain ⟨rfl, -⟩ := List.cons.inj hrest
      simp at hclose

/-- A group that begins when backslashes are taken for slashes begins without that, unless its slash
is one of these. -/
theorem dropGroup?_map_toSlash (h : dropGroup? ('/' :: cs) = none) :
    dropGroup? ('/' :: cs.map toSlash) = none := by
  rw [Option.eq_none_iff_forall_not_mem]
  intro after hafter
  obtain ⟨name, hslash, hclose, heq⟩ := dropGroup?_eq_some_iff.1 hafter
  obtain ⟨open', inner, rfl, hopen, hinner⟩ := List.map_eq_cons_iff.1 (List.cons.inj heq).2
  obtain ⟨name', behind, rfl, rfl, hbehind⟩ := List.map_eq_append_iff.1 hinner
  obtain ⟨close, rest, rfl, hclose', -⟩ := List.map_eq_cons_iff.1 hbehind
  obtain rfl := eq_of_toSlash_eq hopen (by decide)
  obtain rfl := eq_of_toSlash_eq hclose' (by decide)
  have hsome : dropGroup? ('/' :: '(' :: (name' ++ ')' :: rest)) = some rest :=
    dropGroup?_eq_some_iff.2 ⟨name', fun hmem => hslash (List.mem_map_of_mem hmem),
      fun hmem => hclose (List.mem_map_of_mem hmem), rfl⟩
  rw [h] at hsome
  cases hsome

/-- There are not more slashes without a part in front. -/
theorem count_dropGroups_le (cs ds : List Char) :
    (dropGroups ds).count '/' ≤ (dropGroups (cs ++ ds)).count '/' := by
  induction cs with
  | nil => exact Nat.le_refl _
  | cons c cs ih =>
    refine Nat.le_trans ih ?_
    rw [List.cons_append]
    cases hgroup : dropGroup? (c :: (cs ++ ds)) with
    | none =>
      rw [dropGroups_char hgroup]
      exact List.count_le_count_cons
    | some rest =>
      -- The slash of the group is the only one that goes, and it is the character in front.
      obtain ⟨name, hslash, hclose, heq⟩ := dropGroup?_eq_some_iff.1 hgroup
      obtain ⟨rfl, htail⟩ := List.cons.inj heq
      have hbody : '/' ∉ '(' :: (name ++ [')']) := by simpa using hslash
      have hassoc : '(' :: (name ++ ')' :: rest) = '(' :: (name ++ [')']) ++ rest := by simp
      rw [heq, dropGroups_group hslash hclose, htail, hassoc, dropGroups_append_left hbody,
        List.count_append]
      exact Nat.le_of_eq (by rw [List.count_eq_zero_of_not_mem hbody, Nat.zero_add])

/-- A slash in place of a backslash in the name of a group keeps the group, with the slash that it
begins with. -/
theorem lt_count_dropGroups_group (hclose : ')' ∉ name) (hback : '\\' ∈ name)
    (hle : (dropGroups rest).count '/' ≤ (dropGroups (rest.map toSlash)).count '/') :
    (dropGroups rest).count '/' <
      (dropGroups ('/' :: '(' :: (name.map toSlash ++ ')' :: rest.map toSlash))).count '/' := by
  have hclose' : ')' ∉ name.map toSlash := by
    rw [List.mem_map]
    rintro ⟨c, hc, hc'⟩
    exact hclose (eq_of_toSlash_eq hc' (by decide) ▸ hc)
  obtain ⟨before, after, hname, -⟩ :=
    List.eq_append_cons_of_mem (List.mem_map_of_mem (f := toSlash) hback)
  have hnone : dropGroup? ('/' :: '(' :: (name.map toSlash ++ ')' :: rest.map toSlash)) = none := by
    rw [hname, List.append_assoc]
    exact dropGroup?_eq_none_of_slash fun hmem => hclose' (hname ▸ List.mem_append_left _ hmem)
  have hassoc : '(' :: (name.map toSlash ++ ')' :: rest.map toSlash) =
      '(' :: (name.map toSlash ++ [')']) ++ rest.map toSlash := by simp
  rw [dropGroups_char hnone, List.count_cons_self, hassoc]
  exact Nat.lt_succ_of_le (Nat.le_trans hle (count_dropGroups_le _ _))

/-- If all backslashes stand in groups, slashes in their place leave no fewer slashes, and more if
there is a backslash. -/
theorem count_dropGroups_lt (hkept : '\\' ∉ dropGroups cs) :
    (dropGroups cs).count '/' ≤ (dropGroups (cs.map toSlash)).count '/' ∧
      ('\\' ∈ cs → (dropGroups cs).count '/' < (dropGroups (cs.map toSlash)).count '/') := by
  induction cs using groups_induction with
  | nil => simp
  | group name rest hslash hclose ih =>
    rw [dropGroups_group hslash hclose] at hkept ⊢
    obtain ⟨hle, hlt⟩ := ih hkept
    have hmap : ('/' :: '(' :: (name ++ ')' :: rest)).map toSlash =
        '/' :: '(' :: (name.map toSlash ++ ')' :: rest.map toSlash) := by simp [toSlash]
    rw [hmap]
    by_cases hback : '\\' ∈ name
    · have hmore := lt_count_dropGroups_group hclose hback hle
      exact ⟨Nat.le_of_lt hmore, fun _ => hmore⟩
    · rw [map_toSlash_of_not_mem hback, dropGroups_group hslash hclose]
      refine ⟨hle, fun hmem => hlt ?_⟩
      simpa [hback] using hmem
  | char c cs hgroup ih =>
    rw [dropGroups_char hgroup] at hkept ⊢
    obtain ⟨hc, hcs⟩ : '\\' ≠ c ∧ '\\' ∉ dropGroups cs := by simpa using hkept
    obtain ⟨hle, hlt⟩ := ih hcs
    have hgroup' : dropGroup? (c :: cs.map toSlash) = none := by
      by_cases hslash : c = '/'
      · subst hslash
        exact dropGroup?_map_toSlash hgroup
      · exact dropGroup?_eq_none hslash
    rw [List.map_cons, toSlash_of_ne hc.symm, dropGroups_char hgroup', List.count_cons,
      List.count_cons]
    refine ⟨Nat.add_le_add_right hle _, fun hmem => Nat.add_lt_add_right (hlt ?_) _⟩
    exact (List.mem_cons.1 hmem).resolve_left hc

/-- If a path with slashes for backslashes is, without its groups, what is left without an ending
and without slashes behind it, then the path has no backslash and there is no ending. -/
theorem not_mem_and_eq_nil_of_eq {ending : List Char} (hslash : '/' ∉ ending)
    (hclose : ')' ∉ ending) (hback : '\\' ∉ ending)
    (heq : dropGroups ((cs ++ ending).map toSlash) =
      Text.dropEndWhile (· == '/') (dropGroups cs)) : '\\' ∉ cs ∧ ending = [] := by
  have hkept : '\\' ∉ dropGroups cs := by
    intro hmem
    have hname := Text.mem_dropEndWhile (p := (· == '/')) hmem rfl
    rw [← heq] at hname
    exact not_mem_map_toSlash _ ((dropGroups_sublist _).subset hname)
  have hprefix := Text.dropEndWhile_prefix (· == '/') (dropGroups cs)
  rw [← heq, List.map_append, map_toSlash_of_not_mem hback, dropGroups_append _ hslash hclose]
    at hprefix
  -- A backslash would leave more slashes, and an ending more characters.
  have hcs : '\\' ∉ cs := by
    intro hmem
    have hcount := hprefix.sublist.count_le '/'
    rw [List.count_append, List.count_eq_zero_of_not_mem hslash, Nat.add_zero] at hcount
    exact Nat.not_lt.2 hcount ((count_dropGroups_lt hkept).2 hmem)
  rw [map_toSlash_of_not_mem hcs] at hprefix
  have hlength := hprefix.length_le
  rw [List.length_append] at hlength
  exact ⟨hcs, List.length_eq_zero_iff.1 (by omega)⟩

end CodeSurvey.Workflow
