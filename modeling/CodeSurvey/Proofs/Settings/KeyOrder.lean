import CodeSurvey.Proofs.Settings.Loading

/-!
# The order of keys in a section

The entries of a section are applied in the order in which they stand. Each of them sets an option
of its own, but for two: one sets the denied names, and one puts further names behind those that
are denied so far (`deniedAfter`). So all other options are the same in every order
(`foldlM_spec`), and the denied names are if not both entries are there, or there are no further
names. Otherwise the order is told: further names are lost if the denied ones are set behind them
(`order_of_keys_is_told_iff`).
-/

namespace CodeSurvey.Settings

open CodeSurvey.Toml (Value)

/-! ## Configurations by their options -/

/-- A name that is no option has no value. -/
theorem get_of_notMem {c : Config} {name : String} (h : name ∉ c.values.map Prod.fst) :
    c.get name = .none := by
  obtain ⟨values⟩ := c
  induction values with
  | nil => rfl
  | cons e rest ih =>
    rw [List.map_cons, List.mem_cons, not_or] at h
    rw [get_cons, if_neg (Ne.symm h.1)]
    exact ih h.2

/-- The entries of a configuration, each under its own name, are its names with their values. -/
theorem values_eq {values : List (String × Value)} (h : (values.map Prod.fst).Nodup) :
    values = (values.map Prod.fst).map fun name => (name, Config.get ⟨values⟩ name) := by
  induction values with
  | nil => rfl
  | cons e rest ih =>
    rw [List.map_cons, List.nodup_cons] at h
    have hrest : (rest.map Prod.fst).map (fun name => (name, Config.get ⟨e :: rest⟩ name)) =
        (rest.map Prod.fst).map fun name => (name, Config.get ⟨rest⟩ name) := by
      refine List.map_congr_left fun name hname => ?_
      have hne : e.1 ≠ name := fun heq => h.1 (by rwa [heq])
      rw [get_cons, if_neg hne]
    rw [List.map_cons, List.map_cons, get_cons, if_pos rfl, hrest, ← ih h.2]

/-- Configurations of the same options are equal if these have the same values. -/
theorem eq_of_get {c d : Config} (hc : c.HasOptions) (hd : d.HasOptions)
    (h : ∀ name ∈ optionSorts.map Prod.fst, c.get name = d.get name) : c = d := by
  obtain ⟨values⟩ := c
  obtain ⟨values'⟩ := d
  have hnodup : (optionSorts.map Prod.fst).Nodup := by decide
  have hvalues := values_eq (hc ▸ hnodup : (values.map Prod.fst).Nodup)
  have hvalues' := values_eq (hd ▸ hnodup : (values'.map Prod.fst).Nodup)
  have hentries := List.map_congr_left fun name hname => congrArg (Prod.mk name) (h name hname)
  rw [hc] at hvalues
  rw [hd, ← hentries] at hvalues'
  exact congrArg Config.mk (hvalues.trans hvalues'.symm)

/-! ## Denied names -/

/-- A section of options: every key stands in it once, and the denied names and the further ones
are lists of texts. -/
structure IsSection (entries : List (String × Value)) : Prop where
  keys : (entries.map Prod.fst).Nodup
  denied : ∀ v, (deniedKey, v) ∈ entries → ∃ xs, v = texts xs
  extra : ∀ v, (extraKey, v) ∈ entries → ∃ xs, v = texts xs

/-- The same entries in another order are a section too. -/
theorem IsSection.perm {entries other : List (String × Value)} (h : IsSection entries)
    (hperm : other.Perm entries) : IsSection other where
  keys := (hperm.map Prod.fst).nodup_iff.2 h.keys
  denied := fun v hv => h.denied v (hperm.subset hv)
  extra := fun v hv => h.extra v (hperm.subset hv)

/-- The rest of a section is one. -/
theorem IsSection.tail {e : String × Value} {rest : List (String × Value)}
    (h : IsSection (e :: rest)) : IsSection rest where
  keys := (List.nodup_cons.1 h.keys).2
  denied := fun v hv => h.denied v (List.mem_cons_of_mem _ hv)
  extra := fun v hv => h.extra v (List.mem_cons_of_mem _ hv)

/-- The names of a list of texts. -/
def namesOf : Value → List String
  | .array items => items.map fun x => x.toJson.display
  | _ => []

/-- The names of a list of texts are these. -/
theorem namesOf_texts (xs : List String) : namesOf (texts xs) = xs := by
  have hdisplay : (fun x => (Value.toJson x).display) ∘ Value.str = id := by
    funext s
    rfl
  rw [texts, namesOf, List.map_map, hdisplay, List.map_id]

/-- Lists of different texts are different values. -/
theorem texts_inj {xs ys : List String} : texts xs = texts ys ↔ xs = ys :=
  ⟨fun h => by rw [← namesOf_texts xs, h, namesOf_texts], congrArg texts⟩

/-- The denied names after one entry. -/
def deniedBy (names : List String) (e : String × Value) : List String :=
  if e.1 = deniedKey then namesOf e.2 else if e.1 = extraKey then names ++ namesOf e.2 else names

/-- The denied names after some entries, when there were others before. -/
def deniedAfter (names : List String) (entries : List (String × Value)) : List String :=
  entries.foldl deniedBy names

/-- One entry sets the option of its name, and the denied names go by it. -/
theorem apply_spec {c : Config} {names : List String} {e : String × Value}
    {rest : List (String × Value)} (hc : c.HasOptions) (hnames : c.get deniedKey = texts names)
    (h : IsSection (e :: rest)) :
    ∃ d, c.apply e.1 e.2 = .ok d ∧ d.HasOptions ∧ d.get deniedKey = texts (deniedBy names e) ∧
      ∀ name ∈ optionSorts.map Prod.fst, name ≠ deniedKey →
        d.get name = if e.1 = name then e.2 else c.get name := by
  have hne : extraKey ≠ deniedKey := by decide
  have hdenied : deniedKey ∈ c.values.map Prod.fst := by
    rw [hc]
    decide
  obtain ⟨key, v⟩ := e
  by_cases hextra : key = extraKey
  · -- Further names are put behind those that are denied.
    subst hextra
    obtain ⟨xs, rfl⟩ := h.extra v List.mem_cons_self
    refine ⟨c.set deniedKey (texts (names ++ xs)), ?_, set_hasOptions hc _ _, ?_, ?_⟩
    · have happend : texts (names ++ xs) =
          .array (names.map Value.str ++
            (xs.map Value.str).map fun x : Value => Value.str x.toJson.display) := by
        rw [texts, List.map_append, List.map_map]
        rfl
      rw [happend]
      unfold Config.apply
      rw [beq_self_eq_true, hnames]
      rfl
    · rw [get_set_self hdenied, deniedBy, if_neg hne, if_pos rfl, namesOf_texts]
    · intro name hname hother
      rw [get_set_of_ne hother, if_neg]
      rintro rfl
      exact extraKey_notMem hname
  · have happly : c.apply key v = .ok (c.set key v) := by
      unfold Config.apply
      rw [beq_eq_false_iff_ne.2 hextra]
    refine ⟨_, happly, set_hasOptions hc _ _, ?_, ?_⟩
    · by_cases hkey : key = deniedKey
      · subst hkey
        obtain ⟨xs, rfl⟩ := h.denied v List.mem_cons_self
        rw [get_set_self hdenied, deniedBy, if_pos rfl, namesOf_texts]
      · rw [get_set_of_ne (Ne.symm hkey), hnames, deniedBy, if_neg hkey, if_neg hextra]
    · intro name hname _
      split_ifs with heq
      · subst heq
        exact get_set_self (hc ▸ hname) v
      · exact get_set_of_ne (Ne.symm heq) v

/-- The entries of a section set the options of their names, and the denied names go by them. -/
theorem foldlM_spec {c : Config} {names : List String} {entries : List (String × Value)}
    (hc : c.HasOptions) (hnames : c.get deniedKey = texts names) (h : IsSection entries) :
    ∃ d, entries.foldlM (fun c e => c.apply e.1 e.2) c = .ok d ∧ d.HasOptions ∧
      d.get deniedKey = texts (deniedAfter names entries) ∧
      ∀ name ∈ optionSorts.map Prod.fst, name ≠ deniedKey →
        (∀ v, (name, v) ∈ entries → d.get name = v) ∧
        (name ∉ entries.map Prod.fst → d.get name = c.get name) := by
  induction entries generalizing c names with
  | nil => exact ⟨c, rfl, hc, hnames, fun _ _ _ => ⟨by simp, fun _ => rfl⟩⟩
  | cons e rest ih =>
    obtain ⟨next, hnext, hoptions, hdenied, hothers⟩ := apply_spec hc hnames h
    obtain ⟨d, hd, hdoptions, hddenied, hdothers⟩ := ih hoptions hdenied h.tail
    refine ⟨d, ?_, hdoptions, hddenied, fun name hname hne => ?_⟩
    · rw [List.foldlM_cons]
      exact bind_eq_ok.2 ⟨next, hnext, hd⟩
    obtain ⟨hset, hkept⟩ := hdothers name hname hne
    have hhead := hothers name hname hne
    refine ⟨fun v hv => ?_, fun hnot => ?_⟩
    · rcases List.mem_cons.1 hv with rfl | hv
      · -- The name stands only once, so what comes later does not set it.
        rw [hkept (List.nodup_cons.1 h.keys).1, hhead, if_pos rfl]
      · exact hset v hv
    · rw [List.map_cons, List.mem_cons, not_or] at hnot
      rw [hkept hnot.2, hhead, if_neg (Ne.symm hnot.1)]

/-- Entries under other names deny what was denied before. -/
theorem deniedAfter_of_notMem {names : List String} {entries : List (String × Value)}
    (hdenied : deniedKey ∉ entries.map Prod.fst) (hextra : extraKey ∉ entries.map Prod.fst) :
    deniedAfter names entries = names := by
  induction entries with
  | nil => rfl
  | cons e rest ih =>
    rw [List.map_cons, List.mem_cons, not_or] at hdenied hextra
    rw [deniedAfter, List.foldl_cons, deniedBy, if_neg (Ne.symm hdenied.1),
      if_neg (Ne.symm hextra.1)]
    exact ih hdenied.2 hextra.2

/-- A name stands neither before nor behind an entry of that name. -/
theorem notMem_of_split {entries pre post : List (String × Value)} {e : String × Value}
    (h : (entries.map Prod.fst).Nodup) (hsplit : entries = pre ++ e :: post) :
    e.1 ∉ pre.map Prod.fst ∧ e.1 ∉ post.map Prod.fst := by
  rw [hsplit, List.map_append, List.map_cons, List.nodup_middle, List.nodup_cons,
    List.mem_append, not_or] at h
  exact h.1

/-- Further names are put behind those before. -/
theorem deniedAfter_of_extra {names ys : List String} {entries : List (String × Value)}
    (hkeys : (entries.map Prod.fst).Nodup) (hdenied : deniedKey ∉ entries.map Prod.fst)
    (hextra : (extraKey, texts ys) ∈ entries) : deniedAfter names entries = names ++ ys := by
  have hne : extraKey ≠ deniedKey := by decide
  obtain ⟨pre, post, rfl⟩ := List.append_of_mem hextra
  obtain ⟨hpre, hpost⟩ := notMem_of_split hkeys rfl
  rw [List.map_append, List.mem_append, not_or, List.map_cons, List.mem_cons, not_or] at hdenied
  have hfirst : pre.foldl deniedBy names = names := deniedAfter_of_notMem hdenied.1 hpre
  have hlast : post.foldl deniedBy (names ++ ys) = names ++ ys :=
    deniedAfter_of_notMem hdenied.2.2 hpost
  rw [deniedAfter, List.foldl_append, List.foldl_cons, hfirst, deniedBy, if_neg hne, if_pos rfl,
    namesOf_texts, hlast]

/-- Where the denied names are set, what stands before does not count. -/
theorem deniedAfter_of_denied {names xs : List String} (pre post : List (String × Value)) :
    deniedAfter names (pre ++ (deniedKey, texts xs) :: post) = deniedAfter xs post := by
  rw [deniedAfter, List.foldl_append, List.foldl_cons, deniedBy, if_pos rfl, namesOf_texts]
  rfl

/-- A set of denied names is what is denied, if further names do not stand behind it. -/
theorem deniedAfter_eq {names xs : List String} (pre : List (String × Value))
    {post : List (String × Value)}
    (h : IsSection (pre ++ (deniedKey, texts xs) :: post))
    (hextra : extraKey ∉ post.map Prod.fst) :
    deniedAfter names (pre ++ (deniedKey, texts xs) :: post) = xs := by
  rw [deniedAfter_of_denied, deniedAfter_of_notMem (notMem_of_split h.keys rfl).2 hextra]

/-- Otherwise those are denied as well. -/
theorem deniedAfter_eq_append {names xs ys : List String} (pre : List (String × Value))
    {post : List (String × Value)}
    (h : IsSection (pre ++ (deniedKey, texts xs) :: post)) (hextra : (extraKey, texts ys) ∈ post) :
    deniedAfter names (pre ++ (deniedKey, texts xs) :: post) = xs ++ ys := by
  have hkeys : (post.map Prod.fst).Nodup := by
    have hall := h.keys
    rw [List.map_append, List.nodup_append, List.map_cons, List.nodup_cons] at hall
    exact hall.2.1.2
  rw [deniedAfter_of_denied, deniedAfter_of_extra hkeys (notMem_of_split h.keys rfl).2 hextra]

/-! ## Orders -/

/-- The entries do not compete for the denied names: these are not set, or there are no further
names to put behind them. -/
def Agrees (entries : List (String × Value)) : Prop :=
  ∀ xs ys, (deniedKey, texts xs) ∈ entries → (extraKey, texts ys) ∈ entries → ys = []

/-- Then the same names are denied in every order. -/
theorem Agrees.deniedAfter_perm {names : List String} {entries other : List (String × Value)}
    (hagrees : Agrees entries) (h : IsSection entries) (hperm : other.Perm entries) :
    deniedAfter names other = deniedAfter names entries := by
  -- What is denied after the entries of a section is told without their order.
  have hmem {e : String × Value} : e ∈ other ↔ e ∈ entries := hperm.mem_iff
  have hkeys {key : String} : key ∈ other.map Prod.fst ↔ key ∈ entries.map Prod.fst :=
    (hperm.map Prod.fst).mem_iff
  have hset : ∀ xs, (deniedKey, texts xs) ∈ entries → ∀ part, part.Perm entries →
      deniedAfter names part = xs := by
    intro xs hxs part hperm'
    obtain ⟨pre, post, rfl⟩ := List.append_of_mem (hperm'.mem_iff.2 hxs)
    have hsection := h.perm hperm'
    by_cases hextra : extraKey ∈ post.map Prod.fst
    · obtain ⟨⟨key, v⟩, hv, rfl⟩ := List.mem_map.1 hextra
      have hin : (extraKey, v) ∈ pre ++ (deniedKey, texts xs) :: post :=
        List.mem_append_right _ (List.mem_cons_of_mem _ hv)
      obtain ⟨ys, rfl⟩ := hsection.extra v hin
      obtain rfl := hagrees xs ys hxs (hperm'.mem_iff.1 hin)
      rw [deniedAfter_eq_append pre hsection hv, List.append_nil]
    · exact deniedAfter_eq pre hsection hextra
  by_cases hdenied : deniedKey ∈ entries.map Prod.fst
  · obtain ⟨⟨key, v⟩, hv, rfl⟩ := List.mem_map.1 hdenied
    obtain ⟨xs, rfl⟩ := h.denied v hv
    rw [hset xs hv other hperm, hset xs hv entries (List.Perm.refl _)]
  by_cases hextra : extraKey ∈ entries.map Prod.fst
  · obtain ⟨⟨key, v⟩, hv, rfl⟩ := List.mem_map.1 hextra
    obtain ⟨ys, rfl⟩ := h.extra v hv
    rw [deniedAfter_of_extra (h.perm hperm).keys (hkeys.not.2 hdenied) (hmem.2 hv),
      deniedAfter_of_extra h.keys hdenied hv]
  · rw [deniedAfter_of_notMem (hkeys.not.2 hdenied) (hkeys.not.2 hextra),
      deniedAfter_of_notMem hdenied hextra]

/-- What a section describes: its denied names, and the values of all other options. -/
theorem ofSection_spec {entries : List (String × Value)} (h : IsSection entries) :
    ∃ c, ofSection (.table entries) = .ok c ∧ c.HasOptions ∧
      c.get deniedKey =
        texts (deniedAfter (Ignore.defaultDenied controlDirName) entries) ∧
      ∀ name ∈ optionSorts.map Prod.fst, name ≠ deniedKey →
        (∀ v, (name, v) ∈ entries → c.get name = v) ∧
        (name ∉ entries.map Prod.fst → c.get name = Config.default.get name) :=
  foldlM_spec default_hasOptions rfl h

/-- In another order all options but the denied names are the same. -/
theorem get_perm {entries other : List (String × Value)} (h : IsSection entries)
    (hperm : other.Perm entries) {c d : Config} (hc : ofSection (.table entries) = .ok c)
    (hd : ofSection (.table other) = .ok d) {name : String} (hname : name ≠ deniedKey) :
    d.get name = c.get name := by
  obtain ⟨c', hc', hoptions, -, hvalues⟩ := ofSection_spec h
  obtain ⟨d', hd', hoptions', -, hvalues'⟩ := ofSection_spec (h.perm hperm)
  obtain rfl := Except.ok.inj (hc'.symm.trans hc)
  obtain rfl := Except.ok.inj (hd'.symm.trans hd)
  by_cases hmem : name ∈ optionSorts.map Prod.fst
  · obtain ⟨hset, hkept⟩ := hvalues name hmem hname
    obtain ⟨hset', hkept'⟩ := hvalues' name hmem hname
    by_cases hkey : name ∈ entries.map Prod.fst
    · obtain ⟨⟨key, v⟩, hv, rfl⟩ := List.mem_map.1 hkey
      rw [hset v hv, hset' v (hperm.mem_iff.2 hv)]
    · rw [hkept hkey, hkept' ((hperm.map Prod.fst).mem_iff.not.2 hkey)]
  · have hnot : name ∉ c'.values.map Prod.fst := by rwa [hoptions]
    have hnot' : name ∉ d'.values.map Prod.fst := by rwa [hoptions']
    rw [get_of_notMem hnot, get_of_notMem hnot']

/-- An element stands before another one, which stands only once, if it is found in front of it. -/
theorem pair_sublist_iff {α : Type} {x y : α} {pre post : List α} (hne : x ≠ y) (hpre : y ∉ pre)
    (hpost : y ∉ post) : [x, y].Sublist (pre ++ y :: post) ↔ x ∈ pre := by
  constructor
  · intro h
    obtain ⟨first, last, heq, hfirst, hlast⟩ := List.sublist_append_iff.1 h
    rcases List.append_eq_cons_iff.1 heq.symm with ⟨rfl, rfl⟩ | ⟨first', rfl, hrest⟩
    · -- Both would stand at the place of the second one or behind it.
      cases hlast with
      | cons _ htail => exact absurd (htail.subset (by simp)) hpost
      | cons_cons => exact absurd rfl hne
    · exact hfirst.subset List.mem_cons_self
  · intro h
    exact (List.singleton_sublist.2 h).append (List.singleton_sublist.2 List.mem_cons_self)

/-- Two entries under different keys can be taken to the front. -/
theorem exists_perm_of_mem {α : Type} {x y : α} {entries : List α} (hne : x ≠ y)
    (hx : x ∈ entries) (hy : y ∈ entries) : ∃ rest, (x :: y :: rest).Perm entries := by
  obtain ⟨pre, post, rfl⟩ := List.append_of_mem hx
  have hrest : y ∈ pre ++ post := by
    rw [List.mem_append, List.mem_cons] at hy
    rw [List.mem_append]
    exact hy.imp_right fun h => h.resolve_left (Ne.symm hne)
  obtain ⟨pre', post', heq⟩ := List.append_of_mem hrest
  refine ⟨pre' ++ post', ?_⟩
  calc (x :: y :: (pre' ++ post')).Perm (x :: (pre ++ post)) := by
        rw [heq]
        exact List.perm_middle.symm.cons x
    _ |>.Perm (pre ++ x :: post) := List.perm_middle.symm

/-- When both entries are there, it is told which of them is the first, unless there are no further
names. -/
theorem eq_nil_of_swap {xs ys : List String} {rest : List (String × Value)}
    (h : IsSection ((deniedKey, texts xs) :: (extraKey, texts ys) :: rest))
    (hsame : ofSection (.table ((extraKey, texts ys) :: (deniedKey, texts xs) :: rest)) =
      ofSection (.table ((deniedKey, texts xs) :: (extraKey, texts ys) :: rest))) : ys = [] := by
  have hswap := h.perm (List.Perm.swap _ _ rest)
  obtain ⟨c, hc, -, hdenied, -⟩ := ofSection_spec h
  obtain ⟨d, hd, -, hdenied', -⟩ := ofSection_spec hswap
  obtain rfl : d = c := Except.ok.inj (hd.symm.trans (hsame.trans hc))
  -- An extra entry behind the denied one extends it; in front of it, it is overwritten.
  have hbefore : deniedAfter (Ignore.defaultDenied controlDirName)
      ((deniedKey, texts xs) :: (extraKey, texts ys) :: rest) = xs ++ ys :=
    deniedAfter_eq_append [] h List.mem_cons_self
  have hbehind : deniedAfter (Ignore.defaultDenied controlDirName)
      ((extraKey, texts ys) :: (deniedKey, texts xs) :: rest) = xs := by
    have hextra : extraKey ∉ rest.map Prod.fst :=
      fun hmem => (List.nodup_cons.1 hswap.keys).1 (List.mem_cons_of_mem _ hmem)
    exact deniedAfter_eq [(extraKey, texts ys)] hswap hextra
  rw [hbefore] at hdenied
  rw [hbehind] at hdenied'
  have heq : xs = xs ++ ys := texts_inj.1 (hdenied'.symm.trans hdenied)
  exact List.self_eq_append_right.1 heq

/-- Further names are denied, if they stand behind the denied ones, and otherwise if they are among
these. -/
theorem subset_deniedAfter_iff {names ys : List String} {entries : List (String × Value)}
    (h : IsSection entries) (hys : (extraKey, texts ys) ∈ entries) :
    ys ⊆ deniedAfter names entries ↔
      ∀ xs, [(extraKey, texts ys), (deniedKey, texts xs)].Sublist entries → ys ⊆ xs := by
  by_cases hkey : deniedKey ∈ entries.map Prod.fst
  · obtain ⟨⟨key, v⟩, hv, rfl⟩ := List.mem_map.1 hkey
    obtain ⟨xs, rfl⟩ := h.denied v hv
    obtain ⟨pre, post, rfl⟩ := List.append_of_mem hv
    obtain ⟨hpre, hpost⟩ := notMem_of_split h.keys rfl
    have hsame {xs' : List String} (hsub : [(extraKey, texts ys), (deniedKey, texts xs')].Sublist
        (pre ++ (deniedKey, texts xs) :: post)) : xs' = xs := by
      have hmem := hsub.subset (List.mem_cons_of_mem _ List.mem_cons_self)
      have heq := List.inj_on_of_nodup_map h.keys hmem hv rfl
      exact texts_inj.1 (congrArg Prod.snd heq)
    have hbefore : [(extraKey, texts ys), (deniedKey, texts xs)].Sublist
        (pre ++ (deniedKey, texts xs) :: post) ↔ (extraKey, texts ys) ∈ pre := by
      have hne : (extraKey, texts ys) ≠ (deniedKey, texts xs) :=
        fun heq => (by decide : extraKey ≠ deniedKey) (congrArg Prod.fst heq)
      exact pair_sublist_iff hne (fun hmem => hpre (List.mem_map_of_mem hmem))
        fun hmem => hpost (List.mem_map_of_mem hmem)
    by_cases hmem : (extraKey, texts ys) ∈ pre
    · -- They stand in front, and so not behind as well.
      have hextra : extraKey ∉ post.map Prod.fst := fun hpost => by
        have hall := h.keys
        rw [List.map_append, List.nodup_append] at hall
        exact hall.2.2 _ (List.mem_map_of_mem hmem) _ (List.mem_cons_of_mem _ hpost) rfl
      rw [deniedAfter_eq pre h hextra]
      refine ⟨fun hsub xs' hxs' => ?_, fun hall => hall xs (hbefore.2 hmem)⟩
      rwa [hsame hxs']
    · have hpost : (extraKey, texts ys) ∈ post := by
        rw [List.mem_append, List.mem_cons] at hys
        exact (hys.resolve_left hmem).resolve_left fun heq =>
          (by decide : extraKey ≠ deniedKey) (congrArg Prod.fst heq)
      rw [deniedAfter_eq_append pre h hpost]
      refine iff_of_true (List.subset_append_right _ _) fun xs' hxs' => ?_
      obtain rfl := hsame hxs'
      exact absurd (hbefore.1 hxs') hmem
  · have hnone {xs : List String} :
        ¬[(extraKey, texts ys), (deniedKey, texts xs)].Sublist entries := fun hsub =>
      hkey (List.mem_map_of_mem (hsub.subset (List.mem_cons_of_mem _ List.mem_cons_self)))
    rw [deniedAfter_of_extra h.keys hkey hys]
    exact iff_of_true (List.subset_append_right _ _) fun _ hsub => absurd hsub hnone

/-- When the order of keys is told. In every order of its keys a section is loaded, and all options
but the denied names are the same. The denied names are the same in every order if and only if they
are not set, or there are no further names. And all further names are denied if and only if each
one that the denied names are set behind is one of these. -/
theorem order_of_keys_is_told_iff {entries : List (String × Value)} (h : IsSection entries) :
    (∀ other, other.Perm entries → ∃ c d, ofSection (.table entries) = .ok c ∧
      ofSection (.table other) = .ok d ∧ ∀ name, name ≠ deniedKey → d.get name = c.get name) ∧
    ((∀ other, other.Perm entries →
        ofSection (.table other) = ofSection (.table entries)) ↔ Agrees entries) ∧
    ∀ ys, (extraKey, texts ys) ∈ entries → ∃ c names, ofSection (.table entries) = .ok c ∧
      c.get deniedKey = texts names ∧
      (ys ⊆ names ↔
        ∀ xs, [(extraKey, texts ys), (deniedKey, texts xs)].Sublist entries → ys ⊆ xs) := by
  refine ⟨fun other hperm => ?_, ⟨fun hsame xs ys hxs hys => ?_, fun hagrees other hperm => ?_⟩,
    fun ys hys => ?_⟩
  · obtain ⟨c, hc, -⟩ := ofSection_spec h
    obtain ⟨d, hd, -⟩ := ofSection_spec (h.perm hperm)
    exact ⟨c, d, hc, hd, fun name hname => get_perm h hperm hc hd hname⟩
  · -- With the two entries in front, in either order, further names are denied or not.
    have hkeys : deniedKey ≠ extraKey := by decide
    have hne : (deniedKey, texts xs) ≠ (extraKey, texts ys) :=
      fun heq => hkeys (congrArg Prod.fst heq)
    obtain ⟨rest, hrest⟩ := exists_perm_of_mem hne hxs hys
    have hswap := (List.Perm.swap _ _ rest).trans hrest
    exact eq_nil_of_swap (h.perm hrest) ((hsame _ hswap).trans (hsame _ hrest).symm)
  · obtain ⟨c, hc, hoptions, hdenied, -⟩ := ofSection_spec h
    obtain ⟨d, hd, hoptions', hdenied', -⟩ := ofSection_spec (h.perm hperm)
    rw [hc, hd]
    refine congrArg Except.ok (eq_of_get hoptions' hoptions fun name _ => ?_)
    by_cases hname : name = deniedKey
    · rw [hname, hdenied, hdenied', hagrees.deniedAfter_perm h hperm]
    · exact get_perm h hperm hc hd hname
  · obtain ⟨c, hc, -, hdenied, -⟩ := ofSection_spec h
    exact ⟨c, _, hc, hdenied, subset_deniedAfter_iff h hys⟩

/-- A section of further names with denied ones behind them. -/
theorem isSection_pair (xs ys : List String) :
    IsSection [(extraKey, texts ys), (deniedKey, texts xs)] where
  keys := (by decide : [extraKey, deniedKey].Nodup)
  denied := fun v hv => by
    rcases List.mem_pair.1 hv with heq | heq
    · exact ⟨ys, congrArg Prod.snd heq⟩
    · exact ⟨xs, congrArg Prod.snd heq⟩
  extra := fun v hv => by
    rcases List.mem_pair.1 hv with heq | heq
    · exact ⟨ys, congrArg Prod.snd heq⟩
    · exact ⟨xs, congrArg Prod.snd heq⟩

/-- With denied names behind further ones, the further ones are not denied. -/
theorem order_of_two_lists_is_told :
    IsSection [(extraKey, texts ["vendor"]), (deniedKey, texts ["dist"])] ∧
      ∃ c names, ofSection (.table [(extraKey, texts ["vendor"]), (deniedKey, texts ["dist"])]) =
        .ok c ∧ c.get deniedKey = texts names ∧ ¬["vendor"] ⊆ names := by
  have h := isSection_pair ["dist"] ["vendor"]
  obtain ⟨-, -, hextra⟩ := order_of_keys_is_told_iff h
  obtain ⟨c, names, hc, hnames, hiff⟩ := hextra ["vendor"] List.mem_cons_self
  refine ⟨h, c, names, hc, hnames, fun hsub => ?_⟩
  have hbehind : ["vendor"] ⊆ ["dist"] := hiff.1 hsub ["dist"] (List.Sublist.refl _)
  exact absurd hbehind (by decide)

/-- Denied names that stand behind further ones are all that is denied, while in the other order the
further ones are denied too. -/
theorem denied_names_replace_extra :
    IsSection [(extraKey, texts ["a"]), (deniedKey, texts ["b"])] ∧
      ∃ c d, ofSection (.table [(extraKey, texts ["a"]), (deniedKey, texts ["b"])]) = .ok c ∧
        ofSection (.table [(deniedKey, texts ["b"]), (extraKey, texts ["a"])]) = .ok d ∧
        c.get deniedKey = texts ["b"] ∧ d.get deniedKey = texts ["b", "a"] ∧ c ≠ d := by
  refine ⟨isSection_pair _ _, _, _, rfl, rfl, rfl, rfl, fun heq => ?_⟩
  have hdenied : texts ["b"] = texts ["b", "a"] := congrArg (Config.get · deniedKey) heq
  exact absurd (texts_inj.1 hdenied) (by decide)

end CodeSurvey.Settings
