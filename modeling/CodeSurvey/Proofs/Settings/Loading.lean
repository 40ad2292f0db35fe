import CodeSurvey.Proofs.Files.Agreement
import CodeSurvey.Proofs.Files.Content
import CodeSurvey.Proofs.Research.Session
import CodeSurvey.Proofs.Toml.Reading
import CodeSurvey.Settings.Config
import Mathlib.Tactic.FinCases

/-!
# When a configuration is typed

Each option has a sort (`optionSorts`), and a configuration is typed if every option has a value of
its sort (`Config.IsTyped`), so that it gives options for a scan (`exists_options_of_isTyped`). The
entries of a section are applied one after the other. One entry that is sound, as its value is of
the sort of the option that it sets, if it sets one, keeps a configuration typed (`apply_isTyped`);
and whatever it is, the other options keep their values but for names that are put behind the
denied ones (`apply_extends`). As no key occurs twice in what is read, the value of an entry is
found in the final configuration again, so that is typed if and only if all entries are sound
(`ofSection_isTyped_iff`).
-/

namespace CodeSurvey.Settings

open CodeSurvey.Toml (Value)
open CodeSurvey.Toml.Value (Tidy IsTable)

/-! ## Sorts of options -/

/-- What the value of an option is to be. -/
inductive OptionSort where
  /-- A whole number; a truth value is one too. -/
  | whole
  /-- A number. -/
  | number
  /-- A truth value. -/
  | truth
  /-- A text. -/
  | text
  /-- A list of texts. -/
  | texts
  deriving Repr, DecidableEq

/-- A value is a whole number. -/
def IsWhole (v : Value) : Prop := (∃ n, v = .int n) ∨ ∃ b, v = .bool b

/-- A value is of a sort. -/
def OptionSort.Admits : OptionSort → Value → Prop
  | whole, v => IsWhole v
  | number, v => (∃ x, v = .float x) ∨ IsWhole v
  | truth, v => ∃ b, v = .bool b
  | text, v => ∃ s, v = .str s
  | texts, v => ∃ xs : List String, v = Settings.texts xs

/-- The options with their sorts. -/
def optionSorts : List (String × OptionSort) :=
  [("max_depth", .whole), ("max_file_bytes", .whole), ("exclude_patterns", .texts),
    ("respect_gitignore", .truth), ("follow_symlinks", .truth), ("engine_timeout", .number),
    ("generate_docs", .truth), ("docs_endpoint", .text), ("alias_prefixes", .texts)]

/-- A configuration has a value of its sort for every option. -/
def Config.IsTyped (c : Config) : Prop := ∀ o ∈ optionSorts, o.2.Admits (c.get o.1)

/-- An entry of the section is sound: if it sets an option, then to a value of its sort. -/
def IsSound (e : String × Value) : Prop := ∀ o ∈ optionSorts, o.1 = e.1 → o.2.Admits e.2

/-- A configuration has just the options. -/
def Config.HasOptions (c : Config) : Prop :=
  c.values.map Prod.fst = optionSorts.map Prod.fst

/-- The default configuration has the options. -/
theorem default_hasOptions : Config.default.HasOptions := rfl

/-- It is typed. -/
theorem default_isTyped : Config.default.IsTyped := by
  intro o ho
  fin_cases ho
  · exact .inl ⟨_, rfl⟩
  · exact .inl ⟨_, rfl⟩
  · exact ⟨_, rfl⟩
  · exact ⟨_, rfl⟩
  · exact ⟨_, rfl⟩
  · exact .inl ⟨_, rfl⟩
  · exact ⟨_, rfl⟩
  · exact ⟨_, rfl⟩
  · exact ⟨_, rfl⟩

/-! ## One entry -/

/-- The first value of a name counts. -/
theorem get_cons (e : String × Value) (rest : List (String × Value)) (name : String) :
    Config.get ⟨e :: rest⟩ name = if e.1 = name then e.2 else Config.get ⟨rest⟩ name := by
  unfold Config.get
  rw [List.find?_cons]
  by_cases h : e.1 = name
  · rw [if_pos h, beq_iff_eq.2 h]
  · rw [if_neg h, beq_eq_false_iff_ne.2 h]

/-- An option that is set has the value that it is set to. -/
theorem get_set_self {c : Config} {name : String} (h : name ∈ c.values.map Prod.fst) (v : Value) :
    (c.set name v).get name = v := by
  obtain ⟨values⟩ := c
  unfold Config.set
  induction values with
  | nil => cases h
  | cons e rest ih =>
    rw [List.map_cons, get_cons]
    by_cases heq : e.1 = name
    · simp [heq]
    · have hrest : name ∈ rest.map Prod.fst := (List.mem_cons.1 h).resolve_left (Ne.symm heq)
      simpa [heq] using ih hrest

/-- The others keep theirs. -/
theorem get_set_of_ne {c : Config} {name other : String} (h : other ≠ name) (v : Value) :
    (c.set name v).get other = c.get other := by
  obtain ⟨values⟩ := c
  unfold Config.set
  induction values with
  | nil => rfl
  | cons e rest ih =>
    rw [List.map_cons, get_cons, get_cons]
    by_cases heq : e.1 = name
    · simpa [heq, Ne.symm h] using ih
    · simpa [heq] using congrArg (fun w => if e.1 = other then e.2 else w) ih

/-- Setting an option adds none. -/
theorem set_hasOptions {c : Config} (h : c.HasOptions) (name : String) (v : Value) :
    (c.set name v).HasOptions := by
  have hsame : (c.set name v).values.map Prod.fst = c.values.map Prod.fst := by
    unfold Config.set
    rw [List.map_map]
    refine List.map_congr_left fun e _ => ?_
    rw [Function.comp_apply]
    split
    · rename_i hname
      exact (eq_of_beq hname).symm
    · rfl
  exact hsame.trans h

/-- A typed configuration stays typed if an option is set to a value of its sort. -/
theorem set_isTyped {c : Config} {name : String} {v : Value} (hc : c.HasOptions)
    (htyped : c.IsTyped) (hsound : IsSound (name, v)) : (c.set name v).IsTyped := by
  intro o ho
  by_cases heq : o.1 = name
  · have hname : name ∈ c.values.map Prod.fst := by
      rw [hc, ← heq]
      exact List.mem_map_of_mem ho
    rw [heq, get_set_self hname]
    exact hsound o ho heq
  · rw [get_set_of_ne heq]
    exact htyped o ho

/-- The entry of the added names sets no option. -/
theorem extraKey_notMem : extraKey ∉ optionSorts.map Prod.fst := by decide

/-- The denied names are a list of texts. -/
theorem sort_of_deniedKey : ∀ o ∈ optionSorts, o.1 = deniedKey → o.2 = .texts := by decide

/-- A sound entry keeps a configuration typed. -/
theorem apply_isTyped {c : Config} {e : String × Value} (hc : c.HasOptions) (htyped : c.IsTyped)
    (hsound : IsSound e) : ∃ d, c.apply e.1 e.2 = .ok d ∧ d.HasOptions ∧ d.IsTyped := by
  unfold Config.apply
  split
  · rename_i extra _ _
    obtain ⟨xs, hxs⟩ : OptionSort.texts.Admits (c.get deniedKey) :=
      htyped (deniedKey, .texts) (by decide)
    rw [hxs, texts]
    refine ⟨_, rfl, set_hasOptions hc _ _, set_isTyped hc htyped fun o ho hname => ?_⟩
    rw [sort_of_deniedKey o ho hname]
    exact ⟨xs ++ extra.map fun x => x.toJson.display, by simp [texts, Function.comp_def]⟩
  · exact ⟨_, rfl, set_hasOptions hc _ _, set_isTyped hc htyped hsound⟩

/-- A value is another one, or a list with more items behind those of the other. -/
def Extends (v w : Value) : Prop := w = v ∨ ∃ xs ys, v = .array xs ∧ w = .array (xs ++ ys)

/-- A value extends itself. -/
theorem Extends.refl (v : Value) : Extends v v := .inl rfl

/-- What extends a value that extends another one extends that one as well. -/
theorem Extends.trans {u v w : Value} (h : Extends u v) (h' : Extends v w) : Extends u w := by
  rcases h' with rfl | ⟨xs, ys, rfl, rfl⟩
  · exact h
  · rcases h with heq | ⟨xs', ys', rfl, heq⟩
    · exact .inr ⟨xs, ys, heq.symm, rfl⟩
    · obtain rfl := Value.array.inj heq
      exact .inr ⟨xs', ys' ++ ys, rfl, by rw [List.append_assoc]⟩

/-- What is extended to a value of a sort was of the sort before. -/
theorem Extends.admits {sort : OptionSort} {v w : Value} (h : Extends v w) (hw : sort.Admits w) :
    sort.Admits v := by
  rcases h with rfl | ⟨xs, ys, rfl, rfl⟩
  · exact hw
  · cases sort with
    | texts =>
      obtain ⟨ts, hts⟩ := hw
      obtain ⟨ts', _, -, hxs, -⟩ := List.map_eq_append_iff.1 (Value.array.inj hts).symm
      exact ⟨ts', congrArg Value.array hxs.symm⟩
    | whole => rcases hw with ⟨_, h⟩ | ⟨_, h⟩ <;> cases h
    | number => rcases hw with ⟨_, h⟩ | ⟨_, h⟩ | ⟨_, h⟩ <;> cases h
    | truth => obtain ⟨_, h⟩ := hw; cases h
    | text => obtain ⟨_, h⟩ := hw; cases h

/-- An entry sets the option of its name, and the others are kept or extended. -/
theorem apply_extends {c d : Config} {key : String} {v : Value} (hc : c.HasOptions)
    (h : c.apply key v = .ok d) :
    d.HasOptions ∧ (key ∈ optionSorts.map Prod.fst → d.get key = v) ∧
      ∀ name, name ≠ key → Extends (c.get name) (d.get name) := by
  unfold Config.apply at h
  split at h
  · rename_i extra hkey
    split at h
    · rename_i denied hdenied
      obtain rfl := Except.ok.inj h
      refine ⟨set_hasOptions hc _ _, fun hmem => ?_, fun name _ => ?_⟩
      · rw [eq_of_beq hkey] at hmem
        exact absurd hmem extraKey_notMem
      · -- The extra entry sets no option of its own name; it extends the denied one.
        by_cases heq : name = deniedKey
        · have hmem : deniedKey ∈ c.values.map Prod.fst := by
            rw [hc]
            decide
          rw [heq, get_set_self hmem, hdenied]
          exact .inr ⟨_, _, rfl, rfl⟩
        · rw [get_set_of_ne heq]
          exact .refl _
    · cases h
  · obtain rfl := Except.ok.inj h
    refine ⟨set_hasOptions hc _ _, fun hmem => ?_, fun name hne => ?_⟩
    · rw [← hc] at hmem
      exact get_set_self hmem _
    · rw [get_set_of_ne hne]
      exact .refl _

/-! ## A whole section -/

/-- Sound entries keep a configuration typed. -/
theorem foldlM_isTyped {c : Config} {entries : List (String × Value)} (hc : c.HasOptions)
    (htyped : c.IsTyped) (hsound : ∀ e ∈ entries, IsSound e) :
    ∃ d, entries.foldlM (fun c e => c.apply e.1 e.2) c = .ok d ∧ d.IsTyped := by
  induction entries generalizing c with
  | nil => exact ⟨c, rfl, htyped⟩
  | cons e rest ih =>
    obtain ⟨he, hrest⟩ := List.forall_mem_cons.1 hsound
    obtain ⟨next, hnext, hc', htyped'⟩ := apply_isTyped hc htyped he
    obtain ⟨d, hd, hdtyped⟩ := ih hc' htyped' hrest
    exact ⟨d, by rw [List.foldlM_cons]; exact bind_eq_ok.2 ⟨next, hnext, hd⟩, hdtyped⟩

/-- The value of every entry that sets an option is found in the final configuration again, and
so are those of options that no entry sets: they are kept or extended. -/
theorem foldlM_extends {c d : Config} {entries : List (String × Value)} (hc : c.HasOptions)
    (hkeys : (entries.map Prod.fst).Nodup)
    (h : entries.foldlM (fun c e => c.apply e.1 e.2) c = .ok d) :
    (∀ e ∈ entries, e.1 ∈ optionSorts.map Prod.fst → Extends e.2 (d.get e.1)) ∧
      ∀ name, name ∉ entries.map Prod.fst → Extends (c.get name) (d.get name) := by
  induction entries generalizing c with
  | nil =>
    obtain rfl := Except.ok.inj h
    exact ⟨by simp, fun _ _ => .refl _⟩
  | cons e rest ih =>
    rw [List.foldlM_cons] at h
    obtain ⟨next, hnext, hrest⟩ := bind_eq_ok.1 h
    obtain ⟨hc', hset, hothers⟩ := apply_extends hc hnext
    rw [List.map_cons, List.nodup_cons] at hkeys
    -- The key of the first entry is not among the rest, so what it sets is only extended there.
    obtain ⟨hfound, hkept⟩ := ih hc' hkeys.2 hrest
    refine ⟨List.forall_mem_cons.2 ⟨fun hmem => ?_, hfound⟩, fun name hname => ?_⟩
    · rw [← hset hmem]
      exact hkept _ hkeys.1
    · rw [List.map_cons, List.mem_cons, not_or] at hname
      exact (hothers name hname.1).trans (hkept name hname.2)

/-- The entries of a section, each under its own key, give a typed configuration exactly if they
are sound. -/
theorem ofSection_isTyped_iff {entries : List (String × Value)}
    (hkeys : (entries.map Prod.fst).Nodup) :
    (∃ c, ofSection (.table entries) = .ok c ∧ c.IsTyped) ↔ ∀ e ∈ entries, IsSound e := by
  constructor
  · rintro ⟨c, hread, htyped⟩ e he o ho hname
    have hmem : e.1 ∈ optionSorts.map Prod.fst := hname ▸ List.mem_map_of_mem ho
    have hextends := (foldlM_extends default_hasOptions hkeys hread).1 e he hmem
    exact hextends.admits (hname ▸ htyped o ho)
  · exact fun hsound => foldlM_isTyped default_hasOptions default_isTyped hsound

/-! ## Options -/

/-- A whole number is read as one. -/
theorem whole?_of_isWhole {v : Value} (h : IsWhole v) (option : String) :
    ∃ n, whole? option v = .ok n := by
  rcases h with ⟨n, rfl⟩ | ⟨b, rfl⟩ <;> exact ⟨_, rfl⟩

/-- A list of texts is read as these. -/
theorem texts?_texts (option : String) (xs : List String) : texts? option (texts xs) = .ok xs := by
  unfold texts texts?
  dsimp only
  induction xs with
  | nil => rfl
  | cons x xs ih => rw [List.map_cons, List.mapM_cons, ih]; rfl

/-- A typed configuration gives options for a scan. -/
theorem exists_options_of_isTyped {c : Config} (h : c.IsTyped) : ∃ o, c.options = .ok o := by
  obtain ⟨depth, hdepth⟩ := whole?_of_isWhole (h ("max_depth", .whole) (by decide)) "max_depth"
  obtain ⟨size, hsize⟩ :=
    whole?_of_isWhole (h ("max_file_bytes", .whole) (by decide)) "max_file_bytes"
  obtain ⟨denied, hdenied⟩ := h (deniedKey, .texts) (by decide)
  obtain ⟨starts, hstarts⟩ := h ("alias_prefixes", .texts) (by decide)
  have htimeout := h ("engine_timeout", .number) (by decide)
  dsimp only at hdepth hsize hdenied hstarts htimeout
  have hread := texts?_texts deniedKey denied
  have hread' := texts?_texts "alias_prefixes" starts
  unfold Config.options
  rw [hdepth, hsize, hdenied, hstarts, hread']
  unfold texts at hread ⊢
  simp only [hread]
  -- A timeout may be a fraction, a whole number or a truth value; each of them is a duration.
  rcases htimeout with ⟨x, heq⟩ | ⟨n, heq⟩ | ⟨b, heq⟩
  · rw [heq]
    exact ⟨_, rfl⟩
  · rw [heq]
    exact ⟨_, rfl⟩
  · rw [heq]
    exact ⟨_, rfl⟩

/-! ## The settings file of a workspace -/

/-- A settings file sets options, if it sets any, to values of their sorts: it has no section for
them, or one that is a table of sound entries. -/
def IsSoundFile (root : Value) : Prop :=
  ∀ v, root.get? "scan" = some v → ∃ entries, v = .table entries ∧ ∀ e ∈ entries, IsSound e

/-- The text of a settings file, if it is one. -/
def settingsText? (bytes : ByteArray) : Option String :=
  (Files.utf8? bytes).map Files.universalLines

/-- The bytes of a settings file give a typed configuration exactly if they are a text that is
malformed, or sound. -/
theorem ofBytes_isTyped_iff {bytes : ByteArray} :
    (∃ c, ofBytes bytes = .ok c ∧ c.IsTyped) ↔
      ∃ text, settingsText? bytes = some text ∧
        (Toml.read text = .error .malformed ∨
          ∃ root, Toml.read text = .ok root ∧ IsSoundFile root) := by
  unfold ofBytes settingsText?
  cases Files.utf8? bytes with
  | none => exact iff_of_false (fun ⟨_, h, _⟩ => by cases h) (fun ⟨_, h, _⟩ => by cases h)
  | some text =>
    simp only [Option.map_some, Option.some.injEq, exists_eq_left']
    cases hread : Toml.read (Files.universalLines text) with
    | error e =>
      cases e with
      -- Malformed settings are replaced by the default ones; any other error is passed on.
      | malformed => exact iff_of_true ⟨_, rfl, default_isTyped⟩ (.inl rfl)
      | _ =>
        refine iff_of_false (fun ⟨_, h, _⟩ => by cases h) ?_
        rintro (h | ⟨_, h, _⟩) <;> cases h
    | ok root =>
      rw [or_iff_right (by simp)]
      simp only [Except.ok.injEq, exists_eq_left', IsSoundFile]
      cases hget : root.get? "scan" with
      | none => exact iff_of_true ⟨_, rfl, default_isTyped⟩ (fun v h => by cases h)
      | some v =>
        simp only [Option.getD_some, Option.some.injEq, forall_eq']
        cases v with
        | table entries =>
          have hkeys : (entries.map Prod.fst).Nodup := by
            cases (Toml.tidy_of_read hread).get? hget with
            | table keys _ => exact keys
          rw [ofSection_isTyped_iff hkeys]
          exact ⟨fun h => ⟨_, rfl, h⟩, fun ⟨_, heq, h⟩ => Value.table.inj heq ▸ h⟩
        | _ => exact iff_of_false (fun ⟨_, h, _⟩ => by cases h) (fun ⟨_, h, _⟩ => by cases h)

/-- When a configuration is typed. It is loaded with a value of its sort for every option if and
only if the settings file, should there be one that can be read, is text in UTF-8 that is malformed
or sets options to values of their sorts; where it is missing, cannot be read or is malformed it is
the default one. A typed configuration gives options for a scan. -/
theorem typed_configuration_is_loaded_iff (w : Files.Workspace) :
    ((∃ c, load w = .ok c ∧ c.IsTyped) ↔
      ∀ bytes, w.bytes? configPath = some bytes →
        ∃ text, settingsText? bytes = some text ∧
          (Toml.read text = .error .malformed ∨
            ∃ root, Toml.read text = .ok root ∧ IsSoundFile root)) ∧
    ((∀ bytes, w.bytes? configPath = some bytes →
        ∃ text, settingsText? bytes = some text ∧ Toml.read text = .error .malformed) →
      load w = .ok Config.default) ∧
    ∀ c, load w = .ok c → c.IsTyped → ∃ o, c.options = .ok o := by
  refine ⟨?_, fun h => ?_, fun c _ => exists_options_of_isTyped⟩
  · unfold load
    cases w.bytes? configPath with
    -- With no settings file there is nothing to be sound, and the default is typed.
    | none => exact iff_of_true ⟨_, rfl, default_isTyped⟩ (fun bytes h => by cases h)
    | some bytes =>
      simp only [Option.some.injEq, forall_eq']
      exact ofBytes_isTyped_iff
  · unfold load
    cases hbytes : w.bytes? configPath with
    | none => rfl
    | some bytes =>
      obtain ⟨text, htext, hread⟩ := h bytes hbytes
      obtain ⟨raw, hraw, rfl⟩ := Option.map_eq_some_iff.1 htext
      dsimp only
      rw [ofBytes, hraw]
      dsimp only
      rw [hread]

/-- A workspace with the given bytes as settings file. -/
def ofSettings (bytes : ByteArray) : Files.Workspace :=
  .ofEntries [([controlDirName], .dir), (configPath, .file bytes)]

/-- A settings file with a section that is no table. -/
def numberSection : String := "scan = 5\n"

/-- A settings file that sets a whole number to a text. -/
def textDepth : String := "[scan]\nmax_depth = \"x\"\n"

/-- The error with which a configuration is refused. -/
def refusal? : Except ConfigError Config → Option ConfigError
  | .error e => some e
  | .ok _ => none

/-- The depth limit of a configuration, if it is a text. -/
def depthText? : Except ConfigError Config → Option String
  | .ok c => match c.get "max_depth" with
    | .str s => some s
    | _ => none
  | .error _ => none

/-- The first file is not loaded, nor is one that is no text; and what the second sets is taken as
it stands. -/
theorem untyped_configuration_is_loaded :
    refusal? (load (ofSettings numberSection.toUTF8)) = some .sectionNotTable ∧
    refusal? (load (ofSettings ⟨#[0xff]⟩)) = some .notText ∧
    ∃ c, load (ofSettings textDepth.toUTF8) = .ok c ∧ ¬ c.IsTyped := by
  have hload (bytes : ByteArray) : load (ofSettings bytes) = ofBytes bytes := by rfl
  refine ⟨?_, ?_, ?_⟩
  · rw [hload, ofBytes, Files.utf8?_toUTF8]
    decide +kernel
  · decide +kernel
  · -- The depth that is loaded is a text, and neither a whole number nor a truth value.
    have htext : depthText? (load (ofSettings textDepth.toUTF8)) = some "x" := by
      rw [hload, ofBytes, Files.utf8?_toUTF8]
      decide +kernel
    cases hresult : load (ofSettings textDepth.toUTF8) with
    | error e =>
      rw [hresult] at htext
      cases htext
    | ok c =>
      refine ⟨c, rfl, fun htyped => ?_⟩
      rw [hresult, depthText?] at htext
      rcases htyped ("max_depth", .whole) (by decide) with ⟨n, h⟩ | ⟨b, h⟩
      · rw [h] at htext
        cases htext
      · rw [h] at htext
        cases htext

end CodeSurvey.Settings
