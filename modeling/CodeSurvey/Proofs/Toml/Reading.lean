import CodeSurvey.Proofs.Glob.Refusal
import CodeSurvey.Toml.Reader
import Mathlib.Data.List.Nodup

/-!
# What is read is a tidy table

A settings file that is read is a table (`isTable_of_read`), and no table in it has a key twice
(`tidy_of_read`), so an entry of it is the value of its key (`get?_of_mem`). A statement only puts
entries under keys that are free, and a heading only enters the tree or adds to it at the end of a
path: both keep the tree tidy if what is at the end of the path stays so (`Tidy.change`). Values
contain inline tables, which are read statement by statement, so the part about statements is one
induction over the fuel of all readers together (`reads_tidy`).
-/

namespace CodeSurvey.Toml

/-- The values in which every table has each of its keys once. -/
inductive Value.Tidy : Value → Prop where
  | none : Tidy .none
  | str (s : String) : Tidy (.str s)
  | int (n : Int) : Tidy (.int n)
  | float (x : Float) : Tidy (.float x)
  | bool (b : Bool) : Tidy (.bool b)
  | moment (m : Moment) : Tidy (.moment m)
  | array {items : List Value} (inner : ∀ v ∈ items, Tidy v) : Tidy (.array items)
  | table {entries : List (String × Value)} (keys : (entries.map Prod.fst).Nodup)
      (inner : ∀ e ∈ entries, Tidy e.2) : Tidy (.table entries)

/-- The values that are tables. -/
def Value.IsTable (v : Value) : Prop := ∃ entries, v = .table entries

namespace Value

/-! ## Entries -/

/-- The value of a key is in an entry with this key. -/
theorem mem_of_get? {entries : List (String × Value)} {key : String} {v : Value}
    (h : (table entries).get? key = some v) : (key, v) ∈ entries := by
  obtain ⟨e, hfind, rfl⟩ := Option.map_eq_some_iff.1 h
  have hkey : e.1 = key := by simpa using List.find?_some hfind
  rw [← hkey]
  exact List.mem_of_find?_eq_some hfind

/-- A key without a value is not among the keys. -/
theorem get?_eq_none_iff {entries : List (String × Value)} {key : String} :
    (table entries).get? key = Option.none ↔ key ∉ entries.map Prod.fst := by
  rw [Value.get?, Option.map_eq_none_iff, List.find?_eq_none, List.mem_map, not_exists]
  simp

/-- An entry of a table with distinct keys is the value of its key. -/
theorem get?_of_mem {entries : List (String × Value)} (hkeys : (entries.map Prod.fst).Nodup)
    {e : String × Value} (he : e ∈ entries) : (table entries).get? e.1 = some e.2 := by
  cases hget : (table entries).get? e.1 with
  | none => exact absurd (List.mem_map_of_mem he) (get?_eq_none_iff.1 hget)
  | some v => rw [congrArg Prod.snd (List.inj_on_of_nodup_map hkeys he (mem_of_get? hget) rfl)]

/-- An entry of the new table is the one that was put, or was there before. -/
theorem mem_putEntry {key : String} {value : Value} {entries : List (String × Value)}
    {e : String × Value} (h : e ∈ putEntry key value entries) : e = (key, value) ∨ e ∈ entries := by
  induction entries with
  | nil => exact .inl (List.mem_singleton.1 h)
  | cons d rest ih =>
    rw [putEntry] at h
    split at h
    · rename_i heq
      rcases List.mem_cons.1 h with rfl | h
      · exact .inl (by rw [heq])
      · exact .inr (List.mem_cons_of_mem _ h)
    · rcases List.mem_cons.1 h with rfl | h
      · exact .inr List.mem_cons_self
      · exact (ih h).imp_right (List.mem_cons_of_mem _)

/-- A key that is there keeps its place, and one that is not comes to the end. -/
theorem keys_putEntry (key : String) (value : Value) (entries : List (String × Value)) :
    (putEntry key value entries).map Prod.fst =
      if key ∈ entries.map Prod.fst then entries.map Prod.fst
      else entries.map Prod.fst ++ [key] := by
  induction entries with
  | nil => rfl
  | cons d rest ih =>
    rw [putEntry]
    by_cases heq : d.1 = key
    · simp [heq]
    · rw [if_neg heq, List.map_cons, ih]
      simp only [List.map_cons, List.mem_cons, Ne.symm heq, false_or]
      split <;> rfl

/-! ## Tables -/

namespace Tidy

/-- What is in a tidy table is tidy. -/
theorem get? {v w : Value} {key : String} (h : v.Tidy) (hw : v.get? key = some w) : w.Tidy := by
  cases h with
  | table _ inner => exact inner _ (mem_of_get? hw)
  | _ => cases hw

/-- A table with an entry under a new key. -/
theorem append {entries : List (String × Value)} (h : (Value.table entries).Tidy) {key : String}
    (hkey : (Value.table entries).get? key = Option.none) {v : Value} (hv : v.Tidy) :
    (Value.table (entries ++ [(key, v)])).Tidy := by
  cases h with
  | table keys inner =>
    refine .table ?_ ?_
    · rw [List.map_append, List.map_singleton, ← List.concat_eq_append]
      exact keys.concat (get?_eq_none_iff.1 hkey)
    · exact List.forall_mem_append.2 ⟨inner, List.forall_mem_singleton.2 hv⟩

/-- A table with a value put under a key, which may be there. -/
theorem put {entries : List (String × Value)} (h : (Value.table entries).Tidy) (key : String)
    {v : Value} (hv : v.Tidy) : (Value.table (putEntry key v entries)).Tidy := by
  cases h with
  | table keys inner =>
    refine .table ?_ fun e he => ?_
    · rw [keys_putEntry]
      split
      · exact keys
      · rename_i hkey
        rw [← List.concat_eq_append]
        exact keys.concat hkey
    · rcases mem_putEntry he with rfl | he
      · exact hv
      · exact inner e he

/-- An empty table is tidy. -/
theorem table_nil : (Value.table []).Tidy := .table List.nodup_nil (by simp)

end Tidy

/-- The value stays tidy, and a table, if it was so before. -/
structure Keeps (v w : Value) : Prop where
  tidy : v.Tidy → w.Tidy
  isTable : v.IsTable → w.IsTable

/-- A value stays as it should be if nothing is done to it. -/
theorem Keeps.refl (v : Value) : v.Keeps v := ⟨id, id⟩

/-- So it does over two steps. -/
theorem Keeps.trans {u v w : Value} (h : u.Keeps v) (h' : v.Keeps w) : u.Keeps w :=
  ⟨h'.tidy ∘ h.tidy, h'.isTable ∘ h.isTable⟩

end Value

open CodeSurvey.Glob (exists_of_map_eq_ok)
open Value (Tidy Keeps IsTable)

/-! ## Statements -/

/-- A tidy value is put under a free key. -/
theorem keeps_putNew {key : String} {value t t' : Value} (hvalue : value.Tidy)
    (h : putNew key value t = .ok t') : t.Keeps t' := by
  unfold putNew at h
  split at h
  · split at h
    · cases h
    · rename_i entries hfree
      obtain rfl := Except.ok.inj h
      refine ⟨fun ht => ht.append ?_ hvalue, fun _ => ⟨_, rfl⟩⟩
      simpa using hfree
  · cases h

/-- What is put below a table is put into it. -/
theorem keeps_putBelow {put : Value → Except ReadError Value}
    (hput : ∀ t t', put t = .ok t' → t.Keeps t') {levels : List String} {t t' : Value}
    (h : putBelow put levels t = .ok t') : t.Keeps t' := by
  induction levels generalizing t t' with
  | nil => exact hput t t' h
  | cons level levels ih =>
    cases t with
    | table entries =>
      rw [putBelow] at h
      cases hmade : putBelow put levels (((Value.table entries).get? level).getD (.table [])) with
      | error e =>
        rw [hmade] at h
        cases h
      | ok made =>
        rw [hmade] at h
        obtain rfl := Except.ok.inj h
        refine ⟨fun ht => ht.put level ((ih hmade).tidy ?_), fun _ => ⟨_, rfl⟩⟩
        -- The level is new, with an empty table, or has a tidy value already.
        cases hget : (Value.table entries).get? level with
        | none => exact .table_nil
        | some inner => exact ht.get? hget
    | _ => cases h

/-- A number is tidy. -/
theorem tidy_number? {cs : List Char} {v : Value} {s : ValueSort}
    (h : number? cs = some (v, s)) : v.Tidy := by
  -- All fractions are made in this way, and any of them is tidy.
  have hfraction : ∀ {x : Option Float} {f : Float → Float},
      (x.map fun x => (Value.float (f x), ValueSort.float)) = some (v, s) → v.Tidy := by
    intro x f hx
    obtain ⟨y, -, hy⟩ := Option.map_eq_some_iff.1 hx
    obtain ⟨rfl, -⟩ := Prod.mk.inj hy
    exact .float _
  unfold number? at h
  simp only at h
  split at h
  · split at h
    · cases h
    · split at h
      · cases h
      · exact hfraction h
  · split at h
    · exact hfraction h
    · obtain ⟨n, -, hn⟩ := Option.map_eq_some_iff.1 h
      obtain ⟨rfl, -⟩ := Prod.mk.inj hn
      exact .int _

/-- With this fuel values are read as tidy ones, and inline tables, their entries and statements
keep the table that they are put into as it should be. -/
structure ReadsTidy (fuel : Nat) : Prop where
  value : ∀ {cs v s}, value fuel cs = .ok (v, s) → v.Tidy
  array : ∀ {cs vs}, array fuel cs = .ok vs → ∀ v ∈ vs, v.Tidy
  values : ∀ {sort pieces vs}, values fuel sort pieces = .ok vs → ∀ v ∈ vs, v.Tidy
  inlineTable : ∀ {t cs t'}, inlineTable fuel t cs = .ok t' → t.Keeps t'
  entries : ∀ {t pieces t'}, entries fuel t pieces = .ok t' → t.Keeps t'
  statement : ∀ {t line t' long}, statement fuel t line = .ok (t', long) → t.Keeps t'

namespace ReadsTidy

variable {fuel : Nat} (h : ReadsTidy fuel)

include h

/-- With one more unit of fuel a value is tidy. -/
theorem value_succ {cs : List Char} {v : Value} {s : ValueSort}
    (hv : Toml.value (fuel + 1) cs = .ok (v, s)) : v.Tidy := by
  rw [Toml.value.eq_def] at hv
  simp only at hv
  split at hv
  · cases hv
  · split_ifs at hv
    · obtain ⟨rfl, -⟩ := Prod.mk.inj (Except.ok.inj hv)
      exact .bool _
    · obtain ⟨rfl, -⟩ := Prod.mk.inj (Except.ok.inj hv)
      exact .bool _
    · -- A text.
      obtain ⟨text, -, heq⟩ := exists_of_map_eq_ok hv
      obtain ⟨rfl, -⟩ := Prod.mk.inj heq
      exact .str _
    · -- An array.
      obtain ⟨vs, hvs, heq⟩ := exists_of_map_eq_ok hv
      obtain ⟨rfl, -⟩ := Prod.mk.inj heq
      exact .array (h.array hvs)
    · -- An inline table.
      obtain ⟨t, ht, heq⟩ := exists_of_map_eq_ok hv
      obtain ⟨rfl, -⟩ := Prod.mk.inj heq
      exact (h.inlineTable ht).tidy .table_nil
    · -- A time, a moment or a number.
      split at hv
      · split at hv
        · obtain ⟨rfl, -⟩ := Prod.mk.inj (Except.ok.inj hv)
          exact .moment _
        · cases hv
      · split at hv
        · obtain ⟨rfl, -⟩ := Prod.mk.inj (Except.ok.inj hv)
          exact .moment _
        · split at hv
          · rename_i n hn
            obtain rfl := Except.ok.inj hv
            exact tidy_number? hn
          · cases hv

/-- So are the values of an array. -/
theorem array_succ {cs : List Char} {vs : List Value} (hvs : Toml.array (fuel + 1) cs = .ok vs) :
    ∀ v ∈ vs, v.Tidy := by
  rw [Toml.array] at hvs
  split at hvs
  · cases hvs
  · exact h.values hvs

/-- And those of the pieces of one. -/
theorem values_succ {sort : Option ValueSort} {pieces : List (List Char)} {vs : List Value}
    (hvs : Toml.values (fuel + 1) sort pieces = .ok vs) : ∀ v ∈ vs, v.Tidy := by
  cases pieces with
  | nil =>
    rw [Toml.values] at hvs
    obtain rfl := Except.ok.inj hvs
    simp
  | cons piece rest =>
    rw [Toml.values] at hvs
    split at hvs
    · exact h.values hvs
    · split at hvs
      · cases hvs
      · rename_i v s hv
        split at hvs
        · cases hvs
        · obtain ⟨further, hfurther, rfl⟩ := exists_of_map_eq_ok hvs
          exact List.forall_mem_cons.2 ⟨h.value hv, h.values hfurther⟩

/-- An inline table keeps what it is put into as it should be. -/
theorem inlineTable_succ {t t' : Value} {cs : List Char}
    (ht : Toml.inlineTable (fuel + 1) t cs = .ok t') : t.Keeps t' := by
  rw [Toml.inlineTable] at ht
  split at ht
  · cases ht
  · exact h.entries ht

/-- So do the entries of one. -/
theorem entries_succ {t t' : Value} {pieces : List (List Char)}
    (ht : Toml.entries (fuel + 1) t pieces = .ok t') : t.Keeps t' := by
  cases pieces with
  | nil =>
    obtain rfl := Except.ok.inj ht
    exact .refl t
  | cons piece rest =>
    rw [Toml.entries] at ht
    split at ht
    · cases ht
    · rename_i made hmade
      exact (h.statement hmade).trans (h.entries ht)
    · rename_i made _ hmade
      obtain rfl := Except.ok.inj ht
      exact h.statement hmade

/-- And a statement. -/
theorem statement_succ {t t' : Value} {line : List Char} {long : Option LongText}
    (ht : Toml.statement (fuel + 1) t line = .ok (t', long)) : t.Keeps t' := by
  rw [Toml.statement] at ht
  split at ht
  · cases ht
  · split at ht
    · cases ht
    · split_ifs at ht
      · -- The table that is to hold a long text is only looked at.
        obtain ⟨made, hmade, heq⟩ := exists_of_map_eq_ok ht
        obtain ⟨rfl, -⟩ := Prod.mk.inj heq
        refine keeps_putBelow (fun u u' hu => ?_) hmade
        split at hu
        · split at hu
          · cases hu
          · obtain rfl := Except.ok.inj hu
            exact .refl _
        · cases hu
      · obtain ⟨made, hmade, heq⟩ := exists_of_map_eq_ok ht
        obtain ⟨rfl, -⟩ := Prod.mk.inj heq
        refine keeps_putBelow (fun u u' hu => ?_) hmade
        split at hu
        · cases hu
        · rename_i v s hv
          exact keeps_putNew (h.value hv) hu

end ReadsTidy

/-- Values contain tables and tables contain values, so the readers go down together. -/
theorem reads_tidy (fuel : Nat) : ReadsTidy fuel := by
  induction fuel with
  | zero =>
    constructor
    · intro cs v s h
      cases h
    · intro cs vs h
      cases h
    · intro sort pieces vs h
      cases h
    · intro t cs t' h
      cases h
    · intro t pieces t' h
      cases h
    · intro t line t' long h
      cases h
  | succ fuel ih =>
    exact ⟨ih.value_succ, ih.array_succ, ih.values_succ, ih.inlineTable_succ, ih.entries_succ,
      ih.statement_succ⟩

/-! ## The tree -/

/-- A path is followed part by part. -/
theorem follow_append (path path' : List Step) (v : Value) :
    follow (path ++ path') v = (follow path v).bind (follow path') := by
  induction path generalizing v with
  | nil => rfl
  | cons step path ih =>
    cases step with
    | key k =>
      rw [List.cons_append, follow, follow]
      cases v.get? k with
      | none => rfl
      | some w => exact ih w
    | last =>
      cases v with
      | array items =>
        rw [List.cons_append, follow, follow]
        cases items.getLast? with
        | none => rfl
        | some w => exact ih w
      | _ => rfl

namespace Value

/-- What a path leads to in a tidy tree is tidy. -/
theorem Tidy.follow {v w : Value} {path : List Step} (h : v.Tidy)
    (hw : Toml.follow path v = some w) : w.Tidy := by
  induction path generalizing v with
  | nil =>
    obtain rfl := Option.some.inj hw
    exact h
  | cons step path ih =>
    cases step with
    | key k =>
      obtain ⟨u, hu, hw⟩ := Option.bind_eq_some_iff.1 hw
      exact ih (h.get? hu) hw
    | last =>
      cases h with
      | array inner =>
        obtain ⟨u, hu, hw⟩ := Option.bind_eq_some_iff.1 hw
        exact ih (inner u (List.mem_of_getLast? hu)) hw
      | _ => cases hw

/-- A tree stays tidy if what is at the end of the path does. -/
theorem Tidy.change {f : Value → Value} {path : List Step} {v : Value} (h : v.Tidy)
    (hf : ∀ w, Toml.follow path v = some w → w.Tidy → (f w).Tidy) :
    (Toml.change f path v).Tidy := by
  induction path generalizing v with
  | nil => exact hf v rfl h
  | cons step path ih =>
    -- A value that the step does not go into is left as it is.
    have hsame := h
    cases step with
    | key k =>
      cases h with
      | @table entries keys inner =>
        have hkeys :
            (entries.map fun e => if e.1 == k then (e.1, Toml.change f path e.2) else e).map
              Prod.fst = entries.map Prod.fst := by
          rw [List.map_map]
          refine List.map_congr_left fun e _ => ?_
          rw [Function.comp_apply]
          split <;> rfl
        refine .table (by rwa [hkeys]) (List.forall_mem_map.2 fun e he => ?_)
        split
        · rename_i hkey
          -- The entry with the key is the one that the path leads to.
          have hget := get?_of_mem keys he
          rw [eq_of_beq hkey] at hget
          exact ih (inner e he) fun w hw => hf w (by rw [Toml.follow, hget]; exact hw)
        · exact inner e he
      | _ => exact hsame
    | last =>
      cases h with
      | @array items inner =>
        rw [Toml.change]
        split
        · exact .array inner
        · rename_i v before hitems
          obtain rfl : items = before.reverse ++ [v] := by
            rw [← List.reverse_cons, ← hitems, List.reverse_reverse]
          rw [List.forall_mem_append, List.forall_mem_singleton] at inner
          rw [List.reverse_cons]
          refine .array (List.forall_mem_append.2 ⟨inner.1, List.forall_mem_singleton.2 ?_⟩)
          exact ih inner.2 fun w hw => hf w (by rw [Toml.follow, List.getLast?_concat]; exact hw)
      | _ => exact hsame

/-- A change below a table leaves it a table. -/
theorem IsTable.change {f : Value → Value} {path : List Step} {v : Value} (h : v.IsTable)
    (hf : path = [] → (f v).IsTable) : (Toml.change f path v).IsTable := by
  obtain ⟨entries, rfl⟩ := h
  cases path with
  | nil => exact hf rfl
  | cons step path =>
    cases step with
    | key k => exact ⟨_, rfl⟩
    | last => exact ⟨_, rfl⟩

/-- What the end of a path is changed to, if it is changed to what it should be. -/
theorem keeps_change {f : Value → Value} {path : List Step} {v : Value}
    (hf : ∀ w, Toml.follow path v = some w → w.Keeps (f w)) : v.Keeps (Toml.change f path v) :=
  ⟨fun h => h.change fun w hw => (hf w hw).tidy,
    fun h => h.change fun hpath => (hf v (by rw [hpath]; rfl)).isTable h⟩

end Value

/-! ## Documents -/

/-- The tree of a document stays as it should be. -/
def Document.Keeps (d d' : Document) : Prop := d.root.Keeps d'.root

/-- Going into the last table of an array keeps the tree as it should be. -/
theorem keeps_intoLast {d d' : Document} (h : intoLast d = .ok d') : d.Keeps d' := by
  unfold intoLast at h
  split at h
  · cases h
  · obtain rfl := Except.ok.inj h
    exact .refl _
  · obtain rfl := Except.ok.inj h
    exact .refl _
  · cases h
  · cases h

/-- A new entry at the end of a path at which there is a table without its key. -/
theorem keeps_add {root fresh : Value} {path : List Step} {entries : List (String × Value)}
    {name : String} (hpath : follow path root = some (.table entries))
    (hname : (Value.table entries).get? name = none) (hfresh : fresh.Tidy) :
    root.Keeps (change (fun t => match t with
      | .table es => .table (es ++ [(name, fresh)])
      | t => t) path root) := by
  refine Value.keeps_change fun w hw => ?_
  obtain rfl := Option.some.inj (hpath.symm.trans hw)
  exact ⟨fun ht => ht.append hname hfresh, fun _ => ⟨_, rfl⟩⟩

/-- One more table at the end of an array of them. -/
theorem keeps_addTable {root : Value} {path : List Step} {items : List Value}
    (hpath : follow path root = some (.array items)) :
    root.Keeps (change (fun _ => .array (items ++ [.table []])) path root) := by
  refine Value.keeps_change fun w hw => ?_
  obtain rfl := Option.some.inj (hpath.symm.trans hw)
  refine ⟨fun ht => ?_, fun ⟨_, ht⟩ => by cases ht⟩
  cases ht with
  | array inner =>
    exact .array (List.forall_mem_append.2 ⟨inner, List.forall_mem_singleton.2 .table_nil⟩)

/-- So does going into a table, which is made if it is not there. -/
theorem keeps_enter {isLast isArray : Bool} {name : String} {d d' : Document}
    (h : enter isLast isArray name d = .ok d') : d.Keeps d' := by
  have hfresh : Tidy (if (isLast && isArray) = true then .array [.table []] else .table []) := by
    split
    · exact .array (List.forall_mem_singleton.2 .table_nil)
    · exact .table_nil
  unfold enter at h
  simp only at h
  split at h
  · cases h
  · split at h
    · cases h
    · rename_i e hentered
      have hkeeps : d.Keeps e := by
        clear h
        -- By what the current path leads to: a table, an array of tables, or nothing to enter.
        split at hentered
        · rename_i es hcurrent
          split at hentered
          · -- The name is new.
            rename_i hname
            obtain rfl := Except.ok.inj hentered
            exact keeps_add hcurrent hname hfresh
          · -- The name is there: the tree is left, unless one more table of an array begins.
            rename_i v hv
            split_ifs at hentered
            · obtain rfl := Except.ok.inj hentered
              exact .refl _
            · obtain rfl := Except.ok.inj hentered
              exact .refl _
            · split at hentered
              · rename_i items
                obtain rfl := Except.ok.inj hentered
                refine keeps_addTable ?_
                rw [follow_append, hcurrent, Option.bind_some, follow, hv]
                rfl
              · cases hentered
        · rename_i items hcurrent
          split at hentered
          · cases hentered
          · -- The name is entered in the last table of the array.
            rename_i es hlast
            split at hentered
            · obtain rfl := Except.ok.inj hentered
              exact .refl _
            · rename_i hname
              obtain rfl := Except.ok.inj hentered
              have hpath : follow (d.current ++ [.last]) d.root = some (.table es) := by
                rw [follow_append, hcurrent, Option.bind_some, follow, hlast]
                rfl
              exact keeps_add hpath (by simpa using hname) hfresh
          · cases hentered
        · cases hentered
        · cases hentered
      split at h
      · exact hkeeps.trans (keeps_intoLast h)
      · obtain rfl := Except.ok.inj h
        exact hkeeps

/-- And going down several levels. -/
theorem keeps_enterAll {isArray : Bool} {names : List String} {d d' : Document}
    (h : enterAll isArray names d = .ok d') : d.Keeps d' := by
  induction names generalizing d with
  | nil =>
    obtain rfl := Except.ok.inj h
    exact .refl _
  | cons name rest ih =>
    rw [enterAll] at h
    split at h
    · cases h
    · rename_i e hentered
      exact (keeps_enter hentered).trans (ih h)

/-- A heading keeps the tree as it should be. -/
theorem keeps_heading {line : List Char} {d d' : Document} (h : heading line d = .ok d') :
    d.Keeps d' := by
  have hrun : ∀ {isArray text}, heading.run d isArray text = .ok d' → d.Keeps d' := by
    intro isArray text h
    unfold heading.run at h
    split at h
    · cases h
    · split at h
      · cases h
      · rename_i names _
        exact keeps_enterAll (d := { d with current := [] }) h
  unfold heading at h
  split at h
  · exact hrun h
  · cases h
  · exact hrun h
  · cases h

/-- So does a line of a long text. -/
theorem keeps_continueLong {line : List Char} {long : LongText} {d d' : Document}
    (h : continueLong line long d = .ok d') : d.Keeps d' := by
  unfold continueLong at h
  extract_lets text first closed joined at h
  split at h
  · cases h
  · split at h
    · split at h
      · cases h
      · rename_i v s hv
        obtain rfl := Except.ok.inj h
        refine Value.keeps_change fun w _ => ⟨fun hw => ?_, fun ⟨es, hes⟩ => ?_⟩
        · split
          · exact hw.put _ ((reads_tidy _).value hv)
          · exact hw
        · subst hes
          exact ⟨_, rfl⟩
    · obtain rfl := Except.ok.inj h
      exact .refl _

/-- A statement changes the table that headings have led to. -/
theorem keeps_table {d : Document} {t : Value}
    (ht : Value.Keeps ((follow d.current d.root).getD .none) t) :
    d.root.Keeps (change (fun _ => t) d.current d.root) := by
  refine Value.keeps_change fun w hw => ?_
  rwa [hw] at ht

/-- And a line, whatever it is. -/
theorem keeps_logicalLine {line : List Char} {d d' : Document} (h : logicalLine line d = .ok d') :
    d.Keeps d' := by
  unfold logicalLine at h
  simp only at h
  split at h
  · -- A long text is open.
    split_ifs at h
    · obtain rfl := Except.ok.inj h
      exact .refl _
    · exact keeps_continueLong h
  · split at h
    · obtain rfl := Except.ok.inj h
      exact .refl _
    · split_ifs at h
      · exact keeps_heading h
      · obtain ⟨⟨t, long⟩, hmap, rfl⟩ := exists_of_map_eq_ok h
        obtain ⟨u, hu, heq⟩ := exists_of_map_eq_ok hmap
        obtain ⟨rfl, -⟩ := Prod.mk.inj heq
        exact keeps_table ((reads_tidy _).inlineTable hu)
      · obtain ⟨⟨t, long⟩, hstatement, rfl⟩ := exists_of_map_eq_ok h
        exact keeps_table ((reads_tidy _).statement hstatement)
      · obtain rfl := Except.ok.inj h
        exact .refl _

/-- And all lines together. -/
theorem keeps_readLines {lines : List (List Char)} {d d' : Document}
    (h : readLines lines d = .ok d') : d.Keeps d' := by
  induction lines generalizing d with
  | nil =>
    obtain rfl := Except.ok.inj h
    exact .refl _
  | cons line rest ih =>
    rw [readLines] at h
    split at h
    · cases h
    · rename_i e hline
      exact (keeps_logicalLine hline).trans (ih h)

/-- Reading starts with an empty table. -/
theorem keeps_of_read {text : String} {root : Value} (h : read text = .ok root) :
    (Value.table []).Keeps root := by
  unfold read at h
  split at h
  · cases h
  · obtain ⟨d, hd, rfl⟩ := exists_of_map_eq_ok h
    exact keeps_readLines hd

/-- In what is read no table has a key twice. -/
theorem tidy_of_read {text : String} {root : Value} (h : read text = .ok root) : root.Tidy :=
  (keeps_of_read h).tidy .table_nil

/-- What is read is a table. -/
theorem isTable_of_read {text : String} {root : Value} (h : read text = .ok root) : root.IsTable :=
  (keeps_of_read h).isTable ⟨[], rfl⟩

end CodeSurvey.Toml
