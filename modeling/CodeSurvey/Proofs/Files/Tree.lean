import CodeSurvey.Files.Tree
import Mathlib.Data.List.Basic
import Mathlib.Data.List.Nodup
import Mathlib.Tactic.Common

/-!
# Paths without links

In a sound tree every entry lies in a directory (`Tree.Sound`). A path that leads to a directory and
goes on by names, none of which is a link, leads to what stands at those names below the directory
(`resolveOver_of_entry`); where nothing stands, the path ends in an error, unless its last part may
be free (`resolveOver_of_free`, `resolveOver_of_lost`).

A path that leads to a directory goes on leading there as long as directories and links stay what
they are (`LeadsTo.mono`), however it gets there.
-/

namespace CodeSurvey.Files.Tree

/-! ## Entries -/

/-- The top is a directory. -/
@[simp] theorem entry?_nil (t : Tree) : t.entry? [] = some .dir := rfl

/-- Looking an entry up below the top. -/
theorem entry?_of_ne_nil (t : Tree) {p : Path} (hp : p ≠ []) :
    t.entry? p = (t.entries.find? (·.1 == p)).map (·.2) := by
  rw [Tree.entry?, if_neg (by simpa using hp)]

/-- Where the entries of a path are replaced, the same one is found first. -/
theorem find?_replace (entries : List (Path × Entry)) (p q : Path) (e : Entry) :
    (entries.map fun x => if x.1 == p then (p, e) else x).find? (·.1 == q) =
      (entries.find? (·.1 == q)).map fun x => if x.1 == p then (p, e) else x := by
  have hsame : (fun x : Path × Entry => x.1 == q) ∘ (fun x => if x.1 == p then (p, e) else x) =
      fun x => x.1 == q := by
    funext x
    by_cases hx : x.1 = p <;> simp [hx]
  rw [List.find?_map, hsame]

/-- Putting an entry changes what stands at its path, and nothing else. -/
theorem entry?_put (t : Tree) {p : Path} (hp : p ≠ []) (e : Entry) (q : Path) :
    Tree.entry? (t.put p e) q = if q = p then some e else t.entry? q := by
  rcases eq_or_ne q [] with rfl | hq
  · rw [if_neg hp.symm, entry?_nil, entry?_nil]
  rw [entry?_of_ne_nil _ hq, entry?_of_ne_nil _ hq, put]
  split_ifs with hold hqp hqp
  · -- An entry in place of an old one.
    subst q
    rw [entry?_of_ne_nil _ hp] at hold
    obtain ⟨old, hfind⟩ := Option.isSome_iff_exists.1 (Option.isSome_map ▸ hold)
    have hold : old.1 = p := by simpa using List.find?_some hfind
    rw [find?_replace, hfind]
    simp [hold]
  · rw [find?_replace, Option.map_map]
    cases hfind : t.entries.find? (fun x => x.1 == q) with
    | none => rfl
    | some x =>
      have hx : x.1 = q := by simpa using List.find?_some hfind
      simp [hx, hqp]
  · -- An entry where there was none.
    subst q
    rw [entry?_of_ne_nil _ hp] at hold
    have hnone : t.entries.find? (fun x => x.1 == p) = none := by
      rwa [Option.isSome_map, Bool.not_eq_true, Option.isSome_eq_false_iff,
        Option.isNone_iff_eq_none] at hold
    simp [List.find?_append, hnone]
  · rw [List.find?_append]
    have hp' : (p == q) = false := by simpa using Ne.symm hqp
    simp [hp']

/-- Erasing an entry changes what stands at its path, and nothing else. -/
theorem entry?_erase (t : Tree) {p : Path} (hp : p ≠ []) (q : Path) :
    Tree.entry? (t.erase p) q = if q = p then none else t.entry? q := by
  rcases eq_or_ne q [] with rfl | hq
  · rw [if_neg hp.symm, entry?_nil, entry?_nil]
  rw [entry?_of_ne_nil _ hq, entry?_of_ne_nil _ hq, erase, List.find?_filter]
  split_ifs with hqp
  · subst q
    simp
  · congr 2
    funext x
    by_cases hx : x.1 = q
    · simp [hx, hqp]
    · simp [hx]

/-! ## Sound trees -/

/-- Every entry lies in a directory. -/
def Sound (t : Tree) : Prop :=
  ∀ p name, (t.entry? (p ++ [name])).isSome → t.entry? p = some .dir

/-- What something stands below is a directory. -/
theorem Sound.of_append {t : Tree} (h : t.Sound) {p q : Path} (hq : q ≠ [])
    (hpq : (t.entry? (p ++ q)).isSome) : t.entry? p = some .dir := by
  induction q generalizing p with
  | nil => exact absurd rfl hq
  | cons name q ih =>
    rw [List.append_cons] at hpq
    rcases eq_or_ne q [] with rfl | hne
    · exact h p name (by simpa using hpq)
    · exact h p name (by rw [ih hne hpq]; rfl)

/-- A tree is sound if this is so of the entries in its list. -/
theorem sound_of_entries {t : Tree}
    (h : ∀ x ∈ t.entries, (t.entry? x.1.dropLast).any Entry.isDir) : t.Sound := by
  intro p name hname
  rw [t.entry?_of_ne_nil (by simp), Option.isSome_map] at hname
  obtain ⟨x, hx⟩ := Option.isSome_iff_exists.1 hname
  have hpath : x.1 = p ++ [name] := by simpa using List.find?_some hx
  have hparent := h x (List.mem_of_find?_eq_some hx)
  rw [hpath, List.dropLast_concat, Option.any_eq_true] at hparent
  obtain ⟨e, he, hdir⟩ := hparent
  cases e with
  | dir => exact he
  | file content => cases hdir
  | link target => cases hdir

/-- What stands below the top is in the list of entries. -/
theorem mem_entries {t : Tree} {p : Path} {e : Entry} (hp : p ≠ []) (h : t.entry? p = some e) :
    (p, e) ∈ t.entries := by
  rw [t.entry?_of_ne_nil hp, Option.map_eq_some_iff] at h
  obtain ⟨x, hx, rfl⟩ := h
  obtain rfl : x.1 = p := by simpa using List.find?_some hx
  exact List.mem_of_find?_eq_some hx

/-- What is in the list stands at its path if there is one entry at a path only. -/
theorem entry?_of_mem {t : Tree} (honce : (t.entries.map (·.1)).Nodup) {p : Path} {e : Entry}
    (hp : p ≠ []) (h : (p, e) ∈ t.entries) : t.entry? p = some e := by
  obtain ⟨x, hx⟩ : ∃ x, t.entries.find? (·.1 == p) = some x := by
    rw [← Option.isSome_iff_exists, List.find?_isSome]
    exact ⟨(p, e), h, beq_self_eq_true p⟩
  have hpath : x.1 = p := by simpa using List.find?_some hx
  obtain rfl := List.inj_on_of_nodup_map honce (List.mem_of_find?_eq_some hx) h hpath
  rw [t.entry?_of_ne_nil hp, hx, Option.map_some]

/-- Nothing stands below what is no directory. -/
theorem Sound.entry?_append {t : Tree} (h : t.Sound) {p q : Path} (hq : q ≠ [])
    (hp : t.entry? p ≠ some .dir) : t.entry? (p ++ q) = none := by
  by_contra hne
  exact hp (h.of_append hq (Option.isSome_iff_ne_none.2 hne))

/-! ## Descending by names -/

/-- Neither a directory nor a path below it is a link, as far as the path goes. -/
def LinkFree (t : Tree) (top : Path) (ps : Path) : Prop :=
  ∀ qs target, qs <+: ps → t.entry? (top ++ qs) ≠ some (.link target)

/-- A path without links has none behind its first name. -/
theorem LinkFree.tail {t : Tree} {top : Path} {name : String} {ps : Path}
    (h : t.LinkFree top (name :: ps)) : t.LinkFree (top ++ [name]) ps := by
  intro qs target hqs
  have := h (name :: qs) target ((List.cons_prefix_cons).2 ⟨rfl, hqs⟩)
  simpa using this

variable {t : Tree} {ending : Ending} {onLink : Path → List String → Except Errno Path}

/-- A path without links leads to what stands there. -/
theorem follow_of_entry (hs : t.Sound) {ps : Path} (hup : ".." ∉ ps) {top : Path} {e : Entry}
    (hfree : t.LinkFree top ps) (he : t.entry? (top ++ ps) = some e) :
    t.follow ending onLink top ps = .ok (top ++ ps) := by
  induction ps generalizing top with
  | nil => simp [follow]
  | cons name ps ih =>
    obtain ⟨hname, hps⟩ : name ≠ ".." ∧ ".." ∉ ps := by simpa [eq_comm] using hup
    rw [follow, if_neg hname]
    simp only
    rw [List.append_cons top name ps] at he ⊢
    rcases eq_or_ne ps [] with rfl | hne
    · -- The last name may be a file or a directory.
      rw [List.append_nil] at he ⊢
      rw [he]
      cases e with
      | file content => rfl
      | dir => simp [follow]
      | link target =>
        exact absurd he (hfree [name] target (List.prefix_refl _))
    · rw [hs.of_append hne (by rw [he]; rfl)]
      exact ih hps hfree.tail he

/-- A path whose last name is free in a directory leads there if the name may be free. -/
theorem follow_of_free {ps : Path} (hup : ".." ∉ ps) {top : Path} (hne : ps ≠ []) (hs : t.Sound)
    (hparent : t.entry? (top ++ ps.dropLast) = some .dir) (he : t.entry? (top ++ ps) = none) :
    t.follow ending onLink top ps =
      if ending = .orFree then .ok (top ++ ps) else .error Errno.noEntry := by
  induction ps generalizing top with
  | nil => exact absurd rfl hne
  | cons name ps ih =>
    obtain ⟨hname, hps⟩ : name ≠ ".." ∧ ".." ∉ ps := by simpa [eq_comm] using hup
    rw [follow, if_neg hname]
    simp only
    rw [List.append_cons top name ps] at he ⊢
    cases ps with
    | nil =>
      -- The last name is the free one.
      rw [List.append_nil] at he ⊢
      rw [he]
      cases ending <;> rfl
    | cons next ps =>
      rw [List.dropLast_cons_of_ne_nil (by simp), List.append_cons] at hparent
      have hdir : t.entry? (top ++ [name]) = some .dir := by
        rcases eq_or_ne (next :: ps).dropLast [] with hnil | hcons
        · simpa [hnil] using hparent
        · exact hs.of_append hcons (by rw [hparent]; rfl)
      rw [hdir]
      exact ih hps (by simp) hparent he

/-- A path without links whose last name lies in no directory leads nowhere; if nothing on it is a
file, then because there is no such entry. -/
theorem follow_of_lost {ps : Path} (hup : ".." ∉ ps) {top : Path} (hfree : t.LinkFree top ps)
    (hne : ps ≠ []) (htop : t.entry? top = some .dir)
    (hparent : t.entry? (top ++ ps.dropLast) ≠ some .dir) :
    ∃ e, t.follow ending onLink top ps = .error e ∧
      ((∀ qs content, qs <+: ps → t.entry? (top ++ qs) ≠ some (.file content)) →
        e = Errno.noEntry) := by
  induction ps generalizing top with
  | nil => exact absurd rfl hne
  | cons name ps ih =>
    obtain ⟨hname, hps⟩ : name ≠ ".." ∧ ".." ∉ ps := by simpa [eq_comm] using hup
    rw [follow, if_neg hname]
    simp only
    have hstart : [name] <+: name :: ps := (List.cons_prefix_cons).2 ⟨rfl, List.nil_prefix⟩
    cases ps with
    | nil => exact absurd (by simpa using htop) hparent
    | cons next ps =>
      rw [List.dropLast_cons_of_ne_nil (by simp), List.append_cons] at hparent
      -- The first name is in the way, or the rest is lost below it.
      cases hentry : t.entry? (top ++ [name]) with
      | none => exact ⟨Errno.noEntry, by simp, fun _ => rfl⟩
      | some e =>
        cases e with
        | file content =>
          exact ⟨Errno.notDirectory, by simp, fun h => absurd hentry (h [name] content hstart)⟩
        | dir =>
          obtain ⟨e, he, hclear⟩ := ih hps hfree.tail (by simp) hentry hparent
          refine ⟨e, he, fun h => hclear fun qs content hqs => ?_⟩
          have := h (name :: qs) content ((List.cons_prefix_cons).2 ⟨rfl, hqs⟩)
          simpa using this
        | link target => exact absurd hentry (hfree [name] target hstart)

/-! ## Paths to a directory -/

/-- After a parent reference a path goes on in the directory above. -/
theorem resolveOver_up (ending : Ending) (n : Nat) (from_ : Path) (rest : List String) :
    t.resolveOver ending n from_ (".." :: rest) = t.resolveOver ending n from_.dropLast rest := by
  cases n with
  | zero => rfl
  | succ n => simp [resolveOver, follow]

/-- In a directory a path goes on with the parts that follow. -/
theorem resolveOver_dir {from_ : Path} {part : String} (hname : part ≠ "..")
    (hentry : t.entry? (from_ ++ [part]) = some .dir) (ending : Ending) (n : Nat)
    (rest : List String) :
    t.resolveOver ending n from_ (part :: rest) =
      t.resolveOver ending n (from_ ++ [part]) rest := by
  cases n with
  | zero => rfl
  | succ n => simp [resolveOver, follow, hname, hentry]

/-- Over a link that does not end it a path goes on with the parts of the target. -/
theorem resolveOver_link {from_ : Path} {part target : String} (hname : part ≠ "..")
    (hentry : t.entry? (from_ ++ [part]) = some (.link target)) {ending : Ending}
    {rest : List String} (hgoes : (rest.isEmpty && ending == .asIs) = false) (n : Nat) :
    t.resolveOver ending (n + 1) from_ (part :: rest) =
      t.resolveOver ending n from_ (pathParts target ++ rest) := by
  simp only [resolveOver, follow, if_neg hname, hentry, hgoes, Bool.false_eq_true, if_false]

/-- How a path leads from a directory to the directory `top` over fewer than `n` links: every part
is a parent reference, a directory, or a link that leads there with the parts that follow. -/
inductive LeadsTo (t : Tree) (top : Path) : Nat → Path → List String → Prop where
  | here {n : Nat} : LeadsTo t top (n + 1) top []
  | up {n : Nat} {from_ : Path} {rest : List String} (more : LeadsTo t top n from_.dropLast rest) :
      LeadsTo t top n from_ (".." :: rest)
  | dir {n : Nat} {from_ : Path} {part : String} {rest : List String} (name : part ≠ "..")
      (entry : t.entry? (from_ ++ [part]) = some .dir)
      (more : LeadsTo t top n (from_ ++ [part]) rest) : LeadsTo t top n from_ (part :: rest)
  | link {n : Nat} {from_ : Path} {part target : String} {rest : List String} (name : part ≠ "..")
      (entry : t.entry? (from_ ++ [part]) = some (.link target))
      (more : LeadsTo t top n from_ (pathParts target ++ rest)) :
      LeadsTo t top (n + 1) from_ (part :: rest)

/-- What holds of a path that is resolved to the place `q`, by the way it takes: it has come to this
place, or stops at it with its last part, or goes on after a parent reference, in a directory or
over a link. -/
theorem resolveOver_induction {ending : Ending} {q : Path}
    {motive : Nat → Path → List String → Prop}
    (here : ∀ n, motive (n + 1) q [])
    (stop : ∀ n from_ part, part ≠ ".." → q = from_ ++ [part] → t.entry? q ≠ some .dir →
      (∀ target, t.entry? q = some (.link target) → ending = .asIs) →
      t.resolveOver ending (n + 1) from_ [part] = .ok q → motive (n + 1) from_ [part])
    (up : ∀ n from_ rest, motive (n + 1) from_.dropLast rest → motive (n + 1) from_ (".." :: rest))
    (dir : ∀ n from_ part rest, part ≠ ".." → t.entry? (from_ ++ [part]) = some .dir →
      motive (n + 1) (from_ ++ [part]) rest → motive (n + 1) from_ (part :: rest))
    (link : ∀ n from_ part target rest, part ≠ ".." →
      t.entry? (from_ ++ [part]) = some (.link target) → (rest.isEmpty && ending == .asIs) = false →
      motive n from_ (pathParts target ++ rest) → motive (n + 1) from_ (part :: rest))
    {n : Nat} {from_ p : Path} (h : t.resolveOver ending n from_ p = .ok q) :
    motive n from_ p := by
  -- By the links that may be followed, and between two of them by the parts of the path.
  induction n generalizing from_ p with
  | zero => cases h
  | succ n ihn =>
    induction p generalizing from_ with
    | nil =>
      obtain rfl : from_ = q := Except.ok.inj h
      exact here n
    | cons part rest ih =>
      have hstep := h
      simp only [resolveOver, follow] at h ih ihn
      by_cases hup : part = ".."
      · rw [if_pos hup] at h
        subst hup
        exact up n from_ rest (ih h)
      rw [if_neg hup] at h
      have hstop (hnil : rest.isEmpty = true) (hq : from_ ++ [part] = q)
          (hdir : t.entry? (from_ ++ [part]) ≠ some .dir)
          (hlink : ∀ target, t.entry? (from_ ++ [part]) = some (.link target) → ending = .asIs) :
          motive (n + 1) from_ (part :: rest) := by
        obtain rfl := List.isEmpty_iff.1 hnil
        exact stop n from_ part hup hq.symm (hq ▸ hdir) (hq ▸ hlink) hstep
      cases hentry : t.entry? (from_ ++ [part]) with
      | none =>
        simp only [hentry] at h
        split_ifs at h with hfree
        exact hstop (Bool.and_eq_true_iff.1 hfree).1 (Except.ok.inj h) (by simp [hentry])
          (by simp [hentry])
      | some e =>
        simp only [hentry] at h
        cases e with
        | file content =>
          simp only at h
          split_ifs at h with hnil
          exact hstop hnil (Except.ok.inj h) (by simp [hentry]) (by simp [hentry])
        | dir => exact dir n from_ part rest hup hentry (ih h)
        | link target =>
          simp only at h
          split_ifs at h with hlast
          · obtain ⟨hnil, hasIs⟩ := Bool.and_eq_true_iff.1 hlast
            exact hstop hnil (Except.ok.inj h) (by simp [hentry]) fun _ _ => eq_of_beq hasIs
          · exact link n from_ part target rest hup hentry (Bool.eq_false_iff.2 hlast) (ihn h)

/-- What a path that is resolved to a directory goes by. -/
theorem leadsTo_of_resolveOver {top : Path} (htop : t.entry? top = some .dir) {n : Nat} {p : Path}
    {from_ : Path} (h : t.resolveOver .followed n from_ p = .ok top) : t.LeadsTo top n from_ p := by
  refine resolveOver_induction (motive := t.LeadsTo top) ?_ ?_ ?_ ?_ ?_ h
  · exact fun n => .here
  · exact fun n from_ part _ _ hdir _ _ => absurd htop hdir
  · exact fun n from_ rest more => .up more
  · exact fun n from_ part rest name entry more => .dir name entry more
  · exact fun n from_ part target rest name entry _ more => .link name entry more

/-- A path that leads to a directory is resolved to it. -/
theorem LeadsTo.resolveOver {top : Path} {n : Nat} {from_ p : Path} (h : t.LeadsTo top n from_ p) :
    t.resolveOver .followed n from_ p = .ok top := by
  induction h with
  | here => rfl
  | up more ih => rwa [resolveOver_up]
  | dir name entry more ih => rwa [resolveOver_dir name entry]
  | link name entry more ih => rwa [resolveOver_link name entry (Bool.and_false _)]

/-- A path goes on from the directory that it leads to, with one link to follow at least. -/
theorem LeadsTo.append {top : Path} {n : Nat} {from_ start : Path}
    (h : t.LeadsTo top n from_ start) :
    ∃ m, ∀ ending ps, ps ≠ [] →
      t.resolveOver ending n from_ (start ++ ps) = t.resolveOver ending (m + 1) top ps := by
  induction h with
  | @here n => exact ⟨n, fun ending ps _ => rfl⟩
  | up more ih =>
    obtain ⟨m, hm⟩ := ih
    refine ⟨m, fun ending ps hps => ?_⟩
    rw [List.cons_append, resolveOver_up, hm ending ps hps]
  | dir name entry more ih =>
    obtain ⟨m, hm⟩ := ih
    refine ⟨m, fun ending ps hps => ?_⟩
    rw [List.cons_append, resolveOver_dir name entry, hm ending ps hps]
  | @link n from_ part target rest name entry more ih =>
    -- The link does not end the path, as something follows it.
    obtain ⟨m, hm⟩ := ih
    refine ⟨m, fun ending ps hps => ?_⟩
    have hgoes : ((rest ++ ps).isEmpty && ending == .asIs) = false := by simp [hps]
    rw [List.cons_append, resolveOver_link name entry hgoes, ← List.append_assoc, hm ending ps hps]

/-- A path that leads to a directory is itself something. -/
theorem LeadsTo.locate {top : Path} {n : Nat} {from_ p : Path} (h : t.LeadsTo top n from_ p) :
    ∃ q, t.resolveOver .asIs n from_ p = .ok q := by
  induction h with
  | here => exact ⟨top, rfl⟩
  | up more ih => rwa [resolveOver_up]
  | dir name entry more ih => rwa [resolveOver_dir name entry]
  | @link n from_ part target rest name entry more ih =>
    rcases eq_or_ne rest [] with rfl | hrest
    · exact ⟨from_ ++ [part], by simp [Tree.resolveOver, follow, name, entry]⟩
    · rwa [resolveOver_link name entry (by simp [hrest])]

/-- Directories and links of one tree are those of another as well. -/
def Keeps (t t' : Tree) : Prop :=
  ∀ p e, t.entry? p = some e → (∀ content, e ≠ .file content) → t'.entry? p = some e

/-- A path goes on leading to a directory while directories and links stay. -/
theorem LeadsTo.mono {t' : Tree} (hkeeps : t.Keeps t') {top : Path} {n : Nat} {from_ p : Path}
    (h : t.LeadsTo top n from_ p) : t'.LeadsTo top n from_ p := by
  induction h with
  | here => exact .here
  | up more ih => exact .up ih
  | dir name entry more ih => exact .dir name (hkeeps _ _ entry (by simp)) ih
  | link name entry more ih => exact .link name (hkeeps _ _ entry (by simp)) ih

/-- A path leads to a directory if it is resolved to one. -/
theorem at?_eq_dir {p top : Path} :
    t.at? p = .ok (top, .dir) ↔ t.LeadsTo top maxLinks [] p ∧ t.entry? top = some .dir := by
  unfold at? resolve
  constructor
  · intro h
    cases hp : t.resolveOver .followed maxLinks [] p with
    | error e => simp [hp] at h
    | ok q =>
      simp only [hp] at h
      cases hq : t.entry? q with
      | none => simp [hq] at h
      | some e =>
        simp only [hq, Except.ok.injEq, Prod.mk.injEq] at h
        obtain ⟨rfl, rfl⟩ := h
        exact ⟨leadsTo_of_resolveOver hq hp, hq⟩
  · rintro ⟨hp, htop⟩
    simp only [hp.resolveOver, htop]

/-- While directories and links stay, a path leads to the same directory. -/
theorem Keeps.at?_dir {t' : Tree} (h : t.Keeps t') {p top : Path}
    (hat : t.at? p = .ok (top, .dir)) : t'.at? p = .ok (top, .dir) := by
  obtain ⟨hleads, htop⟩ := at?_eq_dir.1 hat
  exact at?_eq_dir.2 ⟨hleads.mono h, h _ _ htop (by simp)⟩

/-! ## Trees that gain directories -/

/-- One tree has all that another has, and what is new are directories. -/
def Gains (t t' : Tree) : Prop :=
  ∀ p, t'.entry? p = t.entry? p ∨ (t.entry? p = none ∧ t'.entry? p = some .dir)

/-- Nothing is new. -/
theorem Gains.refl (t : Tree) : t.Gains t := fun _ => .inl rfl

/-- Directories that are new in two steps. -/
theorem Gains.trans {t' t'' : Tree} (h : t.Gains t') (h' : t'.Gains t'') : t.Gains t'' := by
  intro p
  rcases h p, h' p with ⟨hsame | ⟨hfree, hmade⟩, hsame' | ⟨hfree', hmade'⟩⟩
  · exact .inl (hsame'.trans hsame)
  · exact .inr ⟨hsame ▸ hfree', hmade'⟩
  · exact .inr ⟨hfree, hsame'.trans hmade⟩
  · cases hmade.symm.trans hfree'

/-- The files are the same. -/
theorem Gains.file_iff {t' : Tree} (h : t.Gains t') {p : Path} {content : ByteArray} :
    t'.entry? p = some (.file content) ↔ t.entry? p = some (.file content) := by
  rcases h p with hsame | ⟨hfree, hmade⟩
  · rw [hsame]
  · simp [hfree, hmade]

/-- A directory is made at a free name only. -/
theorem gains_of_makeDir {t' : Tree} {p : Path} (h : t.makeDir p = .ok t') : t.Gains t' := by
  unfold makeDir locate at h
  split at h
  · cases h
  rename_i e hlocate
  split_ifs at h
  split at h
  · -- The path goes on from a directory by one name, so that name is free.
    rename_i top name hat hlast
    obtain rfl := Except.ok.inj h
    obtain ⟨m, hm⟩ := (at?_eq_dir.1 hat).1.append
    have hp : p = p.dropLast ++ [name] := (List.dropLast_append_getLast? name hlast).symm
    rw [hp, hm _ _ (by simp)] at hlocate
    have hfree : t.entry? (top ++ [name]) = none := by
      by_contra hne
      obtain ⟨entry, hentry⟩ := Option.ne_none_iff_exists'.1 hne
      by_cases hup : name = ".." <;> cases entry <;>
        simp [resolveOver, follow, hup, hentry] at hlocate
    intro q
    rw [entry?_put t (by simp)]
    split_ifs with hq
    · subst hq
      exact .inr ⟨hfree, rfl⟩
    · exact .inl rfl
  · cases h
  · cases h

end CodeSurvey.Files.Tree
