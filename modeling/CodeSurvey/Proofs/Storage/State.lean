import CodeSurvey.Proofs.Files.Content
import CodeSurvey.Proofs.Storage.Host
import CodeSurvey.Storage.Store
import Mathlib.Data.List.Nodup

/-!
# What operations on a store may change

A state is looked at through its documents: what stands in the file of a document (`State.disk?`)
and which text is kept for it in memory (`State.kept?`). An operation moves from one state to
another (`State.Moves`) when only some documents are changed, no temporary file is left that could
be removed, and the store stays in its mode. Moves are put together (`Moves.trans`), so an operation
of several steps is told by what each of them changes.

No part of the control directory is a link in what follows (`State.Sited`). The names of all
documents and temporary files are different (`Document.nodup_paths`), so without links they lie in
different files.
-/

namespace CodeSurvey.Storage

open CodeSurvey.Artifact CodeSurvey.Files
open FileAction (temporary)

/-! ## The files of documents -/

namespace Document

/-- Every document is one of them all. -/
theorem mem_all (d : Document) : d ∈ all := by
  rcases d with (k | k) | (k | k) | _ | _ | _ | _ | _ | _ <;> first | decide | (cases k <;> decide)

/-- The directory that a document lies in, below the control directory. -/
def dir (d : Document) : Path := d.path.dropLast

/-- The name of a document's file. -/
def file (d : Document) : String := d.path.getLast?.getD ""

/-- The path of a document is its name in its directory. -/
theorem path_eq (d : Document) : d.path = d.dir ++ [d.file] := by
  cases d <;> rfl

/-- The temporary file of a document lies in the same directory. -/
theorem temporary_path (d : Document) : temporary d.path = d.dir ++ [d.file ++ ".tmp"] := by
  rw [path_eq, FileAction.temporary_append]

set_option maxRecDepth 10000 in
/-- The files of documents and their temporary files are all different. -/
theorem nodup_paths :
    (all.map path ++ all.map fun d => temporary d.path).Nodup := by
  decide

/-- Different documents lie in different files. -/
theorem path_injective {d d' : Document} (h : d.path = d'.path) : d = d' :=
  List.inj_on_of_nodup_map (List.nodup_append.1 nodup_paths).1 (mem_all d) (mem_all d') h

/-- Different documents have different temporary files. -/
theorem temporary_injective {d d' : Document} (h : temporary d.path = temporary d'.path) : d = d' :=
  List.inj_on_of_nodup_map (List.nodup_append.1 nodup_paths).2.1 (mem_all d) (mem_all d') h

/-- No document lies in a temporary file. -/
theorem path_ne_temporary (d d' : Document) : d.path ≠ temporary d'.path :=
  (List.nodup_append.1 nodup_paths).2.2 _ (List.mem_map_of_mem (mem_all d)) _
    (List.mem_map_of_mem (f := fun d => temporary d.path) (mem_all d'))

/-- The directories that documents lie in. -/
def dirs : List Path := [[], artifactsDir, cacheDir]

/-- Every document lies in one of the directories. -/
theorem dir_mem (d : Document) : d.dir ∈ dirs := by
  cases d <;> simp [dir, path, dirs, artifactsDir, cacheDir]

/-- No document and no temporary file is on the way to a directory of documents. -/
theorem not_prefix_dirs (d : Document) {dir : Path} (h : dir ∈ dirs) :
    ¬ d.path <+: dir ∧ ¬ temporary d.path <+: dir := by
  have hall : ∀ dir ∈ dirs, ∀ d ∈ all, ¬ d.path <+: dir ∧ ¬ temporary d.path <+: dir := by decide
  exact hall dir h d (mem_all d)

/-- The paths of documents and of temporary files go down only. -/
theorem plain_paths (d : Document) : ".." ∉ d.path ∧ ".." ∉ temporary d.path := by
  have hall : ∀ d ∈ all, ".." ∉ d.path ∧ ".." ∉ temporary d.path := by decide
  exact hall d (mem_all d)

end Document

/-! ## Views of a state -/

/-- A place below another lies below its path. -/
@[simp] theorem Place.below_path (p : Place) (parts : Path) :
    (p.below parts).path = p.path ++ parts := by
  unfold Place.below
  by_cases h : parts.isEmpty
  · rw [if_pos h, List.isEmpty_iff.1 h, List.append_nil]
  · rw [if_neg h]

namespace State

/-- What stands in the file of a document. -/
def disk? (s : State) (d : Document) : Option Entry :=
  (s.host.tree.at? (s.store.place d).path).toOption.map (·.2)

/-- What stands in the temporary file of a document. -/
def temporary? (s : State) (d : Document) : Option Entry :=
  (s.host.tree.at? (temporary (s.store.place d).path)).toOption.map (·.2)

/-- The text of a document that is kept in memory. -/
def kept? (s : State) (d : Document) : Option String :=
  ((s.store.memory.getD []).find? (·.1 == d.path)).map (·.2)

/-- The text of a document: that of its file, or the one that is kept in memory. -/
def text? (s : State) (d : Document) : Option String :=
  if s.store.memory.isSome then s.kept? d
  else match s.disk? d with
    | some (.file bytes) => (utf8? bytes).map universalLines
    | _ => none

/-- The value of a document. -/
def value? (s : State) (d : Document) : Option Json :=
  (s.text? d).bind fun text => (Json.read text).toOption

/-- Whether a document has a text or is not there, in its file or in memory. -/
def Holds (s : State) (d : Document) (text : Option String) : Prop :=
  if s.store.memory.isSome then s.kept? d = text
  else s.disk? d = text.map fun t => .file t.toUTF8

/-- In memory a document has the text that is kept. -/
theorem holds_iff_kept {s : State} {kept : List (Path × String)} (h : s.store.memory = some kept)
    (d : Document) (text : Option String) :
    s.Holds d text ↔ (kept.find? (·.1 == d.path)).map (·.2) = text := by
  rw [Holds, if_pos (by rw [h]; rfl), kept?, h]
  rfl

/-- Otherwise it has the text in its file. -/
theorem holds_iff_disk {s : State} (h : s.store.memory = none) (d : Document)
    (text : Option String) :
    s.Holds d text ↔ s.disk? d = text.map fun t => .file t.toUTF8 := by
  rw [Holds, if_neg (by rw [h]; exact Bool.false_ne_true)]

/-- The text of a document that has one without carriage returns. -/
theorem Holds.text? {s : State} {d : Document} {text : Option String} (h : s.Holds d text)
    (hreturn : ∀ t, text = some t → '\r' ∉ t.toList) : s.text? d = text := by
  unfold Holds at h
  unfold State.text?
  split_ifs at h ⊢ with hmem
  · exact h
  · rw [h]
    cases text with
    | none => rfl
    | some t =>
      simp only [Option.map_some, utf8?_toUTF8]
      rw [universalLines_eq_self (hreturn t rfl)]

end State

/-- Where a control directory lies: a path that leads to a directory, and the names after it. -/
structure Site where
  start : Path
  /-- The directory that the path leads to. -/
  top : Path
  names : Path

/-- The place of a path below the control directory. -/
def Site.place (site : Site) (x : Path) : Path := site.top ++ (site.names ++ x)

/-- The place of a document's file, with the directory and the name apart. -/
theorem Site.place_path (site : Site) (d : Document) :
    site.place d.path = site.top ++ ((site.names ++ d.dir) ++ [d.file]) := by
  rw [place, d.path_eq, List.append_assoc site.names]

/-- The same of a document's temporary file. -/
theorem Site.place_temporary (site : Site) (d : Document) :
    site.place (temporary d.path) =
      site.top ++ ((site.names ++ d.dir) ++ [d.file ++ ".tmp"]) := by
  rw [place, d.temporary_path, List.append_assoc site.names]

/-- Places are on the way to others as their paths are. -/
theorem Site.place_prefix {site : Site} {x y : Path} :
    site.place x <+: site.place y ↔ x <+: y := by
  rw [place, place, List.prefix_append_right_inj, List.prefix_append_right_inj]

/-- Different paths have different places. -/
theorem Site.place_inj {site : Site} {x y : Path} : site.place x = site.place y ↔ x = y := by
  rw [place, place, List.append_right_inj, List.append_right_inj]

namespace State

/-- The control directory lies at a site, and neither the names there nor anything in the control
directory is a link. -/
structure Sited (s : State) (site : Site) : Prop where
  path : s.store.base.path = site.start ++ site.names
  sound : s.host.tree.Sound
  leads : s.host.tree.at? site.start = .ok (site.top, .dir)
  plain : ".." ∉ site.names
  noLink : ∀ ps target, ps <+: site.names ∨ site.names <+: ps →
    s.host.tree.entry? (site.top ++ ps) ≠ some (.link target)

/-- The content of the file at a path below the control directory at a site. -/
def fileAt? (s : State) (site : Site) (x : Path) : Option ByteArray :=
  match s.host.tree.entry? (site.place x) with
  | some (.file content) => some content
  | _ => none

/-- A state without links in the control directory or on the way to it. Documents are kept in memory
only after the workspace was made ready. -/
structure Plain (s : State) : Prop where
  sited : ∃ site, s.Sited site
  ready : s.store.memory.isSome → s.store.isReady

/-- A state in which no operation on files can fail: there are no faults, and at the site nothing is
in the way of directories and files. -/
structure Clear (s : State) (site : Site) : Prop extends s.Sited site where
  faults : s.host.faults = Faults.none
  dirs : ∀ dir ∈ Document.dirs, s.host.tree.FileFree site.top (site.names ++ dir)
  documents : ∀ d : Document, s.host.tree.FileOrFree (site.place d.path)
  temporaries : ∀ d : Document, s.host.tree.FileOrFree (site.place (temporary d.path))
  /-- There is a workspace to be made ready. -/
  root : s.store.isReady = false → s.host.tree.isDir s.store.root.path
  ready : s.store.memory.isSome → s.store.isReady

namespace Sited

variable {s : State} {site : Site}

/-- There is a route to every place in the control directory. -/
theorem route (h : s.Sited site) {x : Path} (hx : ".." ∉ x) :
    s.host.tree.Route site.start site.top (site.names ++ x) where
  sound := h.sound
  leads := h.leads
  plain := by simpa using ⟨h.plain, hx⟩
  noLink := by
    intro qs target hqs
    refine h.noLink qs target ?_
    rcases Nat.le_total qs.length site.names.length with hle | hle
    · exact .inl (List.prefix_of_prefix_length_le hqs (List.prefix_append _ _) hle)
    · exact .inr (List.prefix_of_prefix_length_le (List.prefix_append _ _) hqs hle)

/-- The place of a document on its route. -/
theorem place_path (h : s.Sited site) (d : Document) :
    (s.store.place d).path = site.start ++ (site.names ++ d.path) := by
  rw [Store.place, Place.below_path, h.path, List.append_assoc]

/-- The place of a document's temporary file on its route. -/
theorem temporary_place (h : s.Sited site) (d : Document) :
    temporary (s.store.place d).path = site.start ++ (site.names ++ temporary d.path) := by
  rw [h.place_path, d.temporary_path, d.path_eq, ← List.append_assoc site.names,
    FileAction.temporary_route, List.append_assoc site.names]

/-- The same, with the directory and the name apart. -/
theorem place_path_split (h : s.Sited site) (d : Document) :
    (s.store.place d).path = site.start ++ ((site.names ++ d.dir) ++ [d.file]) := by
  rw [h.place_path, d.path_eq, List.append_assoc site.names]

/-- What stands in the file of a document. -/
theorem disk?_eq (h : s.Sited site) (d : Document) :
    s.disk? d = s.host.tree.entry? (site.place d.path) := by
  rw [disk?, h.place_path]
  exact (h.route d.plain_paths.1).map_at? (by rw [d.path_eq]; simp)

/-- What stands in the temporary file of a document. -/
theorem temporary?_eq (h : s.Sited site) (d : Document) :
    s.temporary? d = s.host.tree.entry? (site.place (temporary d.path)) := by
  rw [temporary?, h.temporary_place]
  exact (h.route d.plain_paths.2).map_at? (by rw [d.temporary_path]; simp)

/-- File operations leave the control directory without links. -/
theorem of_touches (h : s.Sited site) {dir : Path} {files : List Path} {host : Host}
    (ht : Tree.Touches dir files s.host.tree host.tree) :
    ({ s with host } : State).Sited site where
  path := h.path
  sound := ht.sound
  leads := (ht.route (h.route (List.not_mem_nil (a := "..")))).leads
  plain := h.plain
  noLink := by
    intro ps target hps hlink
    exact h.noLink ps target hps (ht.link hlink)

end Sited

/-- In a tree without links the control directory lies where its path says. -/
theorem sited_of_linkless {s : State} (hsound : s.host.tree.Sound)
    (hplain : ".." ∉ s.store.base.path)
    (hlinks : ∀ x ∈ s.host.tree.entries, ∀ target, x.2 ≠ .link target) :
    s.Sited ⟨[], [], s.store.base.path⟩ where
  path := rfl
  sound := hsound
  leads := rfl
  plain := hplain
  noLink := by
    intro ps target _ hlink
    rw [List.nil_append] at hlink
    rcases eq_or_ne ps [] with rfl | hps
    · cases hlink
    · exact hlinks _ (Tree.mem_entries hps hlink) target rfl

/-- A workspace that was made ready, with some entries in its control directory. -/
def withEntries (entries : List (Path × Entry)) (faults : Faults) : State where
  host :=
    { tree := ⟨[(["ws"], .dir), (["ws", ".contextscan"], .dir)] ++
        entries.map fun x => (["ws", ".contextscan"] ++ x.1, x.2)⟩
      faults
      calls := 0
      now := ⟨⟨2024, 1, 1⟩, .midnight, 0⟩
      ids := 0 }
  store := { root := ⟨["ws"], "ws"⟩, isReady := true }

/-- Without links the control directory of such a workspace lies at its path. -/
theorem sited_withEntries {entries : List (Path × Entry)} {faults : Faults}
    (hparents : ∀ x ∈ (withEntries entries faults).host.tree.entries,
      (Tree.entry? (withEntries entries faults).host.tree x.1.dropLast).any Entry.isDir)
    (hlinks : ∀ x ∈ entries, ∀ target, x.2 ≠ .link target) :
    (withEntries entries faults).Sited ⟨[], [], ["ws", ".contextscan"]⟩ := by
  have hplain : ".." ∉ ["ws", ".contextscan"] := by decide
  refine sited_of_linkless (Tree.sound_of_entries hparents) hplain fun x hx target => ?_
  rcases List.mem_append.1 hx with hx | hx
  · have hdir : x.2 = .dir := by
      rcases List.mem_pair.1 hx with rfl | rfl <;> rfl
    simp [hdir]
  · obtain ⟨y, hy, rfl⟩ := List.mem_map.1 hx
    exact hlinks y hy target

/-- A workspace without links is plain. -/
theorem plain_withEntries {entries : List (Path × Entry)} {faults : Faults}
    (hparents : ∀ x ∈ (withEntries entries faults).host.tree.entries,
      (Tree.entry? (withEntries entries faults).host.tree x.1.dropLast).any Entry.isDir)
    (hlinks : ∀ x ∈ entries, ∀ target, x.2 ≠ .link target) :
    (withEntries entries faults).Plain :=
  ⟨⟨_, sited_withEntries hparents hlinks⟩, fun h => Bool.noConfusion h⟩

/-- What stands in the control directory of such a workspace is one of the entries. -/
theorem mem_of_entry?_withEntries {entries : List (Path × Entry)} {faults : Faults} {x : Path}
    {e : Entry} (hx : x ≠ [])
    (h : (withEntries entries faults).host.tree.entry? (["ws", ".contextscan"] ++ x) = some e) :
    (x, e) ∈ entries := by
  have hmem := Tree.mem_entries (by simp) h
  rcases List.mem_append.1 hmem with hmem | hmem
  · simp [hx] at hmem
  · obtain ⟨y, hy, heq⟩ := List.mem_map.1 hmem
    obtain ⟨hpath, rfl⟩ := Prod.mk.inj heq
    rw [← List.append_cancel_left hpath]
    exact hy

/-- Without faults such a workspace is clear if no file stands in the way of a directory, and no
directory in the place of a file. -/
theorem clear_withEntries {entries : List (Path × Entry)}
    (hparents : ∀ x ∈ (withEntries entries Faults.none).host.tree.entries,
      (Tree.entry? (withEntries entries Faults.none).host.tree x.1.dropLast).any Entry.isDir)
    (hlinks : ∀ x ∈ entries, ∀ target, x.2 ≠ .link target)
    (hdirs : ∀ x ∈ entries, x.2.isDir = decide (x.1 ∈ Document.dirs)) :
    (withEntries entries Faults.none).Clear ⟨[], [], ["ws", ".contextscan"]⟩ := by
  have hfree : ∀ x, x ∉ Document.dirs →
      (withEntries entries Faults.none).host.tree.FileOrFree (["ws", ".contextscan"] ++ x) := by
    intro x hx e he
    have hmem := mem_of_entry?_withEntries (by rintro rfl; simp [Document.dirs] at hx) he
    have hnotDir := hdirs _ hmem
    cases e with
    | file content => exact ⟨content, rfl⟩
    | link target => exact absurd rfl (hlinks _ hmem target)
    | dir => exact absurd (decide_eq_true_iff.1 hnotDir.symm) hx
  refine ⟨sited_withEntries hparents hlinks, rfl, ?_, ?_, ?_, ?_, ?_⟩
  · -- What is on the way to a directory of documents is a directory.
    intro dir hdir qs content hqs he
    change qs <+: ["ws", ".contextscan"] ++ dir at hqs
    have hprefix : ∀ dir ∈ Document.dirs, ∀ n < 4,
        let qs := (["ws", ".contextscan"] ++ dir).take n
        qs = [] ∨ qs = ["ws"] ∨ ∃ x ∈ Document.dirs, qs = ["ws", ".contextscan"] ++ x := by
      decide
    have hlength : ∀ dir ∈ Document.dirs, (["ws", ".contextscan"] ++ dir).length < 4 := by decide
    have hup := hprefix dir hdir qs.length (Nat.lt_of_le_of_lt hqs.length_le (hlength dir hdir))
    rw [← List.prefix_iff_eq_take.1 hqs] at hup
    rcases hup with rfl | rfl | ⟨x, hx, rfl⟩
    · cases he
    · cases he
    · rcases eq_or_ne x [] with rfl | hne
      · cases he
      · have hnotDir := hdirs _ (mem_of_entry?_withEntries hne he)
        rw [decide_eq_true hx] at hnotDir
        cases hnotDir
  · intro d
    exact hfree d.path fun hin => (d.not_prefix_dirs hin).1 (List.prefix_refl _)
  · intro d
    exact hfree (temporary d.path) fun hin => (d.not_prefix_dirs hin).2 (List.prefix_refl _)
  · intro hready
    cases hready
  · intro _
    rfl

/-- Where a control directory lies depends on its path and on the tree only. -/
theorem Sited.congr {s s' : State} {site : Site} (h : s.Sited site)
    (htree : s'.host.tree = s.host.tree) (hbase : s'.store.base = s.store.base) :
    s'.Sited site where
  path := hbase ▸ h.path
  sound := htree ▸ h.sound
  leads := htree ▸ h.leads
  plain := h.plain
  noLink := htree ▸ h.noLink

/-- With the same tree and the same schedule a clear state stays clear if texts are kept in memory
only in a workspace that is ready. -/
theorem Clear.congr {s s' : State} {site : Site} (h : s.Clear site)
    (htree : s'.host.tree = s.host.tree) (hbase : s'.store.base = s.store.base)
    (hfaults : s'.host.faults = s.host.faults)
    (hroot : s'.store.isReady = false → s.store.isReady = false ∧ s'.store.root = s.store.root)
    (hready : s'.store.memory.isSome → s'.store.isReady) : s'.Clear site where
  toSited := h.toSited.congr htree hbase
  faults := hfaults.trans h.faults
  dirs := htree ▸ h.dirs
  documents := htree ▸ h.documents
  temporaries := htree ▸ h.temporaries
  root := by
    intro hnot
    obtain ⟨hnot', hsame⟩ := hroot hnot
    rw [htree, hsame]
    exact h.root hnot'
  ready := hready

/-- On the way to a free place of a document there is no file. -/
theorem Clear.fileFree {s : State} {site : Site} (h : s.Clear site) {d : Document}
    (hnone : s.host.tree.entry? (site.place d.path) = none) :
    s.host.tree.FileFree site.top (site.names ++ d.path) := by
  intro qs content hqs hentry
  rw [d.path_eq, ← List.append_assoc, List.prefix_concat_iff] at hqs
  rcases hqs with rfl | hqs
  · rw [List.append_assoc, ← d.path_eq] at hentry
    cases hnone.symm.trans hentry
  · exact h.dirs d.dir d.dir_mem qs content hqs hentry

/-- What stands in a file that is not touched is as before. -/
theorem entry?_of_touches {site : Site} {dir : Path} {files : List Path} {t t' : Tree}
    (ht : Tree.Touches (site.place dir) files t t') (hdir : dir ∈ Document.dirs) {x : Path}
    {d : Document} (hx : x = d.path ∨ x = temporary d.path) (hfile : site.place x ∉ files) :
    t'.entry? (site.place x) = t.entry? (site.place x) := by
  refine ht.entry?_eq (Site.place_prefix.not.2 ?_) hfile
  rcases hx with rfl | rfl
  · exact (d.not_prefix_dirs hdir).1
  · exact (d.not_prefix_dirs hdir).2

/-- The same of a file at any place. -/
theorem Clear.fileAt?_of_touches {s : State} {site : Site} (h : s.Clear site) {dir x : Path}
    {files : List Path} {host : Host} (hdir : dir ∈ Document.dirs)
    (ht : Tree.Touches (site.place dir) files s.host.tree host.tree)
    (hfile : site.place x ∉ files) :
    ({ s with host } : State).fileAt? site x = s.fileAt? site x := by
  unfold fileAt?
  rcases ht.entry (site.place x) with hsame | ⟨hup, hfree, hmade⟩ | ⟨hin, -⟩
  · rw [hsame]
  · -- Where a directory is made on the way to documents, there was no file.
    have hnone : s.host.tree.entry? (site.place x) = none := by
      by_contra hne
      obtain ⟨entry, hentry⟩ := Option.ne_none_iff_exists'.1 hne
      obtain ⟨content, rfl⟩ := hfree entry hentry
      refine h.dirs dir hdir (site.names ++ x) content ?_ hentry
      exact (List.prefix_append_right_inj _).2 (Site.place_prefix.1 hup)
    rw [hmade, hnone]
  · exact absurd hin hfile

/-- File operations that touch files of documents leave a clear state. -/
theorem Clear.of_touches {s : State} {site : Site} (h : s.Clear site) {dir : Path}
    {files : List Path} {host : Host} (hdir : dir ∈ Document.dirs) (hf : s.host.Follows host)
    (ht : Tree.Touches (site.place dir) files s.host.tree host.tree)
    (hfiles : ∀ p ∈ files, ∃ d : Document,
      p = site.place d.path ∨ p = site.place (temporary d.path)) :
    ({ s with host } : State).Clear site where
  toSited := h.toSited.of_touches ht
  faults := hf.faults.trans h.faults
  dirs := by
    intro dir' hdir' qs content hqs hentry
    rcases ht.entry (site.top ++ qs) with hsame | ⟨-, -, hmade⟩ | ⟨hin, -⟩
    · exact h.dirs dir' hdir' qs content hqs (hsame ▸ hentry)
    · cases hentry.symm.trans hmade
    · -- No document lies on the way to a directory.
      have hqs' : site.top ++ qs <+: site.place dir' := (List.prefix_append_right_inj _).2 hqs
      obtain ⟨d, hd | hd⟩ := hfiles _ hin
      · rw [hd, Site.place_prefix] at hqs'
        exact absurd hqs' (d.not_prefix_dirs hdir').1
      · rw [hd, Site.place_prefix] at hqs'
        exact absurd hqs' (d.not_prefix_dirs hdir').2
  documents := fun d => ht.fileOrFree (Site.place_prefix.not.2 (d.not_prefix_dirs hdir).1)
    (h.documents d)
  temporaries := fun d => ht.fileOrFree (Site.place_prefix.not.2 (d.not_prefix_dirs hdir).2)
    (h.temporaries d)
  root := by
    intro hready
    have hroot := h.root hready
    simp only [Tree.isDir] at hroot ⊢
    split at hroot
    · rename_i top hat
      rw [ht.keeps.at?_dir hat]
    · cases hroot
  ready := h.ready

/-- Between two states the schedule says that a document is not there when it is read. -/
def Hidden (s s' : State) (d : Document) : Prop :=
  ∃ n, s.host.calls ≤ n ∧ n < s'.host.calls ∧
    s.host.faults n ⟨.read, (s.store.place d).path⟩ = some Errno.noEntry

/-- Between two states the schedule keeps the temporary file of a document from being removed. -/
def Stuck (s s' : State) (d : Document) : Prop :=
  ∃ n, s.host.calls ≤ n ∧ n < s'.host.calls ∧
    (s.host.faults n ⟨.unlink, temporary (s.store.place d).path⟩).isSome

/-! ## Moves -/

/-- What an operation leaves when it changes some documents at most. -/
structure Moves (site : Site) (changed : List Document) (s s' : State) : Prop where
  /-- The store is that of the same workspace. -/
  root : s'.store.root = s.store.root
  controlDir : s'.store.controlDir = s.store.controlDir
  /-- The host is the same, with more primitives. -/
  host : s.host.Follows s'.host
  /-- A store that is ready stays in its mode. -/
  mode : s.store.isReady → s'.store.isReady ∧ s'.store.memory.isSome = s.store.memory.isSome
  /-- All other documents are as before, in their files and in memory. -/
  disk : ∀ d, d ∉ changed → s'.disk? d = s.disk? d
  kept : ∀ d, d ∉ changed → s'.kept? d = s.kept? d
  /-- So are the files that are neither documents nor temporary, where nothing is in the way. -/
  others : s.Clear site → ∀ x, (∀ d : Document, x ≠ d.path ∧ x ≠ temporary d.path) →
    s'.fileAt? site x = s.fileAt? site x
  /-- A temporary file is only left if the schedule keeps it from being removed. -/
  left : ∀ d, s.temporary? d = none → s'.temporary? d ≠ none → s.Stuck s' d
  /-- The control directory is as free of links and obstacles as before. -/
  sited : s.Sited site → s'.Sited site
  clear : s.Clear site → s'.Clear site
  ready : (s.store.memory.isSome → s.store.isReady) → s'.store.memory.isSome → s'.store.isReady

namespace Moves

variable {site : Site} {changed : List Document} {s s' s'' : State}

/-- Nothing is changed. -/
theorem refl (s : State) : Moves site changed s s where
  root := rfl
  controlDir := rfl
  host := .refl _
  mode := fun h => ⟨h, rfl⟩
  disk := fun _ _ => rfl
  kept := fun _ _ => rfl
  others := fun _ _ _ => rfl
  left := fun _ hnone hleft => absurd hnone hleft
  sited := fun h => h
  clear := fun h => h
  ready := fun h => h

/-- More documents may be changed. -/
theorem mono {more : List Document} (h : Moves site changed s s') (hmore : changed ⊆ more) :
    Moves site more s s' where
  root := h.root
  controlDir := h.controlDir
  host := h.host
  mode := h.mode
  disk := fun d hd => h.disk d fun hin => hd (hmore hin)
  kept := fun d hd => h.kept d fun hin => hd (hmore hin)
  others := h.others
  left := h.left
  sited := h.sited
  clear := h.clear
  ready := h.ready

/-- The places of documents are the same. -/
theorem place (h : Moves site changed s s') (d : Document) :
    s'.store.place d = s.store.place d := by
  rw [Store.place, Store.place, Store.base, Store.base, h.root, h.controlDir]

/-- Two operations one after the other. -/
theorem trans (h : Moves site changed s s') (h' : Moves site changed s' s'') :
    Moves site changed s s'' where
  root := h'.root.trans h.root
  controlDir := h'.controlDir.trans h.controlDir
  host := h.host.trans h'.host
  mode := by
    intro hready
    obtain ⟨hready', hmode⟩ := h.mode hready
    obtain ⟨hready'', hmode'⟩ := h'.mode hready'
    exact ⟨hready'', hmode'.trans hmode⟩
  disk := fun d hd => (h'.disk d hd).trans (h.disk d hd)
  kept := fun d hd => (h'.kept d hd).trans (h.kept d hd)
  others := fun hc x hx => (h'.others (h.clear hc) x hx).trans (h.others hc x hx)
  left := by
    intro d hnone hleft
    -- A temporary file that is left was left by the first operation or by the second one.
    by_cases hmid : s'.temporary? d = none
    · obtain ⟨n, hle, hlt, hfault⟩ := h'.left d hmid hleft
      rw [h.place, h.host.faults] at hfault
      exact ⟨n, Nat.le_trans h.host.calls hle, hlt, hfault⟩
    · obtain ⟨n, hle, hlt, hfault⟩ := h.left d hnone hmid
      exact ⟨n, hle, Nat.lt_of_lt_of_le hlt h'.host.calls, hfault⟩
  sited := fun hs => h'.sited (h.sited hs)
  clear := fun hs => h'.clear (h.clear hs)
  ready := fun hs => h'.ready (h.ready hs)

/-- What the schedule hides while an operation goes on, it hides in a longer one. -/
theorem hidden (h : Moves site changed s s') {s₁ s₂ : State} {d : Document} (hd : s'.Hidden s₁ d)
    (hcalls : s₁.host.calls ≤ s₂.host.calls) : s.Hidden s₂ d := by
  obtain ⟨n, hle, hlt, hfault⟩ := hd
  rw [h.place, h.host.faults] at hfault
  exact ⟨n, Nat.le_trans h.host.calls hle, Nat.lt_of_lt_of_le hlt hcalls, hfault⟩

/-- The text of a document that is not changed is the same in the same mode. -/
theorem text?_eq (h : Moves site changed s s')
    (hmode : s'.store.memory.isSome = s.store.memory.isSome) {d : Document} (hd : d ∉ changed) :
    s'.text? d = s.text? d := by
  rw [text?, text?, hmode, h.kept d hd, h.disk d hd]

/-- The same of what it is known to have. -/
theorem holds_iff (h : Moves site changed s s')
    (hmode : s'.store.memory.isSome = s.store.memory.isSome) {d : Document} (hd : d ∉ changed)
    (text : Option String) : s'.Holds d text ↔ s.Holds d text := by
  rw [Holds, Holds, hmode, h.kept d hd, h.disk d hd]

/-- A text that a document has after an operation that does not change it was there before: the
workspace may have been made ready, but then nothing is kept in memory. -/
theorem text?_of_some (h : Moves site changed s s') (hs : s.store.memory.isSome → s.store.isReady)
    {d : Document} (hd : d ∉ changed) {text : String} (htext : s'.text? d = some text) :
    s.text? d = some text := by
  by_cases hready : s.store.isReady = true
  · rwa [h.text?_eq (h.mode hready).2 hd] at htext
  have hnone : ¬ s.store.memory.isSome := fun hmem => hready (hs hmem)
  rw [State.text?] at htext ⊢
  rw [h.kept d hd, h.disk d hd] at htext
  rw [if_neg hnone]
  split_ifs at htext with hmem
  · rw [kept?, Option.not_isSome_iff_eq_none.1 hnone] at htext
    cases htext
  · exact htext

/-- Where nothing is in the way and no temporary file is left over, all files are as before but
those of the documents that are changed. -/
theorem fileAt?_eq (h : Moves site changed s s') (hc : s.Clear site)
    (htemporary : ∀ d, s.temporary? d = none) {x : Path} (hx : ∀ d ∈ changed, x ≠ d.path) :
    s'.fileAt? site x = s.fileAt? site x := by
  have hc' := h.clear hc
  by_cases hdocument : ∃ d : Document, x = d.path
  · obtain ⟨d, rfl⟩ := hdocument
    have hdisk := h.disk d fun hin => hx d hin rfl
    rw [hc'.disk?_eq, hc.disk?_eq] at hdisk
    rw [fileAt?, fileAt?, hdisk]
  by_cases hleft : ∃ d : Document, x = temporary d.path
  · -- Without faults no temporary file is left.
    obtain ⟨d, rfl⟩ := hleft
    have hbefore := htemporary d
    have hafter : s'.temporary? d = none := by
      by_contra hne
      obtain ⟨n, -, -, hfault⟩ := h.left d hbefore hne
      rw [hc.faults] at hfault
      cases hfault
    rw [hc'.temporary?_eq] at hafter
    rw [hc.temporary?_eq] at hbefore
    rw [fileAt?, fileAt?, hafter, hbefore]
  · exact h.others hc x fun d => ⟨fun heq => hdocument ⟨d, heq⟩, fun heq => hleft ⟨d, heq⟩⟩

/-- The same of its value. -/
theorem value?_of_some (h : Moves site changed s s') (hs : s.store.memory.isSome → s.store.isReady)
    {d : Document} (hd : d ∉ changed) {j : Json} (hj : s'.value? d = some j) :
    s.value? d = some j := by
  obtain ⟨text, htext, hread⟩ := Option.bind_eq_some_iff.1 hj
  exact Option.bind_eq_some_iff.2 ⟨text, h.text?_of_some hs hd htext, hread⟩

/-- File operations that only touch the files of some documents and temporary files. -/
theorem of_touches {dir : Path} {files : List Path} {host : Host} (hs : s.Sited site)
    (hdir : dir ∈ Document.dirs) (hf : s.host.Follows host)
    (ht : Tree.Touches (site.place dir) files s.host.tree host.tree)
    (hfiles : ∀ p ∈ files, ∃ d : Document,
      p = site.place d.path ∨ p = site.place (temporary d.path))
    (hchanged : ∀ d : Document, site.place d.path ∈ files → d ∈ changed)
    (hleft : ∀ d : Document, s.host.tree.entry? (site.place (temporary d.path)) = none →
      host.tree.entry? (site.place (temporary d.path)) ≠ none →
      ∃ n, s.host.calls ≤ n ∧ n < host.calls ∧
        (s.host.faults n ⟨.unlink, temporary (s.store.place d).path⟩).isSome) :
    Moves site changed s { s with host } where
  root := rfl
  controlDir := rfl
  host := hf
  mode := fun h => ⟨h, rfl⟩
  disk := by
    intro d hd
    rw [(hs.of_touches ht).disk?_eq, hs.disk?_eq]
    exact entry?_of_touches ht hdir (.inl rfl) fun hin => hd (hchanged d hin)
  kept := fun _ _ => rfl
  others := by
    intro hc x hx
    refine hc.fileAt?_of_touches hdir ht fun hin => ?_
    obtain ⟨d, hd | hd⟩ := hfiles _ hin
    · exact (hx d).1 (Site.place_inj.1 hd)
    · exact (hx d).2 (Site.place_inj.1 hd)
  left := by
    intro d hnone hleft'
    rw [hs.temporary?_eq] at hnone
    rw [(hs.of_touches ht).temporary?_eq] at hleft'
    exact hleft d hnone hleft'
  sited := fun hs => hs.of_touches ht
  clear := fun hc => hc.of_touches hdir hf ht hfiles
  ready := fun h => h

/-- File operations that only touch the file of one document and its temporary file. -/
theorem of_touches_document {d : Document} {files : List Path} {host : Host} (hs : s.Sited site)
    (hf : s.host.Follows host) (ht : Tree.Touches (site.place d.dir) files s.host.tree host.tree)
    (hfiles : ∀ p ∈ files, p = site.place d.path ∨ p = site.place (temporary d.path))
    (hchanged : site.place d.path ∈ files → d ∈ changed)
    (hleft : s.host.tree.entry? (site.place (temporary d.path)) = none →
      host.tree.entry? (site.place (temporary d.path)) ≠ none →
      ∃ n, s.host.calls ≤ n ∧ n < host.calls ∧
        (s.host.faults n ⟨.unlink, temporary (s.store.place d).path⟩).isSome) :
    Moves site changed s { s with host } := by
  refine .of_touches hs d.dir_mem hf ht (fun p hp => ⟨d, hfiles p hp⟩) ?_ ?_
  · intro d' hd'
    rcases hfiles _ hd' with h | h
    · obtain rfl := Document.path_injective (Site.place_inj.1 h)
      exact hchanged hd'
    · exact absurd (Site.place_inj.1 h) (d'.path_ne_temporary d)
  · intro d' hnone hleft'
    -- Only the temporary file of the document itself can be left behind.
    by_cases hd : d' = d
    · subst hd
      exact hleft hnone hleft'
    · rw [entry?_of_touches ht d.dir_mem (.inr rfl) fun hin => ?_] at hleft'
      · exact absurd hnone hleft'
      · rcases hfiles _ hin with h | h
        · exact d.path_ne_temporary d' (Site.place_inj.1 h).symm
        · exact hd (Document.temporary_injective (Site.place_inj.1 h))

/-- Primitives that leave the tree. -/
theorem of_tree {host : Host} (hf : s.host.Follows host) (htree : host.tree = s.host.tree) :
    Moves site changed s { s with host } where
  root := rfl
  controlDir := rfl
  host := hf
  mode := fun h => ⟨h, rfl⟩
  disk := fun d _ => by rw [disk?, disk?, htree]
  kept := fun _ _ => rfl
  others := fun _ x _ => by rw [fileAt?, fileAt?, htree]
  left := by
    intro d hnone hleft
    rw [temporary?, htree] at hleft
    exact absurd hnone hleft
  sited := fun h => h.congr htree rfl
  clear := fun h => h.congr htree rfl hf.faults (fun hnot => ⟨hnot, rfl⟩) h.ready
  ready := fun h => h

/-- Changes of the texts in memory. -/
theorem of_memory (hmem : s.store.memory.isSome) {kept : List (Path × String)}
    (hkept : ∀ d : Document, d ∉ changed →
      (kept.find? (·.1 == d.path)).map (·.2) = s.kept? d) :
    Moves site changed s { s with store := { s.store with memory := some kept } } where
  root := rfl
  controlDir := rfl
  host := .refl _
  mode := fun h => ⟨h, hmem.symm⟩
  disk := fun _ _ => rfl
  kept := fun d hd => hkept d hd
  others := fun _ _ _ => rfl
  left := fun _ hnone hleft => absurd hnone hleft
  sited := fun h => h.congr rfl rfl
  clear := fun h => h.congr rfl rfl rfl (fun hnot => ⟨hnot, rfl⟩) fun _ => h.ready hmem
  ready := fun h _ => h hmem

end Moves

end State

end CodeSurvey.Storage
