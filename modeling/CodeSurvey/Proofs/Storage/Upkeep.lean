import CodeSurvey.Proofs.Files.Shelter
import CodeSurvey.Proofs.Storage.History
import CodeSurvey.Proofs.Storage.Supply

/-!
# What operations keep up in a tree

Whatever an operation on a store does, directories and links stay and a tidy tree stays tidy
(`State.Upkeep`). This holds of the steps that operations are made of (`stays_keepsUp`), so it holds
of every operation that is made of them (`Stays`).

In a clear state the directories of documents are there once the workspace was made ready
(`ensureReady_makes`), and where they are there already nothing is made
(`tree_ensureReady`). Writing a document changes its file and the temporary one only
(`writeJson_sameBut`).
-/

namespace CodeSurvey.Storage

open CodeSurvey.Files
open FileAction (temporary)
open State (Moves)

/-! ## File operations in a tidy tree -/

/-- A tree that was tidy is tidy. -/
def Host.KeepsTidy (h h' : Host) : Prop := h.tree.Tidy → h'.tree.Tidy

/-- So it is over several steps. -/
theorem Host.chains_keepsTidy : Chains Host.KeepsTidy where
  refl := fun _ ht => ht
  trans := fun a b ht => b (a ht)

namespace FileAction

/-- The temporary file of a path of names has a path of names. -/
theorem isWritten_temporary {p : Path} (hp : IsWritten p) : IsWritten (temporary p) := by
  unfold temporary
  cases hlast : p.getLast? with
  | none => simp [IsWritten]
  | some name =>
    obtain ⟨-, hslash, -, -⟩ := hp name (List.mem_of_getLast? hlast)
    have hlength : (name ++ ".tmp").length = name.length + 4 := String.length_append _ _
    have hne {s : String} (hs : s.length < 4) : name ++ ".tmp" ≠ s := by
      rintro rfl
      omega
    refine (hp.of_subset (List.dropLast_subset p)).concat ⟨hne (by decide), ?_, hne (by decide)⟩
      (hne (by decide))
    rw [String.toList_append, List.mem_append]
    exact fun h => h.elim hslash (by decide)

/-- A change that keeps a tree tidy. -/
theorem keepsTidy_change {c : Call} {f : Tree → Except Errno Tree}
    (hf : ∀ t t' : Tree, t.Tidy → f t = .ok t' → t'.Tidy) : StaysIn Host.KeepsTidy (change c f) :=
  staysIn_change (fun _ ht => ht) fun h t ht htidy => hf h.tree t htidy ht

/-- Asking whether a directory can be written to. -/
theorem keepsTidy_isWritable (p : Path) : StaysIn Host.KeepsTidy (isWritable p) :=
  staysIn_isWritable Host.chains_keepsTidy (fun _ ht => ht) p

/-- Making directories at a path of names. -/
theorem keepsTidy_makeDirs {p : Path} (hp : IsWritten p) : StaysIn Host.KeepsTidy (makeDirs p) := by
  refine staysIn_makeDirs Host.chains_keepsTidy (fun _ ht => ht) fun h q t hq ht htidy => ?_
  unfold withDir at ht
  split at ht
  · obtain rfl := Except.ok.inj ht
    exact htidy.makeDir (hp.of_subset hq.subset) ‹_›
  · split_ifs at ht
    obtain rfl := Except.ok.inj ht
    exact htidy

/-- Removing a file. -/
theorem keepsTidy_unlink (p : Path) : StaysIn Host.KeepsTidy (unlink p) :=
  keepsTidy_change fun _ _ ht => ht.unlink

/-- Writing a file whole or not at all at a path of names. -/
theorem keepsTidy_writeWhole {p : Path} (hp : IsWritten p) (text : String) :
    StaysIn Host.KeepsTidy (writeWhole p text) := by
  have hR := Host.chains_keepsTidy
  have hwrite (c : Call) (content : ByteArray) :
      StaysIn Host.KeepsTidy (change c fun t => t.write (temporary p) content) :=
    keepsTidy_change fun _ _ ht => ht.write (isWritten_temporary hp)
  refine .tryCatch hR (.bind hR (keepsTidy_makeDirs (hp.of_subset (List.dropLast_subset p)))
    fun _ => .bind hR (hwrite _ _) fun _ => .bind hR (hwrite _ _) fun _ => .bind hR ?_
    fun _ => ?_) fun e => ?_
  · refine keepsTidy_change fun t t' ht h => ?_
    obtain rfl := Except.ok.inj h
    exact ht
  · exact keepsTidy_change fun _ _ ht => ht.rename hp
  · exact .bind hR (.tryCatch hR (keepsTidy_unlink _) fun _ => staysIn_pure hR ())
      fun _ => staysIn_throw hR e

end FileAction

/-! ## What is kept up -/

/-- The path of a document is one of names. -/
theorem Document.isWritten_path (d : Document) : IsWritten d.path := by
  have hall : ∀ d ∈ all, ∀ name ∈ d.path,
      name ≠ "" ∧ '/' ∉ name.toList ∧ name ≠ "." ∧ name ≠ ".." := by decide
  exact hall d (mem_all d)

/-- So is that of a directory of documents. -/
theorem Document.isWritten_dir {dir : Path} (h : dir ∈ dirs) : IsWritten dir := by
  have hall : ∀ dir ∈ dirs, ∀ name ∈ dir,
      name ≠ "" ∧ '/' ∉ name.toList ∧ name ≠ "." ∧ name ≠ ".." := by decide
  exact hall dir h

/-- A host as it may be found later: files came, went or changed at some places at most, and nothing
fails. -/
structure Host.Resumes (places : List Path) (h h' : Host) : Prop where
  same : Tree.SameBut places h.tree h'.tree
  sound : h'.tree.Sound
  tidy : h'.tree.Tidy
  faults : h'.faults = Faults.none

namespace State

variable {site : Site} {s s' s'' : State}

/-- What an operation keeps up whatever it does: it changes documents at most, directories and links
stay, no link is made, and a tidy tree stays tidy. -/
structure Upkeep (site : Site) (s s' : State) : Prop where
  moves : Moves site Document.all s s'
  keeps : s.host.tree.Keeps s'.host.tree
  links : ∀ p target, s'.host.tree.entry? p = some (.link target) →
    s.host.tree.entry? p = some (.link target)
  tidy : IsWritten s.store.base.path → s.host.tree.Tidy → s'.host.tree.Tidy

/-- In a state whose control directory has no links this is kept up. -/
def KeepsUp (site : Site) (s s' : State) : Prop :=
  s.Sited site → (s.store.memory.isSome → s.store.isReady) → s.Upkeep site s'

/-- The store lies where it did. -/
theorem Moves.base_eq {changed : List Document} (h : Moves site changed s s') :
    s'.store.base = s.store.base := by
  rw [Store.base, Store.base, h.root, h.controlDir]

/-- A tree that is not changed. -/
theorem Upkeep.of_tree {changed : List Document} (h : Moves site changed s s')
    (htree : s'.host.tree = s.host.tree) : s.Upkeep site s' where
  moves := h.mono fun d _ => d.mem_all
  keeps := fun _ _ he _ => htree ▸ he
  links := fun _ _ he => htree ▸ he
  tidy := fun _ ht => htree ▸ ht

/-- Two operations one after the other. -/
theorem Upkeep.trans (h : s.Upkeep site s') (h' : s'.Upkeep site s'') : s.Upkeep site s'' where
  moves := h.moves.trans h'.moves
  keeps := fun p e he hfile => h'.keeps p e (h.keeps p e he hfile) hfile
  links := fun p target he => h.links p target (h'.links p target he)
  tidy := fun hbase ht => h'.tidy (h.moves.base_eq ▸ hbase) (h.tidy hbase ht)

/-- What each of several operations keeps up all of them do. -/
theorem chains_keepsUp (site : Site) : Chains (KeepsUp site) where
  refl := fun s _ _ => .of_tree (Moves.refl s : Moves site [] s s) rfl
  trans := fun a b hs hmem =>
    (a hs hmem).trans (b ((a hs hmem).moves.sited hs) ((a hs hmem).moves.ready hmem))

/-- A state in which documents are written to files: nothing is in the way, and the directories of
documents are there. -/
structure Furnished (site : Site) (s : State) : Prop extends s.Clear site where
  isReady : s.store.isReady
  memory : s.store.memory = none
  made : ∀ dir ∈ Document.dirs, s.host.tree.entry? (site.place dir) = some .dir

/-- Such a state is left by whatever keeps up what operations do. -/
theorem Upkeep.furnished (h : s.Upkeep site s') (hs : Furnished site s) : Furnished site s' := by
  obtain ⟨hready, hmode⟩ := h.moves.mode hs.isReady
  refine ⟨h.moves.clear hs.toClear, hready, ?_, fun dir hdir => ?_⟩
  · rw [← Option.not_isSome_iff_eq_none, hmode, hs.memory]
    exact Bool.false_ne_true
  · exact h.keeps _ _ (hs.made dir hdir) (by simp)

/-- After files came, went or changed there is nothing in the way still. -/
theorem Furnished.clear_of_sameBut (h : Furnished site s) {places : List Path}
    (hsame : Tree.SameBut places s.host.tree s'.host.tree) (hs : s'.host.tree.Sound)
    (hfaults : s'.host.faults = Faults.none) (hbase : s'.store.base.path = s.store.base.path)
    (hroot : s'.store.isReady = false → s'.host.tree.isDir s'.store.root.path)
    (hready : s'.store.memory.isSome → s'.store.isReady) : s'.Clear site where
  path := hbase.trans h.path
  sound := hs
  leads := hsame.at?_dir h.leads
  plain := h.plain
  noLink := by
    intro ps target hps hlink
    have hout := hsame.symm.notMem hlink (by simp)
    exact h.noLink ps target hps ((hsame.entry _ hout).symm.trans hlink)
  faults := hfaults
  dirs := by
    intro dir hdir qs content ⟨rest, hrest⟩ hentry
    -- On the way to a directory there are directories, and these stay.
    have hmade : s.host.tree.entry? (site.top ++ qs ++ rest) = some .dir := by
      rw [List.append_assoc, hrest]
      exact h.made dir hdir
    have hup : s.host.tree.entry? (site.top ++ qs) = some .dir := by
      rcases eq_or_ne rest [] with rfl | hne
      · rwa [List.append_nil] at hmade
      · exact h.sound.of_append hne (by rw [hmade]; rfl)
    have hout := hsame.notMem hup (by simp)
    cases ((hsame.entry _ hout).trans hup).symm.trans hentry
  documents := fun d => hsame.fileOrFree (h.documents d)
  temporaries := fun d => hsame.fileOrFree (h.temporaries d)
  root := hroot
  ready := hready

end State

namespace StoreAction

variable {site : Site} {s s' : State}

/-! ## The steps of operations -/

/-- A relation that the steps of operations stay in. -/
structure Stays (R : State → State → Prop) : Prop extends Chains R where
  ensureReady : StaysIn R ensureReady
  readText : ∀ d, StaysIn R (readText d)
  writeText : ∀ d text, StaysIn R (writeText d text)
  drawId : StaysIn R drawId

/-- Writing the file of a document touches this and the temporary file only. -/
theorem touches_writeWhole (hs : s.Sited site) (d : Document) (text : String) :
    Ends (FileAction.writeWhole (s.store.place d).path text) s.host fun _ host =>
      Tree.Touches (site.place d.dir) [site.place d.path, site.place (temporary d.path)]
        s.host.tree host.tree := by
  refine (writeWhole_place hs d text).mono ?_
  rintro (e | ⟨⟩) host ⟨-, hend⟩
  · exact hend.1.mono (by simp)
  · exact hend.1

/-- Making the workspace ready. -/
theorem keepsUp_ensureReady : StaysIn (State.KeepsUp site) ensureReady := by
  intro s hs hmem
  have hgains := staysIn_ensureReady s
  refine ⟨(ensureReady_spec hs hmem).moves.mono (List.nil_subset _), ?_, ?_, fun hbase => ?_⟩
  · intro p e he _
    rcases hgains.2.2 p with hsame | ⟨hnone, -⟩
    · exact hsame.trans he
    · cases he.symm.trans hnone
  · intro p target he
    rcases hgains.2.2 p with hsame | ⟨-, hdir⟩
    · exact hsame.symm.trans he
    · cases hdir.symm.trans he
  · refine (onHosts_ensureReady Host.chains_keepsTidy s (FileAction.keepsTidy_isWritable _)
      fun dir hdir => FileAction.keepsTidy_makeDirs ?_).2
    rw [Place.below_path]
    exact isWritten_append.2 ⟨hbase, Document.isWritten_dir hdir⟩

/-- Reading a document leaves the tree. -/
theorem tree_readText (d : Document) :
    StaysIn (State.OnHosts fun h h' => h'.tree = h.tree) (readText d) := by
  have hR : Chains fun h h' : Host => h'.tree = h.tree := ⟨fun _ => rfl, fun a b => b.trans a⟩
  refine onHosts_readText hR (fun p => ?_) d
  refine FileAction.staysIn_call (fun _ => rfl) fun h bytes t ht => ?_
  cases hread : h.tree.bytes p with
  | error e =>
    rw [hread] at ht
    cases ht
  | ok content =>
    rw [hread] at ht
    exact (Prod.mk.inj (Except.ok.inj ht)).2.symm

/-- Reading a document. -/
theorem keepsUp_readText (d : Document) : StaysIn (State.KeepsUp site) (readText d) :=
  fun s hs _ => .of_tree (readText_spec hs d).moves (tree_readText d s).2

/-- Writing a document. -/
theorem keepsUp_writeText (d : Document) (text : String) :
    StaysIn (State.KeepsUp site) (writeText d text) := by
  have hR := State.chains_keepsUp site
  refine .bind hR keepsUp_ensureReady fun _ => staysIn_get fun s => ?_
  cases hmem : s.store.memory with
  | some kept =>
    intro _ _
    refine .of_tree (.of_memory (by rw [hmem]; rfl) fun d' (hd' : d' ∉ [d]) => ?_) rfl
    rw [kept?_keep hmem, if_neg (by simpa using hd')]
  | none =>
    intro hs hready
    have htouches := touches_writeWhole hs d text
    have hkeeps : Ends (FileAction.writeWhole (s.store.place d).path text) s.host fun _ host =>
        s.host.tree.Keeps host.tree := htouches.mono fun _ _ ht => ht.keeps
    have hlinks : Ends (FileAction.writeWhole (s.store.place d).path text) s.host fun _ host =>
        ∀ p target, host.tree.entry? p = some (.link target) →
          s.host.tree.entry? p = some (.link target) := htouches.mono fun _ _ ht _ _ => ht.link
    -- The three facts are about one run and are put together at the end.
    have hmoves : Ends (FileAction.writeWhole (s.store.place d).path text) s.host fun _ host =>
        Moves site Document.all s { s with host } := by
      refine (writeWhole_spec hs d text).mono ?_
      rintro (e | ⟨⟩) host hend
      · exact hend.1.mono (List.nil_subset _)
      · exact hend.1.mono fun d _ => d.mem_all
    have htidy : IsWritten s.store.base.path →
        StaysIn Host.KeepsTidy (FileAction.writeWhole (s.store.place d).path text) := by
      intro hbase
      refine FileAction.keepsTidy_writeWhole ?_ text
      rw [Store.place, Place.below_path]
      exact isWritten_append.2 ⟨hbase, d.isWritten_path⟩
    refine ends_files (Q := fun _ s' => s.Upkeep site s')
      (P := fun _ host => s.Upkeep site { s with host })
      ⟨hmoves, hkeeps, hlinks, fun hbase => htidy hbase s.host⟩ fun res host hfile => ?_
    have hs' := hfile.moves.sited hs
    cases res with
    | ok => exact hfile.trans (staysIn_pure hR () { s with host } hs' hready)
    | error e => exact hfile.trans (staysIn_fileError hR d e { s with host } hs' hready)

/-- Drawing a name. -/
theorem keepsUp_drawId : StaysIn (State.KeepsUp site) drawId :=
  fun s _ _ => .of_tree ((drawId_spec site s).2.1) rfl

/-- The steps of operations keep up what they are to. -/
theorem stays_keepsUp (site : Site) : Stays (State.KeepsUp site) where
  toChains := State.chains_keepsUp site
  ensureReady := keepsUp_ensureReady
  readText := keepsUp_readText
  writeText := keepsUp_writeText
  drawId := keepsUp_drawId

/-! ## Operations by their steps -/

/-- Reading the value of a document is reading its text. -/
theorem staysIn_readJson {R : State → State → Prop} (hR : Chains R) {d : Document}
    (hread : StaysIn R (readText d)) : StaysIn R (readJson d) := by
  refine .bind hR hread fun text => ?_
  cases text with
  | none => exact staysIn_pure hR none
  | some text =>
    dsimp only
    split
    · exact staysIn_pure hR _
    · exact staysIn_pure hR none
    · exact staysIn_throw hR _

/-- An operation whose failure to read or write is suppressed. -/
theorem staysIn_suppress {R : State → State → Prop} (hR : Chains R) {a : StoreAction Unit}
    (ha : StaysIn R a) : StaysIn R (suppress a) := by
  refine .tryCatch hR ha fun e => ?_
  split
  · exact staysIn_pure hR ()
  · exact staysIn_throw hR _

namespace Stays

variable {R : State → State → Prop} (h : Stays R)
include h

/-- Reading the value of a document. -/
theorem readJson (d : Document) : StaysIn R (StoreAction.readJson d) :=
  staysIn_readJson h.toChains (h.readText d)

/-- Writing the value of a document. -/
theorem writeJson (d : Document) (j : Json) : StaysIn R (StoreAction.writeJson d j) := by
  unfold StoreAction.writeJson
  split_ifs
  · exact h.writeText d j.stored
  · exact staysIn_throw h.toChains _

/-- Storing an artifact. -/
theorem storeArtifact (m : Artifact.Made) : StaysIn R (Artifacts.store m) := by
  have hload : StaysIn R (Artifacts.load m.kind) :=
    .bind h.toChains h.ensureReady fun _ => .bind h.toChains (h.readJson _) fun _ =>
      staysIn_pure h.toChains _
  refine .bind h.toChains h.ensureReady fun _ => .bind h.toChains hload fun former =>
    .bind h.toChains ?_ fun _ => .bind h.toChains h.drawId fun id => staysIn_get fun s => ?_
  · cases former with
    | none => exact staysIn_pure h.toChains ()
    | some e => exact staysIn_suppress h.toChains (h.writeJson _ _)
  · exact StaysIn.bind h.toChains (h.writeJson _ _) (fun _ => staysIn_pure h.toChains _) s

end Stays

/-! ## Clear states -/

/-- In a clear state making the directory of some documents succeeds, and the directory is there. -/
theorem makeDirs_makes (hc : s.Clear site) {dir : Path} (hdir : dir ∈ Document.dirs) :
    Ends (FileAction.makeDirs (s.store.base.below dir).path) s.host fun res host =>
      res = .ok () ∧ Moves site [] s { s with host } ∧ s.host.tree.Keeps host.tree ∧
        host.tree.entry? (site.place dir) = some .dir := by
  have hup : ".." ∉ dir := fun hin => (Document.isWritten_dir hdir _ hin).2.2.2 rfl
  have hpath : (s.store.base.below dir).path = site.start ++ (site.names ++ dir) := by
    rw [Place.below_path, hc.path, List.append_assoc]
  have hmade := FileAction.makeDirs_spec s.host (hc.route hup) (List.prefix_refl _)
  rw [← hpath] at hmade
  refine (hmade.and (makeDirs_spec hc.toSited hdir)).mono ?_
  rintro res host ⟨⟨-, ht, hentry, -⟩, hm, hok⟩
  exact ⟨hok hc, hm, ht.keeps, hentry (hok hc)⟩

/-- In a clear state whose workspace was not made ready, the directories of documents are there once
it is. -/
theorem ensureReady_makes (hc : s.Clear site) (hnot : s.store.isReady = false) :
    Ends ensureReady s fun _ s' =>
      ∀ dir ∈ Document.dirs, s'.host.tree.entry? (site.place dir) = some .dir := by
  unfold ensureReady
  refine ends_get ?_
  rw [if_neg (by simp [hnot]), if_neg (by simp [hc.root hnot])]
  refine ends_files (isWritable_spec s.store.root.path s.host) fun res host hasked => ?_
  obtain ⟨hf, htree, hwritable⟩ := hasked
  obtain rfl := hwritable hc.faults
  have hm₁ : Moves site [] s { s with host } := .of_tree hf htree
  have hc₁ := hm₁.clear hc
  refine ends_files (P := fun res host => res = .ok () ∧
    ∀ dir ∈ Document.dirs, host.tree.entry? (site.place dir) = some .dir) ?_ ?_
  · -- One directory is made after the other, and the control directory lies above both.
    refine (makeDirs_makes hc₁ (by decide : Document.artifactsDir ∈ Document.dirs)).bind_ok ?_
    rintro host₂ ⟨hm₂, -, hartifacts⟩
    have hc₂ := hm₂.clear hc₁
    refine (makeDirs_makes hc₂ (by decide : Document.cacheDir ∈ Document.dirs)).mono ?_
    rintro res host₃ ⟨hok, hm₃, hkeeps, hcache⟩
    refine ⟨hok, fun dir hdir => ?_⟩
    have hartifacts' := hkeeps _ _ hartifacts (by simp)
    rcases (by simpa [Document.dirs] using hdir :
      dir = [] ∨ dir = Document.artifactsDir ∨ dir = Document.cacheDir) with rfl | rfl | rfl
    · have hs₃ := hm₃.sited (hm₂.sited hc₁.toSited)
      refine hs₃.sound.of_append (q := Document.cacheDir) (by decide) ?_
      rw [Site.place, List.append_nil, List.append_assoc]
      exact Option.isSome_iff_exists.2 ⟨_, hcache⟩
    · exact hartifacts'
    · exact hcache
  · rintro res host' ⟨rfl, hdirs⟩
    exact ends_changeStore hdirs

/-- The path of a directory of documents leads to its place. -/
theorem at?_dir (hs : s.Sited site) {dir : Path} (hdir : dir ∈ Document.dirs)
    (hentry : s.host.tree.entry? (site.place dir) = some .dir) :
    s.host.tree.at? (s.store.base.below dir).path = .ok (site.place dir, .dir) := by
  have hup : ".." ∉ dir := fun hin => (Document.isWritten_dir hdir _ hin).2.2.2 rfl
  have hpath : (s.store.base.below dir).path = site.start ++ (site.names ++ dir) := by
    rw [Place.below_path, hs.path, List.append_assoc]
  rw [hpath]
  rcases eq_or_ne (site.names ++ dir) [] with hnil | hne
  · rw [Site.place, hnil, List.append_nil, List.append_nil]
    exact hs.leads
  · exact (hs.route hup).at?_of_entry hne hentry

/-- Making a workspace ready leaves a tree in which the directories of documents are there. -/
theorem tree_ensureReady (hs : s.Sited site)
    (hdirs : ∀ dir ∈ Document.dirs, s.host.tree.entry? (site.place dir) = some .dir) :
    Ends ensureReady s fun _ s' => s'.host.tree = s.host.tree := by
  have hR : Chains fun h h' : Host => h.tree = s.host.tree → h'.tree = s.host.tree :=
    ⟨fun _ h => h, fun a b h => b (a h)⟩
  refine (onHosts_ensureReady hR s (FileAction.staysIn_isWritable hR (fun _ h => h) _)
    fun dir hdir => ?_).2 rfl
  have hthere := FileAction.withDir_start (at?_dir hs hdir (hdirs dir hdir))
  intro h htree
  refine FileAction.ends_makeDirs (Q := fun _ h' => h'.tree = s.host.tree) (fun _ _ => htree)
    (fun t ht => ?_) (fun _ _ _ => htree) fun herror => ?_
  · rw [htree, hthere] at ht
    exact (Except.ok.inj ht).symm
  · rw [htree, hthere] at herror
    cases herror

/-- Writing a document in a furnished state changes its file and the temporary one only. -/
theorem writeJson_sameBut (h : s.Furnished site) (d : Document) (j : Json) :
    Ends (writeJson d j) s fun _ s' =>
      Tree.SameBut [site.place d.path, site.place (temporary d.path)] s.host.tree s'.host.tree := by
  have hfree : ∀ p ∈ [site.place d.path, site.place (temporary d.path)],
      s.host.tree.FileOrFree p := by
    intro p hp
    rcases List.mem_pair.1 hp with rfl | rfl
    · exact h.documents d
    · exact h.temporaries d
  unfold writeJson
  -- A value with a number that is too long is refused before anything is written.
  split_ifs
  · have hwrite := touches_writeWhole h.toSited d j.stored
    unfold Ends at hwrite ⊢
    rw [run_writeText h.isReady h.memory]
    rcases hrun : (FileAction.writeWhole (s.store.place d).path j.stored).run s.host with
      ⟨_ | _, host⟩
    all_goals
      rw [hrun] at hwrite
      exact hwrite.sameBut h.sound (h.made _ d.dir_mem) hfree
  · exact Ends.of_eq (run_throw _ s) ⟨fun _ _ => rfl, hfree, hfree⟩

end StoreAction

end CodeSurvey.Storage
