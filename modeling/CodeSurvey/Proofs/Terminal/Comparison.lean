import CodeSurvey.Proofs.Terminal.Command

/-!
# A comparison after a scan

A scan saves its snapshot last, so what differs from the workspace that it was taken of is the file
of the snapshot and its temporary one (`snapshotPlaces`), and whatever is touched later. A
comparison says that nothing has changed if that is not told of (`no_change_after_scan`). There are
two ways in which it is not:

* The files that differ are sheltered from snapshots: nothing that is listed leads to them, and the
  ignore file is none of them (`ChangesSheltered`). There may be links in the workspace.
* There are no links, the control directory is ignored, and no file outside of it is touched
  (`ChangesInside`). Within it directories and files may come, go and change, as long as
  nothing is in the way, and the last snapshot and the settings stay.

Where the snapshot that a scan saves is listed this fails: with settings that deny no names a change
is told though no file was touched (`change_after_scan_with_no_denied_names`).
-/

namespace CodeSurvey.Terminal.Command

open CodeSurvey.Artifact CodeSurvey.Files CodeSurvey.Settings CodeSurvey.Storage CodeSurvey.Survey
open State (Furnished Upkeep settingsFile)
open FileAction (temporary)

/-- The places of the last snapshot and of the temporary file that it is written to. -/
def snapshotPlaces (site : Storage.Site) : List Path :=
  [site.place Document.snapshot.path, site.place (temporary Document.snapshot.path)]

variable {st later : Session} {p : Place} {site : Storage.Site} {c : Config} {o : Options}
  {only : List String} {report : Scan.Report} {s s' : State} {snap : Snapshot}
  {touched : List Path} {top : Path} {describe : Bool} {timeout : Option Float}

/-- What the command of a scan is told does not change what is walked. -/
theorem matcherOf_scanOptions (w : Workspace) (o : Options) (describe : Bool)
    (timeout : Option Float) :
    matcherOf w (scanOptions o describe timeout) = matcherOf w o ∧
      (scanOptions o describe timeout).limits = o.limits := by
  cases timeout <;> exact ⟨rfl, rfl⟩

/-! ## What a scan leaves -/

/-- The tree stays tidy. -/
theorem tidy_of_upkeep (hup : (st.opening p).Upkeep site s) (hwritten : IsWritten p.path)
    (ht : st.host.tree.Tidy) : s.host.tree.Tidy := by
  refine hup.tidy ?_ ht
  change IsWritten (p.below [controlDirName]).path
  rw [Place.below_path]
  exact isWritten_append.2 ⟨hwritten, by simp [IsWritten, controlDirName]⟩

/-- A workspace without links has none afterwards. -/
theorem proper_of_upkeep (hup : (st.opening p).Upkeep site s) (hc : (st.opening p).Clear site)
    (ht : s.host.tree.Tidy) (hw : (st.workspace p).Proper top) :
    Workspace.Proper ⟨s.host.tree, p.path, fun _ => false⟩ top :=
  have hsound : s.host.tree.Sound := (hup.moves.sited hc.toSited).sound
  have hnoLink : ∀ ps target, s.host.tree.entry? (top ++ ps) ≠ some (.link target) :=
    fun ps target hlink => hw.noLink ps target (hup.links _ _ hlink)
  proper_of_tidy (w := st.workspace p) hsound ht (hup.keeps.at?_dir hw.leads) hnoLink

/-- All files of the workspace can be read. -/
theorem workspaceOf_of_upkeep (hup : (st.opening p).Upkeep site s)
    (hc : (st.opening p).Clear site) :
    Scan.workspaceOf s = ⟨s.host.tree, p.path, fun _ => false⟩ := by
  have hfaults := (hup.moves.clear hc).faults
  rw [Scan.workspaceOf, Host.unreadable_eq hfaults, hup.moves.root]
  rfl

namespace Scanned

/-- What a whole scan keeps up. -/
theorem upkeep_all (h : Scanned site p o only st report s snap s') :
    (st.opening p).Upkeep site s' :=
  h.upkeep.trans h.records.upkeep

/-- The store lies where a store is opened. -/
theorem base_eq (h : Scanned site p o only st report s snap s') :
    s'.store.base = (Store.atPlace p).base :=
  h.upkeep_all.moves.base_eq

/-- The snapshot was taken at the time of the scan, of the workspace before it was saved. -/
theorem taken
    (h : Scanned site p (scanOptions o describe timeout) only st report s snap s')
    (hc : (st.opening p).Clear site) :
    ∃ m, matcherOf ⟨s.host.tree, p.path, fun _ => false⟩ o = .ok m ∧
      snap = .take st.host.nowText ⟨s.host.tree, p.path, fun _ => false⟩ o.limits m := by
  obtain ⟨m, hm, hsnap⟩ := h.records.taken
  obtain ⟨hmatcher, hlimits⟩ := matcherOf_scanOptions (Scan.workspaceOf s) o describe timeout
  have hnow : s.host.nowText = st.host.nowText := by
    rw [Host.nowText, h.upkeep.moves.host.now]
    rfl
  rw [hmatcher, workspaceOf_of_upkeep h.upkeep hc] at hm
  rw [hlimits, workspaceOf_of_upkeep h.upkeep hc, hnow] at hsnap
  exact ⟨m, hm, hsnap⟩

/-! ## A later session -/

/-- Files that come, go or change leave the control directory as it is needed. -/
theorem clear_later (h : Scanned site p o only st report s snap s')
    (hc : (st.opening p).Clear site) (hlater : s'.host.Resumes touched later.host) :
    (later.opening p).Clear site ∧
      ∀ dir ∈ Document.dirs, later.host.tree.entry? (site.place dir) = some .dir := by
  have hfurnished := h.records.furnished
  refine ⟨hfurnished.clear_of_sameBut hlater.same hlater.sound hlater.faults ?_ ?_ ?_, ?_⟩
  · rw [h.base_eq]
    rfl
  · intro _
    obtain ⟨q, hat⟩ := Tree.isDir_iff.1 (hc.root rfl)
    exact Tree.isDir_iff.2 ⟨q, hlater.same.at?_dir (h.upkeep_all.keeps.at?_dir hat)⟩
  · exact fun hmem => by cases hmem
  · intro dir hdir
    have hmade := hfurnished.made dir hdir
    exact (hlater.same.entry _ (hlater.same.notMem hmade (by simp))).trans hmade

/-- The snapshot is there still if its file was not touched. -/
theorem text?_later (h : Scanned site p o only st report s snap s')
    (hc : (later.opening p).Clear site)
    (hsnapshot : later.host.tree.entry? (site.place Document.snapshot.path) =
      s'.host.tree.entry? (site.place Document.snapshot.path)) :
    (later.opening p).text? .snapshot = some snap.toJson.stored := by
  have hdisk : (later.opening p).disk? .snapshot = s'.disk? .snapshot := by
    rw [hc.disk?_eq, h.records.furnished.disk?_eq]
    exact hsnapshot
  have htext := h.records.text
  have hmemory := h.records.furnished.memory
  rw [State.text?, if_neg (by simp [hmemory]), ← hdisk] at htext
  rwa [State.text?, if_neg (by exact Bool.false_ne_true)]

/-- The settings are the same if their file was not touched. -/
theorem load_later (h : Scanned site p o only st report s snap s')
    (hc : (st.opening p).Clear site) (hc' : (later.opening p).Clear site)
    (hsettings : later.host.tree.entry? (site.place settingsFile) =
      s'.host.tree.entry? (site.place settingsFile)) :
    load (later.workspace p) = load (st.workspace p) := by
  have hbase : s'.store.base.path = p.path ++ [controlDirName] := by
    rw [h.base_eq]
    exact Place.below_path _ _
  have hfile : (later.opening p).fileAt? site settingsFile = s'.fileAt? site settingsFile := by
    rw [State.fileAt?, State.fileAt?, ← hsettings]
    rfl
  have hscan := h.upkeep_all.moves.load_eq hc (Place.below_path _ _) (fun _ => false)
  exact (h.records.furnished.toSited.load_eq hc'.toSited hbase hfile _).trans hscan

/-- The control directory lies in the workspace where there are no links. -/
theorem place_nil_eq (h : Scanned site p o only st report s snap s')
    (hw : Workspace.Proper ⟨s'.host.tree, p.path, fun _ => false⟩ top) :
    site.place [] = top ++ [controlDirName] := by
  have hfurnished := h.records.furnished
  have hdir : ([] : Path) ∈ Document.dirs := by decide
  have hat := StoreAction.at?_dir hfurnished.toSited hdir (hfurnished.made [] hdir)
  rw [Place.below_path, List.append_nil, h.base_eq, Store.base, Place.below_path] at hat
  have hentry := hw.entry?_of_at? (by decide) (List.cons_ne_nil _ []) hat
  have hat' := hw.at?_locate hentry
  exact (Prod.mk.inj (Except.ok.inj (hat.symm.trans hat'))).1

/-- Snapshots before and after the scan has saved its own tell of no change, if nothing is listed
that leads to the files that differ. -/
theorem hasChanged_eq_false
    (h : Scanned site p (scanOptions o describe timeout) only st report s snap s')
    (hc : (st.opening p).Clear site) (hwritten : IsWritten p.path) (ht : st.host.tree.Tidy)
    (hlater : s'.host.Resumes touched later.host)
    (hshelter : Sheltered ⟨s'.host.tree, p.path, fun _ => false⟩ o
      (snapshotPlaces site ++ touched)) (takenAt : String) :
    ∃ m, matcherOf (later.workspace p) o = .ok m ∧
      Snapshot.hasChanged (some snap) (.take takenAt (later.workspace p) o.limits m) = false := by
  obtain ⟨m, hm, hsnap⟩ := h.taken hc
  have hsaved : Tree.SameBut (snapshotPlaces site) s.host.tree s'.host.tree := h.records.same
  -- What differs between the two snapshots is what differs after the scan as well.
  have hsame := hsaved.append hlater.same
  have hback : Tree.SameBut (snapshotPlaces site ++ touched) s'.host.tree s.host.tree :=
    hsaved.symm.mono (List.subset_append_left _ _) fun q hq =>
      (List.mem_append.1 hq).elim (hsaved.free' q) (hlater.same.free q)
  have hroot : Workspace.isDir ⟨s.host.tree, p.path, fun _ => false⟩ [] := by
    obtain ⟨q, hat⟩ := Tree.isDir_iff.1 (hc.root rfl)
    refine Tree.isDir_iff.2 ⟨q, ?_⟩
    rw [Workspace.locate, List.append_nil]
    exact h.upkeep.keeps.at?_dir hat
  have hsound : s.host.tree.Sound := (h.upkeep.moves.sited hc.toSited).sound
  obtain ⟨hm', hunchanged⟩ := (hshelter.of_sameBut hback).hasChanged_eq_false hroot hsound
    (tidy_of_upkeep h.upkeep hwritten ht) hlater.sound hlater.tidy hsame hm st.host.nowText takenAt
  refine ⟨m, hm', ?_⟩
  rw [hsnap]
  exact hunchanged

/-- Nothing needs to be touched after the scan. -/
theorem resumes (h : Scanned site p o only st report s snap s') (hwritten : IsWritten p.path)
    (ht : st.host.tree.Tidy) : s'.host.Resumes [] s'.host where
  same := ⟨fun _ _ => rfl, by simp, by simp⟩
  sound := h.records.furnished.sound
  tidy := tidy_of_upkeep h.upkeep_all hwritten ht
  faults := h.records.furnished.faults

section Linkless

variable (h : Scanned site p (scanOptions o describe timeout) only st report s snap s')
  (hc : (st.opening p).Clear site) (hwritten : IsWritten p.path) (ht : st.host.tree.Tidy)
  (hw : (st.workspace p).Proper top)
include h hc hwritten ht hw

/-- Without links the snapshot is saved in the control directory of the workspace, so the files
outside of it stay. -/
theorem file_iff_outside {q : Path} (hq : ¬ [controlDirName] <+: q) (content : ByteArray) :
    s.host.tree.entry? (top ++ q) = some (.file content) ↔
      s'.host.tree.entry? (top ++ q) = some (.file content) := by
  have hwhere := h.place_nil_eq
    (proper_of_upkeep h.upkeep_all hc (tidy_of_upkeep h.upkeep_all hwritten ht) hw)
  have hout : top ++ q ∉ snapshotPlaces site := by
    intro hin
    refine hq ((List.prefix_append_right_inj top).1 ?_)
    rw [← hwhere]
    rcases List.mem_pair.1 hin with heq | heq
    · exact heq ▸ Site.place_prefix.2 List.nil_prefix
    · exact heq ▸ Site.place_prefix.2 List.nil_prefix
  rw [h.records.same.entry _ hout]

/-- The matcher is the same after the snapshot was saved. -/
theorem matcherOf_saved : matcherOf ⟨s'.host.tree, p.path, fun _ => false⟩ o =
    matcherOf ⟨s.host.tree, p.path, fun _ => false⟩ o :=
  matcherOf_eq_of_outside
    (proper_of_upkeep h.upkeep hc (tidy_of_upkeep h.upkeep hwritten ht) hw)
    (proper_of_upkeep h.upkeep_all hc (tidy_of_upkeep h.upkeep_all hwritten ht) hw)
    (fun _ => rfl) (fun _ => rfl)
    (fun _ content hq => h.file_iff_outside hc hwritten ht hw hq content) o

/-- Snapshots tell of no change if the same files stand outside of the control directory, and that
is ignored. -/
theorem hasChanged_eq_false_of_outside {w : Workspace} (hw' : w.Proper top)
    (hreadable : ∀ q, w.unreadable q = false)
    (hdir : w.tree.entry? (site.place []) = some .dir)
    (hfiles : ∀ q content, ¬ [controlDirName] <+: q →
      (w.tree.entry? (top ++ q) = some (.file content) ↔
        s'.host.tree.entry? (top ++ q) = some (.file content)))
    (hignored : ∀ m, matcherOf ⟨s'.host.tree, p.path, fun _ => false⟩ o = .ok m →
      m.ignoresParts [controlDirName] true) (takenAt : String) :
    ∃ m, matcherOf w o = .ok m ∧
      Snapshot.hasChanged (some snap) (.take takenAt w o.limits m) = false := by
  obtain ⟨m, hm, hsnap⟩ := h.taken hc
  have hproper := proper_of_upkeep h.upkeep hc (tidy_of_upkeep h.upkeep hwritten ht) hw
  have hwhere := h.place_nil_eq
    (proper_of_upkeep h.upkeep_all hc (tidy_of_upkeep h.upkeep_all hwritten ht) hw)
  -- The control directory was there before, because saving touches files in it only.
  have hdir' : s.host.tree.entry? (top ++ [controlDirName]) = some .dir := by
    have hmade := h.records.furnished.made [] (by decide)
    have hout := Tree.SameBut.notMem h.records.same.symm hmade (by simp)
    rw [← hwhere]
    exact (h.records.same.entry _ hout).symm.trans hmade
  have hfiles' (q : Path) (content : ByteArray) (hq : ¬ [controlDirName] <+: q) :
      s.host.tree.entry? (top ++ q) = some (.file content) ↔
        w.tree.entry? (top ++ q) = some (.file content) :=
    (h.file_iff_outside hc hwritten ht hw hq content).trans (hfiles q content hq).symm
  have hm' := hignored m ((h.matcherOf_saved hc hwritten ht hw).trans hm)
  obtain ⟨hlater, hunchanged⟩ := Survey.hasChanged_eq_false_of_outside hproper hw' (fun _ => rfl)
    hreadable hfiles' hdir' (hwhere ▸ hdir) hm hm' st.host.nowText takenAt
  refine ⟨m, hlater, ?_⟩
  rw [hsnap]
  exact hunchanged

/-- Where the file of the snapshot is listed, and was not there before the scan, a change is
told. -/
theorem hasChanged_of_listed
    (hnone : s.host.tree.entry? (site.place Document.snapshot.path) = none) {m : Ignore.Matcher}
    (hkept : m.ignoresParts ([controlDirName] ++ Document.snapshot.path) false = false)
    (hdepth : 3 ≤ o.maxDepth) (takenAt : String) :
    Snapshot.hasChanged (some snap)
      (.take takenAt ⟨s'.host.tree, p.path, fun _ => false⟩ o.limits m) = true := by
  obtain ⟨m₀, -, hsnap⟩ := h.taken hc
  have htidy' := tidy_of_upkeep h.upkeep_all hwritten ht
  have hproper := proper_of_upkeep h.upkeep hc (tidy_of_upkeep h.upkeep hwritten ht) hw
  have hproper' := proper_of_upkeep h.upkeep_all hc htidy' hw
  have hplace : site.place Document.snapshot.path =
      top ++ ([controlDirName] ++ Document.snapshot.path) := by
    rw [← List.append_assoc, ← h.place_nil_eq hproper', Site.place, Site.place, List.append_nil,
      List.append_assoc]
  obtain ⟨content, hentry⟩ : ∃ content,
      s'.host.tree.entry? (site.place Document.snapshot.path) = some (.file content) := by
    have hfurnished := h.records.furnished
    have htext := h.records.text
    rw [State.text?, if_neg (by simp [hfurnished.memory]), hfurnished.disk?_eq] at htext
    split at htext
    · exact ⟨_, ‹_›⟩
    · cases htext
  -- The file is listed in the second snapshot, so it would have been there for the first one.
  by_contra hsame
  rw [Bool.not_eq_true, hsnap, Snapshot.hasChanged_eq_false (isListing_take hproper _)
    (isListing_take hproper' _)] at hsame
  have hsurveys : Surveys ⟨s'.host.tree, p.path, fun _ => false⟩ top o.limits m
      ([controlDirName] ++ Document.snapshot.path) content :=
    ⟨⟨List.cons_ne_nil _ _, hplace ▸ hentry, hkept⟩, rfl, le_max_of_le_left hdepth⟩
  obtain ⟨q, content', hsurveys', hpath, -⟩ := (mem_digests hproper).1
    ((hsame _).2 ((mem_digests hproper').2 ⟨_, content, hsurveys, rfl, rfl⟩))
  obtain rfl := hsurveys.path_inj hproper' hproper hsurveys' hpath
  rw [hplace, hsurveys'.keeps.entry] at hnone
  cases hnone

end Linkless

end Scanned

/-! ## No change -/

/-- A scan that comes to its end is told by its parts. -/
theorem scanned_of_scan (hc : (st.opening p).Clear site) (hload : load (st.workspace p) = .ok c)
    (ho : c.options = .ok o) {st' : Session}
    (hscan : ExceptT.run (scan p describe timeout only) st = (.ok (), st')) :
    ∃ report s snap s',
      Scanned site p (scanOptions o describe timeout) only st report s snap s' ∧
        st'.host = s'.host := by
  have hend : Ends (scan p describe timeout only) st _ :=
    ends_options hc.faults hload ho (scanWith_spec hc (scanOptions o describe timeout) only)
  exact hend.of_run hscan rfl

section Comparison

variable (h : Scanned site p (scanOptions o describe timeout) only st report s snap s')
  (hc : (st.opening p).Clear site) (hwritten : IsWritten p.path) (ht : st.host.tree.Tidy)
  (hload : load (st.workspace p) = .ok c) (ho : c.options = .ok o)
  (hc' : (later.opening p).Clear site)
  (hkept : ∀ x ∈ [Document.snapshot.path, settingsFile],
    later.host.tree.entry? (site.place x) = s'.host.tree.entry? (site.place x))
include h hc hwritten ht hload ho hc' hkept

/-- A comparison after a scan says what the snapshot of the scan and one of the present workspace
tell, if the file of the snapshot and the settings were not touched. -/
theorem Scanned.compare_spec {m : Ignore.Matcher} (hm : matcherOf (later.surveyed p) o = .ok m) :
    Ends (compare p) later fun r later' => r = .ok () ∧ later'.printed = later.printed ++
      [.text (Markup.withoutSequences (verdict snap
        (.take later.host.nowText (later.surveyed p) o.limits m)))] := by
  obtain ⟨m', -, hsnap⟩ := h.taken hc
  have honce : (snap.digests.map Prod.fst).Nodup := by
    rw [hsnap]
    exact (isListing_take_of_tidy (tidy_of_upkeep h.upkeep hwritten ht) _).once
  exact Command.compare_spec hc' honce h.records.short (h.text?_later hc' (hkept _ (by simp)))
    ((h.load_later hc hc' (hkept _ (by simp))).trans hload) ho hm

/-- It says that nothing has changed if the snapshots tell of no change. -/
theorem Scanned.compare_unchanged
    (hunchanged : ∃ m, matcherOf (later.surveyed p) o = .ok m ∧ Snapshot.hasChanged (some snap)
      (.take later.host.nowText (later.surveyed p) o.limits m) = false) :
    Ends (compare p) later fun r later' => r = .ok () ∧ later'.printed = later.printed ++
      [.text (Markup.withoutSequences ("No changes since " ++ st.host.nowText ++ "."))] := by
  obtain ⟨m, hm, hunchanged⟩ := hunchanged
  have hcompare := h.compare_spec hc hwritten ht hload ho hc' hkept hm
  have htakenAt : snap.takenAt = st.host.nowText := by
    obtain ⟨m', -, hsnap⟩ := h.taken hc
    rw [hsnap]
    rfl
  rwa [verdict, hunchanged, if_neg Bool.false_ne_true, htakenAt] at hcompare

end Comparison

/-- A later session: files came, went or changed that are sheltered from snapshots, as the last
snapshot is, but neither this nor the settings. -/
structure ChangesSheltered (site : Storage.Site) (p : Place) (o : Options) (touched : List Path)
    (st later : Session) : Prop where
  resumes : st.host.Resumes touched later.host
  kept : ∀ x ∈ [Document.snapshot.path, settingsFile], site.place x ∉ touched
  sheltered : Sheltered (st.workspace p) o (snapshotPlaces site ++ touched)

/-- A later session, where there are no links and the control directory is ignored: no file was
touched outside of it, and in it neither the last snapshot nor the settings. Nothing is in its way
again. -/
structure ChangesInside (site : Storage.Site) (p : Place) (o : Options) (top : Path)
    (st later : Session) : Prop where
  ignored : ∀ m, matcherOf (st.workspace p) o = .ok m → m.ignoresParts [controlDirName] true
  clear : (later.opening p).Clear site
  tidy : later.host.tree.Tidy
  proper : (later.workspace p).Proper top
  kept : ∀ x ∈ [Document.snapshot.path, settingsFile],
    later.host.tree.entry? (site.place x) = st.host.tree.entry? (site.place x)
  outside : ∀ q content, ¬ [controlDirName] <+: q →
    (later.host.tree.entry? (top ++ q) = some (.file content) ↔
      st.host.tree.entry? (top ++ q) = some (.file content))

/-- A comparison after a scan says that nothing has changed, as long as no file is touched but such
as are sheltered from snapshots, where the last snapshot is sheltered as well. Without links the
control directory is sheltered, whatever else happens in it, if it is ignored. -/
theorem no_change_after_scan (hc : (st.opening p).Clear site) (hwritten : IsWritten p.path)
    (ht : st.host.tree.Tidy) (hload : load (st.workspace p) = .ok c) (ho : c.options = .ok o)
    {st' : Session}
    (hscan : ExceptT.run (scan p describe timeout only) st = (.ok (), st'))
    (hlater : (∃ touched, ChangesSheltered site p o touched st' later) ∨
      ∃ top, (st.workspace p).Proper top ∧ ChangesInside site p o top st' later) :
    Ends (compare p) later fun r later' => r = .ok () ∧ later'.printed = later.printed ++
      [.text (Markup.withoutSequences ("No changes since " ++ st.host.nowText ++ "."))] := by
  obtain ⟨report, s, snap, s', h, hst'⟩ := scanned_of_scan hc hload ho hscan
  rcases hlater with ⟨touched, hlater⟩ | ⟨top, hw, hlater⟩
  · obtain ⟨hresumes, hkept, hsheltered⟩ := hlater
    rw [hst'] at hresumes
    rw [Session.workspace, hst'] at hsheltered
    obtain ⟨hc', hmade⟩ := h.clear_later hc hresumes
    refine h.compare_unchanged hc hwritten ht hload ho hc'
      (fun x hx => hresumes.same.entry _ (hkept x hx)) ?_
    rw [surveyed_eq hc' hmade]
    exact h.hasChanged_eq_false hc hwritten ht hresumes hsheltered later.host.nowText
  · have hkept := hlater.kept
    have houtside := hlater.outside
    have hignored := hlater.ignored
    rw [hst'] at hkept houtside
    rw [Session.workspace, hst'] at hignored
    -- Opening the workspace makes directories at most, so the files are the same.
    obtain ⟨hfurnished, hup, -, hgains, -⟩ := opened_spec hlater.clear
    have hproper : (later.surveyed p).Proper top := proper_of_upkeep hup hlater.clear
      (tidy_of_upkeep hup hwritten hlater.tidy) hlater.proper
    refine h.compare_unchanged hc hwritten ht hload ho hlater.clear hkept ?_
    exact h.hasChanged_eq_false_of_outside hc hwritten ht hw hproper (fun _ => rfl)
      (hfurnished.made [] (by decide))
      (fun q content hq => hgains.file_iff.trans (houtside q content hq)) hignored
      later.host.nowText

/-! ## A workspace with settings -/

/-- What stands in a workspace whose settings deny no names, or those that are denied otherwise. The
duration for engines is a whole number. -/
def entriesWith (undenied : Bool) : List (Path × Entry) :=
  [(["a.txt"], .file "x".toUTF8), ([controlDirName], .dir),
    (configPath, .file ("[scan]\nengine_timeout = 60\n" ++
      if undenied then "exclude_patterns = []\n" else "").toUTF8)]

/-- A session on a system with such a workspace. -/
def sessionWith (undenied : Bool) : Session where
  site := ⟨[], ""⟩
  host :=
    { tree := (Workspace.ofEntries (entriesWith undenied)).tree
      faults := Faults.none
      calls := 0
      now := ⟨⟨2024, 5, 1⟩, .midnight, 0⟩
      ids := 0 }
  service := fun _ => ⟨.ok false, fun _ _ _ => .error ⟨"", ""⟩⟩

/-- The place of the workspace. -/
def settledPlace : Place := ⟨["ws"], "/ws"⟩

/-- Where the control directory lies. -/
def settledSite : Storage.Site := ⟨[], [], ["ws", controlDirName]⟩

/-- The workspace has no links. -/
theorem proper_sessionWith (undenied : Bool) :
    ((sessionWith undenied).workspace settledPlace).Proper ["ws"] := by
  have hproper : (Workspace.ofEntries (entriesWith undenied)).Proper ["ws"] := by
    refine Workspace.proper_ofEntries ?_ ?_ ?_ ?_
    · cases undenied <;> decide
    · cases undenied <;> decide
    · cases undenied <;> decide
    · intro y hy target
      simp only [entriesWith, List.mem_cons, List.not_mem_nil, or_false] at hy
      rcases hy with rfl | rfl | rfl <;> simp
  exact hproper

/-- Its tree is tidy. -/
theorem tidy_sessionWith (undenied : Bool) : (sessionWith undenied).host.tree.Tidy where
  once := (proper_sessionWith undenied).once
  below := by cases undenied <;> decide
  written := by
    unfold IsWritten
    cases undenied <;> decide

/-- Nothing is in the way of its control directory. -/
theorem clear_sessionWith (undenied : Bool) :
    ((sessionWith undenied).opening settledPlace).Clear settledSite := by
  have hlinks : ∀ x ∈ (sessionWith undenied).host.tree.entries, ∀ target,
      x.2 ≠ .link target := by
    intro x hx target
    simp only [sessionWith, Workspace.ofEntries, entriesWith, List.map_cons, List.map_nil,
      List.mem_cons, List.not_mem_nil, or_false] at hx
    rcases hx with rfl | rfl | rfl | rfl <;> simp
  have hfree : ∀ d ∈ Document.all,
      ((sessionWith undenied).host.tree.entry? (settledSite.place d.path)).isNone ∧
      ((sessionWith undenied).host.tree.entry?
        (settledSite.place (temporary d.path))).isNone := by
    cases undenied <;> decide +kernel
  -- No file is in the way of a directory of documents.
  have hfiles : ∀ x ∈ (sessionWith undenied).host.tree.entries, x.2.isDir = false →
      ∀ dir ∈ Document.dirs, ¬ x.1 <+: settledSite.names ++ dir := by
    cases undenied <;> decide +kernel
  have hsited : ((sessionWith undenied).opening settledPlace).Sited settledSite :=
    State.sited_of_linkless (proper_sessionWith undenied).sound
      (by cases undenied <;> decide) hlinks
  exact { hsited with
    faults := rfl
    dirs := by
      intro dir hdir qs content hqs hentry
      have hne : qs ≠ [] := by
        rintro rfl
        cases hentry
      exact hfiles _ (Tree.mem_entries hne hentry) rfl dir hdir hqs
    documents := fun d =>
      Tree.fileOrFree_of_none (Option.isNone_iff_eq_none.1 (hfree d d.mem_all).1)
    temporaries := fun d =>
      Tree.fileOrFree_of_none (Option.isNone_iff_eq_none.1 (hfree d d.mem_all).2)
    root := fun _ => Tree.isDir_iff.2 ⟨_, (proper_sessionWith undenied).leads⟩
    ready := fun hmem => by cases hmem }

/-- A scan of the data model comes to its end there. -/
theorem scan_sessionWith (undenied : Bool) :
    ∃ c o report s st', load ((sessionWith undenied).workspace settledPlace) = .ok c ∧
      c.options = .ok o ∧
      o.denied = (if undenied then [] else Ignore.defaultDenied controlDirName) ∧
      o.maxDepth = 10 ∧
      (Scan.run (planOf (sessionWith undenied).service (scanOptions o false none)
        ["dataModel"])).run ((sessionWith undenied).opening settledPlace) = (.ok report, s) ∧
      s.host.tree.entry? (settledSite.place Document.snapshot.path) = none ∧
      (∃ m, matcherOf ⟨s.host.tree, settledPlace.path, fun _ => false⟩ o = .ok m ∧ m.rules = []) ∧
      ExceptT.run (scan settledPlace false none ["dataModel"]) (sessionWith undenied) =
        (.ok (), st') := by
  -- The walk is the one thing that is not looked at.
  have hfacts : (load ((sessionWith undenied).workspace settledPlace)).toOption.any fun c =>
      c.options.toOption.any fun o =>
        let (r, s) := (Scan.run (planOf (sessionWith undenied).service (scanOptions o false none)
          ["dataModel"])).run ((sessionWith undenied).opening settledPlace)
        decide (o.denied = (if undenied then [] else Ignore.defaultDenied controlDirName)) &&
        decide (o.maxDepth = 10) && r.toOption.any (·.errors.isEmpty) &&
        (s.host.tree.entry? (settledSite.place Document.snapshot.path)).isNone &&
        decide (s.host.tree.entries.length < 10) &&
        (matcherOf ⟨s.host.tree, settledPlace.path, fun _ => false⟩ o).toOption.any
          (·.rules.isEmpty) := by
    cases undenied <;> decide +kernel
  obtain ⟨c, hload, hfacts⟩ := exists_of_any_toOption hfacts
  obtain ⟨o, ho, hfacts⟩ := exists_of_any_toOption hfacts
  rcases hrun : (Scan.run (planOf (sessionWith undenied).service (scanOptions o false none)
    ["dataModel"])).run ((sessionWith undenied).opening settledPlace) with ⟨r, s⟩
  rw [hrun] at hfacts
  simp only [Bool.and_eq_true, decide_eq_true_eq, Option.isNone_iff_eq_none] at hfacts
  obtain ⟨⟨⟨⟨⟨hdenied, hdepth⟩, hreport⟩, hnone⟩, hfew⟩, hrules⟩ := hfacts
  obtain ⟨report, rfl, hnoted⟩ := exists_of_any_toOption hreport
  obtain ⟨m, hm, hempty⟩ := exists_of_any_toOption hrules
  have hc := clear_sessionWith undenied
  obtain ⟨hup, -⟩ := (Scan.run_clear hc rfl _).of_run hrun report rfl
  have htidy := tidy_of_upkeep hup (by simp [IsWritten, settledPlace]) (tidy_sessionWith undenied)
  have hproper := proper_of_upkeep hup hc htidy (proper_sessionWith undenied)
  have hrecordable : Scan.IsRecordable (scanOptions o false none) s := by
    obtain ⟨hmatcher, -⟩ := matcherOf_scanOptions (Scan.workspaceOf s) o false none
    refine ⟨m, ?_, ?_⟩
    · rw [hmatcher, workspaceOf_of_upkeep hup hc, hm]
    · rw [workspaceOf_of_upkeep hup hc]
      refine Nat.lt_of_le_of_lt (fileCount_take_le hproper _) ?_
      exact Nat.lt_of_lt_of_le hfew (Nat.le_self_pow (by decide) 10)
  have hends : Ends (scan settledPlace false none ["dataModel"]) (sessionWith undenied)
      fun r _ => r = .ok () :=
    ends_options hc.faults hload ho (scanWith_completes hc (by decide) (by decide +kernel) hrun
      (List.isEmpty_iff.1 hnoted) hrecordable)
  exact ⟨c, o, report, s, _, hload, ho, hdenied, hdepth, hrun, hnone,
    ⟨m, hm, List.isEmpty_iff.1 hempty⟩, Prod.ext hends rfl⟩

/-- Nothing has changed there after the scan if no file is touched. -/
theorem no_change_after_scan_of_data_model :
    ∃ c o st', load ((sessionWith false).workspace settledPlace) = .ok c ∧ c.options = .ok o ∧
      ExceptT.run (scan settledPlace false none ["dataModel"]) (sessionWith false) = (.ok (), st') ∧
      Ends (compare settledPlace) st' fun r later => r = .ok () ∧ later.printed = st'.printed ++
        [.text (Markup.withoutSequences
          ("No changes since " ++ (sessionWith false).host.nowText ++ "."))] := by
  have hc := clear_sessionWith false
  have hwritten : IsWritten settledPlace.path := by simp [IsWritten, settledPlace]
  have ht := tidy_sessionWith false
  obtain ⟨c, o, -, -, st', hload, ho, hdenied, -, -, -, -, hscan⟩ := scan_sessionWith false
  obtain ⟨report, s, snap, s', h, hst'⟩ := scanned_of_scan hc hload ho hscan
  have hresumes : s'.host.Resumes [] st'.host := hst' ▸ h.resumes hwritten ht
  have hdefault : controlDirName ∈ o.denied := by
    rw [hdenied]
    decide
  -- Nothing is done after the scan, so the session has changed in no way at all.
  have hlater : ChangesInside settledSite settledPlace o ["ws"] st' st' :=
    { ignored := fun m hm => ignoresParts_of_denied ((denied_eq hm).symm ▸ hdefault)
        (List.prefix_refl _) true
      clear := (h.clear_later hc hresumes).1
      tidy := hresumes.tidy
      proper := by
        rw [Session.workspace, hst']
        exact proper_of_upkeep h.upkeep_all hc (tidy_of_upkeep h.upkeep_all hwritten ht)
          (proper_sessionWith false)
      kept := fun _ _ => rfl
      outside := fun _ _ _ => .rfl }
  exact ⟨c, o, st', hload, ho, hscan, no_change_after_scan hc hwritten ht hload ho hscan
    (.inr ⟨_, proper_sessionWith false, hlater⟩)⟩

/-- Where the settings deny no names a change is told after the scan though no file is touched: the
scan itself has saved the snapshot in a file that is listed. -/
theorem change_after_scan_with_no_denied_names :
    ∃ c o st', load ((sessionWith true).workspace settledPlace) = .ok c ∧ c.options = .ok o ∧
      ExceptT.run (scan settledPlace false none ["dataModel"]) (sessionWith true) = (.ok (), st') ∧
      Ends (compare settledPlace) st' fun r later => r = .ok () ∧ ∃ takenAt count,
        later.printed = st'.printed ++ [.text (Markup.withoutSequences
          ("Changes detected since " ++ takenAt ++ " (" ++ toString (count : Nat) ++
            " files)."))] := by
  have hc := clear_sessionWith true
  have hwritten : IsWritten settledPlace.path := by simp [IsWritten, settledPlace]
  have ht := tidy_sessionWith true
  obtain ⟨c, o, report₀, s₀, st', hload, ho, hdenied, hdepth, hrun, hnone, ⟨m, hm, hrules⟩,
    hscan⟩ := scan_sessionWith true
  obtain ⟨report, s, snap, s', h, hst'⟩ := scanned_of_scan hc hload ho hscan
  obtain rfl : s₀ = s := (Prod.mk.inj (hrun.symm.trans h.run)).2
  have hresumes : s'.host.Resumes [] st'.host := hst' ▸ h.resumes hwritten ht
  obtain ⟨hc', hmade⟩ := h.clear_later hc hresumes
  have hworkspace : st'.surveyed settledPlace =
      ⟨s'.host.tree, settledPlace.path, fun _ => false⟩ := by
    rw [surveyed_eq hc' hmade, Session.workspace, hst']
  have hm' := (h.matcherOf_saved hc hwritten ht (proper_sessionWith true)).trans hm
  -- With no rules and no denied names the saved snapshot itself is listed.
  have hkept : m.ignoresParts ([controlDirName] ++ Document.snapshot.path) false = false := by
    have hnames : m.denied = [] := (denied_eq hm).trans hdenied
    obtain ⟨rules, names⟩ := m
    obtain rfl : rules = [] := hrules
    obtain rfl : names = [] := hnames
    decide
  have htold := h.hasChanged_of_listed hc hwritten ht (proper_sessionWith true) hnone hkept
    (by omega) st'.host.nowText
  rw [← hworkspace] at htold
  have hcompare := h.compare_spec hc hwritten ht hload ho hc' (fun _ _ => by rw [hst'])
    (hworkspace ▸ hm')
  rw [verdict, htold, if_pos rfl] at hcompare
  refine ⟨c, o, st', hload, ho, hscan, hcompare.mono ?_⟩
  rintro r later ⟨hr, hprinted⟩
  exact ⟨hr, _, _, hprinted⟩

end CodeSurvey.Terminal.Command
