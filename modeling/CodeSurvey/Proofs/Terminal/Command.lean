import CodeSurvey.Proofs.Scan.Upkeep
import CodeSurvey.Terminal.Command

/-!
# What scans and comparisons do

A command prints and works on a store that it opens. Printing leaves the host (`SameHost`), so what
a command does to the files is what its operations on the store do. A scan that comes to its end has
saved a snapshot of the workspace as it was before the snapshot was saved (`scanWith_spec`), and a
scan does come to its end if its stages do and a snapshot can be saved (`scanWith_completes`). A
comparison says what the last snapshot and one of the present workspace tell (`compare_spec`).
-/

namespace CodeSurvey.Storage.State

open CodeSurvey.Files

/-! ## The settings of a workspace -/

variable {s s' : State} {site : Site}

/-- The path of the settings file in the control directory. -/
def settingsFile : Path := ["config.toml"]

/-- What is read at a place in the control directory. -/
theorem Sited.toOption_bytes (h : s.Sited site) {x : Path} (hup : ".." ∉ x) (hne : x ≠ []) :
    (s.host.tree.bytes (site.start ++ (site.names ++ x))).toOption = s.fileAt? site x := by
  have hroute := h.route hup
  have hparts : site.names ++ x ≠ [] := by simp [hne]
  unfold fileAt?
  split
  · rename_i content hentry
    rw [hroute.bytes_of_file hparts hentry]
    rfl
  · rename_i hnot
    cases hread : s.host.tree.bytes (site.start ++ (site.names ++ x)) with
    | ok content => exact absurd (hroute.file_of_bytes hparts hread) (hnot content)
    | error e => rfl

/-- The settings are those of the settings file. -/
theorem Sited.load_eq (h : s.Sited site) (h' : s'.Sited site) {root : Path}
    (hbase : s.store.base.path = root ++ [Settings.controlDirName])
    (hfile : s'.fileAt? site settingsFile = s.fileAt? site settingsFile)
    (unreadable : Path → Bool) :
    Settings.load ⟨s'.host.tree, root, unreadable⟩ =
      Settings.load ⟨s.host.tree, root, unreadable⟩ := by
  have hpath : root ++ Settings.configPath = site.start ++ (site.names ++ settingsFile) := by
    rw [← List.append_assoc, ← h.path, hbase, List.append_assoc]
    rfl
  have hbytes : Workspace.bytes? ⟨s'.host.tree, root, unreadable⟩ Settings.configPath =
      Workspace.bytes? ⟨s.host.tree, root, unreadable⟩ Settings.configPath := by
    unfold Workspace.bytes? Workspace.locate
    dsimp only
    rw [hpath, h.toOption_bytes (by decide) (by decide), h'.toOption_bytes (by decide) (by decide),
      hfile]
  rw [Settings.load, Settings.load, hbytes]

/-- Operations leave the settings. -/
theorem Moves.load_eq {changed : List Document} (h : Moves site changed s s') (hc : s.Clear site)
    {root : Path} (hbase : s.store.base.path = root ++ [Settings.controlDirName])
    (unreadable : Path → Bool) :
    Settings.load ⟨s'.host.tree, root, unreadable⟩ =
      Settings.load ⟨s.host.tree, root, unreadable⟩ := by
  have hno : ∀ d ∈ Document.all,
      settingsFile ≠ d.path ∧ settingsFile ≠ FileAction.temporary d.path := by decide
  have hfile : s'.fileAt? site settingsFile = s.fileAt? site settingsFile :=
    h.others hc _ fun d => hno d d.mem_all
  exact hc.toSited.load_eq (h.sited hc.toSited) hbase hfile unreadable

end CodeSurvey.Storage.State

namespace CodeSurvey.Storage.LastSnapshot

/-- Loading the last snapshot from a store that is ready leaves the tree. -/
theorem tree_load {s : State} (hready : s.store.isReady) :
    Ends load s fun _ s' => s'.host.tree = s.host.tree := by
  have hR : Chains (State.OnHosts fun h h' => h'.tree = h.tree) :=
    State.chains_onHosts ⟨fun _ => rfl, fun a b => b.trans a⟩
  refine StoreAction.ends_ensureReady_bind hready ?_
  have hread : StaysIn (State.OnHosts fun h h' => h'.tree = h.tree)
      (do return (← StoreAction.readJson .snapshot).bind Survey.Snapshot.ofJson?) :=
    .bind hR (StoreAction.staysIn_readJson hR (StoreAction.tree_readText .snapshot)) fun _ =>
      staysIn_pure hR _
  exact (hread s).2

end CodeSurvey.Storage.LastSnapshot

namespace CodeSurvey.Terminal

open CodeSurvey.Artifact CodeSurvey.Files CodeSurvey.Settings CodeSurvey.Storage CodeSurvey.Survey
open State (Furnished Moves Upkeep)
open StoreAction (ends_get ends_throw)

/-- The store of a workspace as a command opens it. -/
def Session.opening (st : Session) (p : Place) : State := ⟨st.host, Store.atPlace p⟩

/-- The workspace at a place, where all files can be read. -/
def Session.workspace (st : Session) (p : Place) : Workspace :=
  ⟨st.host.tree, p.path, fun _ => false⟩

/-- What opening the workspace at a place leaves. -/
def Session.opened (st : Session) (p : Place) : State :=
  (ExceptT.run StoreAction.ensureReady (st.opening p)).2

/-- The workspace as a comparison surveys it, after it was opened. -/
def Session.surveyed (st : Session) (p : Place) : Workspace :=
  ⟨(st.opened p).host.tree, p.path, fun _ => false⟩

namespace Command

variable {α : Type} {st : Session} {p : Place} {site : Storage.Site} {c : Config} {o : Options}

/-! ## Parts of commands -/

/-- An operation on a store leaves its host. -/
theorem ends_onStore {store : Store} {a : StoreAction α}
    {Q : Except Ending (Except StoreError α × Store) → Session → Prop}
    (h : Ends a ⟨st.host, store⟩ fun r s => Q (.ok (r, s.store)) { st with host := s.host }) :
    Ends (onStore store a) st Q := h

/-- An operation whose result is demanded. -/
theorem ends_demand {store : Store} {a : StoreAction α} {x : α} {P : Host → Prop}
    (h : Ends a ⟨st.host, store⟩ fun r s => r = .ok x ∧ P s.host) :
    Ends (demand store a) st fun r st' =>
      r = .ok x ∧ ∃ host, P host ∧ st' = { st with host } := by
  refine Ends.bind (P := fun r st' => ∃ store, r = .ok (.ok x, store) ∧
    ∃ host, P host ∧ st' = { st with host }) ?_ ?_ ?_
  · exact ends_onStore (h.mono fun r s ⟨hr, hP⟩ => ⟨s.store, by rw [hr], s.host, hP, rfl⟩)
  · rintro e st' ⟨store, he, -⟩
    cases he
  · rintro _ st' ⟨store, hx, hst'⟩
    obtain rfl := Except.ok.inj hx
    exact Ends.of_eq (run_pure x st') ⟨rfl, hst'⟩

/-- The settings of a workspace are loaded. -/
theorem ends_options (hfaults : st.host.faults = Faults.none)
    (hload : load (st.workspace p) = .ok c) (ho : c.options = .ok o)
    {f : Options → Command α} {Q : Except Ending α → Session → Prop} (hf : Ends (f o) st Q) :
    Ends (do f (← optionsOf (← config p))) st Q := by
  have hconfig : ExceptT.run (config p) st = (.ok c, st) := by
    unfold config
    rw [run_bind, run_get]
    dsimp only
    rw [Host.unreadable_eq hfaults, ← Session.workspace, hload]
    rfl
  have hoptions : ExceptT.run (optionsOf c) st = (.ok o, st) := by
    unfold optionsOf
    rw [ho]
    rfl
  unfold Ends at hf ⊢
  rw [run_bind, hconfig]
  dsimp only
  rwa [run_bind, hoptions]

/-- The host is the same. -/
def SameHost (st st' : Session) : Prop := st'.host = st.host

/-- Over several steps. -/
theorem chains_sameHost : Chains SameHost where
  refl := fun _ => rfl
  trans := fun a b => b.trans a

/-- A command goes on with the same host after an action that leaves it. -/
theorem ends_bind_of_sameHost {β : Type} {a : Command α} {f : α → Command β}
    {Q : Except Ending β → Session → Prop} (ha : StaysIn SameHost a)
    (herror : ∀ e st', Q (.error e) st')
    (hok : ∀ x st', st'.host = st.host → Ends (f x) st' Q) : Ends (a >>= f) st Q :=
  Ends.bind (P := fun _ st' => SameHost st st') (ha st) (fun e st' _ => herror e st') hok

/-- Printing leaves the host. -/
theorem sameHost_print (x : Printed) : StaysIn SameHost (print x) := fun _ => rfl

/-- So does printing marked text. -/
theorem sameHost_sayMarked (text : String) : StaysIn SameHost (sayMarked text) := by
  unfold sayMarked
  split
  · exact sameHost_print _
  · exact staysIn_throw chains_sameHost _

/-- And printing several things. -/
theorem sameHost_forM {f : α → Command Unit} (hf : ∀ x, StaysIn SameHost (f x)) (xs : List α) :
    StaysIn SameHost (xs.forM f) := by
  induction xs with
  | nil => exact staysIn_pure chains_sameHost _
  | cons x xs ih => exact .bind chains_sameHost (hf x) fun _ => ih

/-- And printing what a scan reports. -/
theorem sameHost_sayReport (r : Scan.Report) : StaysIn SameHost (sayReport r) := by
  have hR := chains_sameHost
  have hrest : StaysIn SameHost (do
      (madeTable r.artifacts).lines.forM say
      r.errors.forM fun e => sayMarked ("[yellow]⚠[/yellow] " ++ e.stage ++ ": " ++ e.message)) :=
    .bind hR (sameHost_forM (fun _ => sameHost_print _) _) fun _ =>
      sameHost_forM (fun _ => sameHost_sayMarked _) _
  unfold sayReport
  split
  · exact .bind hR (sameHost_print _) fun _ => hrest
  · exact .bind hR (sameHost_print _) fun _ => hrest

/-- Marked text is printed if its tags end what was begun. -/
theorem ends_sayMarked {text : String} (h : (Markup.plain? text).isSome) :
    Ends (sayMarked text) st fun r st' => r = .ok () ∧ SameHost st st' := by
  obtain ⟨plain, hplain⟩ := Option.isSome_iff_exists.1 h
  unfold sayMarked
  rw [hplain]
  exact ⟨rfl, rfl⟩

/-- A report without errors is printed. -/
theorem ends_sayReport {r : Scan.Report} (h : r.errors = []) :
    Ends (sayReport r) st fun x st' => x = .ok () ∧ SameHost st st' := by
  -- Saying lines never fails, whatever has been said before.
  have hlines (lines : List String) (st : Session) :
      Ends (lines.forM say) st fun x _ => x = .ok () := by
    induction lines generalizing st with
    | nil => rfl
    | cons line lines ih =>
      have hline : Ends (say line) st fun x _ => x = .ok () ∧ True := ⟨rfl, trivial⟩
      exact hline.bind_ok fun st' _ => ih st'
  have hrest (st : Session) : Ends (do
      (madeTable r.artifacts).lines.forM say
      r.errors.forM fun e => sayMarked ("[yellow]⚠[/yellow] " ++ e.stage ++ ": " ++ e.message)) st
      fun x _ => x = .ok () := by
    rw [h]
    exact Ends.bind_ok (P := fun _ => True) ((hlines _ st).mono fun x _ hx => ⟨hx, trivial⟩)
      fun st' _ => rfl
  refine Ends.and ?_ (sameHost_sayReport r st)
  unfold sayReport
  cases r.progress.getLast? with
  | none => exact Ends.bind_ok (P := fun _ => True) ⟨rfl, trivial⟩ fun st' _ => hrest st'
  | some x => exact Ends.bind_ok (P := fun _ => True) ⟨rfl, trivial⟩ fun st' _ => hrest st'

/-! ## Scans -/

/-- A snapshot is saved, unless it cannot be. -/
theorem saveSnapshot_spec {s : State} (h : Furnished site s) (hst : st.host = s.host)
    (o : Options) :
    Ends (saveSnapshot s.store o) st fun r st' =>
      (r = .ok () → ∃ snap s', Scan.Records site o s snap s' ∧ st'.host = s'.host) ∧
      (Scan.IsRecordable o s → r = .ok ()) := by
  unfold saveSnapshot
  refine Ends.bind (P := fun r st' => ∃ x store, r = .ok (x, store) ∧
    (∀ snap, x = .ok snap → ∃ s', Scan.Records site o s snap s' ∧ st'.host = s'.host) ∧
    ∀ e, x = .error e → e.told? = none ∧ ¬ Scan.IsRecordable o s) ?_ ?_ ?_
  · refine ends_onStore ?_
    rw [hst]
    refine (Scan.record_spec h o).mono ?_
    rintro (e | snap) s' hend
    · refine ⟨_, _, rfl, fun snap hsnap => ?_, fun e' he' => Except.error.inj he' ▸ hend⟩
      cases hsnap
    · refine ⟨_, _, rfl, fun snap' hsnap' => ⟨s', Except.ok.inj hsnap' ▸ hend, rfl⟩,
        fun e he => ?_⟩
      cases he
  · rintro e st' ⟨x, store, he, -⟩
    cases he
  rintro _ st' ⟨x, store, hx, hsaved, hfailed⟩
  obtain rfl := Except.ok.inj hx
  cases x with
  | ok snap =>
    exact Ends.of_eq (run_pure () st') ⟨fun _ => ⟨snap, hsaved snap rfl⟩, fun _ => rfl⟩
  | error e =>
    -- An error that users are not told ends the command.
    obtain ⟨htold, hnot⟩ := hfailed e rfl
    dsimp only
    rw [htold]
    refine Ends.of_eq (run_throw _ st') ⟨fun h => ?_, fun h => absurd h hnot⟩
    cases h

/-- How a scan that comes to its end leaves the host: its stages went through, and then a snapshot
was saved. -/
structure Scanned (site : Storage.Site) (p : Place) (o : Options) (only : List String)
    (st : Session) (report : Scan.Report) (s : State) (snap : Snapshot) (s' : State) : Prop where
  run : (Scan.run (planOf st.service o only)).run (st.opening p) = (.ok report, s)
  upkeep : (st.opening p).Upkeep site s
  records : Scan.Records site o s snap s'

/-- A scan that comes to its end where nothing is in the way leaves a snapshot of the workspace. -/
theorem scanWith_spec (hc : (st.opening p).Clear site) (o : Options) (only : List String) :
    Ends (scanWith p o only) st fun r st' => r = .ok () →
      ∃ report s snap s', Scanned site p o only st report s snap s' ∧ st'.host = s'.host := by
  -- What fails is no end of the scan, and what is printed leaves the host.
  have hfails {P : Prop} (e : Ending) (h : (.error e : Except Ending Unit) = .ok ()) : P := by
    cases h
  unfold scanWith
  dsimp only
  by_cases hunknown : (!(only.filter fun n => (CoreKind.ofName? n).isNone).isEmpty) = true
  · rw [if_pos hunknown]
    exact ends_throw (hfails _)
  rw [if_neg hunknown]
  refine ends_get ?_
  refine ends_bind_of_sameHost (sameHost_sayMarked _) (fun e _ => hfails e) fun _ st₁ hst₁ => ?_
  have hrun : Ends (onStore (Store.atPlace p) (Scan.run (planOf st.service o only))) st₁
      fun r st' => ∃ x s, r = .ok (x, s.store) ∧ st'.host = s.host ∧
        (Scan.run (planOf st.service o only)).run (st.opening p) = (x, s) := by
    refine ends_onStore ?_
    rw [hst₁]
    exact ⟨_, _, rfl, rfl, rfl⟩
  refine hrun.bind ?_ ?_
  · rintro e st' ⟨x, s, he, -⟩
    cases he
  rintro _ st₂ ⟨x, s, hx, hst₂, hrun⟩
  obtain rfl := Except.ok.inj hx
  cases x with
  | error e =>
    split
    · exact ends_bind_of_sameHost (sameHost_sayMarked _) (fun e _ => hfails e) fun _ st₃ _ =>
        ends_bind_of_sameHost (sameHost_print _) (fun e _ => hfails e) fun _ st₄ _ =>
          Ends.of_eq (run_throw _ st₄) (hfails _)
    · exact Ends.of_eq (run_throw _ st₂) (hfails _)
    · rename_i hx
      cases hx
  | ok report =>
    obtain ⟨hup, hfurnished⟩ := (Scan.run_clear hc rfl _).of_run hrun report rfl
    refine ends_bind_of_sameHost (sameHost_sayReport report) (fun e _ => hfails e)
      fun _ st₃ hst₃ => ?_
    refine (saveSnapshot_spec hfurnished (hst₃.trans hst₂) o).bind (fun e _ _ => hfails e) ?_
    rintro ⟨⟩ st₄ ⟨hsaved, -⟩
    obtain ⟨snap, s', hrecords, hst₄⟩ := hsaved rfl
    exact fun _ => ⟨report, s, snap, s', ⟨hrun, hup, hrecords⟩, hst₄⟩

/-- A scan comes to its end if its stages do without anything to be noted, and a snapshot can be
saved. -/
theorem scanWith_completes (hc : (st.opening p).Clear site)
    (hknown : ∀ n ∈ only, (CoreKind.ofName? n).isSome)
    (htext : (Markup.plain? ("\n[bold cyan]Scanning " ++ p.text ++ "...[/bold cyan]\n")).isSome)
    {report : Scan.Report} {s : State}
    (hrun : (Scan.run (planOf st.service o only)).run (st.opening p) = (.ok report, s))
    (hnoted : report.errors = []) (hrecordable : Scan.IsRecordable o s) :
    Ends (scanWith p o only) st fun r _ => r = .ok () := by
  have hunknown : (only.filter fun n => (CoreKind.ofName? n).isNone) = [] := by
    rw [List.filter_eq_nil_iff]
    intro n hn
    rw [Option.isNone_iff_eq_none, ← ne_eq, Option.ne_none_iff_isSome]
    exact hknown n hn
  obtain ⟨-, hfurnished⟩ := (Scan.run_clear hc rfl _).of_run hrun report rfl
  unfold scanWith
  dsimp only
  rw [hunknown, if_neg (by decide)]
  refine ends_get ?_
  refine (ends_sayMarked htext).bind_ok fun st₁ hst₁ => ?_
  -- What is printed before and after the stages leaves the host as it is.
  have hstages : Ends (onStore (Store.atPlace p) (Scan.run (planOf st.service o only))) st₁
      fun r st' => r = .ok (.ok report, s.store) ∧ st'.host = s.host := by
    refine ends_onStore ?_
    rw [hst₁]
    exact Ends.of_eq hrun ⟨rfl, rfl⟩
  refine hstages.bind_ok fun st₂ hst₂ => ?_
  refine (ends_sayReport hnoted).bind_ok fun st₃ hst₃ => ?_
  have hsaved : Ends (saveSnapshot s.store o) st₃ fun r _ => r = .ok () ∧ True :=
    (saveSnapshot_spec hfurnished (hst₃.trans hst₂) o).mono
      fun r _ h => ⟨h.2 hrecordable, trivial⟩
  exact hsaved.bind_ok fun st₄ _ => rfl

/-! ## Comparisons -/

/-- An opened workspace is one in which documents are written to files. Opening it makes directories
at most, and leaves the documents. -/
theorem opened_spec (hc : (st.opening p).Clear site) :
    Furnished site (st.opened p) ∧ (st.opening p).Upkeep site (st.opened p) ∧
      Moves site [] (st.opening p) (st.opened p) ∧
      st.host.tree.Gains (st.opened p).host.tree ∧
      ∀ d, (st.opened p).text? d = (st.opening p).text? d := by
  have hmemory := ((StoreAction.ensureReady_spec hc.toSited hc.ready).clear hc).2
  obtain ⟨-, hm, hready, htext⟩ := StoreAction.ensureReady_clear hc
  have hfurnished : Furnished site (st.opened p) :=
    ⟨hm.clear hc, hready, hmemory, StoreAction.ensureReady_makes hc rfl⟩
  have hgains : (st.opening p).host.tree.Gains (st.opened p).host.tree :=
    (StoreAction.staysIn_ensureReady (st.opening p)).2.2
  exact ⟨hfurnished, StoreAction.keepsUp_ensureReady _ hc.toSited hc.ready, hm, hgains, htext⟩

/-- Where the directories of documents are there, opening the workspace leaves the tree. -/
theorem surveyed_eq (hc : (st.opening p).Clear site)
    (hmade : ∀ dir ∈ Document.dirs, st.host.tree.entry? (site.place dir) = some .dir) :
    st.surveyed p = st.workspace p := by
  have htree : (st.opened p).host.tree = st.host.tree :=
    StoreAction.tree_ensureReady hc.toSited hmade
  rw [Session.surveyed, htree, Session.workspace]

/-- A workspace is opened where nothing is in the way. -/
theorem openStore_spec (hc : (st.opening p).Clear site) :
    Ends (openStore p) st fun r st' =>
      r = .ok (st.opened p).store ∧ st' = { st with host := (st.opened p).host } := by
  have hready : Ends StoreAction.ensureReady ⟨st.host, Store.atPlace p⟩ fun r s =>
      r = .ok () ∧ s = st.opened p := ⟨(StoreAction.ensureReady_clear hc).1, rfl⟩
  have hopened : Ends (onStore (Store.atPlace p) StoreAction.ensureReady) st fun r st' =>
      r = .ok (.ok (), (st.opened p).store) ∧ st' = { st with host := (st.opened p).host } := by
    refine ends_onStore (hready.mono ?_)
    rintro r s ⟨rfl, rfl⟩
    exact ⟨rfl, rfl⟩
  unfold openStore
  refine hopened.bind_ok ?_
  rintro st' rfl
  exact ⟨rfl, rfl⟩

/-- What a comparison says. -/
def verdict (earlier present : Snapshot) : String :=
  if Snapshot.hasChanged (some earlier) present then
    "Changes detected since " ++ earlier.takenAt ++ " (" ++ toString present.fileCount ++ " files)."
  else "No changes since " ++ earlier.takenAt ++ "."

/-- A comparison says what the snapshot that is stored and one of the present workspace tell. -/
theorem compare_spec (hc : (st.opening p).Clear site) {earlier : Snapshot}
    (honce : (earlier.digests.map Prod.fst).Nodup)
    (hshort : earlier.fileCount < 10 ^ Json.maxIntDigits)
    (htext : (st.opening p).text? .snapshot = some earlier.toJson.stored)
    (hload : load (st.workspace p) = .ok c) (ho : c.options = .ok o) {m : Ignore.Matcher}
    (hm : matcherOf (st.surveyed p) o = .ok m) :
    Ends (compare p) st fun r st' => r = .ok () ∧ st'.printed = st.printed ++
      [.text (Markup.withoutSequences (verdict earlier
        (.take st.host.nowText (st.surveyed p) o.limits m)))] := by
  obtain ⟨hfurnished, -, hmoves, -, htexts⟩ := opened_spec hc
  unfold compare
  refine (openStore_spec hc).bind_ok ?_
  rintro _ rfl
  -- Loading leaves the tree, so the snapshot is taken of the workspace as it was opened.
  have hloaded : Ends LastSnapshot.load (st.opened p) fun r s => r = .ok (some earlier) ∧
      s.host.tree = (st.opened p).host.tree ∧ st.host.Follows s.host := by
    have hanswers := LastSnapshot.load_clear hfurnished.toClear honce hshort
      ((htexts .snapshot).trans htext)
    refine (hanswers.and (LastSnapshot.tree_load hfurnished.isReady)).mono ?_
    rintro r s ⟨⟨hr, hm', -⟩, htree⟩
    exact ⟨hr, htree, hmoves.host.trans hm'.host⟩
  refine (ends_demand (P := fun host => host.tree = (st.opened p).host.tree ∧
    st.host.Follows host) hloaded).bind_ok ?_
  rintro _ ⟨host, ⟨htree, hfollows⟩, rfl⟩
  have hworkspace : Session.workspace { st with host } p = st.surveyed p := by
    rw [Session.workspace, htree, Session.surveyed]
  have hsettings : load (st.surveyed p) = load (st.workspace p) :=
    hmoves.load_eq hc (Place.below_path _ _) _
  have hfaults : host.faults = Faults.none := hfollows.faults.trans hc.faults
  refine ends_options hfaults (hworkspace ▸ hsettings.trans hload) ho ?_
  have htaken : Ends (Scan.snapshot o) ⟨host, (st.opened p).store⟩ fun r s =>
      r = .ok (.take st.host.nowText (st.surveyed p) o.limits m) ∧ s.host = host := by
    have hpresent : Scan.workspaceOf ⟨host, (st.opened p).store⟩ = st.surveyed p := by
      rw [Scan.workspaceOf, Host.unreadable_eq hfaults, htree, hmoves.root]
      rfl
    have hnow : host.nowText = st.host.nowText := by rw [Host.nowText, hfollows.now, Host.nowText]
    refine Ends.of_eq (Scan.run_snapshot o _) ?_
    rw [hpresent, hm, hnow]
    exact ⟨rfl, rfl⟩
  refine (ends_demand (P := (· = host)) htaken).bind_ok ?_
  rintro _ ⟨_, rfl, rfl⟩
  unfold verdict
  split_ifs
  · exact ⟨rfl, rfl⟩
  · exact ⟨rfl, rfl⟩

end Command

end CodeSurvey.Terminal
