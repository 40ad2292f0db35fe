import CodeSurvey.Proofs.Storage.Absence
import CodeSurvey.Proofs.Survey.Exclusion

/-!
# What snapshots tell of changes

A snapshot of a workspace without links lists the files that are surveyed (`Surveys`), each once
with its digest (`mem_digests`, `isListing_take`). Two such snapshots differ exactly if something
that is surveyed does (`hasChanged_take`), as long as digests tell contents apart, and a snapshot
that is saved is loaded as it was (`LastSnapshot.load_save_spec`). Together: `changes_are_told`.

What is surveyed depends on the ignore file, so a change of it can count though it is ignored
itself (`change_of_ignored_file_is_told`).
-/

namespace CodeSurvey.Survey

open CodeSurvey.Files CodeSurvey.Settings

namespace Snapshot

variable {s old new : Snapshot}

/-! ## Comparing snapshots -/

/-- A snapshot that lists each path once, and whose number of files is that of the paths. -/
structure IsListing (s : Snapshot) : Prop where
  once : (s.digests.map Prod.fst).Nodup
  counted : s.fileCount = s.digests.length

/-- The digest of a path is the one that is listed with it. -/
theorem digest?_eq_some (h : s.IsListing) {path digest : String} :
    s.digest? path = some digest ↔ (path, digest) ∈ s.digests := by
  unfold digest?
  rw [Option.map_eq_some_iff]
  constructor
  · rintro ⟨⟨path', digest'⟩, hfind, rfl⟩
    obtain rfl : path' = path := by simpa using List.find?_some hfind
    exact List.mem_of_find?_eq_some hfind
  · intro hmem
    have hfound : (s.digests.find? (·.1 == path)).isSome :=
      List.find?_isSome.2 ⟨_, hmem, by simp⟩
    obtain ⟨⟨path', digest'⟩, hfind⟩ := Option.isSome_iff_exists.1 hfound
    obtain rfl : path' = path := by simpa using List.find?_some hfind
    have hsame := List.inj_on_of_nodup_map h.once (List.mem_of_find?_eq_some hfind) hmem rfl
    exact ⟨_, hfind, congrArg Prod.snd hsame⟩

/-- Nothing has changed exactly if both snapshots list the same. -/
theorem hasChanged_eq_false (hold : old.IsListing) (hnew : new.IsListing) :
    hasChanged (some old) new = false ↔ ∀ d, d ∈ old.digests ↔ d ∈ new.digests := by
  unfold hasChanged
  simp only [Bool.or_eq_false_iff, bne_eq_false_iff_eq, List.any_eq_false, Bool.not_eq_true,
    Option.isNone_eq_false_iff]
  constructor
  · rintro ⟨⟨-, hpaths⟩, hdigests⟩ ⟨path, digest⟩
    have hback {digest : String} (hmem : (path, digest) ∈ new.digests) :
        (path, digest) ∈ old.digests := (digest?_eq_some hold).1 (hdigests _ hmem)
    refine ⟨fun hmem => ?_, hback⟩
    -- The path has a digest now, which was its digest before.
    obtain ⟨digest', hdigest'⟩ := Option.isSome_iff_exists.1 (hpaths _ hmem)
    have hmem' := (digest?_eq_some hnew).1 hdigest'
    have hsame := List.inj_on_of_nodup_map hold.once (hback hmem') hmem rfl
    rwa [hsame] at hmem'
  · intro hsame
    refine ⟨⟨?_, fun d hd => ?_⟩, fun d hd => ?_⟩
    · have hperm : old.digests.Perm new.digests :=
        (List.perm_ext_iff_of_nodup hold.once.of_map hnew.once.of_map).2 hsame
      rw [hold.counted, hnew.counted, hperm.length_eq]
    · rw [(digest?_eq_some hnew).2 ((hsame d).1 hd)]
      rfl
    · exact (digest?_eq_some hold).2 ((hsame d).2 hd)

/-- The only number of a snapshot is that of its files. -/
theorem hasShortInts_toJson (s : Snapshot) :
    s.toJson.hasShortInts ↔ s.fileCount < 10 ^ Json.maxIntDigits := by
  have hdigests : (Json.obj (s.digests.map fun d => (d.1, .str d.2))).hasShortInts := by
    rw [Json.hasShortInts, Json.membersHaveShortInts_iff]
    intro x hx
    obtain ⟨d, -, rfl⟩ := List.mem_map.1 hx
    rfl
  have hcount : (Json.count s.fileCount).hasShortInts ↔ s.fileCount < 10 ^ Json.maxIntDigits := by
    rw [Json.count, Json.hasShortInts_int_iff, Int.natAbs_natCast]
  rw [toJson, Json.hasShortInts, Json.membersHaveShortInts_iff]
  simp only [List.forall_mem_cons, hdigests, hcount]
  exact ⟨fun h => h.2.2.1, fun h => ⟨rfl, trivial, h, by simp⟩⟩

end Snapshot

/-! ## Snapshots of a workspace -/

variable {w w' : Workspace} {top top' : Path} {limits : WalkLimits} {m m' : Ignore.Matcher}
  {o : Options}

/-- A file with some content stands at a path and can be read. -/
def HasFile (w : Workspace) (top p : Path) (content : ByteArray) : Prop :=
  w.tree.entry? (top ++ p) = some (.file content) ∧ w.unreadable (w.locate p) = false

/-- A file that is surveyed: it is kept, can be read, and is not too deep. -/
structure Surveys (w : Workspace) (top : Path) (limits : WalkLimits) (m : Ignore.Matcher)
    (p : Path) (content : ByteArray) : Prop where
  keeps : w.Keeps top m p (.file content)
  readable : w.unreadable (w.locate p) = false
  depth : (p.length : Int) ≤ max limits.maxDepth 1

/-- The files of the walk are those that are kept and not too deep. -/
theorem mem_files_iff (hw : w.Proper top) {p : Path} :
    (∃ e ∈ (w.walk limits m).filter (!·.isDir), e.parts = p) ↔
      ∃ content, w.Keeps top m p (.file content) ∧ (p.length : Int) ≤ max limits.maxDepth 1 := by
  have hwalks := Workspace.walkFrom_reaching_spec limits m hw.toPlain hw.root_isDir
    Workspace.Proper.fresh_root
  rw [hw.walk_eq]
  constructor
  · rintro ⟨e, he, rfl⟩
    obtain ⟨hwalk, hfile⟩ := List.mem_filter.1 he
    have hlists := ((hwalks.mem e).1 hwalk).1
    obtain ⟨content, hkeeps⟩ := hlists.keeps_file hw.toPlain (by simpa using hfile)
    refine ⟨content, hkeeps, ?_⟩
    rw [← hlists.depth]
    exact hlists.limit
  · rintro ⟨content, hkeeps, hdepth⟩
    refine ⟨⟨p, false, p.length⟩, List.mem_filter.2 ⟨(hwalks.mem _).2 ⟨?_, ?_⟩, rfl⟩, rfl⟩
    · exact ⟨hkeeps.below, rfl, hdepth, hkeeps.kept, _, hkeeps.entry, rfl⟩
    · exact ⟨List.nil_prefix, hkeeps.below⟩

/-- The digest of a file that is kept is that of its content, if it can be read. -/
theorem digestAt?_eq (hw : w.Proper top) {p : Path} {content : ByteArray}
    (h : w.Keeps top m p (.file content)) :
    Snapshot.digestAt? w p =
      if w.unreadable (w.locate p) then none else some (Digest.sha256 content) := by
  rw [Snapshot.digestAt?, Workspace.bytes?, hw.bytes_eq h.entry]
  split_ifs <;> rfl

/-- A snapshot lists the digests of the files that are surveyed. -/
theorem mem_digests (hw : w.Proper top) {takenAt path digest : String} :
    (path, digest) ∈ (Snapshot.take takenAt w limits m).digests ↔
      ∃ p content, Surveys w top limits m p content ∧ path = pathText p ∧
        digest = Digest.sha256 content := by
  simp only [Snapshot.take, List.mem_filterMap, Option.map_eq_some_iff, Prod.mk.injEq]
  constructor
  · rintro ⟨e, he, digest', hdigest, rfl, rfl⟩
    obtain ⟨content, hkeeps, hdepth⟩ := (mem_files_iff hw).1 ⟨e, he, rfl⟩
    rw [digestAt?_eq hw hkeeps] at hdigest
    split_ifs at hdigest with hreadable
    exact ⟨e.parts, content, ⟨hkeeps, Bool.eq_false_of_not_eq_true hreadable, hdepth⟩, rfl,
      (Option.some.inj hdigest).symm⟩
  · rintro ⟨p, content, hsurveys, rfl, rfl⟩
    obtain ⟨e, he, rfl⟩ := (mem_files_iff hw).2 ⟨content, hsurveys.keeps, hsurveys.depth⟩
    refine ⟨e, he, _, ?_, rfl, rfl⟩
    rw [digestAt?_eq hw hsurveys.keeps, hsurveys.readable, if_neg Bool.false_ne_true]

/-- What is kept is told apart by the texts of the paths. -/
theorem path_inj_of_keeps (hw : w.Proper top) (hw' : w'.Proper top') {p p' : Path} {x x' : Entry}
    (h : w.Keeps top m p x) (h' : w'.Keeps top' m' p' x') (hpath : pathText p = pathText p') :
    p = p' :=
  calc p
    _ = pathParts (pathText p) := by rw [pathParts_pathText h.below (hw.isWritten h.entry)]
    _ = pathParts (pathText p') := by rw [hpath]
    _ = p' := pathParts_pathText h'.below (hw'.isWritten h'.entry)

/-- Files that are surveyed are told apart by the texts of their paths. -/
theorem Surveys.path_inj (hw : w.Proper top) (hw' : w'.Proper top') {p p' : Path}
    {content content' : ByteArray} (h : Surveys w top limits m p content)
    (h' : Surveys w' top' limits m' p' content') (hpath : pathText p = pathText p') : p = p' :=
  path_inj_of_keeps hw hw' h.keeps h'.keeps hpath

/-- The files of the walk have different paths. -/
theorem nodup_paths_files (hw : w.Proper top) :
    (((w.walk limits m).filter (!·.isDir)).map WalkEntry.path).Nodup := by
  have hsorted : (w.walk limits m).Pairwise fun a b => a.parts < b.parts := by
    rw [hw.walk_eq]
    exact (Workspace.walkFrom_reaching_spec limits m hw.toPlain hw.root_isDir
      Workspace.Proper.fresh_root).sorted
  rw [List.Nodup, List.pairwise_map]
  refine (hsorted.filter _).imp_of_mem fun ha hb hlt hpath => ?_
  obtain ⟨content, hkeeps, -⟩ := (mem_files_iff hw).1 ⟨_, ha, rfl⟩
  obtain ⟨content', hkeeps', -⟩ := (mem_files_iff hw).1 ⟨_, hb, rfl⟩
  rw [path_inj_of_keeps hw hw hkeeps hkeeps' hpath] at hlt
  exact lt_irrefl _ hlt

/-- A snapshot lists each path once if the walk has each path of a file once. -/
theorem isListing_take_of_nodup
    (h : (((w.walk limits m).filter (!·.isDir)).map WalkEntry.path).Nodup) (takenAt : String) :
    (Snapshot.take takenAt w limits m).IsListing where
  counted := rfl
  once := by
    rw [List.Nodup, List.pairwise_map]
    refine (List.pairwise_map.1 h).filterMap _ fun a b hab d hd d' hd' => ?_
    obtain ⟨digest, -, rfl⟩ := Option.map_eq_some_iff.1 hd
    obtain ⟨digest', -, rfl⟩ := Option.map_eq_some_iff.1 hd'
    exact hab

/-- Without links each path is listed once. -/
theorem isListing_take (hw : w.Proper top) (takenAt : String) :
    (Snapshot.take takenAt w limits m).IsListing :=
  isListing_take_of_nodup (nodup_paths_files hw) takenAt

/-- A snapshot does not list more files than the tree has entries. -/
theorem fileCount_take_le (hw : w.Proper top) (takenAt : String) :
    (Snapshot.take takenAt w limits m).fileCount ≤ w.tree.entries.length := by
  have hlisting : (Snapshot.take takenAt w limits m).IsListing := isListing_take hw takenAt
  have hsubset : (Snapshot.take takenAt w limits m).digests.map Prod.fst ⊆
      w.tree.entries.map fun x => pathText (x.1.drop top.length) := by
    intro path hpath
    obtain ⟨⟨_, digest⟩, hd, rfl⟩ := List.mem_map.1 hpath
    obtain ⟨p, content, hsurveys, rfl, -⟩ := (mem_digests hw).1 hd
    have hne : top ++ p ≠ [] := by simp [hsurveys.keeps.below]
    have hmem := Tree.mem_entries hne hsurveys.keeps.entry
    exact List.mem_map.2 ⟨_, hmem, by rw [List.drop_left]⟩
  have hle := (List.subperm_of_subset hlisting.once hsubset).length_le
  rwa [List.length_map, List.length_map, ← hlisting.counted] at hle

/-- Two workspaces in which the same files with the same content are surveyed. -/
def SurveyAlike (w : Workspace) (top : Path) (w' : Workspace) (top' : Path) (limits : WalkLimits)
    (m m' : Ignore.Matcher) : Prop :=
  ∀ p content, Surveys w top limits m p content ↔ Surveys w' top' limits m' p content

/-- Digests tell the contents of files apart that are surveyed in two workspaces. -/
def DigestsDiffer (w : Workspace) (top : Path) (w' : Workspace) (top' : Path) (limits : WalkLimits)
    (m m' : Ignore.Matcher) : Prop :=
  ∀ p p' content content', Surveys w top limits m p content →
    Surveys w' top' limits m' p' content' → Digest.sha256 content = Digest.sha256 content' →
      content = content'

/-- A file that is surveyed is surveyed in a workspace that has the same digest of its path. -/
theorem Surveys.of_mem_digests (hw : w.Proper top) (hw' : w'.Proper top')
    (hdiffer : DigestsDiffer w top w' top' limits m m') {takenAt : String} {p : Path}
    {content : ByteArray} (h : Surveys w top limits m p content)
    (hmem : (pathText p, Digest.sha256 content) ∈ (Snapshot.take takenAt w' limits m').digests) :
    Surveys w' top' limits m' p content := by
  obtain ⟨p', content', h', hpath, hdigest⟩ := (mem_digests hw').1 hmem
  obtain rfl := h.path_inj hw hw' h' hpath
  obtain rfl := hdiffer _ _ _ _ h h' hdigest
  exact h'

/-- Snapshots of two workspaces tell of no change if the same is surveyed. -/
theorem SurveyAlike.hasChanged_eq_false (h : SurveyAlike w top w' top' limits m m')
    (hw : w.Proper top) (hw' : w'.Proper top') (takenAt takenAt' : String) :
    Snapshot.hasChanged (some (.take takenAt w limits m)) (.take takenAt' w' limits m') =
      false := by
  rw [Snapshot.hasChanged_eq_false (isListing_take hw takenAt) (isListing_take hw' takenAt')]
  rintro ⟨path, digest⟩
  rw [mem_digests hw, mem_digests hw']
  exact exists_congr fun p => exists_congr fun content => and_congr_left fun _ => h p content

/-- Snapshots of two workspaces tell a change exactly if what is surveyed differs. -/
theorem hasChanged_take (hw : w.Proper top) (hw' : w'.Proper top')
    (hdiffer : DigestsDiffer w top w' top' limits m m') (takenAt takenAt' : String) :
    Snapshot.hasChanged (some (.take takenAt w limits m)) (.take takenAt' w' limits m') = false ↔
      SurveyAlike w top w' top' limits m m' := by
  refine ⟨fun hsame p content => ?_, fun halike => halike.hasChanged_eq_false hw hw' _ _⟩
  rw [Snapshot.hasChanged_eq_false (isListing_take hw takenAt) (isListing_take hw' takenAt')]
    at hsame
  constructor
  · intro h
    exact h.of_mem_digests hw hw' hdiffer
      ((hsame _).1 ((mem_digests hw).2 ⟨p, content, h, rfl, rfl⟩))
  · intro h
    have hdiffer' : DigestsDiffer w' top' w top limits m' m :=
      fun p p' content content' hp hp' heq => (hdiffer _ _ _ _ hp' hp heq.symm).symm
    exact h.of_mem_digests hw' hw hdiffer'
      ((hsame _).2 ((mem_digests hw').2 ⟨p, content, h, rfl, rfl⟩))

/-! ## Changes of ignored files -/

/-- A file that is ignored is not surveyed; any other is where it stands and can be read. -/
theorem surveys_iff_of_kept {p : Path} {content : ByteArray}
    (h : m.ignoresParts p false = false → (HasFile w top p content ↔ HasFile w' top' p content)) :
    Surveys w top limits m p content ↔ Surveys w' top' limits m p content := by
  constructor
  · rintro ⟨⟨hbelow, hentry, hkept⟩, hreadable, hdepth⟩
    obtain ⟨hentry', hreadable'⟩ := (h hkept).1 ⟨hentry, hreadable⟩
    exact ⟨⟨hbelow, hentry', hkept⟩, hreadable', hdepth⟩
  · rintro ⟨⟨hbelow, hentry, hkept⟩, hreadable, hdepth⟩
    obtain ⟨hentry', hreadable'⟩ := (h hkept).2 ⟨hentry, hreadable⟩
    exact ⟨⟨hbelow, hentry', hkept⟩, hreadable', hdepth⟩

/-- If the ignore file stays as it is and every other change is one of files that are ignored, what
is surveyed is the same. -/
theorem surveyAlike_of_ignored (hm : matcherOf w o = .ok m) (hm' : matcherOf w' o = .ok m')
    (hignoreFile : o.respectIgnoreFile → w.bytes? [ignoreFileName] = w'.bytes? [ignoreFileName])
    (hkept : ∀ p content, m.ignoresParts p false = false →
      (HasFile w top p content ↔ HasFile w' top' p content)) :
    SurveyAlike w top w' top' limits m m' := by
  have hmatcher : m = m' := by
    have hsame : matcherOf w o = matcherOf w' o := by
      unfold matcherOf
      cases hrespect : o.respectIgnoreFile with
      | true => rw [hignoreFile hrespect]
      | false => rfl
    exact Except.ok.inj (hm.symm.trans (hsame.trans hm'))
  subst hmatcher
  exact fun p content => surveys_iff_of_kept (hkept p content)

end CodeSurvey.Survey

/-! ## The last snapshot in a store -/

namespace CodeSurvey.Storage.LastSnapshot

open CodeSurvey.Survey
open State (Moves)
open StoreAction

variable {site : Site} {s : State} {snapshot : Snapshot}

/-- In a clear state a snapshot is saved if its number of files is not too long to be written. -/
theorem save_clear (hc : s.Clear site) (snapshot : Snapshot) :
    Ends (save snapshot) s fun r s' =>
      (snapshot.fileCount < 10 ^ Json.maxIntDigits ∧ r = .ok () ∧ Moves site [.snapshot] s s' ∧
        s'.text? .snapshot = some snapshot.toJson.stored) ∨
      (¬ snapshot.fileCount < 10 ^ Json.maxIntDigits ∧ r = .error .longNumber ∧
        Moves site [] s s') := by
  unfold save
  refine (ensureReady_clear hc).bind_ok fun s₁ ⟨hm₁, hready₁, _⟩ => ?_
  have hclear₁ := hm₁.clear hc
  refine (writeJson_spec hclear₁.toSited hready₁ .snapshot snapshot.toJson).mono ?_
  rw [← Snapshot.hasShortInts_toJson]
  rintro (e | ⟨⟩) s₂ h₂
  · rcases h₂ with ⟨hm₂, ⟨rfl, hlong⟩ | ⟨-, hnot⟩⟩
    · exact .inr ⟨hlong, rfl, hm₁.trans hm₂⟩
    · exact absurd hclear₁ hnot
  · obtain ⟨hm₂, hholds, hshort⟩ := h₂
    refine .inl ⟨hshort, rfl, (hm₁.mono (List.nil_subset _)).trans hm₂, hholds.text? ?_⟩
    rintro t ⟨⟩
    exact Json.return_notMem_stored _

/-- In a clear state the snapshot whose text the store has is loaded. -/
theorem load_clear (hc : s.Clear site) (honce : (snapshot.digests.map Prod.fst).Nodup)
    (hshort : snapshot.fileCount < 10 ^ Json.maxIntDigits)
    (htext : s.text? .snapshot = some snapshot.toJson.stored) :
    Answers site s load (.ok (some snapshot)) := by
  obtain ⟨r, hfinds, hanswers⟩ := answers_check hc .snapshot Snapshot.ofJson?_eq_some
  have hcount : (Json.count snapshot.fileCount).hasShortInts :=
    (Json.hasShortInts_int_iff _).2 (by omega)
  have hread : Json.read snapshot.toJson.stored = .ok snapshot.toJson :=
    Json.read_stored (Snapshot.readable_toJson 958 honce hcount)
  have hrecord : Finds Snapshot.IsOf (s.text? .snapshot) (.ok (some snapshot)) := by
    rw [htext]
    exact .record hread (Snapshot.ofJson?_eq_some.1 snapshot.ofJson?_toJson)
  rwa [hfinds.unique Snapshot.ofJson?_eq_some hrecord] at hanswers

/-- In a clear state a snapshot that was saved is loaded as it was. -/
theorem load_save_spec (hc : s.Clear site) (honce : (snapshot.digests.map Prod.fst).Nodup) :
    Ends (do save snapshot; load) s fun r _ =>
      (snapshot.fileCount < 10 ^ Json.maxIntDigits ∧ r = .ok (some snapshot)) ∨
      (¬ snapshot.fileCount < 10 ^ Json.maxIntDigits ∧ r = .error .longNumber) := by
  refine (save_clear hc snapshot).bind ?_ ?_
  · rintro e s₁ (⟨-, he, -⟩ | ⟨hlong, he, -⟩)
    · cases he
    · cases he
      exact .inr ⟨hlong, rfl⟩
  · rintro ⟨⟩ s₁ (⟨hshort, -, hm₁, htext⟩ | ⟨-, he, -⟩)
    · refine (load_clear (hm₁.clear hc) honce hshort htext).mono ?_
      rintro r s₂ ⟨rfl, -⟩
      exact .inl ⟨hshort, rfl⟩
    · cases he

end CodeSurvey.Storage.LastSnapshot

namespace CodeSurvey.Survey

open CodeSurvey.Files CodeSurvey.Settings CodeSurvey.Storage

variable {w w' : Workspace} {top top' : Path} {m m' : Ignore.Matcher} {o : Options} {site : Site}
  {s : State}

/-- If a snapshot of a workspace is saved and loaded, a later one tells a change exactly if what is
surveyed is not the same. No change is told if only ignored files other than the ignore file
change. -/
theorem changes_are_told (hw : w.Proper top) (hw' : w'.Proper top') (hm : matcherOf w o = .ok m)
    (hm' : matcherOf w' o = .ok m') (hdiffer : DigestsDiffer w top w' top' o.limits m m')
    (hc : s.Clear site) (takenAt takenAt' : String) :
    Ends (do LastSnapshot.save (.take takenAt w o.limits m); LastSnapshot.load) s fun r _ =>
      ((Snapshot.take takenAt w o.limits m).fileCount < 10 ^ Json.maxIntDigits ∧
        ∃ loaded, r = .ok loaded ∧
          (Snapshot.hasChanged loaded (.take takenAt' w' o.limits m') = false ↔
            SurveyAlike w top w' top' o.limits m m') ∧
          ((o.respectIgnoreFile → w.bytes? [ignoreFileName] = w'.bytes? [ignoreFileName]) →
            (∀ p content, m.ignoresParts p false = false →
              (HasFile w top p content ↔ HasFile w' top' p content)) →
            Snapshot.hasChanged loaded (.take takenAt' w' o.limits m') = false)) ∨
      (¬ (Snapshot.take takenAt w o.limits m).fileCount < 10 ^ Json.maxIntDigits ∧
        r = .error .longNumber) := by
  refine (LastSnapshot.load_save_spec hc (isListing_take hw takenAt).once).mono ?_
  rintro r s' (⟨hshort, rfl⟩ | hlong)
  · -- What is loaded is what was saved, so the two snapshots can be compared as they are taken.
    have htold := hasChanged_take hw hw' hdiffer takenAt takenAt'
    refine .inl ⟨hshort, _, rfl, htold, fun hignoreFile hkept => htold.2 ?_⟩
    exact surveyAlike_of_ignored hm hm' hignoreFile hkept
  · exact .inr hlong

/-! ## Workspaces of a few files -/

/-- A workspace with some files in its root, by their names and texts. -/
def filesIn (files : List (String × String)) : Workspace :=
  .ofEntries (files.map fun f => ([f.1], .file f.2.toUTF8))

/-- It is one if the names are different names. -/
theorem proper_filesIn {files : List (String × String)} (honce : (files.map Prod.fst).Nodup)
    (hnames : ∀ f ∈ files, f.1 ≠ "" ∧ '/' ∉ f.1.toList ∧ f.1 ≠ "." ∧ f.1 ≠ "..") :
    (filesIn files).Proper ["ws"] := by
  refine Workspace.proper_ofEntries ?_ ?_ ?_ ?_
  · intro x hx
    simp only [Workspace.ofEntries, List.map_map, List.mem_cons, List.mem_map] at hx
    rcases hx with rfl | ⟨f, -, rfl⟩ <;> rfl
  · simp only [Workspace.ofEntries, List.map_cons, List.map_map, List.nodup_cons, List.mem_map]
    refine ⟨by simp, ?_⟩
    have hpaths : (files.map Prod.fst).map (fun name => ["ws", name]) =
        files.map fun f => ["ws", f.1] := List.map_map
    exact hpaths ▸ honce.map fun a b hab => by simpa using hab
  · intro y hy name hname
    obtain ⟨f, hf, rfl⟩ := List.mem_map.1 hy
    obtain rfl := List.mem_singleton.1 hname
    exact hnames f hf
  · intro y hy target hlink
    obtain ⟨f, -, rfl⟩ := List.mem_map.1 hy
    cases hlink

/-- A file that is surveyed there is one of the files. -/
theorem Surveys.mem_filesIn {files : List (String × String)} {limits : WalkLimits}
    {p : Path} {content : ByteArray} (h : Surveys (filesIn files) ["ws"] limits m p content) :
    ∃ f ∈ files, p = [f.1] ∧ content = f.2.toUTF8 := by
  have hmem := Workspace.mem_of_entry_eq h.keeps.below h.keeps.entry
  obtain ⟨f, hf, heq⟩ := List.mem_map.1 hmem
  obtain ⟨rfl, hcontent⟩ := Prod.mk.inj heq
  exact ⟨f, hf, rfl, (Entry.file.inj hcontent).symm⟩

/-- A snapshot of it does not list more files than there are. -/
theorem fileCount_filesIn_le {files : List (String × String)}
    (hw : (filesIn files).Proper ["ws"]) (takenAt : String) (limits : WalkLimits)
    (m : Ignore.Matcher) :
    (Snapshot.take takenAt (filesIn files) limits m).fileCount ≤ files.length := by
  have hlisting : (Snapshot.take takenAt (filesIn files) limits m).IsListing :=
    isListing_take hw takenAt
  have hsubset : (Snapshot.take takenAt (filesIn files) limits m).digests.map Prod.fst ⊆
      files.map Prod.fst := by
    intro path hpath
    obtain ⟨⟨_, digest⟩, hd, rfl⟩ := List.mem_map.1 hpath
    obtain ⟨p, content, hsurveys, rfl, -⟩ := (mem_digests hw).1 hd
    obtain ⟨f, hf, rfl, -⟩ := hsurveys.mem_filesIn
    exact List.mem_map.2 ⟨f, hf, rfl⟩
  have hle := (List.subperm_of_subset hlisting.once hsubset).length_le
  rwa [List.length_map, List.length_map, ← hlisting.counted] at hle

/-- A store with nothing in it. -/
def emptyStore : State := .withEntries [] Faults.none

/-- In it nothing can fail. -/
theorem clear_emptyStore : emptyStore.Clear ⟨[], [], ["ws", ".contextscan"]⟩ :=
  State.clear_withEntries (by decide) (by simp) (by simp)

/-- The number of a few files is short enough. -/
theorem short_of_few {n : Nat} (h : n ≤ 2) : n < 10 ^ Json.maxIntDigits :=
  Nat.lt_of_lt_of_le (Nat.lt_of_le_of_lt h (by decide)) (Nat.le_self_pow (by decide) 10)

/-- Two files. -/
def earlierFiles : List (String × String) := [("a.ts", "x"), ("c.ts", "x")]

/-- The same after one was renamed and the other edited. -/
def laterFiles : List (String × String) := [("b.ts", "x"), ("c.ts", "y")]

/-- It is told that a file was renamed and another edited, though there are as many as before. -/
theorem rename_and_edit_are_told :
    Ends (do
      LastSnapshot.save (.take "" (filesIn earlierFiles) ⟨10, true⟩ defaultMatcher)
      LastSnapshot.load) emptyStore fun r _ =>
        ∃ loaded, r = .ok loaded ∧ Snapshot.hasChanged loaded
          (.take "" (filesIn laterFiles) ⟨10, true⟩ defaultMatcher) = true := by
  have hw : (filesIn earlierFiles).Proper ["ws"] :=
    proper_filesIn (by decide) (by decide)
  have hw' : (filesIn laterFiles).Proper ["ws"] :=
    proper_filesIn (by decide) (by decide)
  -- The files have one of two contents, and the digests of the two are different.
  have hdiffer : DigestsDiffer (filesIn earlierFiles) ["ws"]
      (filesIn laterFiles) ["ws"] ⟨10, true⟩ defaultMatcher defaultMatcher := by
    intro p p' content content' h h' hdigest
    obtain ⟨f, hf, -, rfl⟩ := h.mem_filesIn
    obtain ⟨f', hf', -, rfl⟩ := h'.mem_filesIn
    have hxy : Digest.sha256 "x".toUTF8 ≠ Digest.sha256 "y".toUTF8 := by decide +kernel
    rcases List.mem_pair.1 hf with rfl | rfl <;> rcases List.mem_pair.1 hf' with rfl | rfl <;>
      first | rfl | exact absurd hdigest hxy
  have hspec := changes_are_told (o := {}) hw hw' (by rfl) (by rfl)
    hdiffer clear_emptyStore "" ""
  refine hspec.mono ?_
  rintro r s' (⟨-, loaded, rfl, htold, -⟩ | ⟨hlong, -⟩)
  · refine ⟨loaded, rfl, Bool.not_eq_false _ ▸ fun hsame => ?_⟩
    have ha : Surveys (filesIn earlierFiles) ["ws"] ⟨10, true⟩ defaultMatcher ["a.ts"]
        "x".toUTF8 := ⟨⟨by simp, rfl, by decide +kernel⟩, rfl, by decide⟩
    obtain ⟨f, hf, hname, -⟩ := ((htold.1 hsame _ _).1 ha).mem_filesIn
    revert hname
    rcases List.mem_pair.1 hf with rfl | rfl <;> decide
  · exact absurd (short_of_few (fileCount_filesIn_le hw _ _ _)) hlong

/-- A change is told of where a file was surveyed before and none is any more. -/
theorem ends_hasChanged {files files' : List (String × String)} {limits : WalkLimits} {p : Path}
    {content : ByteArray} (hw : (filesIn files).Proper ["ws"])
    (hw' : (filesIn files').Proper ["ws"]) (hfew : files.length ≤ 2)
    (hfile : Surveys (filesIn files) ["ws"] limits m p content)
    (hnone : ∀ p content, ¬ Surveys (filesIn files') ["ws"] limits m' p content) :
    Ends (do LastSnapshot.save (.take "" (filesIn files) limits m); LastSnapshot.load) emptyStore
      fun r _ => ∃ loaded, r = .ok loaded ∧
        Snapshot.hasChanged loaded (.take "" (filesIn files') limits m') = true := by
  have hdiffer : DigestsDiffer (filesIn files) ["ws"] (filesIn files') ["ws"] limits m m' :=
    fun p p' content content' _ h' => absurd h' (hnone p' content')
  refine (LastSnapshot.load_save_spec clear_emptyStore (isListing_take hw "").once).mono ?_
  rintro r s' (⟨-, rfl⟩ | ⟨hlong, -⟩)
  · refine ⟨_, rfl, Bool.not_eq_false _ ▸ fun hsame => ?_⟩
    have halike := (hasChanged_take hw hw' hdiffer "" "").1 hsame
    exact hnone p content ((halike p content).1 hfile)
  · exact absurd (short_of_few ((fileCount_filesIn_le hw _ _ _).trans hfew)) hlong

/-- A result that meets a test. -/
theorem exists_of_any_toOption {ε α : Type} {r : Except ε α} {p : α → Bool}
    (h : r.toOption.any p = true) : ∃ x, r = .ok x ∧ p x := by
  cases r with
  | error e => cases h
  | ok x => exact ⟨x, rfl, h⟩

/-- A file that an ignore file ignores beside itself. -/
def ignoringFiles : List (String × String) :=
  [(ignoreFileName, ".gitignore\na.ts\n"), ("a.ts", "x")]

/-- The same when only the ignore file is ignored. -/
def keepingFiles : List (String × String) := [(ignoreFileName, ".gitignore\n"), ("a.ts", "x")]

/-- A change of the ignore file counts though it is ignored itself: it tells what else is. -/
theorem change_of_ignored_file_is_told :
    ∃ m m', matcherOf (filesIn keepingFiles) {} = .ok m ∧
      matcherOf (filesIn ignoringFiles) {} = .ok m' ∧
      m.ignoresParts [ignoreFileName] false ∧ m'.ignoresParts [ignoreFileName] false ∧
      Ends (do
        LastSnapshot.save (.take "" (filesIn keepingFiles) ⟨10, true⟩ m)
        LastSnapshot.load) emptyStore fun r _ =>
          ∃ loaded, r = .ok loaded ∧
            Snapshot.hasChanged loaded (.take "" (filesIn ignoringFiles) ⟨10, true⟩ m') = true := by
  have hkeeping : (filesIn keepingFiles).Proper ["ws"] := proper_filesIn (by decide) (by decide)
  have hignoring : (filesIn ignoringFiles).Proper ["ws"] := proper_filesIn (by decide) (by decide)
  -- The ignore file is ignored in both workspaces, and `a.ts` only in the second.
  obtain ⟨m, hm, hkept⟩ := exists_of_any_toOption (r := matcherOf (filesIn keepingFiles) {})
    (p := fun m => m.ignoresParts [ignoreFileName] false && !m.ignoresParts ["a.ts"] false)
    (by decide +kernel)
  obtain ⟨m', hm', hnone⟩ := exists_of_any_toOption (r := matcherOf (filesIn ignoringFiles) {})
    (p := fun m => m.ignoresParts [ignoreFileName] false && m.ignoresParts ["a.ts"] false)
    (by decide +kernel)
  simp only [Bool.and_eq_true, Bool.not_eq_true'] at hkept hnone
  refine ⟨m, m', hm, hm', hkept.1, hnone.1, ends_hasChanged hkeeping hignoring (by decide)
    (p := ["a.ts"]) ⟨⟨by simp, rfl, hkept.2⟩, rfl, by decide⟩ fun p content h => ?_⟩
  have hkeeps := h.keeps.kept
  obtain ⟨f, hf, rfl, -⟩ := h.mem_filesIn
  rcases List.mem_pair.1 hf with rfl | rfl
  · exact Bool.false_ne_true (hkeeps.symm.trans hnone.1)
  · exact Bool.false_ne_true (hkeeps.symm.trans hnone.2)

end CodeSurvey.Survey
