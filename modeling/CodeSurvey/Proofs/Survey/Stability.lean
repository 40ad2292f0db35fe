import CodeSurvey.Proofs.Files.Shelter
import CodeSurvey.Proofs.Survey.Repetition

/-!
# Snapshots that tell of no change

A snapshot does not tell of files that come, go or change where they are sheltered from it: the walk
lists no path to them, and the ignore file is none of them, whatever stands there (`Sheltered`). Two
snapshots of a tidy tree with and without such files tell of no change
(`Sheltered.hasChanged_eq_false`). There may be links in the workspace, as long as none that is
listed leads to such a file.

Without links whatever happens in the control directory is not told of where that is ignored
(`hasChanged_eq_false_of_outside`).
-/

namespace CodeSurvey.Survey

open CodeSurvey.Files CodeSurvey.Settings

variable {w w' : Workspace} {top : Path} {limits : WalkLimits} {m : Ignore.Matcher} {o : Options}
  {t : Tree} {places : List Path}

/-- A snapshot of a tidy tree lists each path once. -/
theorem isListing_take_of_tidy (ht : w.tree.Tidy) (takenAt : String) :
    (Snapshot.take takenAt w limits m).IsListing :=
  isListing_take_of_nodup ((Workspace.nodup_paths_walk ht).sublist (List.filter_sublist.map _))
    takenAt

/-- Files at some places are sheltered from snapshots: whatever stands there, the walk lists no path
to one of them, and the ignore file, where it counts, is none of them. -/
def Sheltered (w : Workspace) (o : Options) (places : List Path) : Prop :=
  ∀ t : Tree, t.Sound → t.Tidy → Tree.SameBut places w.tree t →
    (o.respectIgnoreFile → t.Past places (w.locate [ignoreFileName])) ∧
    ∀ m, matcherOf { w with tree := t } o = .ok m →
      ∀ e ∈ ({ w with tree := t } : Workspace).walk o.limits m, t.Past places (w.locate e.parts)

/-- What is sheltered in a tree is sheltered in one that is the same but for it. -/
theorem Sheltered.of_sameBut (h : Sheltered w o places) (hsame : Tree.SameBut places w.tree t) :
    Sheltered { w with tree := t } o places :=
  fun _ hs ht hsame' => h _ hs ht (hsame.trans hsame')

/-- The matcher does not depend on what the ignore file is not. -/
theorem matcherOf_eq_of_past (hsame : Tree.SameBut places w.tree t)
    (hpast : o.respectIgnoreFile → w.tree.Past places (w.locate [ignoreFileName]))
    (hpast' : o.respectIgnoreFile → t.Past places (w.locate [ignoreFileName])) :
    matcherOf { w with tree := t } o = matcherOf w o := by
  unfold matcherOf
  cases hrespect : o.respectIgnoreFile with
  | false => rfl
  | true =>
    have hbytes := hsame.toOption_bytes_eq (hpast hrespect) (hpast' hrespect)
    have hread : ({ w with tree := t } : Workspace).bytes? [ignoreFileName] =
        w.bytes? [ignoreFileName] := by
      change (if w.unreadable (w.locate [ignoreFileName]) then none
        else (t.bytes (w.locate [ignoreFileName])).toOption) = _
      rw [hbytes]
      rfl
    rw [hread]

/-- Two snapshots tell of no change if all that comes, goes or changes between them is sheltered. -/
theorem Sheltered.hasChanged_eq_false (h : Sheltered w o places) (hroot : w.isDir [])
    (hs : w.tree.Sound) (ht : w.tree.Tidy) (hs' : t.Sound) (ht' : t.Tidy)
    (hsame : Tree.SameBut places w.tree t) (hm : matcherOf w o = .ok m)
    (takenAt takenAt' : String) :
    matcherOf { w with tree := t } o = .ok m ∧
      Snapshot.hasChanged (some (.take takenAt w o.limits m))
        (.take takenAt' { w with tree := t } o.limits m) = false := by
  have hself : Tree.SameBut places w.tree w.tree := ⟨fun _ _ => rfl, hsame.free, hsame.free⟩
  obtain ⟨hignore, hwalk⟩ := h w.tree hs ht hself
  obtain ⟨hignore', hwalk'⟩ := h t hs' ht' hsame
  have hm' : matcherOf { w with tree := t } o = .ok m :=
    (matcherOf_eq_of_past hsame hignore hignore').trans hm
  have hpast := hwalk m hm
  have hpast' := hwalk' m hm'
  have hsameWalk := Workspace.walk_eq_of_past hsame ht ht' hroot hpast hpast'
  -- The walks are the same, and so are the contents of the files that they list.
  have hdigests : (Snapshot.take takenAt' { w with tree := t } o.limits m).digests =
      (Snapshot.take takenAt w o.limits m).digests := by
    unfold Snapshot.take
    dsimp only
    rw [hsameWalk]
    refine List.filterMap_congr fun e he => ?_
    have hlisted := List.mem_of_mem_filter he
    have hbytes := hsame.toOption_bytes_eq (hpast e hlisted) (hpast' e (hsameWalk ▸ hlisted))
    have hdigest : Snapshot.digestAt? { w with tree := t } e.parts =
        Snapshot.digestAt? w e.parts := by
      change (if w.unreadable (w.locate e.parts) then none
        else (t.bytes (w.locate e.parts)).toOption).map _ = _
      rw [hbytes]
      rfl
    rw [hdigest]
  refine ⟨hm', (Snapshot.hasChanged_eq_false (isListing_take_of_tidy ht takenAt)
    (isListing_take_of_tidy ht' takenAt')).2 fun d => ?_⟩
  rw [hdigests]

/-- A tidy tree without links below the root makes a proper workspace. -/
theorem proper_of_tidy (hs : t.Sound) (ht : t.Tidy) (hleads : t.at? w.root = .ok (top, .dir))
    (hnoLink : ∀ ps target, t.entry? (top ++ ps) ≠ some (.link target)) :
    ({ w with tree := t } : Workspace).Proper top where
  sound := hs
  once := ht.once
  leads := hleads
  names := by
    intro ps hps name hname
    obtain ⟨e, he⟩ := Option.isSome_iff_exists.1 hps
    obtain ⟨hempty, hslash, -, hup⟩ := ht.isWritten he name (List.mem_append_right _ hname)
    exact ⟨hempty, hslash, hup⟩
  noLink := hnoLink
  noPoint := by
    intro ps hps hin
    obtain ⟨e, he⟩ := Option.isSome_iff_exists.1 hps
    exact (ht.isWritten he _ (List.mem_append_right _ hin)).2.2.1 rfl

/-- Without links the same can be read at a path where the same file stands, or none in both. -/
theorem bytes?_eq_of_file_iff (hw : w.Proper top) (hw' : w'.Proper top)
    (hreadable : ∀ q, w.unreadable q = false) (hreadable' : ∀ q, w'.unreadable q = false)
    {p : Path} (hup : ".." ∉ p) (hne : p ≠ [])
    (hfile : ∀ content, w.tree.entry? (top ++ p) = some (.file content) ↔
      w'.tree.entry? (top ++ p) = some (.file content)) :
    w.bytes? p = w'.bytes? p := by
  have hread {w : Workspace} (hw : w.Proper top) (hreadable : ∀ q, w.unreadable q = false)
      (content : ByteArray) :
      w.bytes? p = some content ↔ w.tree.entry? (top ++ p) = some (.file content) := by
    rw [Workspace.bytes?, hreadable, if_neg Bool.false_ne_true, toOption_bytes hw hup hne]
    rcases w.tree.entry? (top ++ p) with _ | (_ | _ | _) <;> simp
  ext1 content
  rw [hread hw hreadable, hread hw' hreadable', hfile]

section Outside

variable (hw : w.Proper top) (hw' : w'.Proper top) (hreadable : ∀ q, w.unreadable q = false)
  (hreadable' : ∀ q, w'.unreadable q = false)
  (hfiles : ∀ p content, ¬ [controlDirName] <+: p →
    (w.tree.entry? (top ++ p) = some (.file content) ↔
      w'.tree.entry? (top ++ p) = some (.file content)))
include hw hw' hreadable hreadable' hfiles

/-- Workspaces without links have the same matcher if the same files stand outside of the control
directory. -/
theorem matcherOf_eq_of_outside (o : Options) : matcherOf w' o = matcherOf w o := by
  have hignoreFile : w.bytes? [ignoreFileName] = w'.bytes? [ignoreFileName] :=
    bytes?_eq_of_file_iff hw hw' hreadable hreadable' (by decide) (by decide)
      fun content => hfiles _ content (by decide)
  unfold matcherOf
  rw [hignoreFile]

/-- Their snapshots tell of no change if the control directory is ignored. -/
theorem hasChanged_eq_false_of_outside
    (hdir : w.tree.entry? (top ++ [controlDirName]) = some .dir)
    (hdir' : w'.tree.entry? (top ++ [controlDirName]) = some .dir)
    (hm : matcherOf w o = .ok m) (hignored : m.ignoresParts [controlDirName] true)
    (takenAt takenAt' : String) :
    matcherOf w' o = .ok m ∧
      Snapshot.hasChanged (some (.take takenAt w o.limits m)) (.take takenAt' w' o.limits m) =
        false := by
  have hm' : matcherOf w' o = .ok m :=
    (matcherOf_eq_of_outside hw hw' hreadable hreadable' hfiles o).trans hm
  -- A file that is kept does not lie in the control directory, nor does it stand in its place.
  have halike : SurveyAlike w top w' top o.limits m m := by
    rintro p content
    refine surveys_iff_of_kept fun hkept => ?_
    rw [HasFile, HasFile, hreadable, hreadable', and_iff_left rfl, and_iff_left rfl]
    by_cases hin : [controlDirName] <+: p
    · by_cases hself : p = [controlDirName]
      · rw [hself, hdir, hdir']
      · have hbelow := m.ignoresParts_of_prefix (List.cons_ne_nil _ _) hin (Ne.symm hself)
          hignored false
        exact absurd (hkept.symm.trans hbelow) Bool.false_ne_true
    · exact hfiles p content hin
  exact ⟨hm', halike.hasChanged_eq_false hw hw' takenAt takenAt'⟩

end Outside

end CodeSurvey.Survey
