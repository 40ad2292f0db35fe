import CodeSurvey.Proofs.Files.Tree

/-!
# What file operations do on a route

A route is a path that leads to a directory and goes on by names without links (`Tree.Route`). On a
route each operation is told by what stands at its end: reading and removing need a file there,
writing needs a file or a free name in a directory, and so does the target of a move. A directory is
made at a free name in a directory.

What the operations change is bounded by `Touches`: directories are made on the way to one
directory, a few files come, go or change, and everything else is as before. So a route stays one
(`Touches.route`).
-/

namespace CodeSurvey.Files.Tree

/-- A path that leads to a directory and goes on by names: none of these is a link. -/
structure Route (t : Tree) (start top ps : Path) : Prop where
  /-- Every entry lies in a directory. -/
  sound : t.Sound
  /-- The first part leads to a directory. -/
  leads : t.at? start = .ok (top, .dir)
  /-- The rest has no parent references. -/
  plain : ".." ∉ ps
  /-- The rest has no links. -/
  noLink : t.LinkFree top ps

/-- Whether a name is free or stands for a file. -/
def FileOrFree (t : Tree) (p : Path) : Prop :=
  ∀ e, t.entry? p = some e → ∃ content, e = .file content

/-- Nothing stands at a free name. -/
theorem fileOrFree_of_none {t : Tree} {p : Path} (h : t.entry? p = none) : t.FileOrFree p := by
  intro e he
  rw [h] at he
  cases he

/-- A file stands for itself. -/
theorem fileOrFree_of_file {t : Tree} {p : Path} {content : ByteArray}
    (h : t.entry? p = some (.file content)) : t.FileOrFree p := by
  intro e he
  rw [h] at he
  exact ⟨content, (Option.some.inj he).symm⟩

/-- A directory is neither a file nor a free name. -/
theorem not_fileOrFree_of_dir {t : Tree} {p : Path} (h : t.entry? p = some .dir) :
    ¬ t.FileOrFree p := by
  intro hfree
  obtain ⟨content, hcontent⟩ := hfree _ h
  cases hcontent

/-- Whether no part of a path is a file. -/
def FileFree (t : Tree) (top ps : Path) : Prop :=
  ∀ qs content, qs <+: ps → t.entry? (top ++ qs) ≠ some (.file content)

namespace Route

variable {t : Tree} {start top ps : Path}

/-- A part of a route from its start is one. -/
theorem of_prefix (r : t.Route start top ps) {qs : Path} (h : qs <+: ps) :
    t.Route start top qs where
  sound := r.sound
  leads := r.leads
  plain := fun hup => r.plain (h.subset hup)
  noLink := fun rs target hrs => r.noLink rs target (hrs.trans h)

/-- A route leads from a directory. -/
theorem top_isDir (r : t.Route start top ps) : t.entry? top = some .dir :=
  (at?_eq_dir.1 r.leads).2

/-- Following a route comes down to descending from its directory. -/
theorem resolveOver_eq (r : t.Route start top ps) (hne : ps ≠ []) :
    ∃ onLink : Ending → Path → List String → Except Errno Path, ∀ ending,
      t.resolveOver ending maxLinks [] (start ++ ps) = t.follow ending (onLink ending) top ps := by
  obtain ⟨m, hm⟩ := (at?_eq_dir.1 r.leads).1.append
  exact ⟨fun ending => t.resolveOver ending m, fun ending => hm ending ps hne⟩

/-! ## Where a route leads -/

/-- A route leads to what stands at its end. -/
theorem resolveOver_of_entry (r : t.Route start top ps) (hne : ps ≠ []) {e : Entry}
    (he : t.entry? (top ++ ps) = some e) (ending : Ending) :
    t.resolveOver ending maxLinks [] (start ++ ps) = .ok (top ++ ps) := by
  obtain ⟨onLink, h⟩ := r.resolveOver_eq hne
  rw [h, follow_of_entry r.sound r.plain r.noLink he]

/-- A route ends at a free name of a directory only if the name may be free. -/
theorem resolveOver_of_free (r : t.Route start top ps) (hne : ps ≠ [])
    (hparent : t.entry? (top ++ ps.dropLast) = some .dir) (he : t.entry? (top ++ ps) = none)
    (ending : Ending) :
    t.resolveOver ending maxLinks [] (start ++ ps) =
      if ending = .orFree then .ok (top ++ ps) else .error Errno.noEntry := by
  obtain ⟨onLink, h⟩ := r.resolveOver_eq hne
  rw [h, follow_of_free r.plain hne r.sound hparent he]

/-- A route whose last name lies in no directory leads nowhere. -/
theorem resolveOver_of_lost (r : t.Route start top ps) (hne : ps ≠ [])
    (hparent : t.entry? (top ++ ps.dropLast) ≠ some .dir) (ending : Ending) :
    ∃ e, t.resolveOver ending maxLinks [] (start ++ ps) = .error e ∧
      (t.FileFree top ps → e = Errno.noEntry) := by
  obtain ⟨onLink, h⟩ := r.resolveOver_eq hne
  rw [h]
  exact follow_of_lost r.plain r.noLink hne r.top_isDir hparent

/-- A route whose end is free leads nowhere. -/
theorem resolveOver_of_none (r : t.Route start top ps) (hne : ps ≠ [])
    (he : t.entry? (top ++ ps) = none) {ending : Ending} (hending : ending ≠ .orFree) :
    ∃ e, t.resolveOver ending maxLinks [] (start ++ ps) = .error e ∧
      (t.FileFree top ps → e = Errno.noEntry) := by
  by_cases hparent : t.entry? (top ++ ps.dropLast) = some .dir
  · refine ⟨Errno.noEntry, ?_, fun _ => rfl⟩
    rw [r.resolveOver_of_free hne hparent he, if_neg hending]
  · exact r.resolveOver_of_lost hne hparent ending

/-- What a route leads to is what stands at its end. -/
theorem at?_of_entry (r : t.Route start top ps) (hne : ps ≠ []) {e : Entry}
    (he : t.entry? (top ++ ps) = some e) : t.at? (start ++ ps) = .ok (top ++ ps, e) := by
  simp only [at?, resolve, r.resolveOver_of_entry hne he, he]

/-- A route leads to nothing if its end is free. -/
theorem at?_of_none (r : t.Route start top ps) (hne : ps ≠ [])
    (he : t.entry? (top ++ ps) = none) :
    ∃ e, t.at? (start ++ ps) = .error e ∧ (t.FileFree top ps → e = Errno.noEntry) := by
  obtain ⟨e, h, hclear⟩ := r.resolveOver_of_none hne he (show Ending.followed ≠ .orFree by decide)
  exact ⟨e, by simp only [at?, resolve, h], hclear⟩

/-- What a route leads to, if it leads anywhere. -/
theorem map_at? (r : t.Route start top ps) (hne : ps ≠ []) :
    (t.at? (start ++ ps)).toOption.map (·.2) = t.entry? (top ++ ps) := by
  cases he : t.entry? (top ++ ps) with
  | none =>
    obtain ⟨e, h, -⟩ := r.at?_of_none hne he
    rw [h]
    rfl
  | some e =>
    rw [r.at?_of_entry hne he]
    rfl

/-! ## Operations -/

/-- Reading gives the bytes of the file at the end of a route. -/
theorem bytes_of_file (r : t.Route start top ps) (hne : ps ≠ []) {content : ByteArray}
    (he : t.entry? (top ++ ps) = some (.file content)) : t.bytes (start ++ ps) = .ok content := by
  simp only [bytes, r.at?_of_entry hne he]

/-- Nothing is read where nothing stands. -/
theorem bytes_of_none (r : t.Route start top ps) (hne : ps ≠ [])
    (he : t.entry? (top ++ ps) = none) (hclear : t.FileFree top ps) :
    t.bytes (start ++ ps) = .error Errno.noEntry := by
  obtain ⟨e, h, hno⟩ := r.at?_of_none hne he
  simp only [bytes, h, hno hclear]

/-- What is read is a file. -/
theorem file_of_bytes (r : t.Route start top ps) (hne : ps ≠ []) {content : ByteArray}
    (h : t.bytes (start ++ ps) = .ok content) : t.entry? (top ++ ps) = some (.file content) := by
  cases he : t.entry? (top ++ ps) with
  | none =>
    obtain ⟨e, hat, -⟩ := r.at?_of_none hne he
    simp only [bytes, hat] at h
    cases h
  | some e =>
    simp only [bytes, r.at?_of_entry hne he] at h
    cases e with
    | file old => rw [Except.ok.inj h]
    | dir => cases h
    | link target => cases h

/-- The file at the end of a route is removed. -/
theorem unlink_of_file (r : t.Route start top ps) (hne : ps ≠ []) {content : ByteArray}
    (he : t.entry? (top ++ ps) = some (.file content)) :
    t.unlink (start ++ ps) = .ok (t.erase (top ++ ps)) := by
  simp only [unlink, locate, r.resolveOver_of_entry hne he, he]

/-- Nothing is removed where nothing stands. -/
theorem unlink_of_none (r : t.Route start top ps) (hne : ps ≠ [])
    (he : t.entry? (top ++ ps) = none) :
    ∃ e, t.unlink (start ++ ps) = .error e ∧ (t.FileFree top ps → e = Errno.noEntry) := by
  obtain ⟨e, h, hclear⟩ := r.resolveOver_of_none hne he (show Ending.asIs ≠ .orFree by decide)
  exact ⟨e, by simp only [unlink, locate, h], hclear⟩

/-- Only files are removed. -/
theorem eq_erase_of_unlink (r : t.Route start top ps) (hne : ps ≠ []) {t' : Tree}
    (h : t.unlink (start ++ ps) = .ok t') :
    (∃ content, t.entry? (top ++ ps) = some (.file content)) ∧ t' = t.erase (top ++ ps) := by
  cases he : t.entry? (top ++ ps) with
  | none =>
    obtain ⟨e, hun, -⟩ := r.unlink_of_none hne he
    rw [hun] at h
    cases h
  | some e =>
    simp only [unlink, locate, r.resolveOver_of_entry hne he, he] at h
    cases e with
    | file content => exact ⟨⟨content, rfl⟩, (Except.ok.inj h).symm⟩
    | dir => cases h
    | link target => exact absurd he (r.noLink ps target (List.prefix_refl _))

/-- A file is written in a directory if its name is free or that of a file. -/
theorem write_of_fileOrFree (r : t.Route start top ps) (hne : ps ≠ [])
    (hparent : t.entry? (top ++ ps.dropLast) = some .dir) (he : t.FileOrFree (top ++ ps))
    (content : ByteArray) :
    t.write (start ++ ps) content = .ok (t.put (top ++ ps) (.file content)) := by
  cases hentry : t.entry? (top ++ ps) with
  | none =>
    have h := r.resolveOver_of_free hne hparent hentry .orFree
    simp only [write, writePlace, h, if_pos, hentry]
    rfl
  | some e =>
    obtain ⟨old, rfl⟩ := he e hentry
    simp only [write, writePlace, r.resolveOver_of_entry hne hentry, hentry]
    rfl

/-- A file is only written in a directory, at a free name or over a file. -/
theorem eq_put_of_write (r : t.Route start top ps) (hne : ps ≠ []) {content : ByteArray} {t' : Tree}
    (h : t.write (start ++ ps) content = .ok t') :
    t.entry? (top ++ ps.dropLast) = some .dir ∧ t.FileOrFree (top ++ ps) ∧
      t' = t.put (top ++ ps) (.file content) := by
  have hparent : t.entry? (top ++ ps.dropLast) = some .dir := by
    by_contra hparent
    obtain ⟨e, hlost, -⟩ := r.resolveOver_of_lost hne hparent .orFree
    simp only [write, writePlace, hlost] at h
    cases h
  have hfree : t.FileOrFree (top ++ ps) := by
    intro e he
    cases e with
    | file old => exact ⟨old, rfl⟩
    | dir =>
      simp only [write, writePlace, r.resolveOver_of_entry hne he, he] at h
      cases h
    | link target => exact absurd he (r.noLink ps target (List.prefix_refl _))
  rw [r.write_of_fileOrFree hne hparent hfree] at h
  exact ⟨hparent, hfree, (Except.ok.inj h).symm⟩

/-- A file is moved beside itself over a free name or another file. -/
theorem rename_of_fileOrFree {dir : Path} {a b : String} (ra : t.Route start top (dir ++ [a]))
    (rb : t.Route start top (dir ++ [b])) (hab : a ≠ b) {moved : Entry}
    (ha : t.entry? (top ++ (dir ++ [a])) = some moved) (hb : t.FileOrFree (top ++ (dir ++ [b]))) :
    t.rename (start ++ (dir ++ [a])) (start ++ (dir ++ [b])) =
      .ok ((t.erase (top ++ (dir ++ [a]))).put (top ++ (dir ++ [b])) moved) := by
  have hdir : t.entry? (top ++ dir) = some .dir := by
    rw [← List.append_assoc] at ha
    exact ra.sound _ _ (by rw [ha]; rfl)
  have hsource := ra.resolveOver_of_entry (by simp) ha .asIs
  cases hentry : t.entry? (top ++ (dir ++ [b])) with
  | some e =>
    -- The target is a file, which is another one.
    obtain ⟨old, rfl⟩ := hb e hentry
    have htarget := rb.resolveOver_of_entry (by simp) hentry .asIs
    have hne : top ++ (dir ++ [b]) ≠ top ++ (dir ++ [a]) := by simpa using hab.symm
    simp only [rename, locate, hsource, ha, htarget, hentry]
    rw [if_neg hne]
  | none =>
    -- The target is a free name, and the directory that it lies in is looked up.
    have htarget := rb.resolveOver_of_free (by simp) (by simpa using hdir) hentry .asIs
    have hat : t.at? (start ++ dir) = .ok (top ++ dir, .dir) := by
      rcases eq_or_ne dir [] with rfl | hne
      · simpa using ra.leads
      · exact (ra.of_prefix (List.prefix_append _ _)).at?_of_entry hne hdir
    have hlast : (start ++ (dir ++ [b])).getLast? = some b := by
      rw [← List.append_assoc, List.getLast?_concat]
    have hinit : (start ++ (dir ++ [b])).dropLast = start ++ dir := by
      rw [← List.append_assoc, List.dropLast_concat]
    rw [if_neg (show Ending.asIs ≠ .orFree by decide)] at htarget
    simp only [rename, locate, hsource, ha, htarget, hlast, hinit, hat]
    rw [if_neg (by simp), List.append_assoc]

/-- A move beside itself is only made over a free name or a file. -/
theorem eq_put_of_rename {dir : Path} {a b : String} (ra : t.Route start top (dir ++ [a]))
    (rb : t.Route start top (dir ++ [b])) (hab : a ≠ b) {t' : Tree}
    (h : t.rename (start ++ (dir ++ [a])) (start ++ (dir ++ [b])) = .ok t') :
    ∃ moved, t.entry? (top ++ (dir ++ [a])) = some moved ∧ t.FileOrFree (top ++ (dir ++ [b])) ∧
      t' = (t.erase (top ++ (dir ++ [a]))).put (top ++ (dir ++ [b])) moved := by
  cases ha : t.entry? (top ++ (dir ++ [a])) with
  | none =>
    obtain ⟨e, hlost, -⟩ :=
      ra.resolveOver_of_none (by simp) ha (show Ending.asIs ≠ .orFree by decide)
    simp only [rename, locate, hlost] at h
    cases h
  | some moved =>
    -- A file is not moved over a directory, and a route has no links.
    have hb : t.FileOrFree (top ++ (dir ++ [b])) := by
      intro e he
      cases e with
      | file old => exact ⟨old, rfl⟩
      | dir =>
        simp only [rename, locate, ra.resolveOver_of_entry (by simp) ha, ha,
          rb.resolveOver_of_entry (by simp) he, he] at h
        cases h
      | link target => exact absurd he (rb.noLink _ target (List.prefix_refl _))
    rw [rename_of_fileOrFree ra rb hab ha hb] at h
    exact ⟨moved, rfl, hb, (Except.ok.inj h).symm⟩

/-- No directory is made where something stands. -/
theorem makeDir_of_entry (r : t.Route start top ps) (hne : ps ≠ []) {e : Entry}
    (he : t.entry? (top ++ ps) = some e) : t.makeDir (start ++ ps) = .error Errno.exists_ := by
  simp only [makeDir, locate, r.resolveOver_of_entry hne he]

/-- A directory is made at a free name in a directory. -/
theorem makeDir_of_free (r : t.Route start top ps) (hne : ps ≠ [])
    (hparent : t.entry? (top ++ ps.dropLast) = some .dir) (he : t.entry? (top ++ ps) = none) :
    t.makeDir (start ++ ps) = .ok (t.put (top ++ ps) .dir) := by
  have htarget := r.resolveOver_of_free hne hparent he .asIs
  rw [if_neg (by decide)] at htarget
  have hat : t.at? (start ++ ps.dropLast) = .ok (top ++ ps.dropLast, .dir) := by
    rcases eq_or_ne ps.dropLast [] with hnil | hinit
    · simpa [hnil] using r.leads
    · exact (r.of_prefix (List.dropLast_prefix ps)).at?_of_entry hinit hparent
  have hlast : (start ++ ps).getLast? = some (ps.getLast hne) := by
    rw [List.getLast?_append, List.getLast?_eq_some_getLast hne]
    rfl
  simp only [makeDir, locate, htarget, List.dropLast_append_of_ne_nil hne, hat, hlast]
  rw [if_neg (by simp), List.append_assoc, List.dropLast_concat_getLast]

/-- No directory is made where there is no directory to make it in. -/
theorem makeDir_of_lost (r : t.Route start top ps) (hne : ps ≠ [])
    (hparent : t.entry? (top ++ ps.dropLast) ≠ some .dir) :
    ∃ e, t.makeDir (start ++ ps) = .error e ∧ (t.FileFree top ps → e = Errno.noEntry) := by
  obtain ⟨e, htarget, hclear⟩ := r.resolveOver_of_lost hne hparent .asIs
  by_cases hno : e = Errno.noEntry
  · -- The directory above is no directory, whatever it is.
    have hinit : ps.dropLast ≠ [] := fun hnil => hparent (by simpa [hnil] using r.top_isDir)
    have rinit := r.of_prefix (List.dropLast_prefix ps)
    simp only [makeDir, locate, htarget, List.dropLast_append_of_ne_nil hne]
    rw [if_neg (by simpa using hno)]
    cases hentry : t.entry? (top ++ ps.dropLast) with
    | none =>
      obtain ⟨e', hat, hclear'⟩ := rinit.at?_of_none hinit hentry
      rw [hat]
      exact ⟨e', rfl, fun h => hclear' fun qs content hqs =>
        h qs content (hqs.trans (List.dropLast_prefix ps))⟩
    | some d =>
      rw [rinit.at?_of_entry hinit hentry]
      cases d with
      | dir => exact absurd hentry hparent
      | file content =>
        refine ⟨Errno.notDirectory, rfl, fun h => ?_⟩
        exact absurd hentry (h _ content (List.dropLast_prefix ps))
      | link target => exact absurd hentry (rinit.noLink _ target (List.prefix_refl _))
  · refine ⟨e, ?_, hclear⟩
    simp only [makeDir, locate, htarget]
    rw [if_pos hno]

end Route

/-! ## What is left as it is -/

/-- What file operations change at most: directories are made on the way to `dir`, and `files` come,
go or change. -/
structure Touches (dir : Path) (files : List Path) (t t' : Tree) : Prop where
  /-- Every entry lies in a directory afterwards. -/
  sound : t'.Sound
  /-- Every entry is as before, or one of those. -/
  entry : ∀ p, t'.entry? p = t.entry? p ∨
    (p <+: dir ∧ t.FileOrFree p ∧ t'.entry? p = some .dir) ∨
    (p ∈ files ∧ t.FileOrFree p ∧ t'.FileOrFree p)

namespace Touches

variable {dir : Path} {files : List Path} {t t' t'' : Tree}

/-- Nothing is changed. -/
theorem refl (h : t.Sound) : Touches dir files t t where
  sound := h
  entry := fun _ => .inl rfl

/-- What two operations change together. -/
theorem trans (h : Touches dir files t t') (h' : Touches dir files t' t'') :
    Touches dir files t t'' where
  sound := h'.sound
  entry := by
    intro p
    rcases h.entry p with hsame | ⟨hdir, hold, hmade⟩ | ⟨hp, hold, hnew⟩
    · -- What the first operation leaves the second one may change.
      have hback : t'.FileOrFree p → t.FileOrFree p := fun hfree e he => hfree e (hsame ▸ he)
      rcases h'.entry p with hsame' | ⟨hdir, hold, hmade⟩ | ⟨hp, hold, hnew⟩
      · exact .inl (hsame'.trans hsame)
      · exact .inr (.inl ⟨hdir, hback hold, hmade⟩)
      · exact .inr (.inr ⟨hp, hback hold, hnew⟩)
    · -- A directory that was made stays.
      have hstays := not_fileOrFree_of_dir hmade
      rcases h'.entry p with hsame' | ⟨-, hfree, -⟩ | ⟨-, hfree, -⟩
      · exact .inr (.inl ⟨hdir, hold, hsame'.trans hmade⟩)
      · exact absurd hfree hstays
      · exact absurd hfree hstays
    · -- A file may go again, and a directory be made at its name.
      rcases h'.entry p with hsame' | ⟨hdir, -, hmade⟩ | ⟨-, -, hnew'⟩
      · exact .inr (.inr ⟨hp, hold, fun e he => hnew e (hsame' ▸ he)⟩)
      · exact .inr (.inl ⟨hdir, hold, hmade⟩)
      · exact .inr (.inr ⟨hp, hold, hnew'⟩)

/-- More files may be changed. -/
theorem mono (h : Touches dir files t t') {more : List Path} (hmore : files ⊆ more) :
    Touches dir more t t' where
  sound := h.sound
  entry := fun p => (h.entry p).imp_right fun h => h.imp_right fun h => ⟨hmore h.1, h.2⟩

/-- What is neither on the way to the directory nor one of the files is as before. -/
theorem entry?_eq (h : Touches dir files t t') {p : Path} (hdir : ¬ p <+: dir) (hp : p ∉ files) :
    t'.entry? p = t.entry? p := by
  rcases h.entry p with hsame | ⟨hon, -⟩ | ⟨hin, -⟩
  · exact hsame
  · exact absurd hon hdir
  · exact absurd hin hp

/-- Directories and links stay. -/
theorem keeps (h : Touches dir files t t') : t.Keeps t' := by
  intro p e he hfile
  have hstays : ¬ t.FileOrFree p := fun hfree => by
    obtain ⟨content, hcontent⟩ := hfree e he
    exact hfile content hcontent
  rcases h.entry p with hsame | ⟨-, hfree, -⟩ | ⟨-, hfree, -⟩
  · rw [hsame, he]
  · exact absurd hfree hstays
  · exact absurd hfree hstays

/-- No link is made. -/
theorem link (h : Touches dir files t t') {p : Path} {target : String}
    (hlink : t'.entry? p = some (.link target)) : t.entry? p = some (.link target) := by
  rcases h.entry p with hsame | ⟨-, -, hmade⟩ | ⟨-, -, hnew⟩
  · exact hsame.symm.trans hlink
  · cases hmade.symm.trans hlink
  · obtain ⟨content, hcontent⟩ := hnew _ hlink
    cases hcontent

/-- What was a file or a free name is one still, if it is not on the way to the directory. -/
theorem fileOrFree (h : Touches dir files t t') {p : Path} (hdir : ¬ p <+: dir)
    (hfree : t.FileOrFree p) : t'.FileOrFree p := by
  rcases h.entry p with hsame | ⟨hon, -⟩ | ⟨-, -, hnew⟩
  · exact fun e he => hfree e (hsame ▸ he)
  · exact absurd hon hdir
  · exact hnew

/-- While only directories are made, no file gets in the way. -/
theorem fileFree (h : Touches dir [] t t') {top ps : Path} (hfree : t.FileFree top ps) :
    t'.FileFree top ps := by
  intro qs content hqs hentry
  rcases h.entry (top ++ qs) with hsame | ⟨-, -, hmade⟩ | ⟨hin, -⟩
  · exact hfree qs content hqs (hsame ▸ hentry)
  · rw [hentry] at hmade
    cases hmade
  · cases hin

/-- A directory is made on the way. -/
theorem put_dir (hs : t.Sound) {p : Path} {name : String} (hparent : t.entry? p = some .dir)
    (he : t.entry? (p ++ [name]) = none) (hdir : p ++ [name] <+: dir) :
    Touches dir files t (t.put (p ++ [name]) .dir) where
  sound := by
    intro q x hq
    rw [entry?_put t (by simp)] at hq ⊢
    split_ifs with heq
    · rfl
    · split_ifs at hq with hqx
      · obtain ⟨rfl, rfl⟩ : q = p ∧ x = name := by simpa using hqx
        exact hparent
      · exact hs q x hq
  entry := by
    intro q
    rw [entry?_put t (by simp)]
    split_ifs with heq
    · subst heq
      exact .inr (.inl ⟨hdir, fileOrFree_of_none he, rfl⟩)
    · exact .inl rfl

/-- A file is written in a directory. -/
theorem put_file (hs : t.Sound) {p : Path} {name : String} (hparent : t.entry? p = some .dir)
    (hfree : t.FileOrFree (p ++ [name])) (hp : p ++ [name] ∈ files) (content : ByteArray) :
    Touches dir files t (t.put (p ++ [name]) (.file content)) where
  sound := by
    intro q x hq
    rw [entry?_put t (by simp)] at hq ⊢
    -- Nothing lies below a file, and nothing lay below a free name.
    split_ifs with heq
    · subst heq
      split_ifs at hq with hqx
      · simp at hqx
      · obtain ⟨old, hold⟩ := hfree _ (hs _ _ hq)
        cases hold
    · split_ifs at hq with hqx
      · obtain ⟨rfl, rfl⟩ : q = p ∧ x = name := by simpa using hqx
        exact hparent
      · exact hs q x hq
  entry := by
    intro q
    rw [entry?_put t (by simp)]
    split_ifs with heq
    · subst heq
      exact .inr (.inr ⟨hp, hfree, fileOrFree_of_file (by rw [entry?_put t (by simp), if_pos rfl])⟩)
    · exact .inl rfl

/-- A file is removed. -/
theorem erase_file (hs : t.Sound) {p : Path} {content : ByteArray}
    (he : t.entry? p = some (.file content)) (hp : p ∈ files) :
    Touches dir files t (t.erase p) where
  sound := by
    have hne : p ≠ [] := by rintro rfl; cases he
    intro q x hq
    rw [entry?_erase t hne] at hq ⊢
    split_ifs at hq with hqx
    · cases hq
    split_ifs with heq
    · -- Nothing lies below the file.
      subst heq
      rw [hs _ _ hq] at he
      cases he
    · exact hs q x hq
  entry := by
    have hne : p ≠ [] := by rintro rfl; cases he
    intro q
    rw [entry?_erase t hne]
    split_ifs with heq
    · subst heq
      exact .inr (.inr ⟨hp, fileOrFree_of_file he,
        fileOrFree_of_none (by rw [entry?_erase t hne, if_pos rfl])⟩)
    · exact .inl rfl

/-- A file is moved to another name in its directory, where nothing or another file is. -/
theorem move_file (hs : t.Sound) {p : Path} {name target : String} {content : ByteArray}
    (he : t.entry? (p ++ [name]) = some (.file content)) (hne : target ≠ name)
    (hfree : t.FileOrFree (p ++ [target])) (hname : p ++ [name] ∈ files)
    (htarget : p ++ [target] ∈ files) :
    Touches dir files t ((t.erase (p ++ [name])).put (p ++ [target]) (.file content)) := by
  have herase : Touches dir files t (t.erase (p ++ [name])) := .erase_file hs he hname
  have hparent : t.entry? p = some .dir := hs _ _ (by rw [he]; rfl)
  refine herase.trans (.put_file herase.sound (herase.keeps _ _ hparent (by simp)) ?_ htarget _)
  intro e he'
  rw [entry?_erase _ (by simp), if_neg (by simpa using hne)] at he'
  exact hfree e he'

/-- A route stays one. -/
theorem route (h : Touches dir files t t') {start top ps : Path} (r : t.Route start top ps) :
    t'.Route start top ps where
  sound := h.sound
  leads := by
    obtain ⟨hleads, htop⟩ := at?_eq_dir.1 r.leads
    exact at?_eq_dir.2 ⟨hleads.mono h.keeps, h.keeps _ _ htop (by simp)⟩
  plain := r.plain
  noLink := by
    intro qs target hqs hlink
    rcases h.entry (top ++ qs) with hsame | ⟨-, -, hmade⟩ | ⟨-, -, hnew⟩
    · exact r.noLink qs target hqs (hsame ▸ hlink)
    · rw [hlink] at hmade
      cases hmade
    · obtain ⟨content, hcontent⟩ := hnew _ hlink
      cases hcontent

end Touches

end CodeSurvey.Files.Tree
