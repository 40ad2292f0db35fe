import CodeSurvey.Proofs.Files.Agreement

/-!
# Tidy trees

In a tidy tree each path has one entry, and the names on it are ones that a path may be written
with (`Tree.Tidy`). Wherever links lead, a path of such names is resolved to one
(`isWritten_of_resolveOver`), as the target of a link is cut into its parts as every path is. So
whatever is written, made, moved or removed leaves a tree tidy.
-/

namespace CodeSurvey.Files

/-! ## Parts of a path -/

/-- Parts that a path can be cut into; among them may be parent references. -/
def IsCut (parts : Path) : Prop :=
  ∀ name ∈ parts, name ≠ "" ∧ '/' ∉ name.toList ∧ name ≠ "."

/-- A path is cut into such parts. -/
theorem isCut_pathParts (path : String) : IsCut (pathParts path) := by
  intro name hname
  simp only [pathParts, Text.split, List.mem_filter, List.mem_map] at hname
  obtain ⟨⟨cs, hcs, rfl⟩, hsays⟩ := hname
  simp only [Bool.and_eq_true, Bool.not_eq_true', bne_iff_ne] at hsays
  refine ⟨fun hempty => ?_, ?_, hsays.2⟩
  · simp [hempty] at hsays
  · rw [String.toList_ofList]
    exact Text.notMem_of_mem_splitOn hcs

instance (parts : Path) : Decidable (IsWritten parts) :=
  List.decidableBAll (fun name => name ≠ "" ∧ '/' ∉ name.toList ∧ name ≠ "." ∧ name ≠ "..") parts

/-- A path of names is one. -/
theorem IsWritten.isCut {parts : Path} (h : IsWritten parts) : IsCut parts := by
  intro name hname
  obtain ⟨hempty, hslash, hpoint, -⟩ := h name hname
  exact ⟨hempty, hslash, hpoint⟩

/-- A path with a name more. -/
theorem IsWritten.concat {parts : Path} {name : String} (h : IsWritten parts)
    (hname : name ≠ "" ∧ '/' ∉ name.toList ∧ name ≠ ".") (hup : name ≠ "..") :
    IsWritten (parts ++ [name]) := by
  intro x hx
  rcases List.mem_append.1 hx with hx | hx
  · exact h x hx
  · obtain rfl := List.mem_singleton.1 hx
    exact ⟨hname.1, hname.2.1, hname.2.2, hup⟩

/-- A part of a path of names. -/
theorem IsWritten.of_subset {parts parts' : Path} (h : IsWritten parts) (hsub : parts' ⊆ parts) :
    IsWritten parts' :=
  fun name hname => h name (hsub hname)

/-- Two paths of names, one after the other. -/
theorem isWritten_append {parts parts' : Path} :
    IsWritten (parts ++ parts') ↔ IsWritten parts ∧ IsWritten parts' :=
  List.forall_mem_append

namespace Tree

/-- A tree in which each path has one entry, and lies below the top with names that a path may be
written with. -/
structure Tidy (t : Tree) : Prop where
  once : (t.entries.map (·.1)).Nodup
  below : ∀ x ∈ t.entries, x.1 ≠ []
  written : ∀ x ∈ t.entries, IsWritten x.1

instance (t : Tree) : Decidable t.Tidy :=
  decidable_of_iff ((t.entries.map (·.1)).Nodup ∧ (∀ x ∈ t.entries, x.1 ≠ []) ∧
      ∀ x ∈ t.entries, IsWritten x.1)
    ⟨fun ⟨once, below, written⟩ => ⟨once, below, written⟩, fun h => ⟨h.once, h.below, h.written⟩⟩

variable {t t' : Tree}

/-! ## Where paths lead -/

/-- A path of names is resolved to one, over whatever links. -/
theorem isWritten_of_resolveOver {ending : Ending} {n : Nat} {from_ p q : Path}
    (hfrom : IsWritten from_) (hp : IsCut p) (h : t.resolveOver ending n from_ p = .ok q) :
    IsWritten q := by
  refine resolveOver_induction
    (motive := fun _ from_ p => IsWritten from_ → IsCut p → IsWritten q) ?_ ?_ ?_ ?_ ?_ h hfrom hp
  · exact fun _ hq _ => hq
  · rintro _ from_ part hname rfl _ _ _ hfrom hp
    exact hfrom.concat (List.forall_mem_cons.1 hp).1 hname
  · intro _ from_ rest ih hfrom hp
    exact ih (hfrom.of_subset (List.dropLast_subset _)) (List.forall_mem_cons.1 hp).2
  · intro _ from_ part rest hname _ ih hfrom hp
    obtain ⟨hpart, hrest⟩ := List.forall_mem_cons.1 hp
    exact ih (hfrom.concat hpart hname) hrest
  · -- The target of a link is cut into parts as the path is.
    intro _ from_ part target rest _ _ _ ih hfrom hp
    obtain ⟨-, hrest⟩ := List.forall_mem_cons.1 hp
    exact ih hfrom (List.forall_mem_append.2 ⟨isCut_pathParts target, hrest⟩)

/-- A path of names that leads to something leads to a path of names. -/
theorem isWritten_of_at? {p q : Path} {e : Entry} (hp : IsWritten p) (h : t.at? p = .ok (q, e)) :
    IsWritten q := by
  unfold at? resolve at h
  split at h
  · cases h
  · rename_i q' hresolve
    split at h
    · obtain ⟨rfl, -⟩ := Prod.mk.inj (Except.ok.inj h)
      exact isWritten_of_resolveOver (by simp [IsWritten]) hp.isCut hresolve
    · cases h

/-- The last name of a path in the directory that the path before it leads to. -/
theorem isWritten_below {p dir : Path} {name : String} {e : Entry} (hp : IsWritten p)
    (hat : t.at? p.dropLast = .ok (dir, e)) (hname : p.getLast? = some name) :
    IsWritten (dir ++ [name]) := by
  obtain ⟨hempty, hslash, hpoint, hup⟩ := hp name (List.mem_of_getLast? hname)
  have hdir := isWritten_of_at? (hp.of_subset (List.dropLast_subset p)) hat
  exact hdir.concat ⟨hempty, hslash, hpoint⟩ hup

namespace Tidy

/-- What stands at a path is what the list has there. -/
theorem entry?_eq_some (ht : t.Tidy) {p : Path} {e : Entry} (hne : p ≠ []) :
    t.entry? p = some e ↔ (p, e) ∈ t.entries :=
  ⟨mem_entries hne, entry?_of_mem ht.once hne⟩

/-- The path of what stands below the top is one of names. -/
theorem isWritten (ht : t.Tidy) {p : Path} {e : Entry} (h : t.entry? p = some e) : IsWritten p := by
  rcases eq_or_ne p [] with rfl | hne
  · simp [IsWritten]
  · exact ht.written _ (mem_entries hne h)

/-! ## What leaves a tree tidy -/

/-- Putting an entry at a path of names. -/
theorem put (ht : t.Tidy) {p : Path} (hne : p ≠ []) (hp : IsWritten p) (e : Entry) :
    (t.put p e).Tidy := by
  unfold Tree.put
  split_ifs with hold
  · -- The entry comes in place of an old one.
    have hpaths : (t.entries.map fun x => if x.1 == p then (p, e) else x).map (·.1) =
        t.entries.map (·.1) := by
      rw [List.map_map]
      refine List.map_congr_left fun x _ => ?_
      by_cases hx : x.1 = p <;> simp [hx]
    refine ⟨hpaths ▸ ht.once, ?_, ?_⟩
    all_goals
      intro x hx
      obtain ⟨y, hy, rfl⟩ := List.mem_map.1 hx
      split_ifs
    · exact hne
    · exact ht.below y hy
    · exact hp
    · exact ht.written y hy
  · have hnone : p ∉ t.entries.map (·.1) := by
      intro hin
      obtain ⟨x, hx, rfl⟩ := List.mem_map.1 hin
      rw [entry?_of_mem ht.once hne hx] at hold
      exact hold rfl
    refine ⟨?_, ?_, ?_⟩
    · rw [List.map_append]
      exact ht.once.append (List.nodup_singleton _) (by simpa using hnone)
    · exact List.forall_mem_append.2 ⟨ht.below, by simpa using hne⟩
    · exact List.forall_mem_append.2 ⟨ht.written, by simpa using hp⟩

/-- Leaving out entries. -/
theorem filter (ht : t.Tidy) (keep : Path × Entry → Bool) : Tidy ⟨t.entries.filter keep⟩ where
  once := ht.once.sublist (List.filter_sublist.map _)
  below := fun x hx => ht.below x (List.mem_of_mem_filter hx)
  written := fun x hx => ht.written x (List.mem_of_mem_filter hx)

/-- Writing a file. -/
theorem write (ht : t.Tidy) {p : Path} (hp : IsWritten p) {content : ByteArray}
    (h : t.write p content = .ok t') : t'.Tidy := by
  unfold Tree.write writePlace at h
  split at h
  · cases h
  rename_i q hresolve
  split_ifs at h with hdir
  · cases h
  obtain rfl := Except.ok.inj h
  refine ht.put ?_ (isWritten_of_resolveOver (by simp [IsWritten]) hp.isCut hresolve) _
  rintro rfl
  exact hdir rfl

/-- Making a directory. -/
theorem makeDir (ht : t.Tidy) {p : Path} (hp : IsWritten p) (h : t.makeDir p = .ok t') :
    t'.Tidy := by
  unfold Tree.makeDir at h
  split at h
  · cases h
  split_ifs at h
  split at h
  · rename_i hat hname
    obtain rfl := Except.ok.inj h
    exact ht.put (by simp) (isWritten_below hp hat hname) _
  · cases h
  · cases h

/-- Removing a file. -/
theorem unlink (ht : t.Tidy) {p : Path} (h : t.unlink p = .ok t') : t'.Tidy := by
  unfold Tree.unlink at h
  split at h
  · cases h
  split at h
  · cases h
  · obtain rfl := Except.ok.inj h
    exact ht.filter _
  · cases h

/-- Moving a file. -/
theorem rename (ht : t.Tidy) {source target : Path} (htarget : IsWritten target)
    (h : t.rename source target = .ok t') : t'.Tidy := by
  unfold Tree.rename at h
  split at h
  · cases h
  rename_i from_ _
  have hwithout : (t.erase from_).Tidy := ht.filter _
  split at h
  · cases h
  split at h
  · -- The target leads to a place: another entry may stand there, but no directory.
    rename_i place hplace
    split at h
    · cases h
    · rename_i hdir
      split_ifs at h
      · exact Except.ok.inj h ▸ ht
      · obtain rfl := Except.ok.inj h
        refine hwithout.put ?_
          (isWritten_of_resolveOver (by simp [IsWritten]) htarget.isCut hplace) _
        rintro rfl
        exact hdir rfl
  · split_ifs at h
    split at h
    · rename_i hat hname
      obtain rfl := Except.ok.inj h
      exact hwithout.put (by simp) (isWritten_below htarget hat hname) _
    · cases h
    · cases h

end Tidy

end Tree

end CodeSurvey.Files
