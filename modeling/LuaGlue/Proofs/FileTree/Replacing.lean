import LuaGlue.FileTree
import LuaGlue.Json.Basic

namespace LuaGlue.FileTree

/-- Between two trees the file at a path was replaced, or made, and nothing else was changed. -/
structure Replaces (tree : FileTree) (text : String) (bytes : ByteArray) (after : FileTree) :
    Prop where
  read_eq : after.read text = .ok bytes
  exists_place : ∃ names, tree.target text = .ok names ∧
    tree.get? names ≠ some .directory ∧
    after.get? names = some (.file bytes) ∧
    ∀ other, other ≠ names → after.get? other = tree.get? other
  workingDirectory_eq : after.workingDirectory = tree.workingDirectory

variable {tree after : FileTree} {text : String} {names directory : List String}

/-- The target of a path has a name in the directory to which the path leads, and there is no
directory of that name. -/
theorem exists_of_target (h : tree.target text = .ok names) :
    ∃ path directory name, tree.locate text = .ok (path, some (directory, name)) ∧
      path.slashed = false ∧ tree.look directory name = .ok (names, tree.get? names) ∧
      tree.get? names ≠ some .directory := by
  unfold target at h
  split at h
  · cases h
  · cases h
  · rename_i path directory name hlocate
    split at h
    · cases h
    rename_i hslashed
    split at h
    · cases h
    · cases h
    · rename_i hentry hlook
      cases h
      obtain ⟨-, -, rfl⟩ := look_eq_ok_iff.1 hlook
      exact ⟨path, directory, name, hlocate, by simpa using hslashed, hlook, hentry⟩

/-- A file is in no path's way if it is put where no directory stands. -/
theorem enter_set_file (hplace : tree.get? names ≠ some .directory) (bytes : ByteArray)
    {name : String} {inner : List String} (h : tree.enter directory name = .ok inner) :
    (tree.set names (.file bytes)).enter directory name = .ok inner := by
  unfold enter at h ⊢
  split
  · rwa [if_pos ‹_›] at h
  rw [if_neg ‹_›] at h
  split
  · rwa [if_pos ‹_›] at h
  rw [if_neg ‹_›] at h
  split at h
  · cases h
  · cases h
  · cases h
  · rename_i hlook
    cases h
    obtain ⟨hshort, hinner, hentry⟩ := look_eq_ok_iff.1 hlook
    -- What is entered is a directory, so it is not the place that is written.
    have hne : inner ≠ names := by
      rintro rfl
      exact hplace hentry.symm
    have hkept : (tree.set names (.file bytes)).look directory name =
        .ok (inner, some .directory) :=
      look_eq_ok_iff.2 ⟨hshort, hinner, by rw [get?_set_of_ne tree hne, ← hentry]⟩
    rw [hkept]

theorem foldlM_enter_set_file (hplace : tree.get? names ≠ some .directory) (bytes : ByteArray)
    {way inner : List String} (h : way.foldlM tree.enter directory = .ok inner) :
    way.foldlM (tree.set names (.file bytes)).enter directory = .ok inner := by
  induction way generalizing directory with
  | nil => exact h
  | cons name rest ih =>
    rw [List.foldlM_cons] at h ⊢
    cases henter : tree.enter directory name with
    | error e =>
      rw [henter] at h
      cases h
    | ok next =>
      rw [henter] at h
      rw [enter_set_file hplace bytes henter]
      exact ih h

theorem locate_set_file (hplace : tree.get? names ≠ some .directory) (bytes : ByteArray)
    {found : Path × Option (List String × String)} (h : tree.locate text = .ok found) :
    (tree.set names (.file bytes)).locate text = .ok found := by
  unfold locate at h ⊢
  split
  · rwa [if_pos ‹_›] at h
  rw [if_neg ‹_›] at h
  split
  · rwa [if_pos ‹_›] at h
  rw [if_neg ‹_›] at h
  dsimp only at h ⊢
  split at h
  · cases h
  · rename_i hway
    have hkept := foldlM_enter_set_file hplace bytes hway
    simp only [set] at hkept ⊢
    rw [hkept]
    exact h

/-- A write puts one file at the place to which the path leads. No way through the tree is changed
by that, so the same path leads to the new file. -/
theorem replaces_of_write {bytes : ByteArray} (h : tree.write text bytes = .ok after) :
    tree.Replaces text bytes after := by
  obtain ⟨names, htarget, rfl⟩ := Json.exists_of_map_eq_ok h
  obtain ⟨path, directory, name, hlocate, hslashed, hlook, hplace⟩ := exists_of_target htarget
  obtain ⟨hshort, hnames, -⟩ := look_eq_ok_iff.1 hlook
  have hne : names ≠ [] := by
    rw [hnames]
    exact List.append_ne_nil_of_right_ne_nil _ (List.cons_ne_nil _ _)
  have hwritten := get?_set_self tree hne (.file bytes)
  have hfound : (tree.set names (.file bytes)).look directory name =
      .ok (names, some (.file bytes)) := look_eq_ok_iff.2 ⟨hshort, hnames, hwritten.symm⟩
  constructor
  · rw [read, locate_set_file hplace bytes hlocate]
    dsimp only
    rw [hfound]
    dsimp only
    rw [hslashed, if_neg Bool.false_ne_true]
  · exact ⟨names, htarget, hplace, hwritten, fun other hother => get?_set_of_ne tree hother _⟩
  · rfl

/-- A system that refuses some paths writes the others as any other does. -/
theorem replaces_of_writeUnless {refusals : Refusals} {bytes : ByteArray}
    (h : tree.writeUnless refusals text bytes = .ok after) : tree.Replaces text bytes after := by
  unfold writeUnless at h
  split at h
  · cases h
  · exact replaces_of_write h

end LuaGlue.FileTree
