import Mathlib.Logic.Relation
import ShaderLibrary.Proofs.Ways
import ShaderLibrary.Proofs.Words
import ShaderLibrary.Store.Edit

/-! Disks whose folders are trees. What is in such a folder can be told apart by name, and an edit
of a disk cannot change that, not even one that fails midway. -/
namespace ShaderLibrary

namespace Folder

/-- The folder is a tree as a host keeps it: what is in a folder has different names, and these can
be told from each other in a path. -/
def Proper : Folder → Prop
  | empty => True
  | file name _ rest => Path.IsName name ∧ rest.find? name = none ∧ rest.Proper
  | folder name inside rest =>
    Path.IsName name ∧ rest.find? name = none ∧ inside.Proper ∧ rest.Proper

instance decidableProper : DecidablePred Proper
  | empty => isTrue trivial
  | file _ _ rest =>
    have := decidableProper rest
    inferInstanceAs (Decidable (_ ∧ _ ∧ _))
  | folder _ inside rest =>
    have := decidableProper inside
    have := decidableProper rest
    inferInstanceAs (Decidable (_ ∧ _ ∧ _ ∧ _))

end Folder

/-- The item is a file, or a tree. -/
def FolderItem.Proper : FolderItem → Prop
  | .file _ => True
  | .folder inside => inside.Proper

namespace Folder

variable {f : Folder} {name other : Text} {item : FolderItem}

theorem Proper.of_find? (h : f.Proper) (hItem : f.find? name = some item) :
    Path.IsName name ∧ item.Proper := by
  induction f with
  | empty => cases hItem
  | file first content rest ih =>
      rw [find?] at hItem
      split at hItem
      · next hSame =>
          cases hItem
          exact ⟨hSame ▸ h.1, trivial⟩
      · exact ih h.2.2 hItem
  | folder first inside rest _ ih =>
      rw [find?] at hItem
      split at hItem
      · next hSame =>
          cases hItem
          exact ⟨hSame ▸ h.1, h.2.2.1⟩
      · exact ih h.2.2.2 hItem

theorem find?_erase : (f.erase name).find? other = if other = name then none else f.find? other := by
  induction f with
  | empty => rw [erase, find?, ite_self]
  | file first content rest ih => grind [erase, find?]
  | folder first inside rest _ ih => grind [erase, find?]

theorem find?_erase_self : (f.erase name).find? name = none := by
  rw [find?_erase, if_pos rfl]

theorem Proper.erase (h : f.Proper) : (f.erase name).Proper := by
  induction f with
  | empty => exact h
  | file first content rest ih =>
      rw [Folder.erase]
      split
      · exact ih h.2.2
      · exact ⟨h.1, by rw [find?_erase, h.2.1, ite_self], ih h.2.2⟩
  | folder first inside rest _ ih =>
      rw [Folder.erase]
      split
      · exact ih h.2.2.2
      · exact ⟨h.1, by rw [find?_erase, h.2.1, ite_self], h.2.2.1, ih h.2.2.2⟩

theorem Proper.put (h : f.Proper) (hName : Path.IsName name) (hItem : item.Proper) :
    (f.put name item).Proper := by
  cases item with
  | file content => exact ⟨hName, find?_erase_self, h.erase⟩
  | folder inside => exact ⟨hName, find?_erase_self, hItem, h.erase⟩

/-- A change deep in a tree leaves a tree if what it makes is one. -/
theorem Proper.update {change : Option FolderItem → Option FolderItem} {rest : List Text}
    (h : f.Proper) (hName : Path.IsName name) (hRest : ∀ next ∈ rest, Path.IsName next)
    (hChange : ∀ old item, change old = some item → item.Proper) :
    (f.update change name rest).Proper := by
  induction rest generalizing f name with
  | nil =>
      rw [Folder.update]
      split
      · next hItem => exact h.put hName (hChange _ _ hItem)
      · exact h.erase
  | cons next rest ih =>
      rw [List.forall_mem_cons] at hRest
      rw [Folder.update]
      split
      · exact h
      · next hFound => exact h.put hName (ih (h.of_find? hFound).2 hRest.1 hRest.2)
      · have hMade : (empty.update change next rest).Proper := ih trivial hRest.1 hRest.2
        split
        · exact h
        · exact h.put hName hMade

end Folder

namespace Path

variable {path name : Text} {place ns : List Text}

theorem isName_of_mem_names (h : name ∈ names path) : IsName name := by
  obtain ⟨hPart, hStep⟩ := List.mem_filter.mp h
  rw [Bool.and_eq_true, bne_iff_ne] at hStep
  refine ⟨hStep.1, fun hSlash => ?_⟩
  have hNot := Text.eq_false_of_mem_splitOnP hPart hSlash
  simp at hNot

theorem forall_isName_foldl_step (hPlace : ∀ name ∈ place, IsName name)
    (h : ∀ name ∈ ns, IsName name) : ∀ name ∈ ns.foldl step place, IsName name := by
  induction ns generalizing place with
  | nil => exact hPlace
  | cons first rest ih =>
      rw [List.forall_mem_cons] at h
      refine ih (fun name hName => ?_) h.2
      rw [step] at hName
      split at hName
      · exact hPlace name (List.dropLast_subset _ hName)
      · rcases List.mem_append.mp hName with hBefore | hLast
        · exact hPlace name hBefore
        · exact List.mem_singleton.mp hLast ▸ h.1

end Path

namespace Disk

variable {d e : Disk} {above : List Folder} {here inside : Folder} {names : List Text} {path : Text}

/-- What names lead to in a tree is a tree. -/
theorem proper_of_follow (hHere : here.Proper) (hAbove : ∀ outer ∈ above, outer.Proper)
    (h : follow path above here names = .ok (.folder inside)) : inside.Proper := by
  fun_induction follow path above here names with
  | case1 above here =>
      cases h
      exact hHere
  | case2 above here name rest hSkip ih => exact ih hHere hAbove h
  | case3 here rest hSkip ih => exact ih hHere hAbove h
  | case4 here rest hSkip outer outermost ih =>
      rw [List.forall_mem_cons] at hAbove
      exact ih hAbove.1 hAbove.2 h
  | case7 above here name rest hSkip hUp hLong inside hFolder ih =>
      exact ih (hHere.of_find? hFolder).2 (List.forall_mem_cons.mpr ⟨hHere, hAbove⟩) h
  -- the names do not lead to a folder
  | case5 | case6 | case8 | case9 => cases h

theorem proper_of_find (hTree : d.root.Proper) (h : d.find path = .ok (.folder inside)) :
    inside.Proper := by
  rw [find] at h
  split at h
  · cases h
  · exact proper_of_follow hTree (List.forall_mem_nil _) h

/-- The folders of the disk are trees, and the way to its working folder is made of names. -/
structure Proper (d : Disk) : Prop where
  tree : d.root.Proper
  working : ∀ name ∈ d.working, Path.IsName name

theorem Proper.isName_of_mem_way (h : d.Proper) : ∀ name ∈ d.way path, Path.IsName name := by
  refine Path.forall_isName_foldl_step ?_ fun name => Path.isName_of_mem_names
  split
  · exact List.forall_mem_nil _
  · exact h.working

theorem Proper.update (h : d.Proper) {change : Option FolderItem → Option FolderItem}
    (hChange : ∀ old item, change old = some item → item.Proper) : (d.update path change).Proper := by
  have hWay : ∀ name ∈ d.way path, Path.IsName name := h.isName_of_mem_way
  rw [Disk.update]
  split
  · exact h
  · next name rest hNames =>
      rw [hNames, List.forall_mem_cons] at hWay
      exact ⟨h.tree.update hWay.1 hWay.2 hChange, h.working⟩

/-- A tree in the place of what was there leaves trees. -/
theorem Proper.set (h : d.Proper) {item : FolderItem} (hItem : item.Proper) :
    (d.update path fun _ => some item).Proper :=
  h.update fun _ _ hSame => Option.some_inj.mp hSame ▸ hItem

theorem Proper.unset (h : d.Proper) : (d.update path fun _ => none).Proper :=
  h.update fun _ _ hNone => nomatch hNone

theorem Proper.makeFolder (h : d.Proper) : (d.makeFolder path).disk.Proper := by
  rw [Disk.makeFolder]
  split
  · exact h
  · dsimp only
    split
    · exact h
    · exact h
    · exact h.set trivial
    · exact h

theorem Proper.makeEach (h : d.Proper) (paths : List Text) : (d.makeEach paths).disk.Proper := by
  fun_induction Disk.makeEach d paths with
  | case1 => exact h
  | case2 | case3 => exact h.makeFolder
  -- the folders on the way are made first, and then the last one or nothing more
  | case4 _ _ _ _ _ _ _ ih | case6 _ _ _ _ _ _ _ _ ih | case8 _ _ _ _ _ _ _ _ ih => exact ih
  | case5 _ _ _ _ _ _ _ ih | case7 _ _ _ _ _ _ _ _ ih => exact ih.makeFolder

theorem Proper.makeFolders (h : d.Proper) (path : Text) : (d.makeFolders path).disk.Proper :=
  h.makeEach _

theorem Proper.write (h : d.Proper) (path : Text) (content : List UInt8) :
    (d.write path content).disk.Proper := by
  unfold Disk.write
  extract_lets folder made
  have hMade : made.disk.Proper := by
    rw [show made = if folder = [] then ⟨d, none⟩ else d.makeFolders folder from rfl]
    split
    · exact h
    · exact h.makeFolders _
  clear_value made
  split
  · exact hMade
  · split
    · exact hMade.set trivial
    · exact hMade.set trivial
    · exact hMade
    · exact hMade

theorem Proper.erase (h : d.Proper) (path : Text) : (d.erase path).disk.Proper := by
  rw [Disk.erase]
  split
  · exact h
  · exact h.unset
  · dsimp only
    split
    · exact h.set trivial
    · split
      · exact h.set trivial
      · exact h.unset

/-- The disk `d` becomes the disk `e` by an edit, which may have failed. -/
inductive Edit (d : Disk) : Disk → Prop where
  | makeFolders (path : Text) : Edit d (d.makeFolders path).disk
  | write (path : Text) (content : List UInt8) : Edit d (d.write path content).disk
  | erase (path : Text) : Edit d (d.erase path).disk

theorem Edit.proper (h : Edit d e) (hProper : d.Proper) : e.Proper := by
  cases h with
  | makeFolders path => exact hProper.makeFolders path
  | write path content => exact hProper.write path content
  | erase path => exact hProper.erase path

/-- Edits leave trees, one after the other. -/
theorem proper_of_edits (h : Relation.ReflTransGen Edit d e) (hProper : d.Proper) : e.Proper := by
  induction h with
  | refl => exact hProper
  | tail _ hEdit ih => exact hEdit.proper ih

end Disk

end ShaderLibrary
