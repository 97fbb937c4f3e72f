import ShaderLibrary.Store.Basic
import ShaderLibrary.Store.Folder

/-!
A disk: one tree of folders, and the working folder at which relative paths start. A path is
followed name by name, and the first name that cannot be followed decides what is wrong.
-/

namespace ShaderLibrary

/-- A tree of folders without links. -/
structure Disk where
  root : Folder := .empty
  /-- The names on the way from the root to the working folder. -/
  working : List Text := []
deriving DecidableEq, Repr

namespace Disk

/-- The greatest number of bytes of a name. -/
def longestName : Nat := 255

/-- The greatest number of bytes of a path. -/
def longestPath : Nat := 4095

/-- Follows names from the folder `here`, which lies in the first of the folders `above`. -/
def follow (path : Text) (above : List Folder) (here : Folder) :
    List Text → Except StoreError FolderItem
  | [] => .ok (.folder here)
  | name :: rest =>
    if name = [] ∨ name = ['.'] then follow path above here rest
    else if name = Path.parent then
      match above with
      | [] => follow path [] here rest
      | outer :: outermost => follow path outermost outer rest
    else if longestName < Text.byteSize name then .error (.tooLong path)
    else
      match here.find? name with
      | none => .error (.missing path)
      | some (.folder inside) => follow path (here :: above) inside rest
      | some (.file content) => if rest = [] then .ok (.file content) else .error (.notFolder path)

/-- What is wrong with a path by itself, if something is. -/
def refusal? (path : Text) : Option StoreError :=
  if '\x00' ∈ path then some .nulInPath
  else if path = [] then some (.missing path)
  else if longestPath < Text.byteSize path then some (.tooLong path)
  else none

/-- What is at the end of the names of a path. -/
def locate (d : Disk) (path : Text) (names : List Text) : Except StoreError FolderItem :=
  follow path [] d.root (if Path.isAbsolute path then names else d.working ++ names)

/-- What is at the end of a path. -/
def find (d : Disk) (path : Text) : Except StoreError FolderItem :=
  match refusal? path with
  | some e => .error e
  | none => d.locate path (path.splitOn '/')

def readBytes (d : Disk) (path : Text) : Except StoreError (List UInt8) :=
  match d.find path with
  | .ok (.file content) => .ok content
  | .ok (.folder _) => .error (.isFolder path)
  | .error e => .error e

/-- Whether a walk gets to the folder of a file, which it does unless the path of that folder is too
long. -/
def isReached (path : Text) : Bool := Text.byteSize (Path.folderPart path) ≤ longestPath

/-- The paths of all files below the folder at a path. What is too deep below it is passed over. -/
def list (d : Disk) (root : Text) : Listing :=
  match d.find root with
  | .ok (.folder inside) => ⟨(inside.listing root).filter isReached, none⟩
  | _ => ⟨[], some (.notListed root)⟩

def store (d : Disk) : Store := ⟨d.list, d.readBytes⟩

def workingPath (d : Disk) : Text := '/' :: ['/'].intercalate d.working

/-- The names on the way from the root to the end of a path. -/
def way (d : Disk) (path : Text) : List Text :=
  (Path.names path).foldl Path.step (if Path.isAbsolute path then [] else d.working)

/-- The disk after a change of the item at a path. -/
def update (d : Disk) (path : Text) (change : Option FolderItem → Option FolderItem) : Disk :=
  match d.way path with
  | [] => d
  | name :: rest => { d with root := d.root.update change name rest }

end Disk

end ShaderLibrary
