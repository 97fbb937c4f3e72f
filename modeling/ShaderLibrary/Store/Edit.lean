import ShaderLibrary.Store.Disk

/-!
Edits of a disk: files are written, folders are made, and both are erased. An edit that fails midway
leaves the disk as far as it has come.
-/

namespace ShaderLibrary

/-- A disk after an edit, and the error that has ended the edit, if one did. -/
structure Edited where
  disk : Disk
  failure : Option StoreError := none
deriving DecidableEq, Repr

namespace Disk

/-- Makes the folder at a path, in a folder that is there. A folder that is there already stays as it
is. -/
def makeFolder (d : Disk) (path : Text) : Edited :=
  match refusal? path with
  | some e => ⟨d, some e⟩
  | none =>
    let names := (Path.trim path).splitOn '/'
    match d.locate path names, d.locate path names.dropLast with
    | .ok (.folder _), _ => ⟨d, none⟩
    | .ok (.file _), _ => ⟨d, some (.taken path)⟩
    | .error (.missing _), .ok (.folder _) => ⟨d.update path fun _ => some (.folder .empty), none⟩
    | .error e, _ => ⟨d, some e⟩

/-- Makes the first of these folders, each of which is the next on the way to the one before it, and
those of the others that it needs. -/
def makeEach (d : Disk) : List Text → Edited
  | [] => ⟨d, none⟩
  | [path] => d.makeFolder path
  | path :: outer :: above =>
    if (d.find outer).isOk then d.makeFolder path
    else
      let before := makeEach d (outer :: above)
      match before.failure with
      | none | some (.taken _) =>
        if Path.baseName (Path.trim path) = ['.'] then ⟨before.disk, none⟩
        else before.disk.makeFolder path
      | some _ => before

def makeFolders (d : Disk) (path : Text) : Edited := d.makeEach (path :: Path.above path)

/-- Writes a file, in the place of a file or of nothing. The folders on the way to it are made. -/
def write (d : Disk) (path : Text) (content : List UInt8) : Edited :=
  let folder := Path.folderPart path
  let made : Edited := if folder = [] then ⟨d, none⟩ else d.makeFolders folder
  if made.failure.isSome then made
  else match path, made.disk.find path with
    | _ :: _, .ok (.file _) | _ :: _, .error (.missing _) =>
      ⟨made.disk.update path fun _ => some (.file content), none⟩
    | _, .ok _ => ⟨made.disk, some (.isFolder path)⟩
    | _, .error e => ⟨made.disk, some e⟩

/-- Erases a file, or a folder with all that is in it. A folder is emptied first and then looked for
once more, so it stays if its path does not end with its name, or leads through what was in it. -/
def erase (d : Disk) (path : Text) : Edited :=
  match d.find path with
  | .error e => ⟨d, some e⟩
  | .ok (.file _) => ⟨d.update path fun _ => none, none⟩
  | .ok (.folder _) =>
    let emptied := d.update path fun _ => some (.folder .empty)
    let names := (Path.trim path).splitOn '/'
    match emptied.locate path names.dropLast with
    | .error e => ⟨emptied, some e⟩
    | .ok _ =>
      if names.getLast? = some ['.'] ∨ names.getLast? = some Path.parent then
        ⟨emptied, some (.unnamed path)⟩
      else ⟨d.update path fun _ => none, none⟩

end Disk

end ShaderLibrary
