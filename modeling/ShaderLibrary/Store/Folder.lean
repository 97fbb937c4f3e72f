import ShaderLibrary.Path

/-!
Folders: trees of named files and folders, in whatever order their host hands them out. The listing
of a folder does not depend on that order: files come first, by name, and then the folders inside,
by name, each with its own listing.
-/

namespace ShaderLibrary

/-- The content of a folder, one item after the other. -/
inductive Folder where
  | empty
  | file (name : Text) (content : List UInt8) (rest : Folder)
  | folder (name : Text) (inside rest : Folder)
deriving DecidableEq, Repr

/-- An item of a folder, without its name. -/
inductive FolderItem where
  | file (content : List UInt8)
  | folder (inside : Folder)
deriving DecidableEq, Repr

namespace Folder

def find? (name : Text) : Folder → Option FolderItem
  | empty => none
  | file n content rest => if n = name then some (.file content) else find? name rest
  | folder n inside rest => if n = name then some (.folder inside) else find? name rest

def erase (name : Text) : Folder → Folder
  | empty => empty
  | file n content rest => if n = name then erase name rest else file n content (erase name rest)
  | folder n inside rest => if n = name then erase name rest else folder n inside (erase name rest)

/-- The folder with an item in the place of those that had its name. -/
def put (name : Text) (item : FolderItem) (f : Folder) : Folder :=
  match item with
  | .file content => file name content (f.erase name)
  | .folder inside => folder name inside (f.erase name)

/-- What a walk through a folder finds: the names of its own files, and for each folder inside, with
its name, the paths of all files below it. -/
structure Survey where
  own : List Text
  inner : List (Text × List Text)

/-- All paths of a survey of the folder at the path `base`, in their order. -/
def Survey.paths (base : Text) (s : Survey) : List Text :=
  (Text.sort s.own).map (Path.join base) ++
    (s.inner.mergeSort fun a b => Text.notAfter a.1 b.1).flatMap Prod.snd

/-- Walks through the folder at the path `base`. -/
def survey (base : Text) : Folder → Survey
  | empty => ⟨[], []⟩
  | file name _ rest =>
    let s := survey base rest
    ⟨name :: s.own, s.inner⟩
  | folder name inside rest =>
    let s := survey base rest
    let below := Path.join base name
    ⟨s.own, (name, (survey below inside).paths below) :: s.inner⟩

/-- The paths of all files below the folder at the path `base`. -/
def listing (base : Text) (f : Folder) : List Text := (f.survey base).paths base

/-- The folder after `change` has been made to the item at the end of a way through folders. Where
there is no folder on the way one is made, unless it would stay empty. Nothing changes if a file is
in the way. -/
def update (change : Option FolderItem → Option FolderItem) (name : Text) :
    List Text → Folder → Folder
  | [], f =>
    match change (f.find? name) with
    | some item => f.put name item
    | none => f.erase name
  | next :: rest, f =>
    match f.find? name with
    | some (.file _) => f
    | some (.folder inside) => f.put name (.folder (update change next rest inside))
    | none =>
      match update change next rest empty with
      | empty => f
      | inside => f.put name (.folder inside)

end Folder

end ShaderLibrary
