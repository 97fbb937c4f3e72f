import ShaderLibrary.Dictionary
import ShaderLibrary.Path
import ShaderLibrary.Store.Basic

/-!
Stores in memory: a dictionary of files. Folders are there only as the beginnings of paths.
-/

namespace ShaderLibrary

/-- Files by path. One without content is listed but cannot be read. -/
structure Memory where
  files : Dictionary (Option (List UInt8)) := ∅
  /-- If given, it is listed for every folder, whatever files there are. -/
  listing : Option (List Text) := none

namespace Memory

/-- A folder as the beginning of the paths below it: with one slash at its end. -/
def below (root : Text) : Text := Path.trim root ++ ['/']

/-- The paths below a folder in ascending order. -/
def list (m : Memory) (root : Text) : List Text :=
  m.listing.getD (m.files.keys.filter ((below root).isPrefixOf ·))

def readBytes (m : Memory) (path : Text) : Except StoreError (List UInt8) :=
  match m.files.get? path with
  | some (some content) => .ok content
  | _ => .error (.unknown path)

def write (m : Memory) (path : Text) (content : Option (List UInt8)) : Memory :=
  { m with files := m.files.insert path content }

def erase (m : Memory) (path : Text) : Memory := { m with files := m.files.erase path }

def store (m : Memory) : Store := ⟨fun root => ⟨m.list root, none⟩, m.readBytes⟩

/-- A store that lists the files and hands out none. -/
def listingOnly (m : Memory) : Store := ⟨m.store.list, fun _ => .error .unsupported⟩

end Memory

/-- A store that offers nothing. -/
def Store.absent : Store := ⟨fun _ => ⟨[], some .unsupported⟩, fun _ => .error .unsupported⟩

end ShaderLibrary
