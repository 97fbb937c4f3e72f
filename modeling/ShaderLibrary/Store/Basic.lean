import ShaderLibrary.Text.Quoted
import ShaderLibrary.Text.Utf8

/-!
A store of files, as the library needs one: it lists the files below a folder and hands out their
bytes. Any two functions are a store, also ones that fail now and then.
-/

namespace ShaderLibrary

/-- Why a store does not do what it is asked for. -/
inductive StoreError where
  /-- There is nothing at the path. -/
  | missing (path : Text)
  /-- A file stands where the path needs a folder. -/
  | notFolder (path : Text)
  /-- The path leads to a folder. -/
  | isFolder (path : Text)
  /-- The path, or a name on it, is longer than the store admits. -/
  | tooLong (path : Text)
  /-- There is something at the path that stands in the way. -/
  | taken (path : Text)
  /-- The path leads to a folder, but not by its name. -/
  | unnamed (path : Text)
  /-- The path that is to be listed does not lead to a folder. -/
  | notListed (root : Text)
  /-- The store keeps no content for the path. -/
  | unknown (path : Text)
  /-- The path holds a character that no path may hold. -/
  | nulInPath
  /-- The store does not offer the operation. -/
  | unsupported
deriving DecidableEq, Repr

namespace StoreError

/-- Whether the store has refused this one request. Other errors mean that it cannot be used. -/
def isRefusal : StoreError → Bool
  | nulInPath | unsupported => false
  | _ => true

/-- A refusal with its number and the path that it is about. -/
def numbered (number : String) (reason : String) (path : Text) : Text :=
  "[Errno ".toList ++ number.toList ++ "] ".toList ++ reason.toList ++ ": ".toList ++ path.quoted

def message : StoreError → Text
  | missing path => numbered "2" "No such file or directory" path
  | notFolder path => numbered "20" "Not a directory" path
  | isFolder path => numbered "21" "Is a directory" path
  | tooLong path => numbered "36" "File name too long" path
  | taken path => numbered "17" "File exists" path
  | unnamed path => numbered "22" "Invalid argument" path
  | notListed root => "Not a directory: ".toList ++ root
  | unknown path => path
  | nulInPath => "embedded null byte".toList
  | unsupported => []

end StoreError

/-- The files that a store has listed, and the error that ended the listing early, if one did. -/
structure Listing where
  paths : List Text
  failure : Option StoreError := none
deriving DecidableEq, Repr

structure Store where
  /-- The paths of all files below a folder. -/
  list : Text → Listing
  /-- The bytes of the file at a path. -/
  readBytes : Text → Except StoreError (List UInt8)

namespace Store

/-- The text of the file at a path. Bytes that are no text are replaced, so this fails only if
there are no bytes. -/
def readText (store : Store) (path : Text) : Except StoreError Text :=
  (store.readBytes path).map Text.decode

end Store

end ShaderLibrary
