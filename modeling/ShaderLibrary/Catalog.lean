import ShaderLibrary.Dictionary
import ShaderLibrary.Fault
import ShaderLibrary.Path
import ShaderLibrary.Text.Numeral
import ShaderLibrary.Trace

/-!
The catalog of shader files. A file is known by its bare name, whatever folder it lies in, so files
can include each other by name. Scanning a folder adds the files below it; the last file of a name
wins, unless the catalog is strict and refuses the whole scan.
-/

namespace ShaderLibrary

/-- The files that can be named, with their paths. -/
structure Catalog where
  /-- Only paths with this ending belong in the catalog. -/
  extension : Text := ".glsl".toList
  /-- Whether two files of one name are a fault. -/
  strict : Bool := false
  paths : Dictionary Text := ∅

namespace Catalog

def find? (c : Catalog) (name : Text) : Option Text := c.paths.get? name

def files (c : Catalog) : List Text := c.paths.values

/-- The path of a bare name, which is that of a file in the catalog, or the problem that there is
none. -/
def resolve (c : Catalog) (name : Text) : Traced Problem { path : Text // path ∈ c.files } :=
  ⟨[.sought name],
    match found : c.find? name with
    | some path => .ok ⟨path, Dictionary.mem_values_of_get? found⟩
    | none => .error (.unknownFile name)⟩

/-- Whether a path has the ending of the files in the catalog. -/
def admits (c : Catalog) (path : Text) : Bool := c.extension.isSuffixOf path

def names (c : Catalog) : List Text := c.paths.keys

/-- Enters a path into what a scan has found so far. A second path for a name is a fault in strict
mode. Otherwise it takes the place of the first, with a warning. -/
def enter (strict : Bool) (found : Dictionary Text) (path : Text) : Traced Fault (Dictionary Text) :=
  let name := Path.baseName path
  match found.get? name with
  | none => pure (found.insert name path)
  | some earlier =>
    if earlier = path then pure (found.insert name path)
    else if strict then .fail (.duplicateName name earlier path)
    else do
      .log .warning <| "Duplicate shader file name '".toList ++ name ++ "': ".toList ++ path ++
        " replaces ".toList ++ earlier
      pure (found.insert name path)

def enterAll (strict : Bool) (found : Dictionary Text) :
    List Text → Traced Fault (Dictionary Text)
  | [] => pure found
  | path :: rest => do enterAll strict (← enter strict found path) rest

/-- The catalog with the given files too. They replace earlier ones of the same names. -/
def add (c : Catalog) (found : Dictionary Text) : Catalog :=
  { c with paths := c.paths.insertMany found.entries }

/-- The catalog after a scan of the folder `root`, and the number of names that the scan has found.
A scan that fails, be it midway, adds nothing. -/
def scan (c : Catalog) (store : Store) (root : Text) : Traced Fault (Catalog × Nat) := do
  let listing := store.list root
  let found ← enterAll c.strict ∅ (listing.paths.filter c.admits)
  match listing.failure with
  | some e => .fail (.store e)
  | none =>
    .log .info <| "Indexed ".toList ++ Text.ofNat found.size ++ " shader files in ".toList ++ root
    pure (c.add found, found.size)

/-- Of a store, a scan only sees the list of the folder. -/
theorem scan_congr {c : Catalog} {store other : Store} {root : Text}
    (h : other.list root = store.list root) : c.scan other root = c.scan store root := by
  rw [scan, scan, h]

end Catalog

end ShaderLibrary
