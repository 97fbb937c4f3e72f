import ShaderLibrary.Cache

/-!
The library: a folder of shader files with its catalog, macros and cache. A shader can be asked for
in two ways, which differ in what a failure is: a fault, or a record in the journal and no text.
-/

namespace ShaderLibrary

/-- A library. The store that it reads from is given with each request and may change between two. -/
structure Library where
  /-- The folder that is scanned for shader files. -/
  root : Text
  catalog : Catalog
  macros : Macros
  cache : Cache := {}

namespace Library

/-- The folder of shader files below the working folder, if no other is set. -/
def standardFolder : Text := "./Data/Shaders".toList

/-- The folder of shader files for a setting, as a path from the root. An empty setting is none. -/
def folder (working : Text) (setting : Option Text) : Text :=
  Path.absolute working (match setting with
    | some (c :: path) => c :: path
    | _ => standardFolder)

/-- A new library: the folder is scanned first, then the macros are defined, and at last the global
block is looked for among the files found. -/
def load (store : Store) (root : Text) (defines : List (Value × Value)) (strict : Bool) :
    Traced Fault Library := do
  let (catalog, _) ← Catalog.scan { strict } store root
  let macros ← (⟨[], Macros.defineAll {} defines⟩ : Traced Fault Macros)
  let macros ← (macros.loadGlobalBlock catalog store).mapError .store
  pure { root, catalog, macros }

def environment (l : Library) (store : Store) : Environment := ⟨l.macros, l.catalog, store⟩

/-- The library after another scan of its folder, and the number of names found. What is in the
cache stays. -/
def rescan (l : Library) (store : Store) : Traced Fault (Library × Nat) := do
  let (catalog, count) ← l.catalog.scan store l.root
  pure ({ l with catalog }, count)

/-- The text of a shader, and the library after the request. -/
def get (l : Library) (store : Store) (id : Value) : Traced Fault Text × Library :=
  let (run, cache) := l.cache.get (l.environment store) id
  (run, { l with cache })

/-- A request that has no text instead of most faults. The journal tells what was wrong. What is
not an id, and a store that cannot be used, remain faults. -/
def soften (id : Text) (run : Traced Fault Text) : Traced Fault Text := do
  match ← run.attempt with
  | .ok text => pure text
  | .error (.problem p) =>
    .log .error ("Cannot get shader '".toList ++ id ++ "': ".toList ++ p.message)
    pure []
  | .error (.store e) =>
    if e.isRefusal then
      .log .error ("Cannot read shader file for '".toList ++ id ++ "': ".toList ++ e.message)
      pure []
    else
      .fail (.store e)
  | .error fault => .fail fault

/-- The text of a shader, or no text if there is none, and the library after the request. -/
def getText (l : Library) (store : Store) (id : Value) : Traced Fault Text × Library :=
  let (run, l) := l.get store id
  (soften id.toText run, l)

end Library

end ShaderLibrary
