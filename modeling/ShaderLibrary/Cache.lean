import ShaderLibrary.Effect

/-!
The cache of assembled sections. A request for an id that is not in it reads the file of the id and
keeps all sections of that file. What is in the cache stays as it is, and a failed request leaves
nothing behind but the sections that could be assembled.
-/

namespace ShaderLibrary

/-- Assembled texts by id, and how many requests have found theirs. -/
structure Cache where
  texts : Dictionary Text := ∅
  hits : Nat := 0
  misses : Nat := 0

namespace Cache

def get? (c : Cache) (id : Text) : Option Text := c.texts.get? id

def ids (c : Cache) : List Text := c.texts.keys

def size (c : Cache) : Nat := c.texts.size

/-- The cache with a text for an id that has none. -/
def insert (c : Cache) (id text : Text) : Cache := { c with texts := c.texts.insertIfNew id text }

/-- The cache with texts for those ids that have none. -/
def insertAll (c : Cache) (entries : List (Text × Text)) : Cache :=
  entries.foldl (fun c entry => c.insert entry.1 entry.2) c

/-- The name of the file of an id: the part before the first dot. -/
def baseOf (id : Text) : Text := id.takeWhile (· != '.')

def readEffect (env : Environment) (id : Text) : Traced Fault Effect := do
  let base := baseOf id
  let path ← (env.catalog.resolve (base ++ env.catalog.extension)).mapError .problem
  let text ← (Traced.readText env.store path).mapError .store
  (Effect.ofText env base text (some path)).mapError .store

/-- The text for an id, from an effect that should hold it. -/
def select (x : Effect) (kept : Option Text) (id : Text) : Except Fault Text :=
  match kept with
  | some text => .ok text
  | none => .error (.problem ((x.failed.lookup id).getD (.unknownSection id)))

/-- The cache after a request for an id that is not in it, and the answer. -/
def load (c : Cache) (env : Environment) (id : Text) : Traced Fault Text × Cache :=
  let c := { c with misses := c.misses + 1 }
  let run : Traced Fault Effect := do
    .log .debug ("Shader cache miss for '".toList ++ id ++ "'".toList)
    readEffect env id
  match run.outcome with
  | .error fault => (⟨run.events, .error fault⟩, c)
  | .ok x =>
    let c := c.insertAll x.sections
    (⟨run.events, select x (c.get? id) id⟩, c)

/-- The answer to a request, and the cache after it. Only texts are ids. -/
def get (c : Cache) (env : Environment) : Value → Traced Fault Text × Cache
  | .text id =>
    match c.get? id with
    | some text => (pure text, { c with hits := c.hits + 1 })
    | none => c.load env id
  | id => (.fail (.invalidId id), c)

end Cache

end ShaderLibrary
