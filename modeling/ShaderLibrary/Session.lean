import ShaderLibrary.Library

/-!
Sessions: a library in use, while the files that it reads from change. What is done in a session is
one operation after the other. An operation that fails leaves the session as far as it has come.
-/

namespace ShaderLibrary

/-- Something that is done in a session. -/
inductive Operation where
  | get (id : Value)
  /-- A shader is asked for, and no text stands for most faults. -/
  | getText (id : Value)
  /-- A text is handed in for an id. -/
  | insert (id text : Text)
  | define (key value : Value)
  | undefine (key : Text)
  | loadGlobalBlock
  /-- A folder is scanned, which may be any. -/
  | scan (root : Text)
  | rescan
  /-- Files are written or erased, and from now on the store is this one. -/
  | change (store : Store)

/-- What an operation answers. -/
inductive Answer where
  | nothing
  | text (t : Text)
  | count (n : Nat)
deriving DecidableEq, Repr

structure Session where
  library : Library
  store : Store

namespace Session

def environment (s : Session) : Environment := s.library.environment s.store

def cache (s : Session) : Cache := s.library.cache

/-- A request for a text, and the session with the library after it. -/
def request (s : Session) (asked : Traced Fault Text × Library) : Traced Fault Answer × Session :=
  (⟨asked.1.events, asked.1.outcome.map .text⟩, { s with library := asked.2 })

/-- A run that comes to a new library and an answer. The library stays as it is if the run fails. -/
def settle {α : Type} (s : Session) (run : Traced Fault α) (next : α → Library × Answer) :
    Traced Fault Answer × Session :=
  match run.outcome with
  | .ok a => (⟨run.events, .ok (next a).2⟩, { s with library := (next a).1 })
  | .error fault => (⟨run.events, .error fault⟩, s)

/-- One operation: its answer, and the session after it. -/
def perform (s : Session) : Operation → Traced Fault Answer × Session
  | .get id => s.request (s.library.get s.store id)
  | .getText id => s.request (s.library.getText s.store id)
  | .insert id text =>
    (pure (.text ((s.cache.get? id).getD text)),
      { s with library := { s.library with cache := s.cache.insert id text } })
  | .define key value =>
    s.settle ⟨[], s.library.macros.define key value⟩ fun macros =>
      ({ s.library with macros }, .nothing)
  | .undefine key =>
    (pure .nothing, { s with library := { s.library with macros := s.library.macros.undefine key } })
  | .loadGlobalBlock =>
    s.settle ((s.library.macros.loadGlobalBlock s.library.catalog s.store).mapError .store)
      fun macros => ({ s.library with macros }, .nothing)
  | .scan root =>
    s.settle (s.library.catalog.scan s.store root) fun found =>
      ({ s.library with catalog := found.1 }, .count found.2)
  | .rescan => s.settle (s.library.rescan s.store) fun found => (found.1, .count found.2)
  | .change store => (pure .nothing, { s with store })

def after (s : Session) (operation : Operation) : Session := (s.perform operation).2

/-- The session after all of these operations. -/
def afterAll (s : Session) (operations : List Operation) : Session := operations.foldl after s

end Session

end ShaderLibrary
