import ShaderLibrary.Journal
import ShaderLibrary.Problem
import ShaderLibrary.Store.Basic

/-!
Traces: what a computation did on its way to its outcome, in order. The environment is only ever
read, so the trace and the outcome are all that there is to observe. What happened before a failure
stays in the trace.
-/

namespace ShaderLibrary

/-- Something that a computation did. -/
inductive Event where
  | lookedUp (key : Text)
  | sought (name : Text)
  | read (path : Text)
  /-- It began with the lines of an included file. -/
  | opened (path : Text)
  /-- It was done with the lines of an included file. -/
  | closed (path : Text)
  | hoisted (line : Text)
  /-- It noted a problem and went on. -/
  | reported (problem : Problem)
  | logged (record : Record)
  | printed (text : Text)
deriving DecidableEq, Repr

namespace Event

def read? : Event → Option Text
  | read path => some path
  | _ => none

def hoisted? : Event → Option Text
  | hoisted line => some line
  | _ => none

def reported? : Event → Option Problem
  | reported problem => some problem
  | _ => none

def logged? : Event → Option Record
  | logged record => some record
  | _ => none

def printed? : Event → Option Text
  | printed text => some text
  | _ => none

end Event

/-- The run of a computation: what it did, and its outcome or the reason that it has none. -/
structure Traced (ε α : Type) where
  events : List Event
  outcome : Except ε α

namespace Traced

variable {ε ε₂ α β : Type}

def done (a : α) : Traced ε α := ⟨[], .ok a⟩

def fail (e : ε) : Traced ε α := ⟨[], .error e⟩

/-- One computation after the other. A failure ends the whole, and its trace stays. -/
def andThen (run : Traced ε α) (next : α → Traced ε β) : Traced ε β :=
  match run.outcome with
  | .error e => ⟨run.events, .error e⟩
  | .ok a => ⟨run.events ++ (next a).events, (next a).outcome⟩

instance : Monad (Traced ε) where
  pure := done
  bind := andThen

def event (e : Event) : Traced ε Unit := ⟨[e], .ok ()⟩

/-- A record in the journal. -/
def log (severity : Severity) (message : Text) : Traced ε Unit :=
  event (.logged ⟨severity, message⟩)

/-- A problem that is noted, in the journal too. -/
def report (problem : Problem) : Traced ε Unit := do
  log .error problem.message
  event (.reported problem)

/-- The computation as one that cannot fail: its failure is a value. -/
def attempt (run : Traced ε α) : Traced ε₂ (Except ε α) := ⟨run.events, .ok run.outcome⟩

/-- The same computation, with another reason for its failure. -/
def mapError (f : ε → ε₂) (run : Traced ε α) : Traced ε₂ α := ⟨run.events, run.outcome.mapError f⟩

/-- The computation as the expansion of a file. The file is closed again in any case. -/
def within (path : Text) (run : Traced ε α) : Traced ε α :=
  ⟨.opened path :: run.events ++ [.closed path], run.outcome⟩

def readText (store : Store) (path : Text) : Traced StoreError Text :=
  ⟨[.read path], store.readText path⟩

def reads (run : Traced ε α) : List Text := run.events.filterMap Event.read?

/-- The lines that belong at the top, each as often as it was met. -/
def hoistedLines (run : Traced ε α) : List Text := run.events.filterMap Event.hoisted?

def problems (run : Traced ε α) : List Problem := run.events.filterMap Event.reported?

def records (run : Traced ε α) : List Record := run.events.filterMap Event.logged?

/-- All that was shown to the user. -/
def output (run : Traced ε α) : Text := (run.events.filterMap Event.printed?).flatten

end Traced

end ShaderLibrary
