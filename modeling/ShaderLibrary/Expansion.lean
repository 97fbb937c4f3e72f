import ShaderLibrary.Inclusion
import ShaderLibrary.Preamble

/-!
A running expansion: the lines for the top, the files in progress and the problems so far. It is
what the trace of the expanded lines adds up to, also when one of them was interrupted, so several
lines can share it.
-/

namespace ShaderLibrary

/-- Why the entries for a line are not complete. -/
inductive Unfinished where
  /-- The line could not be expanded. There are no entries. -/
  | interrupted (i : Interrupt)
  /-- The number of the next line has too many digits. Its marker is missing after these entries. -/
  | noMarker (entries : List Text)
deriving DecidableEq, Repr

namespace Unfinished

def entries : Unfinished → List Text
  | interrupted _ => []
  | noMarker entries => entries

def message : Unfinished → Text
  | interrupted i => i.message
  | noMarker _ =>
    "Exceeds the limit (".toList ++ Text.ofNat Text.mostDigits ++ " digits) for integer string ".toList ++
      "conversion; use sys.set_int_max_str_digits() to increase the limit".toList

end Unfinished

/-- The state between two lines. -/
structure Expansion where
  preamble : Preamble := ∅
  inProgress : List Text := []
  problems : List Problem := []
deriving DecidableEq

namespace Expansion

/-- The state at the start of a file, of which the path may be unknown. -/
def start (origin : Option Text) : Expansion := { inProgress := origin.toList }

def after (x : Expansion) : Event → Expansion
  | .hoisted line => { x with preamble := x.preamble.add line }
  | .opened path => { x with inProgress := x.inProgress ++ [path] }
  | .closed _ => { x with inProgress := x.inProgress.dropLast }
  | .reported problem => { x with problems := x.problems ++ [problem] }
  | _ => x

def afterAll (x : Expansion) (events : List Event) : Expansion := events.foldl after x

/-- The outcome for a line, which is that of its expansion if a marker for line `next` can be written
after it or none is needed. -/
def complete (next : Int) (line : Text) : Except Interrupt (List Text) →
    Except Unfinished (List Text)
  | .error i => .error (.interrupted i)
  | .ok entries =>
    if Text.hasNumeral next ∨ LineKind.of line = .plain then .ok entries
    else .error (.noMarker entries.dropLast)

/-- The entries for one line, and the state after it. The number may be any, so the number of the next
line may be too long for a marker. Then everything else is done. -/
def processLine (x : Expansion) (env : Environment) (number : Int) (line : Text) :
    Traced Unfinished (List Text) × Expansion :=
  let run := env.expandLine x.inProgress number line
  (⟨run.events, complete (number + 1) line run.outcome⟩, x.afterAll run.events)

/-- The text of a file on its own, with the lines for the top collected in addition to the given
ones, and the state after it. -/
def processFile (env : Environment) (preamble : Preamble) (path : Text) :
    Traced Interrupt Text × Expansion :=
  let run := env.expandFile [] path
  (run, { preamble : Expansion }.afterAll run.events)

end Expansion

end ShaderLibrary
