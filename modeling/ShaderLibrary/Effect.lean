import ShaderLibrary.Preamble
import ShaderLibrary.Inclusion
import ShaderLibrary.Section

/-!
Effects: the assembled sections of an effect file. Each section is assembled on its own, in an
environment that is the same for all of them; a cycle of includes costs the section in which it is
met, and no other. Of sections with the same name the first one counts, whether it could be
assembled or not.
-/

namespace ShaderLibrary

/-- An effect file that has been read. -/
structure Effect where
  /-- The name of the file, without its extension. -/
  base : Text
  /-- The assembled texts with their ids, in the order of the file. -/
  sections : List (Text × Text) := []
  /-- The sections that could not be assembled, with the reason. -/
  failed : List (Text × Problem) := []
  problems : List Problem := []
deriving DecidableEq, Repr

namespace Effect

/-- The text of a unit: lines for the top, macros, and the body that the entries make up. -/
def unit (macros : Macros) (preamble : Preamble) (entries : List Text) : Text :=
  preamble.render ++ macros.block.terminated ++ Text.joinLines (lineMarker 1 :: entries) ++ ['\n']

/-- The assembled text of the lines of a section, or the problem that there is none. The origin is
the path of the file, which is in progress while its sections are. -/
def assemble (env : Environment) (origin : Option Text) (lines : List Text) :
    Traced StoreError (Except Problem Text) := do
  let run := env.expandLines origin.toList 1 lines
  match ← run.attempt with
  | .ok entries => pure (.ok (unit env.macros (Preamble.addAll ∅ run.hoistedLines) entries))
  | .error (.cycle chain) =>
    .report (.circularInclude chain)
    pure (.error (.circularInclude chain))
  | .error (.store e) => .fail e

/-- The id of a section, by which it is asked for. -/
def idOf (base name : Text) : Text := base ++ '.' :: name

/-- Whether the effect has decided on an id. -/
def decides (x : Effect) (id : Text) : Bool :=
  (x.sections.lookup id).isSome || (x.failed.lookup id).isSome

/-- The effect with the outcome of one more section. -/
def enter (x : Effect) (id : Text) (outcome : Except Problem Text) : Traced StoreError Effect :=
  if x.decides id then do
    .log .warning <| "Shader section '".toList ++ id ++
      "' is defined more than once, using the first.".toList
    pure x
  else match outcome with
    | .ok text => pure { x with sections := x.sections ++ [(id, text)] }
    | .error problem => pure { x with failed := x.failed ++ [(id, problem)] }

def assembleAll (env : Environment) (origin : Option Text) (x : Effect) :
    List Section → Traced StoreError Effect
  | [] => pure x
  | part :: rest => do
    let run := assemble env origin part.lines
    let outcome ← run
    let x ← enter { x with problems := x.problems ++ run.problems } (idOf x.base part.name) outcome
    assembleAll env origin x rest

def ofText (env : Environment) (base text : Text) (origin : Option Text) :
    Traced StoreError Effect :=
  assembleAll env origin { base } (Section.ofText text)

/-- Shows the ids of the sections. -/
def summary (x : Effect) : Text :=
  "<ParsedEffect ".toList ++ x.base.quoted ++ " with sections ".toList ++
    (Value.list (x.sections.map fun entry => .text entry.1)).shown ++ ['>']

end Effect

end ShaderLibrary
