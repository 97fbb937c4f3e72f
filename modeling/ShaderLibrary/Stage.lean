import ShaderLibrary.Text.Lowercase
import ShaderLibrary.Trace

/-!
Stages of the graphics pipeline, and how the id of a shader tells its stage. The end of the id
decides if it is one of the known words; otherwise an abbreviation anywhere in it does.
-/

namespace ShaderLibrary

/-- What a shader is compiled for. -/
inductive Stage where
  | vertex
  | fragment
  | geometry
  | tesselationEvaluation
  | tesselationControl
  | compute
deriving DecidableEq, Repr

namespace Stage

def all : List Stage :=
  [vertex, fragment, geometry, tesselationEvaluation, tesselationControl, compute]

def name : Stage → Text
  | vertex => "vertex".toList
  | fragment => "fragment".toList
  | geometry => "geometry".toList
  | tesselationEvaluation => "tesselation_evaluation".toList
  | tesselationControl => "tesselation_control".toList
  | compute => "compute".toList

def ofName? (name : Text) : Option Stage := all.find? (·.name == name)

/-- The word at the end of an id that tells the stage. -/
def ending : Stage → Text
  | vertex => "vertex".toList
  | fragment => "fragment".toList
  | geometry => "geometry".toList
  | tesselationEvaluation => "tesselationevaluation".toList
  | tesselationControl => "tesselationcontrol".toList
  | compute => "compute".toList

/-- The stage that the end of a lower case id tells. -/
def ofEnding? (id : Text) : Option Stage := all.find? fun stage => stage.ending.isSuffixOf id

/-- The stage that an abbreviation in a lower case id tells. The first of them in this order
decides, also when it leads to no stage. -/
def ofAbbreviation? (id : Text) : Option Stage :=
  if Text.contains "vert".toList id then some vertex
  else if Text.contains "frag".toList id then some fragment
  else if Text.contains "geom".toList id then some geometry
  else if Text.contains "tess".toList id then
    if Text.contains "eval".toList id then some tesselationEvaluation
    else if Text.contains "control".toList id then some tesselationControl
    else none
  else if Text.contains "comp".toList id then some compute
  else none

/-- The stage that an id tells, in whatever case it is written. -/
def ofId? (id : Text) : Option Stage :=
  (ofEnding? id.lowercase).or (ofAbbreviation? id.lowercase)

/-- The stage of an id. One that tells no stage is taken for a vertex shader, with a record. -/
def ofId {ε : Type} (id : Text) : Traced ε Stage :=
  match ofId? id with
  | some stage => pure stage
  | none => do
    .log .error ("Unknown shader type (id: '".toList ++ id ++ "')".toList)
    pure vertex

end Stage

end ShaderLibrary
