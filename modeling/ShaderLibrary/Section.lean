import ShaderLibrary.Text.Blank
import ShaderLibrary.Text.Lines

/-!
Sections: the parts of an effect file, one for each stage. A marker line names the section that
follows it. Lines before the first marker belong to no section, unless there is no marker at all:
then they are the only section, with a name of its own.
-/

namespace ShaderLibrary

/-- A named part of an effect file, as it stands there. -/
structure Section where
  name : Text
  lines : List Text
deriving DecidableEq, Repr

namespace Section

def marker : Text := "-- ".toList

/-- The name of the section in a file without markers. -/
def unnamed : Text := "glsl".toList

/-- The section name on a marker line, or nothing if the line is none. -/
def nameOn? (line : Text) : Option Text :=
  if marker.isPrefixOf line then some (Text.trim (line.drop marker.length)) else none

/-- The lines before the first marker, and the sections that the markers start. -/
def cut : List Text → List Text × List Section
  | [] => ([], [])
  | line :: rest =>
    let tail := cut rest
    match nameOn? line with
    | some name => ([], ⟨name, tail.1⟩ :: tail.2)
    | none => (line :: tail.1, tail.2)

def ofLines (lines : List Text) : List Section :=
  match cut lines with
  | (lines, []) => [⟨unnamed, lines⟩]
  | (_, sections) => sections

def ofText (text : Text) : List Section := ofLines text.lines

end Section

end ShaderLibrary
