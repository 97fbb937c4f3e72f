import ShaderLibrary.Text.Basic

/-!
Lines of a text. A newline ends a line, and a carriage return right before the end of a line
belongs to its ending, so a file reads the same with either kind of line ending.
-/

namespace ShaderLibrary.Text

/-- The parts between newlines. A newline at the very end starts no further part. -/
def pieces : Text → List Text
  | [] => []
  | c :: rest =>
    if c = '\n' then
      [] :: pieces rest
    else
      match pieces rest with
      | [] => [[c]]
      | first :: others => (c :: first) :: others

/-- The line without one carriage return at its end. A second one would be part of the line. -/
def dropReturn (line : Text) : Text :=
  if line.getLast? = some '\r' then line.dropLast else line

/-- The lines of a text, without their endings. -/
def lines (t : Text) : List Text := (pieces t).map dropReturn

end ShaderLibrary.Text
