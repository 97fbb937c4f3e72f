import ShaderLibrary.Macros

/-!
Directives: the lines of a source that are meant for the library and not for the compiler, and the
marker lines that the library writes for the compiler. A directive starts in the first column.
-/

namespace ShaderLibrary

/-- The line that gives the next line its number. -/
def lineMarker (number : Int) : Text := "#line ".toList ++ Text.ofInt number

/-- What becomes of a line. -/
inductive LineKind where
  /-- The content of a file takes its place. -/
  | inclusion
  /-- It belongs at the top. -/
  | hoisted
  /-- It stays as it is. -/
  | plain
deriving DecidableEq, Repr

/-- Whether the line starts a version directive, which must come before everything else. -/
def isVersionLine (line : Text) : Bool := "#version".toList.isPrefixOf line

def isExtensionLine (line : Text) : Bool := "#extension".toList.isPrefixOf line

/-- What becomes of a line. Only its start decides, so longer words count too. -/
def LineKind.of (line : Text) : LineKind :=
  if "#include".toList.isPrefixOf line then .inclusion
  else if isVersionLine line || isExtensionLine line then .hoisted
  else .plain

/-- The text between the first and the last quote of a line, unless the line starts with a quote. -/
def quotedName? (line : Text) : Option Text :=
  if line.head? = some Text.doubleQuote then none else line.betweenQuotes?

/-- The name that the text of a macro stands for: what is between the quotes, or all of it. -/
def namedBy (value : Text) : Text := value.trim.betweenQuotes?.getD value.trim

/-- The bare name of the file that an include line asks for. It stands in quotes, or else the second
word of the line is a macro that stands for it. -/
def headerName (m : Macros) (line : Text) : Traced Problem Text :=
  match quotedName? line with
  | some name => pure name
  | none =>
    match line.words with
    | _ :: key :: _ => do pure (namedBy (← m.lookup key line))
    | _ => .fail (.unresolvedInclude line "too few tokens".toList)

end ShaderLibrary
