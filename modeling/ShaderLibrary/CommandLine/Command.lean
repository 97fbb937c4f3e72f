import ShaderLibrary.CommandLine.Arguments
import ShaderLibrary.Program

/-!
The commands of the command line: usage, version, and the dump of assembled shaders. A command shows
texts, writes records, and ends with an exit code.
-/

namespace ShaderLibrary.CommandLine

def version : List Nat := [0, 1, 0]

def versionText : Text := ['.'].intercalate (version.map Text.ofNat)

/-- Tells how the program is used. -/
def usage : Text :=
  Text.terminateLines <| List.map String.toList
    ["usage: glsleffects [-h] [--root ROOT] [-D KEY=VALUE] command [ids ...]",
     "",
     "The (very basic) glsleffects CLI",
     "",
     "positional arguments:",
     "  command       The command to run: 'help', 'version' or 'dump'",
     "  ids           The shader ids to dump, e.g. Blur.Fragment",
     "",
     "options:",
     "  -h, --help    show this help message and exit",
     "  --root ROOT   The shader directory",
     "  -D KEY=VALUE  Add a preprocessor define"]

/-- What a program finds around it. -/
structure Surroundings where
  store : Store
  /-- The path of the working folder. -/
  working : Text
  /-- The user's setting for the folder of shader files. -/
  setting : Option Text

def print {ε : Type} (text : Text) : Traced ε Unit := .event (.printed text)

def printLine {ε : Type} (line : Text) : Traced ε Unit := print (line ++ ['\n'])

/-- The key and the value that a text defines, which stand on either side of the first equals sign.
Without one the value is empty. -/
def definition : Option Text → Except Fault (Value × Value)
  | some text =>
    let (key, value) := Text.cut '=' text
    .ok (.text key, .text value)
  | none => .error .missingDefinition

/-- The folder that an invocation is about. Without one, or with an empty one, it is that of the
user's setting. -/
def Invocation.folder (i : Invocation) (working : Text) (setting : Option Text) : Text :=
  match i.root with
  | some (c :: path) => c :: path
  | _ => Library.folder working setting

def loadLibrary (s : Surroundings) (i : Invocation) : Traced Fault Library := do
  let defines ← (⟨[], i.defines.mapM definition⟩ : Traced Fault (List (Value × Value)))
  Library.load s.store (i.folder s.working s.setting) defines false

/-- Shows the texts of shaders, and tells whether all of them have one. A shader without text is
shown too, and does not end the dump. -/
def dumpAll (store : Store) (library : Library) : List Text → Traced Fault Bool
  | [] => pure true
  | id :: ids => do
    let (run, library) := library.getText store (.text id)
    let text ← run
    print (Program.dump id text)
    let others ← dumpAll store library ids
    pure (text != [] && others)

/-- Whether the user can mend the fault, so it is told in a sentence. -/
def isUserFault : Fault → Bool
  | .store e => e.isRefusal || e == .nulInPath
  | .invalidKey _ | .duplicateName .. => true
  | _ => false

def dump (s : Surroundings) (i : Invocation) : Traced Fault Nat := do
  match ← (loadLibrary s i).attempt with
  | .ok library => pure (if ← dumpAll s.store library i.words.ids then 0 else 1)
  | .error fault =>
    if isUserFault fault then
      printLine ("Cannot load shaders: ".toList ++ fault.message)
      pure 1
    else
      .fail fault

/-- Carries out an invocation. Commands may be written in any case. -/
def carryOut (s : Surroundings) (i : Invocation) : Traced Fault Nat := do
  let command := i.words.command.lowercase
  if command = "help".toList then
    print usage
    pure 0
  else if command = "version".toList then
    printLine ("glsleffects v".toList ++ versionText)
    pure 0
  else if command = "dump".toList then
    dump s i
  else
    printLine ("Invalid command '".toList ++ command ++ ['\x27'])
    pure 1

/-- Reads the arguments. None at all ask for the usage text, and one spelling of the version command
looks like an option. -/
def read : List Text → Reading
  | [] => .usage
  | arguments =>
    if arguments = ["--version".toList] then .ofTexts ["version".toList] else .ofTexts arguments

/-- Runs the program with its arguments, up to its exit code. -/
def run (s : Surroundings) (arguments : List Text) : Traced Fault Nat :=
  match read arguments with
  | .usage => do
    print usage
    pure 0
  | .invalid => pure 2
  | .invocation i => carryOut s i

end ShaderLibrary.CommandLine
