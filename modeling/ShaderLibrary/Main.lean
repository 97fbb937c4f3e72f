import ShaderLibrary.CommandLine.Command
import ShaderLibrary.Store.Disk
import ShaderLibrary.Verbosity

/-!
The program. It takes a picture of the folder that an invocation is about, leaves everything else to
the library, and shows what came of it.
-/

namespace ShaderLibrary.CommandLine

/-- The content of a folder of the host. Files that cannot be read are left out. -/
partial def pictureOf (path : String) : IO Folder := do
  let mut picture := Folder.empty
  for entry in ← ((← IO.currentDir) / path).readDir do
    let name := entry.fileName
    if ← entry.path.isDir then
      picture := .folder name.toList (← pictureOf (path ++ "/" ++ name)) picture
    else
      match ← (IO.FS.readBinFile entry.path).toBaseIO with
      | .ok content => picture := .file name.toList content.toList picture
      | .error _ => pure ()
  return picture

/-- The disk of the host, as far as an invocation is concerned. -/
def diskFor (working folder : Text) : IO Disk := do
  let place := Path.absolute working folder
  let disk : Disk := { working := Path.names working }
  if ← ((← IO.currentDir) / String.ofList place).isDir then
    let picture ← pictureOf (String.ofList place)
    return disk.update place fun _ => some (.folder picture)
  return disk

/-- Runs the program on the host and gives its exit code. Arguments that make no sense get the usage
text too, but not as output. -/
def runOnHost (arguments : List Text) : IO UInt32 := do
  let working := (← IO.currentDir).toString.toList
  let setting := (← IO.getEnv "GLSLEFFECTS_SHADER_DIR").map String.toList
  let level := (← IO.getEnv "GLSLEFFECTS_LOG_LEVEL").map String.toList
  let disk ← match read arguments with
    | .invocation i => diskFor working (i.folder working setting)
    | _ => pure {}
  let chosen : Traced Fault Verbosity := Verbosity.ofSetting level
  let verbosity := chosen.outcome.toOption.getD .standard
  let result := run { store := disk.store, working, setting } arguments
  for record in chosen.records ++ result.records do
    if verbosity.admits record.severity then
      IO.eprintln (String.ofList record.message)
  IO.print (String.ofList result.output)
  match result.outcome with
  | .ok code =>
    if code = 2 then IO.eprint (String.ofList usage)
    return code.toUInt32
  | .error fault =>
    IO.eprintln (String.ofList fault.message)
    return 1

end ShaderLibrary.CommandLine

/-- Runs the command line. -/
def main (arguments : List String) : IO UInt32 :=
  ShaderLibrary.CommandLine.runOnHost (arguments.map String.toList)
