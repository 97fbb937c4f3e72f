import ShaderLibrary.Library
import ShaderLibrary.Stage

/-!
Programs: shaders that are compiled and linked together. Compiling and linking are the work of a
compiler from outside. All shaders are compiled and the program is linked, whatever fails on the
way, so that the user learns of every mistake at once.
-/

namespace ShaderLibrary

/-- What a compiler says about a shader or a program. -/
structure Verdict where
  ok : Bool
  log : Text := []
deriving DecidableEq, Repr

def Verdict.summary (v : Verdict) : Text :=
  "<CompileResult ok=".toList ++ (Value.truth v.ok).shown ++ ['>']

/-- A shader that has been compiled. -/
structure Shader where
  id : Text
  stage : Stage
  text : Text
  verdict : Verdict
deriving DecidableEq, Repr

/-- What a compiler is asked for. -/
inductive Request where
  | compile (stage : Stage) (text id : Text)
  | link (shaders : List Shader)
deriving DecidableEq, Repr

/-- A compiler from outside. Its verdict may depend on all that it has been asked for before, and
there is none if it does not offer what it is asked for. -/
structure Compiler where
  answer : List Request → Request → Option Verdict

/-- The shaders of a program, and the verdict on the whole. -/
structure Program where
  shaders : List Shader
  linked : Verdict
deriving DecidableEq, Repr

namespace Program

/-- Whether the program can be used: it is linked and all its shaders are compiled. -/
def ok (p : Program) : Bool := p.linked.ok && p.shaders.all (·.verdict.ok)

/-- The state while a program is built. -/
structure Building where
  library : Library
  requests : List Request := []
  shaders : List Shader := []

/-- Asks the compiler, and keeps the request. -/
def ask (b : Building) (compiler : Compiler) (request : Request) :
    Traced Fault (Verdict × Building) :=
  match compiler.answer b.requests request with
  | some verdict => pure (verdict, { b with requests := b.requests ++ [request] })
  | none => .fail .noCompiler

/-- What is shown of a text: a headline, a rule, and the text. -/
def dump (id text : Text) : Text :=
  Text.terminateLines
    ["Shader dump (".toList ++ id ++ "):".toList, List.replicate 44 '-', text]

/-- The record about a shader that could not be compiled. -/
def compileMessage (id log : Text) : Text :=
  "Cannot compile shader! fileID: '".toList ++ id ++ '\x27' :: '\n' :: log

/-- The record about a program that could not be linked. -/
def linkMessage (ids : List Text) (log : Text) : Text :=
  "Cannot link shader program (".toList ++ ", ".toList.intercalate ids ++ ')' :: '\n' :: log

/-- Gets the text of one shader and has it compiled. A shader without text is compiled too. -/
def compileOne (store : Store) (compiler : Compiler) (shows : Bool) (b : Building) (id : Text) :
    Traced Fault Building := do
  let stage ← Stage.ofId id
  let (run, library) := b.library.getText store (.text id)
  let text ← run
  if shows then .event (.printed (dump id text ++ ['\n']))
  let (verdict, b) ← ask { b with library } compiler (.compile stage text id)
  if !verdict.ok then .log .error (compileMessage id verdict.log)
  pure { b with shaders := b.shaders ++ [⟨id, stage, text, verdict⟩] }

/-- Builds a program of the shaders with the given ids, in this order. -/
def build (library : Library) (store : Store) (compiler : Compiler) (ids : List Text)
    (shows : Bool) : Traced Fault (Program × Building) := do
  let b ← ids.foldlM (compileOne store compiler shows) { library }
  let (linked, b) ← ask b compiler (.link b.shaders)
  if !linked.ok then .log .error (linkMessage ids linked.log)
  pure (⟨b.shaders, linked⟩, b)

end Program

end ShaderLibrary
