import ShaderLibrary.Environment
import ShaderLibrary.Text.Lines

/-!
Inclusion: the content of included files takes the place of the lines that ask for them, at any
depth. Every place where lines come in or go out is followed by a marker, so the compiler counts on
with the right number. What an inclusion yields depends on the files in progress only in that a file
among them ends it.
-/

namespace ShaderLibrary

/-- Why the lines of a file or a section cannot be expanded to their end. -/
inductive Interrupt where
  /-- A file is included that is in progress. It stands at the end of the chain for a second time. -/
  | cycle (chain : List Text)
  /-- The store cannot be used any more. -/
  | store (e : StoreError)
deriving DecidableEq, Repr

def Interrupt.message : Interrupt → Text
  | .cycle chain => (Problem.circularInclude chain).message
  | .store e => e.message

namespace Environment

/-- The text of the file at `path` with its lines expanded by `expand`, while the files of `chain`
are in progress. A file that the store refuses to hand out is reported and leaves an empty text. -/
def inlineWith (env : Environment) (chain : List Text) (path : Text)
    (expand : path ∉ chain → List Text → Traced Interrupt (List Text)) : Traced Interrupt Text :=
  if known : path ∈ chain then
    .fail (.cycle (chain ++ [path]))
  else do
    match ← (Traced.readText env.store path).attempt with
    | .ok text =>
      let entries ← .within path (expand known text.lines)
      pure (Text.joinLines (lineMarker 1 :: entries))
    | .error e =>
      if e.isRefusal then
        .report (.unresolvedInclude path e.message)
        pure []
      else
        .fail (.store e)

/-- The entries that take the place of line `number`, if the lines of included files are expanded by
`expand`: the line itself, or what it stands for and a marker for the next line. -/
def entriesWith (env : Environment) (chain : List Text)
    (expand : (path : Text) → path ∈ env.catalog.files → path ∉ chain →
      List Text → Traced Interrupt (List Text))
    (number : Int) (line : Text) : Traced Interrupt (List Text) :=
  match LineKind.of line with
  | .plain => pure [line]
  | .hoisted => do
    .event (.hoisted line)
    pure [lineMarker (number + 1)]
  | .inclusion => do
    match ← (env.target line).attempt with
    | .ok ⟨path, listed⟩ =>
      let text ← env.inlineWith chain path (expand path listed)
      pure [text, lineMarker (number + 1)]
    | .error problem =>
      .report problem
      pure [[], lineMarker (number + 1)]

theorem countP_notMem_append_lt {files chain : List Text} {path : Text} (listed : path ∈ files)
    (new : path ∉ chain) : files.countP (· ∉ chain ++ [path]) < files.countP (· ∉ chain) := by
  induction files with
  | nil => cases listed
  | cons file rest ih =>
    have tail : rest.countP (· ∉ chain ++ [path]) ≤ rest.countP (· ∉ chain) :=
      List.countP_mono_left fun q _ => by simp +contextual
    simp only [List.countP_cons]
    by_cases same : file = path
    · subst same
      simpa [new, Nat.lt_succ_iff] using tail
    · have lt := ih ((List.mem_cons.mp listed).resolve_left (Ne.symm same))
      by_cases known : file ∈ chain <;> simp [known, same] at lt ⊢ <;> omega

/-- How many entries of the catalog are not in progress. -/
def unopened (env : Environment) (chain : List Text) : Nat :=
  env.catalog.files.countP (· ∉ chain)

/-- The entries for lines that start with line `number`, while the files of `chain` are in progress.
A file is only opened if it is not in progress, so the depth is bounded by the catalog. -/
def expandLines (env : Environment) (chain : List Text) (number : Int) :
    List Text → Traced Interrupt (List Text)
  | [] => pure []
  | line :: rest => do
    let entries ← env.entriesWith chain
      (fun path _ _ lines => expandLines env (chain ++ [path]) 1 lines) number line
    let others ← expandLines env chain (number + 1) rest
    pure (entries ++ others)
termination_by lines => (env.unopened chain, lines.length)
decreasing_by
  · exact Prod.Lex.left _ _ (countP_notMem_append_lt ‹_› ‹_›)
  · exact Prod.Lex.right _ (Nat.lt_succ_self _)

def expandLine (env : Environment) (chain : List Text) (number : Int) (line : Text) :
    Traced Interrupt (List Text) :=
  env.entriesWith chain (fun path _ _ lines => env.expandLines (chain ++ [path]) 1 lines) number line

/-- The text of the file at `path`, expanded while the files of `chain` are in progress. -/
def expandFile (env : Environment) (chain : List Text) (path : Text) : Traced Interrupt Text :=
  env.inlineWith chain path fun _ lines => env.expandLines (chain ++ [path]) 1 lines

end Environment

end ShaderLibrary
