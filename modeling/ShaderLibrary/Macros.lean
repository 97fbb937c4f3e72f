import ShaderLibrary.Catalog
import ShaderLibrary.Text.Blank

/-!
The macro environment of all shaders: a table of macros, and the global block, which is the content
of one file of definitions. Both stand in front of every section, the macros in ascending order of
their keys, so the order in which they were defined does not show.
-/

namespace ShaderLibrary

/-- The macros and the global block. -/
structure Macros where
  bindings : Dictionary Text := ∅
  globalBlock : Text := []

namespace Macros

/-- The bare name of the file with the global block. -/
def globalName : Text := "GlobalDefines.glsl".toList

/-- The key that a value is, if it can be one: a text of one word, with no blanks around it. -/
def keyOf? : Value → Option Text
  | .text key => if key.words = [key] then some key else none
  | _ => none

/-- The macros with `key` defined to the text of `value`. -/
def define (m : Macros) (key value : Value) : Except Fault Macros :=
  match keyOf? key with
  | none => .error (.invalidKey key)
  | some key => .ok { m with bindings := m.bindings.insert key value.toText }

/-- The macros with all of these defined, in order. The first key that cannot be one is a fault. -/
def defineAll (m : Macros) (defines : List (Value × Value)) : Except Fault Macros :=
  defines.foldlM (fun m entry => m.define entry.1 entry.2) m

def undefine (m : Macros) (key : Text) : Macros := { m with bindings := m.bindings.erase key }

/-- The text that `key` is defined to, or the problem that `line` uses a macro that is not defined. -/
def lookup (m : Macros) (key line : Text) : Traced Problem Text :=
  ⟨[.lookedUp key], (m.bindings.get? key).elim (.error (.undefinedMacro key line)) .ok⟩

def keys (m : Macros) : List Text := m.bindings.keys

/-- The line that defines a macro, with its newline. -/
def definition (key value : Text) : Text :=
  "#define ".toList ++ key ++ ' ' :: value ++ ['\n']

/-- The text in front of every section: one line for each macro, and the global block as it is. -/
def block (m : Macros) : Text :=
  m.bindings.entries.flatMap (fun entry => definition entry.1 entry.2) ++ m.globalBlock

/-- A block made of rows, each a key and a value, as they are. Nothing is asked of the keys here. -/
def blockOfRows (rows : List (List Value)) (globalBlock : Value) : Except Fault Text := do
  let definitions ← rows.mapM fun
    | [key, value] => .ok (definition key.toText value.toText)
    | row => .error (.wrongRow row.length)
  pure (definitions.flatten ++ globalBlock.toText)

/-- The macros with the global block that the store has now. Without a file of that name, and with
one that the store refuses to hand out, the block is empty. -/
def loadGlobalBlock (m : Macros) (c : Catalog) (store : Store) : Traced StoreError Macros := do
  match ← (c.resolve globalName).attempt with
  | .error _ => pure { m with globalBlock := [] }
  | .ok path =>
    match ← (Traced.readText store path).attempt with
    | .ok text => pure { m with globalBlock := text }
    | .error e =>
      if e.isRefusal then
        .log .error <| "Unexpected error while loading ".toList ++ globalName ++ ": ".toList ++
          e.message
        pure { m with globalBlock := [] }
      else
        .fail e

end Macros

end ShaderLibrary
