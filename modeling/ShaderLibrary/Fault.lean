import ShaderLibrary.Problem
import ShaderLibrary.Store.Basic
import ShaderLibrary.Value

/-!
Faults: the reasons for which an operation of the library has no result.
-/

namespace ShaderLibrary

/-- Why an operation has no result. -/
inductive Fault where
  /-- A source cannot be assembled, or there is none. -/
  | problem (p : Problem)
  /-- The store does not hand out a file or a listing. -/
  | store (e : StoreError)
  /-- A macro cannot have this key. -/
  | invalidKey (key : Value)
  /-- Two files of one scan have the same bare name. -/
  | duplicateName (name earlier later : Text)
  /-- What is asked for is not the id of a shader. -/
  | invalidId (id : Value)
  /-- A definition is not made of a key and a value, but of so many values. -/
  | wrongRow (size : Nat)
  /-- An option that defines a macro has been left without a text. -/
  | missingDefinition
  /-- The compiler does not offer what it is asked for. -/
  | noCompiler

namespace Fault

def message : Fault → Text
  | problem p => p.message
  | store e => e.message
  | invalidKey key => "Invalid define key: ".toList ++ key.shown
  | duplicateName name earlier later =>
    "Duplicate shader file name '".toList ++ name ++ "': ".toList ++ earlier ++ " and ".toList ++ later
  | invalidId id => "Shader id must be a str, not ".toList ++ id.shown
  | wrongRow size =>
    if size < 2 then
      "not enough values to unpack (expected 2, got ".toList ++ Text.ofNat size ++ ")".toList
    else
      "too many values to unpack (expected 2)".toList
  | missingDefinition => "'list' object has no attribute 'partition'".toList
  | noCompiler => []

end Fault

end ShaderLibrary
