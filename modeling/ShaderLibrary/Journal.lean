import ShaderLibrary.Text.Basic

/-!
The journal: records that tell the user what went on. Nothing is decided by them.
-/

namespace ShaderLibrary

/-- How much a record matters. -/
inductive Severity where
  | debug
  | info
  | warning
  | error
deriving DecidableEq, Repr

/-- An entry of the journal. -/
structure Record where
  severity : Severity
  message : Text
deriving DecidableEq, Repr

end ShaderLibrary
