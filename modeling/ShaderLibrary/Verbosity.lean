import ShaderLibrary.Text.Digit
import ShaderLibrary.Text.Numeral
import ShaderLibrary.Trace

/-!
Verbosity: which records of the journal are shown. The user sets it as a number or by the name of a
severity, in whatever case the name is written.
-/

namespace ShaderLibrary

/-- The rank of a severity. More severe records have higher ranks. -/
def Severity.rank : Severity → Nat
  | .debug => 10
  | .info => 20
  | .warning => 30
  | .error => 40

/-- The least rank of the records that are shown. Zero leaves the choice to the surroundings. -/
structure Verbosity where
  level : Nat
deriving DecidableEq, Repr

namespace Verbosity

def standard : Verbosity := ⟨30⟩

/-- Names that can be set, with their levels. -/
def names : List (Text × Nat) :=
  [("NOTSET".toList, 0), ("DEBUG".toList, 10), ("INFO".toList, 20), ("WARN".toList, 30),
   ("WARNING".toList, 30), ("ERROR".toList, 40), ("CRITICAL".toList, 50), ("FATAL".toList, 50)]

/-- The letter from A to Z that is the capital of a character. The dotless i and the long s have
such a capital too; all others outside the alphabet have none, and stay as they are. -/
def capital (c : Char) : Char :=
  if c = '\u0131' then 'I' else if c = '\u017F' then 'S' else c.toUpper

/-- The level that a setting stands for. Digits of any script make a number, unless there are too
many of them, and other settings must be names. -/
def levelOf? (setting : Text) : Option Nat :=
  match Text.decimalValue? setting with
  | some level => if setting.length ≤ Text.mostDigits then some level else none
  | none => names.lookup (setting.map capital)

/-- The verbosity for a setting. Without a setting, and for one that stands for no level, it is the
standard one, in the latter case with a warning. -/
def ofSetting {ε : Type} : Option Text → Traced ε Verbosity
  | none | some [] => pure standard
  | some setting =>
    match levelOf? setting with
    | some level => pure ⟨level⟩
    | none => do
      .log .warning ("Invalid glsleffects log level: ".toList ++ setting)
      pure standard

def threshold (v : Verbosity) : Nat := if v.level = 0 then standard.level else v.level

def admits (v : Verbosity) (severity : Severity) : Bool := v.threshold ≤ severity.rank

end Verbosity

end ShaderLibrary
