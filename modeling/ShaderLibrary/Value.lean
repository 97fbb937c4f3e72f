import ShaderLibrary.Decimal.Layout
import ShaderLibrary.Text.Numeral
import ShaderLibrary.Text.Quoted

/-!
Values as a caller hands them over. Macros may be given any value and are defined to its text;
where a text is required, other values are refused, and the refusal shows what was given.
-/

namespace ShaderLibrary

inductive Value where
  | nothing
  | truth (b : Bool)
  /-- An integer that can be written. One with too many digits is no value. -/
  | integer (n : Int) (numeral : Text.hasNumeral n = true := by rfl)
  | number (x : Float)
  | text (t : Text)
  | list (items : List Value)
  /-- Values with a name each, in the order in which they were given. -/
  | record (parts : List (Text × Value))
deriving Inhabited

namespace Value

/-- Numbers are written plainly from `0.0001` up to sixteen digits before the point, and otherwise
with an exponent of two digits or more. -/
def layout : Decimal.Layout := ⟨-4, 16, 2⟩

mutual

/-- The text that shows the value, with quotes around texts. -/
def shown : Value → Text
  | nothing => "None".toList
  | truth b => (if b then "True" else "False").toList
  | integer n _ => Text.ofInt n
  | number x => layout.number x
  | text t => t.quoted
  | list items => '[' :: shownAll items ++ [']']
  | record parts => '\x7b' :: shownParts parts ++ ['\x7d']

/-- The texts that show the values, separated by commas. -/
def shownAll : List Value → Text
  | [] => []
  | [item] => shown item
  | item :: items => shown item ++ ',' :: ' ' :: shownAll items

/-- The names with quotes and what shows their values, separated by commas. -/
def shownParts : List (Text × Value) → Text
  | [] => []
  | [(name, value)] => name.quoted ++ ':' :: ' ' :: shown value
  | (name, value) :: parts =>
    name.quoted ++ ':' :: ' ' :: shown value ++ ',' :: ' ' :: shownParts parts

end

/-- The text that the value stands for: a text for itself, any other value for what shows it. -/
def toText : Value → Text
  | text t => t
  | v => v.shown

/-- Whether the value counts as yes. Zero and whatever is empty do not. -/
def holds : Value → Bool
  | nothing => false
  | truth b => b
  | integer n _ => n != 0
  | number x => x != 0
  | text t => !t.isEmpty
  | list items => !items.isEmpty
  | record parts => !parts.isEmpty

end Value

end ShaderLibrary
