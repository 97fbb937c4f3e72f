/-!
Text as a list of characters. Every rule of the library about text is a recursion or a list
operation, so it can be evaluated and reasoned about without a string runtime.
-/

namespace ShaderLibrary

/-- A text is the list of its characters (code points, not bytes or units). -/
abbrev Text : Type := List Char

namespace Text

/-- Texts are equal if they compare as equal. The instance spares a search through those of lists. -/
instance instLawfulBEq : LawfulBEq Text := inferInstance

def doubleQuote : Char := '\x22'

def apostrophe : Char := '\x27'

/-- The texts one after the other, with a newline between neighbours and none at the end. -/
def joinLines (ls : List Text) : Text := ['\n'].intercalate ls

/-- The texts one after the other, each followed by a newline. -/
def terminateLines (ls : List Text) : Text := ls.flatMap (· ++ ['\n'])

/-- The text with a newline added, unless it is empty or already ends in one. -/
def terminated (t : Text) : Text :=
  if t = [] ∨ t.getLast? = some '\n' then t else t ++ ['\n']

/-- Whether `a` does not come after `b` in the order of code points. -/
def notAfter (a b : Text) : Bool := !decide (b < a)

def sort (ts : List Text) : List Text := ts.mergeSort notAfter

/-- The part before the first `c`, and the part after it if there is a `c`. -/
def cut (c : Char) (t : Text) : Text × Text :=
  (t.takeWhile (· != c), (t.dropWhile (· != c)).drop 1)

/-- The part between the first and the last double quote, if these are two different quotes. -/
def betweenQuotes? (t : Text) : Option Text :=
  let rest := (cut doubleQuote t).2
  if doubleQuote ∈ rest then
    some ((rest.reverse.dropWhile (· != doubleQuote)).drop 1).reverse
  else
    none

/-- Whether `p` occurs in `t` as a contiguous part. -/
def contains (p : Text) : Text → Bool
  | [] => p.isEmpty
  | c :: rest => p.isPrefixOf (c :: rest) || contains p rest

end Text

end ShaderLibrary
