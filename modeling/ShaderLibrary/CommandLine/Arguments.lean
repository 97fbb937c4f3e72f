import ShaderLibrary.Text.Digit
import ShaderLibrary.Text.Lowercase

/-!
The arguments of the command line. Words name a command and the shaders it is about, options stand
anywhere between them. All words of an invocation stand together: a second group of words has no
meaning, and arguments that have none make the invocation invalid. After two dashes on their own
everything is a word.
-/

namespace ShaderLibrary.CommandLine

/-- An option that is known. -/
inductive Switch where
  | help
  | root
  | define
deriving DecidableEq, Repr

namespace Switch

/-- The ways in which options are written in full. -/
def spellings : List (Text × Switch) :=
  [("-h".toList, help), ("--help".toList, help), ("--root".toList, root), ("-D".toList, define)]

def hasValue : Switch → Bool
  | help => false
  | root | define => true

/-- The option of one dash and a letter. -/
def ofLetter? (letter : Char) : Option Switch := spellings.lookup ['-', letter]

end Switch

/-- What an argument is, taken for itself. -/
inductive Argument where
  | word (text : Text)
  | separator
  | option (switch : Switch)
  /-- An option with its value after an equals sign. -/
  | assigned (switch : Switch) (value : Text)
  /-- An option of one letter with more text after it, be there an equals sign in between or not. -/
  | clustered (switch : Switch) (tail : Text)
  | unknown
deriving DecidableEq, Repr

/-- Whether the text could be a negative number, with or without digits before a point. A newline
at its end does not count. -/
def isNegativeNumber (text : Text) : Bool :=
  let isDigits (t : Text) : Bool := (Text.decimalValue? t).isSome
  match if text.getLast? = some '\n' then text.dropLast else text with
  | '-' :: rest =>
    let whole := rest.takeWhile (· != '.')
    match rest.dropWhile (· != '.') with
    | [] => isDigits whole
    | _ :: fraction => (whole.isEmpty || isDigits whole) && isDigits fraction
  | _ => false

/-- The part before an equals sign, and the part after it if there is one. -/
def splitAssignment (text : Text) : Text × Option Text :=
  (text.takeWhile (· != '='), (text.dropWhile (· != '=')).tail?)

namespace Argument

/-- A known option, written in full as `spelling`, and the text after its equals sign if it has one.
Between a letter and more text the equals sign means nothing. -/
def ofKnown (spelling : Text) (switch : Switch) : Option Text → Argument
  | none => .option switch
  | some value =>
    if spelling.length = 2 ∧ value ≠ [] then .clustered switch value else .assigned switch value

/-- An argument that starts with a dash and is no option in full: an abbreviation of a long option, a
letter with more text, or a word after all. A long option may be cut short as long as only one of
them can be meant; otherwise there is no reading. -/
def ofDashed? (text : Text) : Option Argument :=
  let word : Argument := if isNegativeNumber text || ' ' ∈ text then .word text else .unknown
  match text with
  | '-' :: '-' :: _ =>
    let (name, value) := splitAssignment text
    match Switch.spellings.filter fun entry => name.isPrefixOf entry.1 with
    | [] => some word
    | [entry] => some (ofKnown entry.1 entry.2 value)
    | _ => none
  | '-' :: letter :: tail =>
    match Switch.ofLetter? letter with
    | some switch => some (.clustered switch tail)
    | none => some word
  | _ => some (.word text)

/-- Reads one argument, before any separator. There is no reading if it is ambiguous. -/
def of? (text : Text) : Option Argument :=
  if text.head? ≠ some '-' then some (.word text)
  else
    let (name, value) := splitAssignment text
    match Switch.spellings.lookup text, Switch.spellings.lookup name with
    | some switch, _ => some (.option switch)
    | none, some switch => some (ofKnown name switch value)
    | none, none => ofDashed? text

def ofTexts? : List Text → Option (List Argument)
  | [] => some []
  | text :: rest =>
    if text = ['-', '-'] then some (.separator :: rest.map .word)
    else do
      let argument ← of? text
      let others ← ofTexts? rest
      pure (argument :: others)

def isWordLike : Argument → Bool
  | word _ | separator => true
  | _ => false

def wordText : Argument → Text
  | word text => text
  | _ => ['-', '-']

end Argument

/-- The words of an invocation: a command and the ids that it is given. -/
structure Words where
  command : Text
  ids : List Text
deriving DecidableEq, Repr

/-- What a group of words says: the command is its first word, and separators around it are left
out. Among the ids the first separator is left out, even one that is a word. -/
def Words.ofGroup? (group : List Argument) : Option Words :=
  let afterSeparator := group.dropWhile (· == .separator)
  match afterSeparator with
  | .word command :: rest =>
    let ids := rest.dropWhile (· == .separator)
    some ⟨command, (ids.map (·.wordText)).erase ['-', '-']⟩
  | _ => none

structure Invocation where
  words : Words
  root : Option Text
  /-- The texts that define macros, each a key and a value. An option may have been left without its
  text. -/
  defines : List (Option Text)
deriving DecidableEq, Repr

/-- What the arguments amount to. -/
inductive Reading where
  | usage
  | invalid
  | invocation (i : Invocation)
deriving DecidableEq, Repr

/-- Options and words that have been read so far. -/
structure Progress where
  words : Option Words := none
  root : Option Text := none
  defines : List (Option Text) := []
  /-- Whether there was an argument without meaning. -/
  surplus : Bool := false

namespace Progress

/-- The value that a text gives to an option. Two dashes stand for none. -/
def valueOf? (text : Text) : Option Text := if text = ['-', '-'] then none else some text

/-- Sets an option that has a value. -/
def set (p : Progress) (switch : Switch) (text : Text) : Progress :=
  match switch with
  | .help => p
  | .root => { p with root := valueOf? text }
  | .define => { p with defines := p.defines ++ [valueOf? text] }

/-- Reads a group of words. Only the first one has a meaning. -/
def readGroup (p : Progress) (group : List Argument) : Progress :=
  match p.words, Words.ofGroup? group with
  | none, some words => { p with words := some words }
  | _, _ => { p with surplus := true }

/-- What all arguments amount to. -/
def finish (p : Progress) : Reading :=
  match p.words, p.surplus with
  | some words, false => .invocation ⟨words, p.root, p.defines⟩
  | _, _ => .invalid

end Progress

/-- Whether all letters after a help option are options too. The option that has a value ends them:
its value is what follows, or else the next argument. -/
def helpTailIsValid (nextIsWord : Bool) : Text → Bool
  | [] => true
  | letter :: tail =>
    match Switch.ofLetter? letter with
    | some switch =>
      if switch.hasValue then !tail.isEmpty || nextIsWord else helpTailIsValid nextIsWord tail
    | none => false

/-- Whether the next argument can be the value of an option. -/
def nextIsWord : List Argument → Bool
  | .word _ :: _ => true
  | _ => false

/-- Reads arguments in order. What is invalid on its own ends the reading, and so does help. -/
def readFrom (p : Progress) (arguments : List Argument) : Reading :=
  match arguments with
  | [] => p.finish
  | .unknown :: rest => readFrom { p with surplus := true } rest
  | .option switch :: rest =>
    if switch.hasValue then
      match rest with
      | .word value :: others => readFrom (p.set switch value) others
      | _ => .invalid
    else .usage
  | .assigned switch value :: rest =>
    if switch.hasValue then readFrom (p.set switch value) rest else .invalid
  | .clustered switch tail :: rest =>
    if switch.hasValue then readFrom (p.set switch tail) rest
    else if helpTailIsValid (nextIsWord rest) tail then .usage
    else .invalid
  | first :: rest =>
    readFrom (p.readGroup (first :: rest.takeWhile (·.isWordLike))) (rest.dropWhile (·.isWordLike))
termination_by arguments.length
decreasing_by
  · exact Nat.lt_succ_self _
  · exact Nat.lt_succ_of_lt (Nat.lt_succ_self _)
  · exact Nat.lt_succ_self _
  · exact Nat.lt_succ_self _
  · exact Nat.lt_succ_of_le (List.dropWhile_sublist _).length_le

def Reading.ofTexts (texts : List Text) : Reading :=
  match Argument.ofTexts? texts with
  | some arguments => readFrom {} arguments
  | none => .invalid

end ShaderLibrary.CommandLine
