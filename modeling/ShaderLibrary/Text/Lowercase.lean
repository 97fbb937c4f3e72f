import ShaderLibrary.Text.Basic
import ShaderLibrary.Text.CodeRange
import ShaderLibrary.Text.Lowercase.Table

/-!
Lower case of a whole text. A text is mapped rather than its characters one by one, since one
capital has a form of two characters and the form of a capital sigma depends on its neighbours.
-/

namespace ShaderLibrary.Text

/-- The lower case form of a character outside any text. -/
def lowerChar (c : Char) : Text :=
  if c.toNat = 0x130 then
    ['i', '\u0307']
  else
    match lowerRuns.find? fun run =>
        run.first ≤ c.toNat && c.toNat ≤ run.last && (c.toNat - run.first) % run.step == 0 with
    | some run => [Char.ofNat (c.toNat + run.offset).toNat]
    | none => [c]

/-- Whether the first character that is not passed over is a letter with case. -/
def meetsCased (t : Text) : Bool :=
  match t.dropWhile (inRanges caseIgnorableRanges) with
  | [] => false
  | c :: _ => inRanges casedRanges c

def capitalSigma : Char := '\u03A3'

/-- Lower case of `rest`, which follows the text that is `before` when read backwards. A capital
sigma that ends a word, with a letter before it and none after it, takes its final form. -/
def lowercaseAfter (before : Text) : Text → Text
  | [] => []
  | c :: rest =>
    (if c = capitalSigma then
      if meetsCased before && !meetsCased rest then ['\u03C2'] else ['\u03C3']
    else
      lowerChar c) ++ lowercaseAfter (c :: before) rest

def lowercase (t : Text) : Text := lowercaseAfter [] t

end ShaderLibrary.Text
