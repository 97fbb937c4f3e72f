import ShaderLibrary.Text.Basic

/-!
UTF-8 with replacement. Every byte sequence is read: a part that no character starts or continues
is shown as one replacement character, and reading goes on with the byte that did not fit.
A byte order mark is an ordinary character.
-/

namespace ShaderLibrary.Text

/-- Stands for bytes that are no text. -/
def replacement : Char := '\uFFFD'

/-- A character of which some bytes are still owed. -/
structure Unfinished where
  /-- How many bytes are owed after the next one. -/
  owed : Nat
  /-- The least value the next byte may have. -/
  least : Nat
  /-- The greatest value the next byte may have. -/
  greatest : Nat
  /-- The bits read so far. -/
  bits : Nat
deriving DecidableEq, Repr

/-- What a byte between characters stands for: a whole character, or the start of a longer one.
The ranges of the second byte exclude overlong forms, surrogates and values above the last
character. -/
def firstByte (b : Nat) : Char ⊕ Unfinished :=
  if b < 0x80 then .inl (Char.ofNat b)
  else if b < 0xC2 then .inl replacement
  else if b < 0xE0 then .inr ⟨0, 0x80, 0xBF, b - 0xC0⟩
  else if b = 0xE0 then .inr ⟨1, 0xA0, 0xBF, 0⟩
  else if b = 0xED then .inr ⟨1, 0x80, 0x9F, 0xD⟩
  else if b < 0xF0 then .inr ⟨1, 0x80, 0xBF, b - 0xE0⟩
  else if b = 0xF0 then .inr ⟨2, 0x90, 0xBF, 0⟩
  else if b < 0xF4 then .inr ⟨2, 0x80, 0xBF, b - 0xF0⟩
  else if b = 0xF4 then .inr ⟨2, 0x80, 0x8F, 4⟩
  else .inl replacement

/-- Reads on in the middle of a character, or between characters if there is none. -/
def decodeFrom : Option Unfinished → List UInt8 → Text
  | none, [] => []
  | some _, [] => [replacement]
  | none, b :: rest => start b.toNat fun state => decodeFrom state rest
  | some u, b :: rest =>
    if u.least ≤ b.toNat ∧ b.toNat ≤ u.greatest then
      let bits := 0x40 * u.bits + (b.toNat - 0x80)
      match u.owed with
      | 0 => Char.ofNat bits :: decodeFrom none rest
      | owed + 1 => decodeFrom (some ⟨owed, 0x80, 0xBF, bits⟩) rest
    else
      replacement :: start b.toNat fun state => decodeFrom state rest
where
  /-- Takes `b` as the first byte of a character and goes on with `next`. -/
  start (b : Nat) (next : Option Unfinished → Text) : Text :=
    match firstByte b with
    | .inl c => c :: next none
    | .inr u => next (some u)

def decode (bytes : List UInt8) : Text := decodeFrom none bytes

def byteSize (t : Text) : Nat := t.foldl (fun size c => size + c.utf8Size) 0

end ShaderLibrary.Text
