import ShaderLibrary.Directive
import ShaderLibrary.Text.Lines

/-! Lines of a text, taken apart and put together, and the count of lines that a
compiler keeps while it follows the markers among them. -/
namespace ShaderLibrary

namespace Text

theorem newline_notMem_of_mem_pieces {t piece : Text} (h : piece ∈ pieces t) : '\n' ∉ piece := by
  induction t generalizing piece with
  | nil => simp [pieces] at h
  | cons c rest ih =>
      rw [pieces] at h
      split at h
      · rcases List.mem_cons.mp h with rfl | hRest
        · exact List.not_mem_nil
        · exact ih hRest
      · next hChar =>
          split at h
          · rw [List.mem_singleton.mp h]
            simpa using Ne.symm hChar
          · next first others hPieces =>
              rcases List.mem_cons.mp h with rfl | hOther
              · have hFirst : '\n' ∉ first := ih (hPieces ▸ List.mem_cons_self)
                simpa [hFirst] using Ne.symm hChar
              · exact ih (hPieces ▸ List.mem_cons_of_mem _ hOther)

theorem newline_notMem_of_mem_lines {t line : Text} (h : line ∈ t.lines) : '\n' ∉ line := by
  obtain ⟨piece, hPiece, rfl⟩ := List.mem_map.mp h
  have hNew := newline_notMem_of_mem_pieces hPiece
  unfold dropReturn
  split
  · exact fun hMem => hNew (List.dropLast_subset _ hMem)
  · exact hNew

theorem pieces_append_newline {piece : Text} (rest : Text) (h : '\n' ∉ piece) :
    pieces (piece ++ '\n' :: rest) = piece :: pieces rest := by
  induction piece with
  | nil => simp [pieces]
  | cons c others ih =>
      have hChar : c ≠ '\n' := fun hSame => h (hSame ▸ List.mem_cons_self)
      have hOthers : '\n' ∉ others := fun hMem => h (List.mem_cons_of_mem _ hMem)
      rw [List.cons_append, pieces, if_neg hChar, ih hOthers]

/-- Lines may be any texts without newlines. One that ends in a carriage return needs
another one in the file, so all of them are given one here. -/
theorem exists_lines_eq {ls : List Text} (h : ∀ line ∈ ls, '\n' ∉ line) :
    ∃ t : Text, t.lines = ls := by
  refine ⟨ls.flatMap fun line => line ++ ['\r', '\n'], ?_⟩
  induction ls with
  | nil => rfl
  | cons line rest ih =>
      have hLine : '\n' ∉ line ++ ['\r'] := by
        simpa using h line List.mem_cons_self
      have hRest := ih fun other hOther => h other (List.mem_cons_of_mem _ hOther)
      have hText : (line :: rest).flatMap (fun line => line ++ ['\r', '\n']) =
          (line ++ ['\r']) ++ '\n' :: rest.flatMap fun line => line ++ ['\r', '\n'] := by
        simp
      rw [hText, lines, pieces_append_newline _ hLine, List.map_cons]
      congr 1
      simp [dropReturn]

/-- Joined texts are split again into the lines of each of them. A text in the
middle contributes one line more than it has newlines, so an empty one is a line. -/
theorem splitOn_joinLines {ls : List Text} (h : ls ≠ []) :
    (joinLines ls).splitOn '\n' = ls.flatMap (·.splitOn '\n') := by
  induction ls with
  | nil => exact absurd rfl h
  | cons first rest ih =>
      cases rest with
      | nil => simp [joinLines]
      | cons second others =>
          have hJoin : joinLines (first :: second :: others) =
              first ++ '\n' :: joinLines (second :: others) := by
            simp [joinLines, List.intercalate]
          rw [hJoin, List.splitOn_append_cons_self, ih (by simp)]
          simp only [List.flatMap_cons]

/-- Whether a text can stand in front of a line without touching it. -/
def EndsLine (t : Text) : Prop := t = [] ∨ t.getLast? = some '\n'

theorem endsLine_terminated (t : Text) : EndsLine t.terminated := by
  unfold terminated
  split
  · assumption
  · exact Or.inr (by simp)

theorem endsLine_terminateLines (ls : List Text) : EndsLine (terminateLines ls) := by
  rcases List.eq_nil_or_concat ls with rfl | ⟨front, last, rfl⟩
  · exact Or.inl rfl
  · exact Or.inr (by simp [terminateLines])

theorem EndsLine.append {s t : Text} (hs : EndsLine s) (ht : EndsLine t) : EndsLine (s ++ t) := by
  rcases ht with rfl | ht
  · simpa using hs
  · exact Or.inr (by simp [ht])

/-- Text after whole lines starts a line of its own. -/
theorem EndsLine.splitOn_append {s : Text} (h : EndsLine s) (t : Text) :
    (s ++ t).splitOn '\n' = (s.splitOn '\n').dropLast ++ t.splitOn '\n' := by
  rcases h with rfl | h
  · simp
  · obtain ⟨front, rfl⟩ := List.getLast?_eq_some_iff.mp h
    rw [List.append_assoc, List.singleton_append, List.splitOn_append_cons_self,
      List.splitOn_append_cons_self]
    simp

/-- The integer that digits write, with a minus sign in front of them or not. -/
def intValue : Text → Int
  | '-' :: digits => -(Nat.ofDigitChars 10 digits 0 : Int)
  | digits => (Nat.ofDigitChars 10 digits 0 : Int)

theorem digit_of_mem_ofNat {n : Nat} {c : Char} (h : c ∈ ofNat n) : c.isDigit = true :=
  Nat.isDigit_of_mem_toDigits (by decide) (by decide) h

theorem intValue_ofInt (n : Int) : intValue (ofInt n) = n := by
  cases n with
  | ofNat n =>
      have hSign : ∀ digits, ofNat n ≠ '-' :: digits := by
        intro digits h
        have hDigit := digit_of_mem_ofNat (n := n) (h ▸ List.mem_cons_self)
        exact absurd hDigit (by decide)
      rw [ofInt, intValue.eq_2 _ (fun digits h => hSign digits h), ofNat]
      simp
  | negSucc n => simp [ofInt, intValue, ofNat, Int.negSucc_eq]

theorem newline_notMem_ofInt (n : Int) : '\n' ∉ ofInt n := by
  cases n with
  | ofNat n => exact fun h => absurd (digit_of_mem_ofNat h) (by decide)
  | negSucc n =>
      intro h
      rcases List.mem_cons.mp h with h | h
      · exact absurd h (by decide)
      · exact absurd (digit_of_mem_ofNat h) (by decide)

end Text

theorem newline_notMem_lineMarker (n : Int) : '\n' ∉ lineMarker n := by
  intro h
  rcases List.mem_append.mp h with h | h
  · exact absurd h (by decide)
  · exact Text.newline_notMem_ofInt n h

/-- A marker is no directive of the library. -/
theorem kind_lineMarker (n : Int) : LineKind.of (lineMarker n) = .plain := rfl

/-- The number that the line gives the next one, if the line is a marker. Other
ways to write the number, such as with leading zeros, are no markers. -/
def markerNumber? (line : Text) : Option Int :=
  let n := Text.intValue (line.drop 6)
  if line = lineMarker n then some n else none

theorem markerNumber?_eq_some_iff {line : Text} {n : Int} :
    markerNumber? line = some n ↔ line = lineMarker n := by
  have hValue (m : Int) : Text.intValue ((lineMarker m).drop 6) = m := Text.intValue_ofInt m
  unfold markerNumber?
  constructor
  · intro h
    dsimp only at h
    split at h
    · next hLine => exact Option.some.inj h ▸ hLine
    · cases h
  · rintro rfl
    simp only [hValue, ↓reduceIte]

@[simp] theorem markerNumber?_lineMarker (n : Int) : markerNumber? (lineMarker n) = some n :=
  markerNumber?_eq_some_iff.mpr rfl

@[simp] theorem markerNumber?_nil : markerNumber? [] = none := rfl

/-- The lines that are no markers. -/
def withoutMarkers (ls : List Text) : List Text := ls.filter fun line => (markerNumber? line).isNone

/-- The number of the line after this one. -/
def nextNumber (number : Int) (line : Text) : Int := (markerNumber? line).getD (number + 1)

/-- The lines with the numbers that a compiler counts for them, from `number` on. -/
def numberedFrom (number : Int) : List Text → List (Int × Text)
  | [] => []
  | line :: rest => (number, line) :: numberedFrom (nextNumber number line) rest

theorem numberedFrom_append (number : Int) (first second : List Text) :
    numberedFrom number (first ++ second) =
      numberedFrom number first ++ numberedFrom (first.foldl nextNumber number) second := by
  induction first generalizing number with
  | nil => rfl
  | cons line rest ih => simp [numberedFrom, ih]

@[simp] theorem map_snd_numberedFrom (number : Int) (ls : List Text) :
    (numberedFrom number ls).map Prod.snd = ls := by
  induction ls generalizing number with
  | nil => rfl
  | cons line rest ih => simp [numberedFrom, ih]

end ShaderLibrary
