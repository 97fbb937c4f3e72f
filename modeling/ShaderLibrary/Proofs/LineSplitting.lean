import ShaderLibrary.Proofs.LineEndings
import ShaderLibrary.Proofs.Words

/-! The lines of a text, pinned down from three sides: how they are read off one after the other,
what they are among the parts between newlines, and that they come back from a text in which they
are written with either ending. -/
namespace ShaderLibrary.Text

variable {t piece line rest : Text} {ls : List Text}

/-- Reading lines off a text. The next line goes up to the first newline, or to the end if there is
none, and the reading goes on behind that newline. -/
inductive ReadsOff : Text → List Text → Prop where
  | done : ReadsOff [] []
  | next {t : Text} {ls : List Text} (hMore : t ≠ []) (hRest : ReadsOff (cut '\n' t).2 ls) :
      ReadsOff t (dropReturn (cut '\n' t).1 :: ls)

/-- What is behind the first newline is shorter than the text, so the reading comes to its end. -/
theorem length_cut_lt (c : Char) (h : t ≠ []) : (cut c t).2.length < t.length := by
  have hLength : (t.dropWhile (· != c)).length ≤ t.length := (List.dropWhile_suffix _).length_le
  have hSome : 0 < t.length := List.length_pos_iff.mpr h
  rw [cut, List.length_drop]
  omega

/-- One turn of the reading. -/
theorem lines_eq_cons (h : t ≠ []) :
    t.lines = dropReturn (cut '\n' t).1 :: (cut '\n' t).2.lines := by
  by_cases hNewline : '\n' ∈ t
  · obtain ⟨before, after, rfl, hBefore⟩ := List.eq_append_cons_of_mem hNewline
    rw [cut_of_notMem hBefore, lines_append_newline after hBefore]
  · rw [cut_eq_self_of_notMem hNewline, lines, pieces_of_notMem hNewline h]
    rfl

theorem readsOff_lines (t : Text) : ReadsOff t t.lines := by
  by_cases h : t = []
  · rw [h]
    exact .done
  · rw [lines_eq_cons h]
    exact .next h (readsOff_lines (cut '\n' t).2)
termination_by t.length
decreasing_by exact length_cut_lt '\n' h

theorem ReadsOff.eq_lines (h : ReadsOff t ls) : ls = t.lines := by
  induction h with
  | done => rfl
  | next hMore hRest ih => rw [lines_eq_cons hMore, ih]

/-- The line is the piece without the carriage return at its end, if it has one. A second one before
it would belong to the line. -/
def WithoutReturn (piece line : Text) : Prop :=
  piece = line ++ ['\r'] ∨ (piece = line ∧ piece.getLast? ≠ some '\r')

theorem withoutReturn_iff : WithoutReturn piece line ↔ line = dropReturn piece := by
  constructor
  · rintro (rfl | ⟨rfl, hLast⟩)
    · exact (dropReturn_append line).symm
    · exact (dropReturn_of_not hLast).symm
  · rintro rfl
    by_cases hLast : piece.getLast? = some '\r'
    · obtain ⟨front, rfl⟩ := List.getLast?_eq_some_iff.mp hLast
      rw [dropReturn_append]
      exact Or.inl rfl
    · rw [dropReturn_of_not hLast]
      exact Or.inr ⟨rfl, hLast⟩

/-- What the lines of a text are. There are as many as newlines, and one more if there is something
behind the last newline. -/
structure SplitsInto (t : Text) (ls : List Text) : Prop where
  clean : ∀ line ∈ ls, '\n' ∉ line
  count : ls.length = t.count '\n' + if t = [] ∨ t.getLast? = some '\n' then 0 else 1
  pieces : List.Forall₂ WithoutReturn ((t.splitOn '\n').take ls.length) ls

theorem length_pieces (t : Text) :
    (pieces t).length = t.count '\n' + if t = [] ∨ t.getLast? = some '\n' then 0 else 1 := by
  induction t with
  | nil => rfl
  | cons c rest ih =>
      by_cases hNewline : c = '\n'
      · subst hNewline
        rw [pieces_newline, List.length_cons, ih, List.count_cons_self]
        cases rest with
        | nil => rfl
        | cons d others => simp; omega
      · rw [pieces_cons hNewline, List.length_cons, List.length_tail,
          List.count_cons_of_ne hNewline]
        cases rest with
        | nil => simp [pieces, hNewline]
        | cons d others =>
            have hSome := List.length_pos_iff.mpr (pieces_ne_nil (List.cons_ne_nil d others))
            simp only [List.getLast?_cons_cons, List.cons_ne_nil, false_or] at ih ⊢
            omega

theorem splitsInto_lines (t : Text) : SplitsInto t t.lines where
  clean _ := newline_notMem_of_mem_lines
  count := by rw [lines, List.length_map, length_pieces]
  pieces := by
    have hPieces := List.prefix_iff_eq_take.mp (pieces_prefix_splitOn t)
    rw [lines, List.length_map, ← hPieces, List.forall₂_map_right_iff, List.forall₂_same]
    exact fun piece _ => withoutReturn_iff.mpr rfl

theorem SplitsInto.eq_lines (h : SplitsInto t ls) : ls = t.lines := by
  have hOther := splitsInto_lines t
  have hLength : ls.length = t.lines.length := h.count.trans hOther.count.symm
  have hPieces := h.pieces
  rw [hLength] at hPieces
  have hUnique : Relator.RightUnique WithoutReturn := fun piece a b ha hb =>
    (withoutReturn_iff.mp ha).trans (withoutReturn_iff.mp hb).symm
  exact hUnique.forall₂ hPieces hOther.pieces

/-- The endings that a line can have. -/
inductive Ending where
  | newline
  | returnNewline

def Ending.text : Ending → Text
  | newline => ['\n']
  | returnNewline => ['\r', '\n']

/-- Lines with their endings, as one text. -/
def written (ls : List (Text × Ending)) : Text := ls.flatMap fun line => line.1 ++ line.2.text

/-- The line can be told from its ending. -/
def Writable (line : Text) : Prop := '\n' ∉ line ∧ line.getLast? ≠ some '\r'

instance (line : Text) : Decidable (Writable line) := inferInstanceAs (Decidable (_ ∧ _))

theorem lines_append_ending (h : Writable line) (ending : Ending) (rest : Text) :
    lines (line ++ ending.text ++ rest) = line :: lines rest := by
  obtain ⟨hNewline, hReturn⟩ := h
  cases ending with
  | newline =>
      rw [Ending.text, List.append_assoc, List.singleton_append, lines_append_newline rest hNewline,
        dropReturn_of_not hReturn]
  | returnNewline =>
      have hText : line ++ Ending.returnNewline.text ++ rest = (line ++ ['\r']) ++ '\n' :: rest := by
        simp [Ending.text]
      have hClean : '\n' ∉ line ++ ['\r'] := by simpa using hNewline
      rw [hText, lines_append_newline rest hClean, dropReturn_append]

theorem lines_written_append {ls : List (Text × Ending)} (h : ∀ line ∈ ls, Writable line.1)
    (rest : Text) : lines (written ls ++ rest) = ls.map Prod.fst ++ lines rest := by
  induction ls with
  | nil => rfl
  | cons line others ih =>
      rw [List.forall_mem_cons] at h
      have hText : written (line :: others) ++ rest =
          line.1 ++ line.2.text ++ (written others ++ rest) := by
        simp [written]
      rw [hText, lines_append_ending h.1, ih h.2]
      rfl

/-- A line without an ending is the last one, unless it is empty. -/
theorem lines_of_writable (h : Writable line) : lines line = if line = [] then [] else [line] := by
  split
  · next hNone => rw [hNone]; rfl
  · next hSome =>
      rw [lines, pieces_of_notMem h.1 hSome, List.map_singleton, dropReturn_of_not h.2]

/-- The lines of a text are what is read off it to its end, and what it splits into; nothing else is
either of the two. Lines that can be told from their endings come back from a text in which they are
written one after the other, each with an ending of its own choice. The last ending can be left
out exactly if the line before it is not empty. -/
theorem lines_exact (t : Text) :
    (∀ ls, ReadsOff t ls ↔ ls = t.lines) ∧ (∀ ls, SplitsInto t ls ↔ ls = t.lines) ∧
    ∀ ls : List (Text × Ending), (∀ line ∈ ls, Writable line.1) →
      (written ls).lines = ls.map Prod.fst ∧
      ∀ front last ending, ls = front ++ [(last, ending)] →
        ((written front ++ last).lines = ls.map Prod.fst ↔ last ≠ []) := by
  refine ⟨fun ls => ⟨ReadsOff.eq_lines, ?_⟩, fun ls => ⟨SplitsInto.eq_lines, ?_⟩, fun ls h => ⟨?_, ?_⟩⟩
  · rintro rfl
    exact readsOff_lines t
  · rintro rfl
    exact splitsInto_lines t
  · have hAll := lines_written_append h []
    rwa [List.append_nil, show lines [] = [] from rfl, List.append_nil] at hAll
  · rintro front last ending rfl
    rw [List.forall_mem_append, List.forall_mem_singleton] at h
    rw [lines_written_append h.1, List.map_append, List.append_cancel_left_eq,
      lines_of_writable h.2]
    by_cases hNone : last = [] <;> simp [hNone]

/-- Three lines, of which the first is empty and the second has a carriage return inside. -/
def mixedLines : List (Text × Ending) :=
  [([], .returnNewline), ("x\ry".toList, .newline), ("z".toList, .newline)]

/-- The last ending may be missing. Of two carriage returns the first stays in the line. -/
theorem lines_exact_mixed :
    (∀ line ∈ mixedLines, Writable line.1) ∧
    lines "\r\nx\ry\nz\n".toList = [[], "x\ry".toList, "z".toList] ∧
    lines "\r\nx\ry\nz".toList = [[], "x\ry".toList, "z".toList] ∧
    SplitsInto "a\r\r\n\n\rb".toList ["a\r".toList, [], "\rb".toList] := by
  have hWritable : ∀ line ∈ mixedLines, Writable line.1 := by decide
  obtain ⟨-, hSplits, hWritten⟩ := lines_exact "a\r\r\n\n\rb".toList
  obtain ⟨hAll, hLast⟩ := hWritten mixedLines hWritable
  refine ⟨hWritable, hAll, ?_, (hSplits _).mpr rfl⟩
  exact (hLast [([], .returnNewline), ("x\ry".toList, .newline)] "z".toList .newline rfl).mpr
    (List.cons_ne_nil _ _)

end ShaderLibrary.Text
