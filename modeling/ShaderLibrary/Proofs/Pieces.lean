import Mathlib.Data.List.Basic
import ShaderLibrary.Proofs.Lines

/-! The parts of a text between its newlines. Each followed by a newline they make up the
text again, with a newline at its end if it had none. -/
namespace ShaderLibrary.Text

variable {s t : Text} {c : Char}

theorem pieces_newline (t : Text) : pieces ('\n' :: t) = [] :: pieces t := by
  rw [pieces, if_pos rfl]

/-- Any other character belongs to the first of the parts behind it. -/
theorem pieces_cons (h : c ≠ '\n') (t : Text) :
    pieces (c :: t) = (c :: (pieces t).headD []) :: (pieces t).tail := by
  rw [pieces, if_neg h]
  cases pieces t with
  | nil => rfl
  | cons first others => rfl

theorem lines_append_newline {line : Text} (rest : Text) (h : '\n' ∉ line) :
    lines (line ++ '\n' :: rest) = dropReturn line :: lines rest := by
  rw [lines, pieces_append_newline rest h, List.map_cons]
  rfl

/-- Whole lines in front of a text are split off as they are. -/
theorem splitOn_terminateLines_append {ls : List Text} (h : ∀ line ∈ ls, '\n' ∉ line) (t : Text) :
    (terminateLines ls ++ t).splitOn '\n' = ls ++ t.splitOn '\n' := by
  induction ls with
  | nil => rfl
  | cons line rest ih =>
      have hRest := ih fun other hOther => h other (List.mem_cons_of_mem _ hOther)
      have hText : terminateLines (line :: rest) ++ t = line ++ '\n' :: (terminateLines rest ++ t) := by
        simp [terminateLines]
      rw [hText, List.splitOn_append_cons_self, hRest,
        List.splitOn_eq_singleton (h line List.mem_cons_self)]
      rfl

/-- What stands in front of a text without a newline belongs to its first line. -/
theorem splitOn_append_of_notMem (h : '\n' ∉ s) (t : Text) :
    (s ++ t).splitOn '\n' = (s ++ (t.splitOn '\n').headD []) :: (t.splitOn '\n').tail := by
  induction s with
  | nil =>
      obtain ⟨first, others, hSplit⟩ := List.exists_cons_of_ne_nil (List.splitOn_ne_nil '\n' t)
      rw [List.nil_append, hSplit]
      rfl
  | cons c rest ih =>
      obtain ⟨hChar, hRest⟩ := not_or.mp (mt List.mem_cons.mpr h)
      have hBeq : ¬(c == '\n') = true := fun hSame => hChar (beq_iff_eq.mp hSame).symm
      rw [List.cons_append, List.splitOn_cons_eq_if_modifyHead, if_neg hBeq, ih hRest]
      rfl

/-- With a newline at their end, joined lines are all followed by one. -/
theorem joinLines_append_newline {ls : List Text} (h : ls ≠ []) :
    joinLines ls ++ ['\n'] = terminateLines ls := by
  induction ls with
  | nil => exact absurd rfl h
  | cons first rest ih =>
      cases rest with
      | nil => simp [joinLines, terminateLines]
      | cons second others =>
          have hJoin : joinLines (first :: second :: others) =
              first ++ ['\n'] ++ joinLines (second :: others) := by
            simp [joinLines, List.intercalate]
          rw [hJoin, List.append_assoc, ih (List.cons_ne_nil _ _)]
          rfl

theorem terminated_append (h : EndsLine s) (t : Text) : (s ++ t).terminated = s ++ t.terminated := by
  cases t with
  | nil =>
      have hNil : terminated [] = [] := rfl
      rw [List.append_nil, terminated, if_pos (show s = [] ∨ _ from h), hNil, List.append_nil]
  | cons c rest =>
      have hLast : (s ++ c :: rest).getLast? = (c :: rest).getLast? :=
        List.getLast?_append_of_ne_nil s (List.cons_ne_nil c rest)
      simp only [terminated, hLast, List.append_eq_nil_iff, List.cons_ne_nil, and_false, false_or]
      split
      · rfl
      · rw [List.append_assoc]

theorem terminated_cons (h : c = '\n' ∨ t ≠ []) :
    terminated (c :: t) = c :: terminated t := by
  rcases h with rfl | h
  · have hEnds : EndsLine ['\n'] := Or.inr rfl
    exact terminated_append hEnds t
  · cases t with
    | nil => exact absurd rfl h
    | cons d rest =>
        simp only [terminated, List.getLast?_cons_cons, List.cons_ne_nil, false_or]
        split
        · rfl
        · rfl

theorem pieces_ne_nil (h : t ≠ []) : pieces t ≠ [] := by
  cases t with
  | nil => exact absurd rfl h
  | cons c rest =>
      by_cases hNewline : c = '\n'
      · rw [hNewline, pieces_newline]
        exact List.cons_ne_nil _ _
      · rw [pieces_cons hNewline]
        exact List.cons_ne_nil _ _

/-- The parts between newlines make up the text, and a newline that is missing at its end. -/
theorem terminateLines_pieces (t : Text) : terminateLines (pieces t) = t.terminated := by
  induction t with
  | nil => rfl
  | cons c rest ih =>
      by_cases hNewline : c = '\n'
      · rw [hNewline, pieces_newline, terminated_cons (Or.inl rfl), ← ih]
        rfl
      · rw [pieces_cons hNewline]
        cases rest with
        | nil => simp [pieces, terminateLines, terminated, hNewline]
        | cons d others =>
            have hRest : d :: others ≠ [] := List.cons_ne_nil d others
            obtain ⟨first, later, hParts⟩ := List.exists_cons_of_ne_nil (pieces_ne_nil hRest)
            rw [terminated_cons (Or.inr hRest), ← ih, hParts]
            rfl

/-- The parts are what a text is split into at its newlines, except for an empty one at its end. -/
theorem pieces_prefix_splitOn (t : Text) : pieces t <+: t.splitOn '\n' := by
  have hSplit : t.terminated.splitOn '\n' = pieces t ++ [[]] := by
    have hClean : ∀ line ∈ pieces t, '\n' ∉ line := fun _ => newline_notMem_of_mem_pieces
    rw [← terminateLines_pieces, ← List.append_nil (terminateLines _),
      splitOn_terminateLines_append hClean]
    rfl
  rw [terminated] at hSplit
  split at hSplit
  · rw [hSplit]
    exact List.prefix_append _ _
  · rw [List.splitOn_append_cons_self] at hSplit
    exact List.append_cancel_right hSplit ▸ List.prefix_rfl

theorem mem_splitOn_of_mem_pieces {piece : Text} (h : piece ∈ pieces t) : piece ∈ t.splitOn '\n' :=
  (pieces_prefix_splitOn t).subset h

/-- A text without a newline is one part, unless it is empty. -/
theorem pieces_of_notMem (h : '\n' ∉ t) (hMore : t ≠ []) : pieces t = [t] := by
  induction t with
  | nil => exact absurd rfl hMore
  | cons c rest ih =>
      obtain ⟨hChar, hRest⟩ := not_or.mp (mt List.mem_cons.mpr h)
      rw [pieces_cons (Ne.symm hChar)]
      cases rest with
      | nil => rfl
      | cons d others =>
          rw [ih hRest (List.cons_ne_nil d others)]
          rfl

end ShaderLibrary.Text
