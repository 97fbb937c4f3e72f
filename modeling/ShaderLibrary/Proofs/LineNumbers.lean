import ShaderLibrary.Proofs.Depth
import ShaderLibrary.Proofs.Sections

/-! Line numbers. A compiler that follows the markers of an assembled text counts, at
every line that comes from a source, the number of that line in its own source. -/
namespace ShaderLibrary

variable {env : Environment} {lines : List Text} {visits : List Visit} {number : Int}

/-- Whether a counted line is no marker. -/
def unmarked (entry : Int × Text) : Bool := (markerNumber? entry.2).isNone

/-- Whatever was counted before a marker is forgotten after it. -/
theorem filter_numberedFrom_marker (start next : Int) (rest : List Text) :
    (numberedFrom start (lineMarker next :: rest)).filter unmarked =
      (numberedFrom next rest).filter unmarked := by
  simp [numberedFrom, nextNumber, unmarked]

/-- A line that is no marker is counted, and advances the count by one. -/
theorem filter_numberedFrom_unmarked {line : Text} (hLine : markerNumber? line = none)
    (start : Int) (rest : List Text) :
    (numberedFrom start (line :: rest)).filter unmarked =
      (start, line) :: (numberedFrom (start + 1) rest).filter unmarked := by
  simp [numberedFrom, nextNumber, unmarked, hLine]

namespace Environment

/-- No line that occurs is a marker. -/
def FreeOfMarkers (env : Environment) (lines : List Text) : Prop :=
  ∀ line, env.Occurs lines line → markerNumber? line = none

theorem FreeOfMarkers.tail {line : Text} {rest : List Text}
    (h : env.FreeOfMarkers (line :: rest)) : env.FreeOfMarkers rest :=
  fun other hOccurs => h other hOccurs.cons

theorem FreeOfMarkers.included {line p content : Text} (h : env.FreeOfMarkers lines)
    (hMem : line ∈ lines) (hLeads : env.LeadsTo line p)
    (hRead : env.store.readText p = .ok content) : env.FreeOfMarkers content.lines :=
  fun other hOccurs => h other (hOccurs.of_included hMem hLeads hRead)

/-- Include lines are never markers, so it is enough to look at the lines of a tour. -/
theorem Tour.freeOfMarkers (h : env.Tour number lines visits)
    (hVisits : ∀ entry ∈ visits.filterMap Visit.source?, markerNumber? entry.2 = none) :
    env.FreeOfMarkers lines := by
  intro line hOccurs
  by_cases hKind : LineKind.of line = .inclusion
  · refine Option.eq_none_iff_forall_ne_some.mpr fun n hMarker => ?_
    rw [markerNumber?_eq_some_iff.mp hMarker, kind_lineMarker] at hKind
    cases hKind
  · exact hVisits (LineKind.of line, line) (h.mem_source_iff.mpr ⟨rfl, hKind, hOccurs⟩)

/-- If the count is right at the first of the lines, it is right at every line that
is written for them: it is restored by the marker after each detour. -/
theorem Tour.filter_numberedFrom_written (h : env.Tour number lines visits)
    (hFree : env.FreeOfMarkers lines) :
    (numberedFrom number (visits.flatMap Visit.written)).filter unmarked =
      visits.filterMap Visit.numbered? := by
  induction h with
  | done number => rfl
  | @kept number line rest visits hKind onward ih =>
      have hLine := hFree line (Or.inl List.mem_cons_self)
      change (numberedFrom number (line :: visits.flatMap Visit.written)).filter unmarked = _
      rw [filter_numberedFrom_unmarked hLine, ih hFree.tail]
      rfl
  | @lifted number line rest visits hKind onward ih =>
      change (numberedFrom number
        (lineMarker (number + 1) :: visits.flatMap Visit.written)).filter unmarked = _
      rw [filter_numberedFrom_marker, ih hFree.tail]
      rfl
  | @missed number line rest visits problem hKind hContent onward ih =>
      change (numberedFrom number
        ([] :: lineMarker (number + 1) :: visits.flatMap Visit.written)).filter unmarked = _
      rw [filter_numberedFrom_unmarked markerNumber?_nil, filter_numberedFrom_marker, ih hFree.tail]
      rfl
  | @included number line content rest inner visits hKind hContent inside onward ihInside ih =>
      obtain ⟨p, hLeads, hRead⟩ := (contentOf_eq_ok_iff hKind).mp hContent
      have hInside := ihInside (hFree.included List.mem_cons_self hLeads hRead)
      -- The marker after the file does not depend on how far the count went inside it.
      have hWritten : (Visit.entered :: inner ++ .left number :: visits).flatMap Visit.written =
          lineMarker 1 :: (inner.flatMap Visit.written ++
            lineMarker (number + 1) :: visits.flatMap Visit.written) := by
        simp [Visit.written]
      rw [hWritten, filter_numberedFrom_marker, numberedFrom_append, List.filter_append,
        filter_numberedFrom_marker, hInside, ih hFree.tail]
      simp [List.filterMap_cons, Visit.numbered?]

end Environment

namespace Effect

variable {origin : Option Text} {x : Effect} {base source id text : Text}

theorem endsLine_top (env : Environment) (visits : List Visit) : Text.EndsLine (top env visits) :=
  (Text.endsLine_terminateLines _).append (Text.endsLine_terminated _)

/-- The lines of a text that is laid out are those above its body, those of the body,
and the empty one after the newline at the end. -/
theorem LaidOut.splitOn_eq {part : Section} {body : Text}
    (h : LaidOut env base source id text part visits body) :
    text.splitOn '\n' =
      ((top env visits).splitOn '\n').dropLast ++ (body.splitOn '\n' ++ [[]]) := by
  rw [h.text_eq, List.append_assoc, (endsLine_top env visits).splitOn_append,
    List.splitOn_append_cons_self]
  simp

/-- Counting through an assembled text, from any number for its first line, gives
each line of the body that is no marker the number it has in its own source. The
lines are exactly those of the tour of the section, and the text that an include line
does not find counts as that line. Sources must hold no markers of their own. -/
theorem line_numbers (hDone : (ofText env base source origin).outcome = .ok x)
    (hMem : (id, text) ∈ x.sections)
    (hFree : ∀ part, deciding? base source id = some part → env.FreeOfMarkers part.lines) :
    ∃ part visits body, LaidOut env base source id text part visits body ∧
      ∀ start, ∃ above counted last,
        numberedFrom start (text.splitOn '\n') = above ++ counted ++ [(last, [])] ∧
        above.map Prod.snd = ((top env visits).splitOn '\n').dropLast ∧
        counted.map Prod.snd = body.splitOn '\n' ∧
        counted.filter unmarked = visits.filterMap Visit.numbered? := by
  obtain ⟨part, visits, body, hLaid, hBody⟩ := exists_laidOut hDone hMem
  refine ⟨part, visits, body, hLaid, fun start => ?_⟩
  rw [hLaid.splitOn_eq, numberedFrom_append, numberedFrom_append, ← List.append_assoc]
  refine ⟨_, _, _, rfl, map_snd_numberedFrom _ _, map_snd_numberedFrom _ _, ?_⟩
  rw [hBody, filter_numberedFrom_marker]
  exact hLaid.tour.filter_numberedFrom_written (hFree part hLaid.decides)

theorem line_numbers_sample : ∃ above counted last,
    numberedFrom 0 (sampleText.splitOn '\n') = above ++ counted ++ [(last, [])] ∧
      counted.filter unmarked = [(1, "noise".toList), (3, "light".toList), (2, []),
        (1, "noise".toList), (4, "vertex".toList)] := by
  have hSources : ∀ entry ∈ sampleVisits.filterMap Visit.source?, markerNumber? entry.2 = none := by
    decide
  obtain ⟨part, visits, body, hLaid, hCount⟩ :=
    line_numbers outcome_ofText_sample List.mem_cons_self fun part hPart => by
      rw [deciding?_sample] at hPart
      cases hPart
      exact tour_sample.freeOfMarkers hSources
  obtain ⟨above, counted, last, hNumbers, -, -, hCounted⟩ := hCount 0
  refine ⟨above, counted, last, hNumbers, ?_⟩
  rw [hCounted, hLaid.eq_sample.2]
  rfl

end Effect

end ShaderLibrary
