import ShaderLibrary.Expansion
import ShaderLibrary.Proofs.Depth

/-! Inlining. Without the markers, what an expansion writes are the lines that a reader
gets who puts each file in the place of the line that asks for it. -/
namespace ShaderLibrary

variable {env : Environment} {path content text : Text} {lines : List Text} {visits : List Visit}

/-- What is written for a visit and is no marker is the line that stands for it. -/
theorem withoutMarkers_written (visit : Visit) :
    withoutMarkers visit.written = withoutMarkers visit.inlined?.toList := by
  cases visit <;> simp [Visit.written, Visit.inlined?, Visit.numbered?, withoutMarkers, List.filter_cons]

theorem withoutMarkers_flatMap_written (visits : List Visit) :
    withoutMarkers (visits.flatMap Visit.written) =
      withoutMarkers (visits.filterMap Visit.inlined?) := by
  unfold withoutMarkers
  rw [List.filterMap_eq_flatMap_toList, List.filter_flatMap, List.filter_flatMap]
  congr 1
  funext visit
  exact withoutMarkers_written visit

/-- A marker for the first line and what the visits write hold the inlined lines. -/
theorem withoutMarkers_body (number : Int) (visits : List Visit) :
    withoutMarkers (lineMarker number :: visits.flatMap Visit.written) =
      withoutMarkers (visits.filterMap Visit.inlined?) := by
  rw [← withoutMarkers_flatMap_written]
  simp [withoutMarkers]

namespace Environment

/-- A tour is the only one of its lines, so the lines it inlines are those of the lines. -/
theorem Tour.iff_eq {number : Int} (h : env.Tour number lines visits) (other : List Visit) :
    env.Tour number lines other ↔ other = visits := by
  constructor
  · exact fun hOther => hOther.unique h
  · rintro rfl
    exact h

/-- A file that was read is written along the tour of its lines. -/
theorem exists_tour_of_expandFile (hRead : env.store.readText path = .ok content)
    (hDone : (env.expandFile [] path).outcome = .ok text) :
    ∃ visits, env.Tour 1 content.lines visits ∧
      text.splitOn '\n' = lineMarker 1 :: visits.flatMap Visit.written := by
  rcases (outcome_expandFile_eq_ok_iff.mp hDone).2 with ⟨e, hRefused, -⟩ | ⟨_, entries, hContent, hEntries, rfl⟩
  · cases hRead.symm.trans hRefused
  · cases hRead.symm.trans hContent
    obtain ⟨visits, hTour, hRecounts⟩ :=
      exists_tour hEntries fun _ => Text.newline_notMem_of_mem_lines
    exact ⟨visits, hTour, hRecounts.splitOn_joinLines 1⟩

end Environment

open Effect Environment

/-- Nothing is lost, doubled or moved. The body of every assembled section, and the
text of every file that is expanded on its own, are up to markers the lines that the
one tour of the section or the file inlines. -/
theorem inlining_faithful (env : Environment) :
    (∀ base source origin x id text, (ofText env base source origin).outcome = .ok x →
      (id, text) ∈ x.sections →
      ∃ part visits body, LaidOut env base source id text part visits body ∧
        (∀ other, env.Tour 1 part.lines other ↔ other = visits) ∧
        withoutMarkers (body.splitOn '\n') = withoutMarkers (visits.filterMap Visit.inlined?)) ∧
    ∀ preamble path content text, env.store.readText path = .ok content →
      (Expansion.processFile env preamble path).1.outcome = .ok text →
      ∃ visits, (∀ other, env.Tour 1 content.lines other ↔ other = visits) ∧
        withoutMarkers (text.splitOn '\n') = withoutMarkers (visits.filterMap Visit.inlined?) := by
  constructor
  · intro base source origin x id text hDone hMem
    obtain ⟨part, visits, body, hLaid, hBody⟩ := exists_laidOut hDone hMem
    refine ⟨part, visits, body, hLaid, hLaid.tour.iff_eq, ?_⟩
    rw [hBody, withoutMarkers_body]
  · intro preamble path content text hRead hDone
    obtain ⟨visits, hTour, hText⟩ := exists_tour_of_expandFile hRead hDone
    refine ⟨visits, hTour.iff_eq, ?_⟩
    rw [hText, withoutMarkers_body]

theorem inlining_faithful_sample :
    (∃ visits body, sampleText = top sample visits ++ body ++ ['\n'] ∧
      withoutMarkers (body.splitOn '\n') =
        ["noise".toList, "light".toList, [], "noise".toList, "vertex".toList]) ∧
    ∃ text, (Expansion.processFile sample ∅ "Light".toList).1.outcome = .ok text ∧
      withoutMarkers (text.splitOn '\n') = ["noise".toList, "light".toList] := by
  obtain ⟨hSections, hFiles⟩ := inlining_faithful sample
  constructor
  · obtain ⟨part, visits, body, hLaid, -, hBody⟩ :=
      hSections _ _ _ _ _ _ outcome_ofText_sample List.mem_cons_self
    refine ⟨visits, body, hLaid.text_eq, ?_⟩
    rw [hBody, hLaid.eq_sample.2]
    decide
  · have hDone : (Expansion.processFile sample ∅ "Light".toList).1.outcome =
        .ok (Text.joinLines ["#line 1".toList, "#line 2".toList, "#line 1".toList, "noise".toList,
          "#line 3".toList, "#line 3".toList, "light".toList]) := by
      change (sample.expandFile [] "Light".toList).outcome = _
      rw [expandFile, expandLines_eq_expandWithin]
      rfl
    obtain ⟨visits, hTour, hText⟩ := hFiles _ _ _ _ rfl hDone
    refine ⟨_, hDone, ?_⟩
    rw [hText, ← (hTour lightVisits).mp tour_light]
    decide

end ShaderLibrary
