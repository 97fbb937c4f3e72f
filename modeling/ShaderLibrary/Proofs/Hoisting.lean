import Mathlib.Data.List.Induction
import ShaderLibrary.Proofs.Depth

/-! Hoisting. The version and extension lines that a section comes across, and no
others, stand above its body, each of them once. -/
namespace ShaderLibrary

variable {env : Environment} {lines : List Text} {line : Text} {visits : List Visit} {number : Int}

/-- A line stays where it is if it starts none of the directives. -/
theorem LineKind.of_eq_plain_iff : LineKind.of line = .plain ↔
    "#include".toList.isPrefixOf line = false ∧
      isVersionLine line = false ∧ isExtensionLine line = false := by
  unfold LineKind.of
  generalize "#include".toList.isPrefixOf line = inclusion
  cases inclusion <;> cases isVersionLine line <;> cases isExtensionLine line <;> decide

theorem not_inclusion_of_hoisted (h : (isVersionLine line || isExtensionLine line) = true) :
    "#include".toList.isPrefixOf line = false := by
  cases hInclude : "#include".toList.isPrefixOf line with
  | false => rfl
  | true =>
      -- The directives differ in their second character.
      obtain ⟨rest, rfl⟩ := List.isPrefixOf_iff_prefix.mp hInclude
      cases h

/-- A line is moved to the top if it starts a version or an extension directive. -/
theorem LineKind.of_eq_hoisted_iff :
    LineKind.of line = .hoisted ↔ (isVersionLine line || isExtensionLine line) = true := by
  unfold LineKind.of
  constructor
  · intro h
    split at h
    · cases h
    · split at h
      · assumption
      · cases h
  · intro h
    have hInclude := not_inclusion_of_hoisted h
    rw [if_neg (by rw [hInclude]; exact Bool.false_ne_true), if_pos h]

namespace Preamble

/-- Lines are added behind those that are there, in the order in which they first come. -/
theorem lines_addAll (p : Preamble) (lines : List Text) :
    (p.addAll lines).lines = p.lines ++ (lines.filter (· ∉ p.lines)).eraseDups := by
  induction lines using List.reverseRecOn with
  | nil => exact (List.append_nil _).symm
  | append_singleton earlier line ih =>
      have hAdd : p.addAll (earlier ++ [line]) = (p.addAll earlier).add line := by
        simp [addAll]
      have hSingle : [line].eraseDups = [line] := rfl
      rw [hAdd, add, List.filter_append, List.eraseDups_append]
      by_cases hThere : line ∈ p.lines
      · simp [hThere, ih, List.removeAll]
      · by_cases hEarlier : line ∈ earlier
        · simp [hThere, hEarlier, ih, List.removeAll]
        · simp [hThere, hEarlier, ih, List.removeAll, hSingle]

theorem mem_lines_addAll {p : Preamble} {lines : List Text} {line : Text} :
    line ∈ (p.addAll lines).lines ↔ line ∈ p.lines ∨ line ∈ lines := by
  rw [lines_addAll, List.mem_append, List.mem_eraseDups, List.mem_filter, decide_eq_true_iff]
  by_cases hThere : line ∈ p.lines <;> simp [hThere]

theorem lines_addAll_empty (lines : List Text) : (addAll ∅ lines).lines = lines.eraseDups := by
  have hNone : (∅ : Preamble).lines = [] := rfl
  simp [lines_addAll, hNone]

/-- The lines as they stand at the top of a unit. -/
def inOrder (p : Preamble) : List Text :=
  p.lines.filter isVersionLine ++ p.lines.filter (!isVersionLine ·)

theorem perm_inOrder (p : Preamble) : p.inOrder.Perm p.lines := List.filter_append_perm _ _

end Preamble

/-- What an expansion writes for a tour holds no directive any more. -/
theorem Environment.Tour.kind_of_mem_written (h : env.Tour number lines visits)
    (hLine : line ∈ visits.flatMap Visit.written) : LineKind.of line = .plain := by
  induction h with
  | done number => cases hLine
  | kept hKind onward ih =>
      rcases List.mem_cons.mp hLine with rfl | hLine
      · exact hKind
      · exact ih hLine
  | lifted hKind onward ih =>
      rcases List.mem_cons.mp hLine with rfl | hLine
      · exact kind_lineMarker _
      · exact ih hLine
  | missed hKind hContent onward ih =>
      rcases List.mem_cons.mp hLine with rfl | hLine
      · rfl
      · rcases List.mem_cons.mp hLine with rfl | hLine
        · exact kind_lineMarker _
        · exact ih hLine
  | included hKind hContent inside onward ihInside ih =>
      simp only [List.flatMap_append, List.flatMap_cons, Visit.written, List.cons_append,
        List.nil_append, List.mem_append, List.mem_cons] at hLine
      rcases hLine with rfl | hLine | rfl | hLine
      · exact kind_lineMarker _
      · exact ihInside hLine
      · exact kind_lineMarker _
      · exact ih hLine

namespace Effect

variable {origin : Option Text} {x : Effect} {base source id text : Text}

/-- The lines above the macros are the version and extension lines that occur in the
section or in a file it reaches, each once, first the version lines and then the
others, both in the order in which the tour first comes across them. Below the macros
there are no directives. A section takes nothing from its siblings, since only what
itself reaches occurs in it. -/
theorem hoisting_exact (hDone : (ofText env base source origin).outcome = .ok x)
    (hMem : (id, text) ∈ x.sections) :
    ∃ part visits body lead, LaidOut env base source id text part visits body ∧
      text = Text.terminateLines lead ++ env.macros.block.terminated ++ body ++ ['\n'] ∧
      lead.Nodup ∧
      (∀ line, line ∈ lead ↔
        (isVersionLine line || isExtensionLine line) = true ∧ env.Occurs part.lines line) ∧
      (∃ firsts, firsts = (visits.filterMap Visit.lifted?).eraseDups ∧
        lead = firsts.filter isVersionLine ++ firsts.filter (!isVersionLine ·)) ∧
      ∀ line ∈ body.splitOn '\n', "#include".toList.isPrefixOf line = false ∧
        isVersionLine line = false ∧ isExtensionLine line = false := by
  obtain ⟨part, visits, body, hLaid, hBody⟩ := exists_laidOut hDone hMem
  have hFirsts : (gathered visits).lines = (visits.filterMap Visit.lifted?).eraseDups :=
    Preamble.lines_addAll_empty _
  refine ⟨part, visits, body, (gathered visits).inOrder, hLaid, hLaid.text_eq, ?_, fun line => ?_,
    ⟨_, hFirsts, rfl⟩, fun line hLine => ?_⟩
  · exact (gathered visits).perm_inOrder.nodup_iff.mpr (gathered visits).distinct
  · calc
      line ∈ (gathered visits).inOrder ↔ line ∈ visits.filterMap Visit.lifted? := by
        rw [(gathered visits).perm_inOrder.mem_iff, hFirsts, List.mem_eraseDups]
      _ ↔ LineKind.of line = .hoisted ∧ .hoisted ≠ LineKind.inclusion ∧
          env.Occurs part.lines line :=
        Visit.mem_filterMap_lifted?_iff.trans hLaid.tour.mem_source_iff
      _ ↔ _ := by simp only [LineKind.of_eq_hoisted_iff, ne_eq, reduceCtorEq, not_false_eq_true,
        true_and]
  · refine LineKind.of_eq_plain_iff.mp ?_
    rw [hBody] at hLine
    rcases List.mem_cons.mp hLine with rfl | hLine
    · exact kind_lineMarker 1
    · exact hLaid.tour.kind_of_mem_written hLine

theorem hoisting_exact_sample :
    ∃ body, sampleText = Text.terminateLines ["#version 330".toList, "#extension all".toList] ++
        "global\n".toList ++ body ++ ['\n'] ∧
      (∀ line, line ∈ ["#version 330".toList, "#extension all".toList] ↔
        (isVersionLine line || isExtensionLine line) = true ∧
          Environment.sample.Occurs sampleLines line) ∧
      ∀ line ∈ body.splitOn '\n', "#include".toList.isPrefixOf line = false ∧
        isVersionLine line = false ∧ isExtensionLine line = false := by
  obtain ⟨part, visits, body, lead, hLaid, hText, -, hLead, ⟨firsts, hFirsts, hOrder⟩, hBody⟩ :=
    hoisting_exact outcome_ofText_sample List.mem_cons_self
  obtain ⟨rfl, rfl⟩ := hLaid.eq_sample
  have hBoth : lead = ["#version 330".toList, "#extension all".toList] := by
    rw [hOrder, hFirsts]
    decide
  subst hBoth
  exact ⟨body, hText, hLead, hBody⟩

end Effect

end ShaderLibrary
