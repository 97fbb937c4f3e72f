import ShaderLibrary.Proofs.Hoisting
import ShaderLibrary.Proofs.InProgress
import ShaderLibrary.Proofs.WholeFile

/-! Files in the middle of an expansion. What is in progress around a file decides only whether it
can be expanded, and what has been collected so far decides nothing at all. -/
namespace ShaderLibrary

namespace Environment

variable {env : Environment} {chain fewer lines : List Text} {number : Int} {line p text : Text}
  {entries : List Text}

/-- A file below fewer files in progress comes to the same if its lines do. -/
theorem expandFile_of_subset_step (hFewer : fewer ⊆ chain)
    (hFile : (env.expandFile chain p).outcome = .ok text)
    (hLines : p ∉ chain → ∀ content entries,
      (env.expandLines (chain ++ [p]) 1 (Text.lines content)).outcome = .ok entries →
      env.expandLines (fewer ++ [p]) 1 content.lines =
        env.expandLines (chain ++ [p]) 1 content.lines) :
    env.expandFile fewer p = env.expandFile chain p := by
  obtain ⟨hNew, ⟨e, hRead, hRefusal, -⟩ | ⟨content, entries, hRead, hInside, -⟩⟩ :=
    outcome_expandFile_eq_ok_iff.mp hFile
  · rw [expandFile_of_refused hNew hRead hRefusal,
      expandFile_of_refused (mt (hFewer ·) hNew) hRead hRefusal]
  · rw [expandFile_of_read hNew hRead, expandFile_of_read (mt (hFewer ·) hNew) hRead,
      hLines hNew content entries hInside]

/-- Lines that come to their end do the same below fewer files in progress. -/
theorem expandLines_of_subset (hFewer : fewer ⊆ chain)
    (hLines : (env.expandLines chain number lines).outcome = .ok entries) :
    env.expandLines fewer number lines = env.expandLines chain number lines := by
  induction chain, number, lines using expandLines.induct env generalizing fewer entries with
  | case1 chain number => rw [expandLines_nil, expandLines_nil]
  | case2 chain number line rest ihFile ihRest =>
      obtain ⟨here, others, hHere, hRest, -⟩ := outcome_expandLines_cons_eq_ok_iff.mp hLines
      have hLine : env.expandLine fewer number line = env.expandLine chain number line := by
        cases hKind : LineKind.of line with
        | plain => rw [expandLine_of_plain hKind, expandLine_of_plain hKind]
        | hoisted => rw [expandLine_of_hoisted hKind, expandLine_of_hoisted hKind]
        | inclusion =>
            rcases unresolved_or_leadsTo env hKind with ⟨problem, hTarget⟩ | ⟨p, hLeads⟩
            · rw [expandLine_of_unresolved hKind hTarget, expandLine_of_unresolved hKind hTarget]
            · have hListed := (leadsTo_iff_target.mp hLeads).2.1
              obtain ⟨text, hFile, -⟩ := (outcome_expandLine_of_leadsTo_eq_ok_iff hLeads).mp hHere
              have hSame : env.expandFile fewer p = env.expandFile chain p :=
                expandFile_of_subset_step hFewer hFile fun hNew content _ hInside =>
                  ihFile p hListed hNew content.lines
                    (List.append_subset.mpr ⟨fun q hq => List.mem_append_left _ (hFewer hq),
                      List.subset_append_right _ _⟩) hInside
              rw [expandLine_of_leadsTo hLeads, expandLine_of_leadsTo hLeads, hSame]
      rw [expandLines_cons, expandLines_cons, hLine, ihRest hFewer hRest]

/-- A file that comes to a text somewhere comes to the same text on its own. -/
theorem expandFile_nil_of_ok (hFile : (env.expandFile chain p).outcome = .ok text) :
    env.expandFile [] p = env.expandFile chain p :=
  expandFile_of_subset_step (List.nil_subset chain) hFile fun _ _ _ hInside =>
    expandLines_of_subset (List.append_subset.mpr
      ⟨List.nil_subset _, List.subset_append_right _ _⟩) hInside

end Environment

namespace Expansion

variable {env : Environment} {x y : Expansion} {q text : Text}

/-- The text of a file in the middle of an expansion, and the state after it. -/
def inline (x : Expansion) (env : Environment) (q : Text) : Traced Interrupt Text × Expansion :=
  let run := env.expandFile x.inProgress q
  (run, x.afterAll run.events)

/-- The start of a file is in the middle of nothing. -/
theorem processFile_eq_inline (env : Environment) (preamble : Preamble) (q : Text) :
    processFile env preamble q = ({ preamble } : Expansion).inline env q := rfl

theorem afterAll_target (x : Expansion) (env : Environment) (line : Text) :
    x.afterAll (env.target line).events = x := by
  have hNone : ∀ event ∈ (env.target line).events, ∀ y : Expansion, y.after event = y := by
    intro event hEvent y
    rcases Environment.mem_events_target hEvent with ⟨key, rfl⟩ | ⟨name, rfl⟩ <;> rfl
  generalize (env.target line).events = events at hNone
  induction events with
  | nil => rfl
  | cons event rest ih =>
      rw [List.forall_mem_cons] at hNone
      calc
        x.afterAll (event :: rest) = (x.after event).afterAll rest := rfl
        _ = x := by rw [hNone.1 x, ih hNone.2]

/-- An include line does what its file does, and adds a marker for the next line. -/
theorem processLine_of_leadsTo {line : Text} (number : Int) (hLeads : env.LeadsTo line q) :
    (x.processLine env number line).2 = (x.inline env q).2 ∧
      (x.processLine env number line).1.outcome = complete (number + 1) line
        ((x.inline env q).1.outcome.map fun text => [text, lineMarker (number + 1)]) := by
  simp only [processLine, inline, Environment.expandLine_of_leadsTo hLeads, afterAll_append,
    afterAll_target, and_self]

theorem inProgress_inline (x : Expansion) (env : Environment) (q : Text) :
    (x.inline env q).2.inProgress = x.inProgress :=
  (env.stacked_expandFile x.inProgress q).restores x rfl

/-- What is collected while a file is expanded once more has been collected before. -/
theorem preamble_inline_again (hChain : y.inProgress = x.inProgress)
    (hPreamble : y.preamble = (x.inline env q).2.preamble) :
    (y.inline env q).2.preamble = y.preamble := by
  have hAgain : (y.inline env q).2.preamble =
      y.preamble.addAll (env.expandFile x.inProgress q).hoistedLines := by
    rw [← hChain]
    exact preamble_afterAll y _
  have hOnce : y.preamble = x.preamble.addAll (env.expandFile x.inProgress q).hoistedLines :=
    hPreamble.trans (preamble_afterAll x _)
  have hNoNew :
      (env.expandFile x.inProgress q).hoistedLines.filter (· ∉ y.preamble.lines) = [] := by
    refine List.filter_eq_nil_iff.mpr fun line hLine => ?_
    rw [hOnce, decide_eq_true_iff, not_not]
    exact Preamble.mem_lines_addAll.mpr (Or.inr hLine)
  refine Preamble.ext ?_
  rw [hAgain, Preamble.lines_addAll, hNoNew, List.eraseDups_nil, List.append_nil]

/-- A file is inlined the same way wherever it can be inlined: it has one text, it adds the same
problems, and it lifts the same lines, of which those that are not there already are added in the
order in which they first come. Its text is that of the file on its own, whatever lines have been
collected for the top, and a second time it adds none of them. -/
theorem inlining_context_free (env : Environment) (q : Text) :
    (∃ (lifted : List Text) (problems : List Problem), ∀ (x : Expansion) text,
      (x.inline env q).1.outcome = .ok text →
        (∀ (y : Expansion) other, (y.inline env q).1.outcome = .ok other → other = text) ∧
        (∀ preamble, (processFile env preamble q).1.outcome = .ok text) ∧
        (x.inline env q).2.inProgress = x.inProgress ∧
        (x.inline env q).2.problems = x.problems ++ problems ∧
        (x.inline env q).2.preamble.lines =
          x.preamble.lines ++ (lifted.filter (· ∉ x.preamble.lines)).eraseDups) ∧
    ∀ preamble, (processFile env (processFile env preamble q).2.preamble q).2.preamble =
      (processFile env preamble q).2.preamble := by
  constructor
  · -- all of them are runs of the file on its own
    refine ⟨(env.expandFile [] q).hoistedLines, (env.expandFile [] q).problems, ?_⟩
    intro x text hText
    have hAlone (y : Expansion) {t : Text} (hy : (y.inline env q).1.outcome = .ok t) :
        (y.inline env q).1 = env.expandFile [] q :=
      (Environment.expandFile_nil_of_ok hy).symm
    have hRun := hAlone x hText
    have hState : (x.inline env q).2 = x.afterAll (env.expandFile [] q).events := by
      rw [← hRun]
      rfl
    refine ⟨fun y other hOther => ?_, fun preamble => ?_, inProgress_inline x env q, ?_, ?_⟩
    · rw [hAlone y hOther, ← hRun, hText] at hOther
      exact (Except.ok.inj hOther).symm
    · rw [hRun] at hText
      exact hText
    · rw [hState, problems_afterAll]
      rfl
    · rw [hState, preamble_afterAll, Preamble.lines_addAll]
      rfl
  · exact fun preamble => preamble_inline_again (x := { preamble }) rfl rfl

/-- A state below an effect file that has lifted a line and met a problem. -/
def amidst : Expansion where
  preamble := .addAll ∅ ["#extension all".toList]
  inProgress := ["X.glsl".toList]
  problems := [.unresolvedInclude "Locked".toList "Locked".toList]

theorem inlining_context_free_light : ∃ (text : Text) (lifted : List Text),
    (amidst.inline Environment.sample "Light".toList).1.outcome = .ok text ∧
    (∀ preamble, (processFile Environment.sample preamble "Light".toList).1.outcome = .ok text) ∧
    (amidst.inline Environment.sample "Light".toList).2.preamble.lines =
      ["#extension all".toList] ++ (lifted.filter (· ∉ ["#extension all".toList])).eraseDups ∧
    (amidst.inline Environment.sample "Light".toList).2.preamble.lines =
      ["#extension all".toList, "#version 330".toList] := by
  obtain ⟨⟨lifted, problems, hEverywhere⟩, -⟩ :=
    inlining_context_free Environment.sample "Light".toList
  have hText : (amidst.inline Environment.sample "Light".toList).1.outcome =
      .ok (Text.joinLines ["#line 1".toList, "#line 2".toList, "#line 1".toList, "noise".toList,
        "#line 3".toList, "#line 3".toList, "light".toList]) := by
    simp only [inline, Environment.expandFile, Environment.expandLines_eq_expandWithin]
    rfl
  obtain ⟨-, hAlone, -, -, hLines⟩ := hEverywhere amidst _ hText
  refine ⟨_, lifted, hText, hAlone, hLines, ?_⟩
  simp only [inline, Environment.expandFile, Environment.expandLines_eq_expandWithin]
  rfl

end Expansion

end ShaderLibrary
