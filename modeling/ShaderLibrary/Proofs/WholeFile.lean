import ShaderLibrary.Proofs.Inlining
import ShaderLibrary.Proofs.Pieces
import ShaderLibrary.Proofs.Splitting

/-! Files without headings. Such a file is one section, and read as an effect it comes to
what it comes to as a file on its own: the same text below the same lines for the top, or
the same cycle. -/
namespace ShaderLibrary

variable {env : Environment} {origin : Option Text} {base path source text : Text}

namespace Section

/-- No line of the file starts a section. -/
def Unmarked (source : Text) : Prop := ∀ line ∈ source.lines, ¬ marker <+: line

theorem ofText_of_unmarked (h : Unmarked source) : ofText source = [⟨unnamed, source.lines⟩] := by
  have hCut : CutsInto source.lines source.lines [] :=
    ⟨by simp, List.forall_mem_nil _, by simpa [Unmarked] using h⟩
  exact hCut.ofLines_eq

/-- A heading of its own changes nothing, if it names the section as it is named without one. -/
theorem ofText_heading (h : Unmarked source) :
    ofText ("-- glsl\n".toList ++ source) = [⟨unnamed, source.lines⟩] := by
  have hHeading : '\n' ∉ "-- glsl".toList := by decide
  have hLines : Text.lines ("-- glsl\n".toList ++ source) = "-- glsl".toList :: source.lines :=
    Text.lines_append_newline source hHeading
  have hCut : CutsInto ("-- glsl".toList :: source.lines) [] [⟨"-- glsl".toList, source.lines⟩] :=
    ⟨by simp [Block.source], by simp [marker], by simpa [Unmarked] using h⟩
  rw [ofText, hLines, hCut.ofLines_eq]
  rfl

end Section

namespace Expansion

/-- The lines for the top are those that the events lift, behind the ones that were there. -/
theorem preamble_afterAll (x : Expansion) (events : List Event) :
    (x.afterAll events).preamble = x.preamble.addAll (events.filterMap Event.hoisted?) := by
  induction events generalizing x with
  | nil => rfl
  | cons event rest ih =>
      have hStep : x.afterAll (event :: rest) = (x.after event).afterAll rest := rfl
      rw [hStep, ih]
      cases event <;> rfl

theorem problems_afterAll (x : Expansion) (events : List Event) :
    (x.afterAll events).problems = x.problems ++ events.filterMap Event.reported? := by
  induction events generalizing x with
  | nil => simp [afterAll]
  | cons event rest ih =>
      have hStep : x.afterAll (event :: rest) = (x.after event).afterAll rest := rfl
      rw [hStep, ih]
      cases event <;> simp [after, List.filterMap_cons, Event.reported?]

/-- A readable file on its own is its lines, expanded below the file itself. -/
theorem processFile_of_read (preamble : Preamble) (hRead : env.store.readText path = .ok source) :
    (processFile env preamble path).1.outcome =
        (env.expandLines [path] 1 source.lines).outcome.map
          (fun entries => Text.joinLines (lineMarker 1 :: entries)) ∧
      (processFile env preamble path).2.preamble =
        preamble.addAll (env.expandLines [path] 1 source.lines).hoistedLines ∧
      (processFile env preamble path).2.problems =
        (env.expandLines [path] 1 source.lines).problems := by
  have hNew : path ∉ ([] : List Text) := List.not_mem_nil
  have hFile := Environment.expandFile_of_read hNew hRead
  rw [List.nil_append] at hFile
  simp only [processFile, hFile, preamble_afterAll, problems_afterAll]
  simp [Traced.hoistedLines, Traced.problems, List.filterMap_cons, Event.hoisted?, Event.reported?]

end Expansion

namespace Effect

variable {lines : List Text} {part : Section} {x : Effect} {id : Text}

/-- The effect of a file with one section. -/
def ofVerdict (base id : Text) (problems : List Problem) : Except Problem Text → Effect
  | .ok text => { base, sections := [(id, text)], problems }
  | .error problem => { base, failed := [(id, problem)], problems }

theorem outcome_ofText_of_single (hParts : Section.ofText source = [part]) :
    (ofText env base source origin).outcome = (assemble env origin part.lines).outcome.map
      (ofVerdict base (idOf base part.name) (problemsIn env origin part)) := by
  rw [ofText, hParts, assembleAll]
  cases hPart : (assemble env origin part.lines).outcome with
  | error e => rw [Traced.bind_of_error _ hPart]; rfl
  | ok verdict =>
      rw [Traced.bind_of_ok _ hPart]
      cases verdict <;> rfl

/-- A section meets the problems of its lines, and at the end the cycle that costs its text. -/
theorem problems_assemble : (assemble env origin lines).problems =
    (env.expandLines origin.toList 1 lines).problems ++
      match (env.expandLines origin.toList 1 lines).outcome with
      | .error (.cycle chain) => [.circularInclude chain]
      | _ => [] := by
  simp only [Traced.problems, assemble, Traced.attempt_bind, List.filterMap_append]
  congr 1
  cases (env.expandLines origin.toList 1 lines).outcome with
  | ok entries => rfl
  | error i => cases i <;> rfl

/-- What a readable file without headings comes to as an effect, said from the run of the
file on its own. -/
theorem outcome_ofText_of_unmarked (hRead : env.store.readText path = .ok source)
    (hUnmarked : Section.Unmarked source) {run : Traced Interrupt Text} {state : Expansion}
    (hRun : Expansion.processFile env ∅ path = (run, state)) :
    (ofText env base source (some path)).outcome =
      match run.outcome with
      | .ok text => .ok {
          base
          sections := [(idOf base Section.unnamed,
            state.preamble.render ++ env.macros.block.terminated ++ text ++ ['\n'])]
          problems := state.problems }
      | .error (.cycle chain) => .ok {
          base
          failed := [(idOf base Section.unnamed, .circularInclude chain)]
          problems := state.problems ++ [.circularInclude chain] }
      | .error (.store e) => .error e := by
  obtain ⟨hText, hTop, hProblems⟩ := Expansion.processFile_of_read ∅ hRead
  rw [hRun] at hText hTop hProblems
  rw [outcome_ofText_of_single (Section.ofText_of_unmarked hUnmarked), problemsIn,
    problems_assemble, outcome_assemble, hText, hTop, hProblems, Option.toList_some]
  cases (env.expandLines [path] 1 source.lines).outcome with
  | ok entries => simp [Except.map, ofVerdict, unit]
  | error i => cases i <;> rfl

/-- A readable file without headings comes to the same as an effect and on its own. If it
is expanded on its own to a text, the effect has that one section, with the lines for the
top and the macros above the text. The section fails if and only if the file on its own
meets a cycle, and by the same chain. A heading that names the only section as it is named
without one makes no difference at all, not even to what is read or reported. -/
theorem whole_file_agrees (env : Environment) (base : Text) :
    (∀ path source run state, env.store.readText path = .ok source → Section.Unmarked source →
      Expansion.processFile env ∅ path = (run, state) →
      (∀ text, run.outcome = .ok text →
        (ofText env base source (some path)).outcome = .ok {
          base
          sections := [(idOf base Section.unnamed,
            state.preamble.render ++ env.macros.block.terminated ++ text ++ ['\n'])]
          problems := state.problems }) ∧
      (∀ chain, run.outcome = .error (.cycle chain) →
        (ofText env base source (some path)).outcome = .ok {
          base
          failed := [(idOf base Section.unnamed, .circularInclude chain)]
          problems := state.problems ++ [.circularInclude chain] }) ∧
      ∀ problem, (∃ x, (ofText env base source (some path)).outcome = .ok x ∧
          (idOf base Section.unnamed, problem) ∈ x.failed) ↔
        ∃ chain, problem = .circularInclude chain ∧ run.outcome = .error (.cycle chain)) ∧
    ∀ source origin, Section.Unmarked source →
      ofText env base ("-- glsl\n".toList ++ source) origin = ofText env base source origin := by
  constructor
  · intro path source run state hRead hUnmarked hRun
    rw [outcome_ofText_of_unmarked hRead hUnmarked hRun]
    refine ⟨fun text hText => by rw [hText], fun chain hCycle => by rw [hCycle], fun problem => ?_⟩
    cases run.outcome with
    | ok text => simp
    | error i => cases i <;> simp
  · intro source origin hUnmarked
    rw [ofText, ofText, Section.ofText_heading hUnmarked, Section.ofText_of_unmarked hUnmarked]

/-- The text of the light, which has no headings. -/
def lightSource : Text :=
  Text.terminateLines ["#version 330".toList, "#include \"Noise\"".toList, "light".toList]

theorem whole_file_agrees_light :
    Environment.sample.store.readText "Light".toList = .ok lightSource ∧
    Section.Unmarked lightSource ∧
    (ofText Environment.sample "L".toList lightSource (some "Light".toList)).outcome = .ok {
      base := "L".toList
      sections := [("L.glsl".toList, Text.terminateLines ["#version 330".toList,
        "#extension all".toList, "global".toList, "#line 1".toList, "#line 2".toList,
        "#line 1".toList, "noise".toList, "#line 3".toList, "#line 3".toList, "light".toList])] } ∧
    ofText Environment.sample "L".toList ("-- glsl\n".toList ++ lightSource) none =
      ofText Environment.sample "L".toList lightSource none := by
  have hUnmarked : Section.Unmarked lightSource := by
    unfold Section.Unmarked
    decide
  obtain ⟨hFiles, hHeading⟩ := whole_file_agrees Environment.sample "L".toList
  obtain ⟨hText, -, -⟩ := hFiles "Light".toList lightSource _ _ rfl hUnmarked rfl
  refine ⟨rfl, hUnmarked, ?_, hHeading lightSource none hUnmarked⟩
  refine (hText (Text.joinLines ["#line 1".toList, "#line 2".toList, "#line 1".toList,
    "noise".toList, "#line 3".toList, "#line 3".toList, "light".toList]) ?_).trans ?_
  · simp only [Environment.expandFile, Environment.expandLines_eq_expandWithin]
    rfl
  · simp only [Environment.expandFile, Environment.expandLines_eq_expandWithin]
    rfl

end Effect

end ShaderLibrary
