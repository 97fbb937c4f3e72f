import ShaderLibrary.Effect
import ShaderLibrary.Proofs.Tour

/-! Sections of an effect file. Each id is decided by the first section that has it,
and an assembled text is laid out along the tour of that section. -/
namespace ShaderLibrary

namespace Section

theorem mem_of_mem_cut {lines : List Text} {line : Text} :
    (line ∈ (cut lines).1 → line ∈ lines) ∧
      ∀ part ∈ (cut lines).2, line ∈ part.lines → line ∈ lines := by
  induction lines with
  | nil => simp [cut]
  | cons first rest ih =>
      obtain ⟨ihOpen, ihParts⟩ := ih
      rw [cut]
      cases hName : nameOn? first with
      | none =>
          refine ⟨fun hLine => ?_, fun part hPart hLine => List.mem_cons_of_mem _ (ihParts part hPart hLine)⟩
          rcases List.mem_cons.mp hLine with rfl | hLine
          · exact List.mem_cons_self
          · exact List.mem_cons_of_mem _ (ihOpen hLine)
      | some name =>
          refine ⟨fun hLine => absurd hLine List.not_mem_nil, fun part hPart hLine => List.mem_cons_of_mem _ ?_⟩
          rcases List.mem_cons.mp hPart with rfl | hPart
          · exact ihOpen hLine
          · exact ihParts part hPart hLine

/-- The lines of a section are lines of its file. -/
theorem mem_lines_of_mem_ofText {source : Text} {part : Section} {line : Text}
    (hPart : part ∈ ofText source) (hLine : line ∈ part.lines) : line ∈ source.lines := by
  unfold ofText ofLines at hPart
  obtain ⟨hOpen, hParts⟩ := @mem_of_mem_cut source.lines line
  split at hPart
  · next opening hCut =>
      rw [hCut] at hOpen
      rw [List.mem_singleton.mp hPart] at hLine
      exact hOpen hLine
  · next hCut =>
      rw [hCut] at hParts
      exact hParts part hPart hLine

end Section

namespace Effect

variable {env : Environment} {origin : Option Text} {x y : Effect} {base source id text : Text}
  {verdict v : Except Problem Text} {lines : List Text} {parts : List Section}

/-- The section that decides an id: the first one of the file that has it. -/
def deciding? (base source id : Text) : Option Section :=
  (Section.ofText source).find? fun part => idOf base part.name == id

/-- The effect has assembled the id to a text, or has failed it with a problem. -/
def Holds (x : Effect) (id : Text) : Except Problem Text → Prop
  | .ok text => (id, text) ∈ x.sections
  | .error problem => (id, problem) ∈ x.failed

theorem decides_iff : x.decides id = true ↔ ∃ verdict, x.Holds id verdict := by
  simp only [decides, Bool.or_eq_true, List.lookup_isSome_iff, beq_iff_eq]
  constructor
  · rintro (⟨⟨_, text⟩, hMem, rfl⟩ | ⟨⟨_, problem⟩, hMem, rfl⟩)
    · exact ⟨.ok text, hMem⟩
    · exact ⟨.error problem, hMem⟩
  · rintro ⟨text | problem, hMem⟩
    · exact Or.inr ⟨_, hMem, rfl⟩
    · exact Or.inl ⟨_, hMem, rfl⟩

/-- Entering an outcome always succeeds, and decides its id if that is open. -/
theorem outcome_enter (x : Effect) (id : Text) (verdict : Except Problem Text) :
    ∃ y, (enter x id verdict).outcome = .ok y ∧ y.base = x.base ∧
      ∀ other v, y.Holds other v ↔
        x.Holds other v ∨ (x.decides id = false ∧ id = other ∧ verdict = v) := by
  unfold enter
  cases hDecides : x.decides id with
  | true => exact ⟨x, rfl, rfl, by simp⟩
  | false =>
      cases verdict with
      | ok text =>
          refine ⟨_, rfl, rfl, fun other v => ?_⟩
          cases v <;> simp [Holds, eq_comm]
      | error problem =>
          refine ⟨_, rfl, rfl, fun other v => ?_⟩
          cases v <;> simp [Holds, eq_comm]

theorem outcome_assembleAll_cons_eq_ok_iff {part : Section} :
    (assembleAll env origin x (part :: parts)).outcome = .ok y ↔
      ∃ verdict between, (assemble env origin part.lines).outcome = .ok verdict ∧
        (enter { x with problems := x.problems ++ (assemble env origin part.lines).problems }
          (idOf x.base part.name) verdict).outcome = .ok between ∧
        (assembleAll env origin between parts).outcome = .ok y := by
  simp only [assembleAll, Traced.outcome_bind_eq_ok_iff]
  constructor
  · rintro ⟨verdict, hPart, between, hEnter, hRest⟩
    exact ⟨verdict, between, hPart, hEnter, hRest⟩
  · rintro ⟨verdict, between, hPart, hEnter, hRest⟩
    exact ⟨verdict, hPart, between, hEnter, hRest⟩

/-- What was decided before stays, and otherwise the first section with the id decides. -/
theorem holds_assembleAll_iff (hDone : (assembleAll env origin x parts).outcome = .ok y) :
    y.Holds id v ↔ x.Holds id v ∨ (x.decides id = false ∧ ∃ part,
      parts.find? (fun part => idOf x.base part.name == id) = some part ∧
        (assemble env origin part.lines).outcome = .ok v) := by
  induction parts generalizing x with
  | nil =>
      cases hDone
      simp
  | cons part rest ih =>
      obtain ⟨verdict, between, hPart, hEnter, hRest⟩ := outcome_assembleAll_cons_eq_ok_iff.mp hDone
      obtain ⟨_, hEntered, hBase, hHolds⟩ := outcome_enter
        { x with problems := x.problems ++ (assemble env origin part.lines).problems }
        (idOf x.base part.name) verdict
      cases hEnter.symm.trans hEntered
      change ∀ other v, between.Holds other v ↔ x.Holds other v ∨
        (x.decides (idOf x.base part.name) = false ∧ _) at hHolds
      rw [ih hRest, hBase, hHolds]
      by_cases hId : idOf x.base part.name = id
      · subst hId
        have hDecides : between.decides (idOf x.base part.name) = true := by
          cases hOpen : x.decides (idOf x.base part.name) with
          | true =>
              obtain ⟨w, hw⟩ := decides_iff.mp hOpen
              exact decides_iff.mpr ⟨w, (hHolds _ _).mpr (Or.inl hw)⟩
          | false => exact decides_iff.mpr ⟨verdict, (hHolds _ _).mpr (Or.inr ⟨hOpen, rfl, rfl⟩)⟩
        simp [hDecides, hPart]
      · have hDecides : between.decides id = x.decides id := by
          rw [Bool.eq_iff_iff, decides_iff, decides_iff]
          simp [hHolds, hId]
        simp [hDecides, hId]

/-- An effect holds for an id what its deciding section comes to. -/
theorem holds_ofText_iff (hDone : (ofText env base source origin).outcome = .ok x) :
    x.Holds id v ↔ ∃ part, deciding? base source id = some part ∧
      (assemble env origin part.lines).outcome = .ok v := by
  rw [holds_assembleAll_iff hDone]
  have hNew : ¬ ({ base } : Effect).Holds id v := by cases v <;> exact List.not_mem_nil
  simp only [hNew, false_or]
  exact and_iff_right rfl

/-- A cycle costs the section its text, and only a broken store ends the assembly. -/
theorem outcome_assemble : (assemble env origin lines).outcome =
    match (env.expandLines origin.toList 1 lines).outcome with
    | .ok entries => .ok (.ok (unit env.macros
        (Preamble.addAll ∅ (env.expandLines origin.toList 1 lines).hoistedLines) entries))
    | .error (.cycle chain) => .ok (.error (.circularInclude chain))
    | .error (.store e) => .error e := by
  simp only [assemble, Traced.attempt_bind]
  cases (env.expandLines origin.toList 1 lines).outcome with
  | ok entries => rfl
  | error i => cases i <;> rfl

theorem outcome_assemble_eq_text_iff :
    (assemble env origin lines).outcome = .ok (.ok text) ↔
      ∃ entries, (env.expandLines origin.toList 1 lines).outcome = .ok entries ∧
        unit env.macros (Preamble.addAll ∅ (env.expandLines origin.toList 1 lines).hoistedLines)
          entries = text := by
  rw [outcome_assemble]
  cases (env.expandLines origin.toList 1 lines).outcome with
  | ok entries => simp
  | error i => cases i <;> simp

theorem outcome_assemble_eq_problem_iff {problem : Problem} :
    (assemble env origin lines).outcome = .ok (.error problem) ↔
      ∃ chain, (env.expandLines origin.toList 1 lines).outcome = .error (.cycle chain) ∧
        .circularInclude chain = problem := by
  rw [outcome_assemble]
  cases (env.expandLines origin.toList 1 lines).outcome with
  | ok entries => simp
  | error i => cases i <;> simp

/-- The preamble of a unit after a tour. -/
def gathered (visits : List Visit) : Preamble := .addAll ∅ (visits.filterMap Visit.lifted?)

/-- What stands above the body of a unit after a tour: its preamble and the macros. -/
def top (env : Environment) (visits : List Visit) : Text :=
  (gathered visits).render ++ env.macros.block.terminated

/-- The text for an id is laid out along the tour of its deciding section: the
preamble of the tour, the macros, and a body. -/
structure LaidOut (env : Environment) (base source id text : Text) (part : Section)
    (visits : List Visit) (body : Text) : Prop where
  decides : deciding? base source id = some part
  tour : env.Tour 1 part.lines visits
  text_eq : text = top env visits ++ body ++ ['\n']

/-- Every assembled text is laid out along a tour, and the lines of its body are a
marker for the first line and then what the visits write. -/
theorem exists_laidOut (hDone : (ofText env base source origin).outcome = .ok x)
    (hMem : (id, text) ∈ x.sections) :
    ∃ part visits body, LaidOut env base source id text part visits body ∧
      body.splitOn '\n' = lineMarker 1 :: visits.flatMap Visit.written := by
  obtain ⟨part, hDecides, hPart⟩ := (holds_ofText_iff (v := .ok text) hDone).mp hMem
  obtain ⟨entries, hEntries, rfl⟩ := outcome_assemble_eq_text_iff.mp hPart
  obtain ⟨visits, hTour, hRecounts⟩ := Environment.exists_tour hEntries fun line hLine =>
    Text.newline_notMem_of_mem_lines
      (Section.mem_lines_of_mem_ofText (List.mem_of_find?_eq_some hDecides) hLine)
  refine ⟨part, visits, Text.joinLines (lineMarker 1 :: entries), ⟨hDecides, hTour, ?_⟩,
    hRecounts.splitOn_joinLines 1⟩
  rw [top, gathered, ← hRecounts.hoistedLines_eq]
  rfl

end Effect

end ShaderLibrary
