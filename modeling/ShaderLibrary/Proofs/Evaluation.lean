import ShaderLibrary.Proofs.Sections

/-! Evaluation of sources as a bare recursion. An include line leads on to the lines of its file,
and these may lead on again; nothing in the rules counts or bounds the files. A recursion that
never comes to an end has no run here, so that there is one says that it ends. -/
namespace ShaderLibrary

namespace Environment

mutual

/-- The lines are expanded one after the other, until one of them is interrupted. -/
inductive EvaluatesLines (env : Environment) :
    List Text → Int → List Text → Traced Interrupt (List Text) → Prop where
  | nil (chain : List Text) (number : Int) : EvaluatesLines env chain number [] ⟨[], .ok []⟩
  | stop {chain : List Text} {number : Int} {line : Text} {rest : List Text}
      {run : Traced Interrupt (List Text)} {i : Interrupt}
      (first : EvaluatesLine env chain number line run) (hStop : run.outcome = .error i) :
      EvaluatesLines env chain number (line :: rest) ⟨run.events, .error i⟩
  | cons {chain : List Text} {number : Int} {line : Text} {rest entries : List Text}
      {run later : Traced Interrupt (List Text)}
      (first : EvaluatesLine env chain number line run) (hFirst : run.outcome = .ok entries)
      (others : EvaluatesLines env chain (number + 1) rest later) :
      EvaluatesLines env chain number (line :: rest)
        ⟨run.events ++ later.events, later.outcome.map (entries ++ ·)⟩

/-- An include line waits for its file. -/
inductive EvaluatesLine (env : Environment) :
    List Text → Int → Text → Traced Interrupt (List Text) → Prop where
  | plain {chain : List Text} {number : Int} {line : Text} (hKind : LineKind.of line = .plain) :
      EvaluatesLine env chain number line ⟨[], .ok [line]⟩
  | hoisted {chain : List Text} {number : Int} {line : Text} (hKind : LineKind.of line = .hoisted) :
      EvaluatesLine env chain number line ⟨[.hoisted line], .ok [lineMarker (number + 1)]⟩
  | unresolved {chain : List Text} {number : Int} {line : Text} {problem : Problem}
      (hKind : LineKind.of line = .inclusion)
      (hTarget : (env.target line).outcome = .error problem) :
      EvaluatesLine env chain number line
        ⟨(env.target line).events ++ noted problem, .ok [[], lineMarker (number + 1)]⟩
  | included {chain : List Text} {number : Int} {line p : Text} {run : Traced Interrupt Text}
      (hLeads : env.LeadsTo line p) (file : EvaluatesFile env chain p run) :
      EvaluatesLine env chain number line ⟨(env.target line).events ++ run.events,
        run.outcome.map fun text => [text, lineMarker (number + 1)]⟩

/-- A file waits for its lines, unless it is in progress already. -/
inductive EvaluatesFile (env : Environment) :
    List Text → Text → Traced Interrupt Text → Prop where
  | known {chain : List Text} {p : Text} (hKnown : p ∈ chain) :
      EvaluatesFile env chain p ⟨[], .error (.cycle (chain ++ [p]))⟩
  | refused {chain : List Text} {p : Text} {e : StoreError} (hNew : p ∉ chain)
      (hRead : env.store.readText p = .error e) (hRefusal : e.isRefusal = true) :
      EvaluatesFile env chain p ⟨.read p :: noted (.unresolvedInclude p e.message), .ok []⟩
  | broken {chain : List Text} {p : Text} {e : StoreError} (hNew : p ∉ chain)
      (hRead : env.store.readText p = .error e) (hRefusal : e.isRefusal = false) :
      EvaluatesFile env chain p ⟨[.read p], .error (.store e)⟩
  | read {chain : List Text} {p content : Text} {run : Traced Interrupt (List Text)}
      (hNew : p ∉ chain) (hRead : env.store.readText p = .ok content)
      (inside : EvaluatesLines env (chain ++ [p]) 1 content.lines run) :
      EvaluatesFile env chain p ⟨.read p :: .opened p :: run.events ++ [.closed p],
        run.outcome.map fun entries => Text.joinLines (lineMarker 1 :: entries)⟩

end

variable {env : Environment} {chain lines : List Text} {number : Int} {line p : Text}
  {run : Traced Interrupt (List Text)} {file : Traced Interrupt Text}

/-- A file has one run if its lines have. -/
theorem evaluatesFile_step
    (hLines : p ∉ chain → ∀ (content : Text) (run : Traced Interrupt (List Text)),
      env.EvaluatesLines (chain ++ [p]) 1 content.lines run ↔
        run = env.expandLines (chain ++ [p]) 1 content.lines) :
    env.EvaluatesFile chain p file ↔ file = env.expandFile chain p := by
  constructor
  · intro h
    cases h with
    | known hKnown => rw [expandFile_of_mem hKnown]
    | refused hNew hRead hRefusal => rw [expandFile_of_refused hNew hRead hRefusal]
    | broken hNew hRead hRefusal => rw [expandFile_of_broken hNew hRead hRefusal]
    | read hNew hRead inside =>
        rw [expandFile_of_read hNew hRead, (hLines hNew _ _).mp inside]
  · rintro rfl
    by_cases hKnown : p ∈ chain
    · rw [expandFile_of_mem hKnown]
      exact .known hKnown
    · cases hRead : env.store.readText p with
      | ok content =>
          rw [expandFile_of_read hKnown hRead]
          exact .read hKnown hRead ((hLines hKnown content _).mpr rfl)
      | error e =>
          cases hRefusal : e.isRefusal with
          | true =>
              rw [expandFile_of_refused hKnown hRead hRefusal]
              exact .refused hKnown hRead hRefusal
          | false =>
              rw [expandFile_of_broken hKnown hRead hRefusal]
              exact .broken hKnown hRead hRefusal

/-- A line has one run if the file has that it leads to. -/
theorem evaluatesLine_step
    (hFile : ∀ p, env.LeadsTo line p → ∀ file : Traced Interrupt Text,
      env.EvaluatesFile chain p file ↔ file = env.expandFile chain p) :
    env.EvaluatesLine chain number line run ↔ run = env.expandLine chain number line := by
  constructor
  · intro h
    cases h with
    | plain hKind => rw [expandLine_of_plain hKind]
    | hoisted hKind => rw [expandLine_of_hoisted hKind]
    | unresolved hKind hTarget => rw [expandLine_of_unresolved hKind hTarget]
    | included hLeads file => rw [expandLine_of_leadsTo hLeads, (hFile _ hLeads _).mp file]
  · rintro rfl
    cases hKind : LineKind.of line with
    | plain =>
        rw [expandLine_of_plain hKind]
        exact .plain hKind
    | hoisted =>
        rw [expandLine_of_hoisted hKind]
        exact .hoisted hKind
    | inclusion =>
        rcases unresolved_or_leadsTo env hKind with ⟨problem, hTarget⟩ | ⟨p, hLeads⟩
        · rw [expandLine_of_unresolved hKind hTarget]
          exact .unresolved hKind hTarget
        · rw [expandLine_of_leadsTo hLeads]
          exact .included hLeads ((hFile p hLeads _).mpr rfl)

/-- Lines have exactly one run, whatever files include each other: that of their expansion. -/
theorem evaluatesLines_iff :
    env.EvaluatesLines chain number lines run ↔ run = env.expandLines chain number lines := by
  -- the induction is the one that counts the files that are not in progress
  induction chain, number, lines using expandLines.induct env generalizing run with
  | case1 chain number =>
      rw [expandLines_nil]
      constructor
      · intro h
        cases h
        rfl
      · rintro rfl
        exact .nil chain number
  | case2 chain number line rest ihFile ihRest =>
      have hLine (run : Traced Interrupt (List Text)) :
          env.EvaluatesLine chain number line run ↔ run = env.expandLine chain number line :=
        evaluatesLine_step fun p hLeads _ => evaluatesFile_step fun hNew content _ =>
          ihFile p (leadsTo_iff_target.mp hLeads).2.1 hNew content.lines
      rw [expandLines_cons]
      constructor
      · intro h
        cases h with
        | stop first hStop =>
            cases (hLine _).mp first
            rw [Traced.bind_of_error _ hStop]
        | cons first hFirst others =>
            cases (hLine _).mp first
            rw [Traced.bind_of_ok _ hFirst, ihRest.mp others]
            cases hRest : (env.expandLines chain (number + 1) rest).outcome with
            | error i => simp [Traced.bind_of_error _ hRest, Except.map]
            | ok others => simp [Traced.bind_of_ok _ hRest, Except.map]
      · rintro rfl
        have first := (hLine _).mpr rfl
        cases hFirst : (env.expandLine chain number line).outcome with
        | error i =>
            rw [Traced.bind_of_error _ hFirst]
            exact .stop first hFirst
        | ok entries =>
            have all := EvaluatesLines.cons first hFirst (ihRest.mpr rfl)
            rw [Traced.bind_of_ok _ hFirst]
            cases hRest : (env.expandLines chain (number + 1) rest).outcome with
            | error i => simpa [Traced.bind_of_error _ hRest, Except.map, hRest] using all
            | ok others => simpa [Traced.bind_of_ok _ hRest, Except.map, hRest] using all

theorem evaluatesFile_iff : env.EvaluatesFile chain p file ↔ file = env.expandFile chain p :=
  evaluatesFile_step fun _ _ _ => evaluatesLines_iff

theorem evaluatesLine_iff :
    env.EvaluatesLine chain number line run ↔ run = env.expandLine chain number line :=
  evaluatesLine_step fun _ _ _ => evaluatesFile_iff

end Environment

namespace Effect

open Environment

/-- What becomes of a section after the run of its lines. -/
def conclude (macros : Macros) (run : Traced Interrupt (List Text)) :
    Traced StoreError (Except Problem Text) :=
  match run.outcome with
  | .ok entries =>
    ⟨run.events, .ok (.ok (unit macros (Preamble.addAll ∅ run.hoistedLines) entries))⟩
  | .error (.cycle chain) =>
    ⟨run.events ++ noted (.circularInclude chain), .ok (.error (.circularInclude chain))⟩
  | .error (.store e) => ⟨run.events, .error e⟩

/-- The effect after the problems of one more section, before its outcome is entered. -/
def withProblems (x : Effect) (run : Traced StoreError (Except Problem Text)) : Effect :=
  { x with problems := x.problems ++ run.problems }

/-- The sections are assembled one after the other, until the store cannot be used any more. -/
inductive EvaluatesSections (env : Environment) (origin : Option Text) :
    Effect → List Section → Traced StoreError Effect → Prop where
  | nil (x : Effect) : EvaluatesSections env origin x [] ⟨[], .ok x⟩
  | stop {x : Effect} {part : Section} {rest : List Section} {run : Traced Interrupt (List Text)}
      {e : StoreError} (lines : env.EvaluatesLines origin.toList 1 part.lines run)
      (hStop : (conclude env.macros run).outcome = .error e) :
      EvaluatesSections env origin x (part :: rest) ⟨(conclude env.macros run).events, .error e⟩
  | cons {x next : Effect} {part : Section} {rest : List Section}
      {run : Traced Interrupt (List Text)} {verdict : Except Problem Text}
      {entered : Traced StoreError Effect} {later : Traced StoreError Effect}
      (lines : env.EvaluatesLines origin.toList 1 part.lines run)
      (hPart : (conclude env.macros run).outcome = .ok verdict)
      (hEnter : enter (x.withProblems (conclude env.macros run)) (idOf x.base part.name) verdict =
        entered)
      (hNext : entered.outcome = .ok next) (others : EvaluatesSections env origin next rest later) :
      EvaluatesSections env origin x (part :: rest)
        ⟨(conclude env.macros run).events ++ (entered.events ++ later.events), later.outcome⟩

variable {env : Environment} {origin : Option Text} {x : Effect} {lines : List Text}
  {parts : List Section} {run : Traced StoreError Effect}

theorem assemble_eq_conclude :
    assemble env origin lines = conclude env.macros (env.expandLines origin.toList 1 lines) := by
  rw [assemble, Traced.attempt_bind, conclude]
  cases (env.expandLines origin.toList 1 lines).outcome with
  | ok entries => simp
  | error i =>
      cases i with
      | cycle chain => rfl
      | store e => simp [Traced.fail]

/-- Sections have exactly one run. -/
theorem evaluatesSections_iff :
    EvaluatesSections env origin x parts run ↔ run = assembleAll env origin x parts := by
  induction parts generalizing x run with
  | nil =>
      constructor
      · intro h
        cases h
        rfl
      · rintro rfl
        exact .nil x
  | cons part rest ih =>
      rw [assembleAll]
      constructor
      · intro h
        cases h with
        | stop lines hStop =>
            cases evaluatesLines_iff.mp lines
            rw [← assemble_eq_conclude] at hStop ⊢
            rw [Traced.bind_of_error _ hStop]
        | cons lines hPart hEnter hNext others =>
            cases evaluatesLines_iff.mp lines
            cases hEnter
            rw [← assemble_eq_conclude] at hPart hNext ⊢
            cases ih.mp others
            rw [Traced.bind_of_ok _ hPart]
            dsimp only [withProblems] at hNext ⊢
            rw [Traced.bind_of_ok _ hNext]
      · rintro rfl
        have lines : env.EvaluatesLines origin.toList 1 part.lines _ := evaluatesLines_iff.mpr rfl
        cases hPart : (assemble env origin part.lines).outcome with
        | error e =>
            rw [Traced.bind_of_error _ hPart, assemble_eq_conclude]
            exact .stop lines (assemble_eq_conclude ▸ hPart)
        | ok verdict =>
            obtain ⟨next, hNext, -⟩ := outcome_enter
              (x.withProblems (assemble env origin part.lines)) (idOf x.base part.name) verdict
            dsimp only [withProblems] at hNext
            rw [Traced.bind_of_ok _ hPart, Traced.bind_of_ok _ hNext, assemble_eq_conclude]
            exact .cons lines (assemble_eq_conclude ▸ hPart) rfl (assemble_eq_conclude ▸ hNext)
              (ih.mpr rfl)

end Effect

end ShaderLibrary
