import ShaderLibrary.Proofs.Splitting

/-! What the expansion of a section reports. A reader who goes through the include lines in
depth-first order, and knows which files are in progress, meets every problem where it is reported,
and each of them once for every visit of the line that costs it. -/
namespace ShaderLibrary

/-- The record of a problem in the journal. -/
def Problem.record (problem : Problem) : Record := ⟨.error, problem.message⟩

/-- The events note these problems, in this order, each with a record in the journal, and nothing
else is recorded. -/
structure Tells (events : List Event) (problems : List Problem) : Prop where
  noted : events.filterMap Event.reported? = problems
  logged : events.filterMap Event.logged? = problems.map Problem.record

namespace Tells

variable {events later : List Event} {problems others : List Problem} {p : Text}

theorem append (h : Tells events problems) (h' : Tells later others) :
    Tells (events ++ later) (problems ++ others) where
  noted := by rw [List.filterMap_append, h.noted, h'.noted]
  logged := by rw [List.filterMap_append, h.logged, h'.logged, List.map_append]

theorem noted_singleton (problem : Problem) : Tells (Environment.noted problem) [problem] := ⟨rfl, rfl⟩

/-- Events that are neither notes nor records tell nothing. -/
theorem quiet (h : ∀ event ∈ events, event.reported? = none ∧ event.logged? = none) :
    Tells events [] where
  noted := List.filterMap_eq_nil_iff.mpr fun event hEvent => (h event hEvent).1
  logged := List.filterMap_eq_nil_iff.mpr fun event hEvent => (h event hEvent).2

theorem target (env : Environment) (line : Text) : Tells (env.target line).events [] := by
  apply quiet
  intro event hEvent
  rcases Environment.mem_events_target hEvent with ⟨key, rfl⟩ | ⟨name, rfl⟩
  · exact ⟨rfl, rfl⟩
  · exact ⟨rfl, rfl⟩

theorem file (h : Tells events problems) (p : Text) :
    Tells (.read p :: .opened p :: events ++ [.closed p]) problems := by
  have hAround : Tells ([.read p, .opened p] ++ events ++ [.closed p]) ([] ++ problems ++ []) :=
    append (append ⟨rfl, rfl⟩ h) ⟨rfl, rfl⟩
  simpa using hAround

/-- All that is recorded are errors. -/
theorem errors_eq {ε α : Type} {run : Traced ε α} (h : Tells run.events problems) :
    run.errors = run.problems.map Problem.record := by
  rw [Traced.errors, Traced.records, Traced.problems, h.noted, h.logged]
  apply List.filter_eq_self.mpr
  intro record hMem
  obtain ⟨problem, -, rfl⟩ := List.mem_map.mp hMem
  rfl

end Tells

/-- What a line makes of the expansion: nothing, if it includes nothing, or a problem in place
of a text, or the content of a file, or a way back into a file in progress. -/
inductive Turn where
  | past
  | missed (problem : Problem)
  | opened (path content : Text)
  | back (cycle : List Text)

/-- A visit of an include line, and its problem if it has one. -/
structure Call where
  line : Text
  problem? : Option Problem
deriving DecidableEq, Repr

namespace Environment

variable {env : Environment} {chain lines rest cycle : List Text} {number : Int} {line p : Text}
  {problem : Problem} {turn : Turn} {calls : List Call} {ending : Option (List Text)}

/-- The turn that a line takes while the files of `chain` are in progress. There are four ways to
miss a file: the line has no second word, its macro is not defined, its name is not in the catalog,
or the file of that name cannot be read. -/
inductive Takes (env : Environment) (chain : List Text) (line : Text) : Turn → Prop where
  | past (hKind : LineKind.of line ≠ .inclusion) : env.Takes chain line .past
  | tooShort (hKind : LineKind.of line = .inclusion) (hUnquoted : quotedName? line = none)
      (hShort : line.words.length < 2) :
      env.Takes chain line (.missed (.unresolvedInclude line "too few tokens".toList))
  | undefined {first key : Text} {others : List Text} (hKind : LineKind.of line = .inclusion)
      (hUnquoted : quotedName? line = none) (hWords : line.words = first :: key :: others)
      (hKey : env.macros.bindings.get? key = none) :
      env.Takes chain line (.missed (.undefinedMacro key line))
  | unlisted {name : Text} (hKind : LineKind.of line = .inclusion)
      (hName : (headerName env.macros line).outcome = .ok name)
      (hUnlisted : env.catalog.find? name = none) :
      env.Takes chain line (.missed (.unresolvedInclude line (Problem.unknownFile name).message))
  | unread {p : Text} {e : StoreError} (hLeads : env.LeadsTo line p) (hNew : p ∉ chain)
      (hRead : env.store.readText p = .error e) :
      env.Takes chain line (.missed (.unresolvedInclude p e.message))
  | opened {p content : Text} (hLeads : env.LeadsTo line p) (hNew : p ∉ chain)
      (hRead : env.store.readText p = .ok content) : env.Takes chain line (.opened p content)
  | back {p : Text} (hLeads : env.LeadsTo line p) (hKnown : p ∈ chain) :
      env.Takes chain line (.back (chain ++ [p]))

/-- The way through lines in depth-first order: the visits of include lines, and the cycle that ends
it if there is one. A file is gone through at every line that leads to it, and after a cycle there
is no way on. -/
inductive Walk (env : Environment) : List Text → List Text → List Call → Option (List Text) → Prop where
  | done (chain : List Text) : Walk env chain [] [] none
  | past {chain rest : List Text} {line : Text} {calls : List Call} {ending : Option (List Text)}
      (hTurn : env.Takes chain line .past) (onward : Walk env chain rest calls ending) :
      Walk env chain (line :: rest) calls ending
  | missed {chain rest : List Text} {line : Text} {calls : List Call} {ending : Option (List Text)}
      {problem : Problem} (hTurn : env.Takes chain line (.missed problem))
      (onward : Walk env chain rest calls ending) :
      Walk env chain (line :: rest) (⟨line, some problem⟩ :: calls) ending
  | opened {chain rest : List Text} {line p content : Text} {inner calls : List Call}
      {ending : Option (List Text)} (hTurn : env.Takes chain line (.opened p content))
      (inside : Walk env (chain ++ [p]) content.lines inner none)
      (onward : Walk env chain rest calls ending) :
      Walk env chain (line :: rest) (⟨line, none⟩ :: inner ++ calls) ending
  | caught {chain rest cycle : List Text} {line p content : Text} {inner : List Call}
      (hTurn : env.Takes chain line (.opened p content))
      (inside : Walk env (chain ++ [p]) content.lines inner (some cycle)) :
      Walk env chain (line :: rest) (⟨line, none⟩ :: inner) (some cycle)
  | back {chain rest cycle : List Text} {line : Text} (hTurn : env.Takes chain line (.back cycle)) :
      Walk env chain (line :: rest) [] (some cycle)

theorem outcome_headerName_eq_error_iff {m : Macros} :
    (headerName m line).outcome = .error problem ↔ quotedName? line = none ∧
      ((line.words.length < 2 ∧ .unresolvedInclude line "too few tokens".toList = problem) ∨
        ∃ first key others, line.words = first :: key :: others ∧ m.bindings.get? key = none ∧
          .undefinedMacro key line = problem) := by
  rw [headerName]
  cases hQuoted : quotedName? line with
  | some name => simp
  | none =>
      match hWords : line.words with
      | [] => simp [Traced.fail]
      | [word] => simp [Traced.fail]
      | first :: key :: others =>
          simp only [Traced.outcome_bind_eq_error_iff, Macros.lookup]
          cases hKey : m.bindings.get? key with
          | none => simp [hKey]
          | some value => simp [hKey]

/-- The three ways to miss a file before it is looked for in the store. -/
theorem takes_of_unresolved (hKind : LineKind.of line = .inclusion)
    (hTarget : (env.target line).outcome = .error problem) :
    env.Takes chain line (.missed problem) := by
  rcases outcome_target_eq_error_iff.mp hTarget with hName | ⟨name, hName, hUnlisted, rfl⟩
  · obtain ⟨hUnquoted, ⟨hShort, rfl⟩ | ⟨first, key, others, hWords, hKey, rfl⟩⟩ :=
      outcome_headerName_eq_error_iff.mp hName
    · exact .tooShort hKind hUnquoted hShort
    · exact .undefined hKind hUnquoted hWords hKey
  · exact .unlisted hKind hName hUnlisted

theorem Takes.unresolved_or_unread (h : env.Takes chain line (.missed problem)) :
    (LineKind.of line = .inclusion ∧ (env.target line).outcome = .error problem) ∨
      ∃ p e, env.LeadsTo line p ∧ p ∉ chain ∧ env.store.readText p = .error e ∧
        problem = .unresolvedInclude p e.message := by
  cases h with
  | tooShort hKind hUnquoted hShort =>
      have hName : (headerName env.macros line).outcome = .error _ :=
        outcome_headerName_eq_error_iff.mpr ⟨hUnquoted, Or.inl ⟨hShort, rfl⟩⟩
      exact Or.inl ⟨hKind, outcome_target_eq_error_iff.mpr (Or.inl hName)⟩
  | undefined hKind hUnquoted hWords hKey =>
      have hName : (headerName env.macros line).outcome = .error _ :=
        outcome_headerName_eq_error_iff.mpr ⟨hUnquoted, Or.inr ⟨_, _, _, hWords, hKey, rfl⟩⟩
      exact Or.inl ⟨hKind, outcome_target_eq_error_iff.mpr (Or.inl hName)⟩
  | unlisted hKind hName hUnlisted =>
      exact Or.inl ⟨hKind, outcome_target_eq_error_iff.mpr (Or.inr ⟨_, hName, hUnlisted, rfl⟩)⟩
  | unread hLeads hNew hRead => exact Or.inr ⟨_, _, hLeads, hNew, hRead, rfl⟩

/-- The turn of a line, computed. -/
def turnOf (env : Environment) (chain : List Text) (line : Text) : Turn :=
  if LineKind.of line = .inclusion then
    match (env.target line).outcome with
    | .error problem => .missed problem
    | .ok file =>
      if file.1 ∈ chain then .back (chain ++ [file.1])
      else match env.store.readText file with
        | .error e => .missed (.unresolvedInclude file e.message)
        | .ok content => .opened file content
  else .past

theorem Takes.eq_turnOf (h : env.Takes chain line turn) : turn = env.turnOf chain line := by
  cases turn with
  | past =>
      cases h with
      | past hKind => rw [turnOf, if_neg hKind]
  | missed problem =>
      rcases h.unresolved_or_unread with ⟨hKind, hTarget⟩ | ⟨p, e, hLeads, hNew, hRead, rfl⟩
      · rw [turnOf, if_pos hKind, hTarget]
      · obtain ⟨hKind, listed, hTarget⟩ := leadsTo_iff_target.mp hLeads
        simp [turnOf, hKind, hTarget, hNew, hRead]
  | opened p content =>
      cases h with
      | opened hLeads hNew hRead =>
          obtain ⟨hKind, listed, hTarget⟩ := leadsTo_iff_target.mp hLeads
          simp [turnOf, hKind, hTarget, hNew, hRead]
  | back cycle =>
      cases h with
      | back hLeads hKnown =>
          obtain ⟨hKind, listed, hTarget⟩ := leadsTo_iff_target.mp hLeads
          simp [turnOf, hKind, hTarget, hKnown]

theorem Takes.unique {other : Turn} (h : env.Takes chain line turn)
    (h' : env.Takes chain line other) : turn = other :=
  h.eq_turnOf.trans h'.eq_turnOf.symm

/-- There is one way through given lines at most. -/
theorem Walk.unique {calls' : List Call} {ending' : Option (List Text)}
    (h : env.Walk chain lines calls ending) (h' : env.Walk chain lines calls' ending') :
    calls' = calls ∧ ending' = ending := by
  induction h generalizing calls' ending' with
  | done chain =>
      cases h'
      exact ⟨rfl, rfl⟩
  | past hTurn onward ih =>
      cases h' with
      | past _ onward' => exact ih onward'
      | missed hTurn' _ | opened hTurn' _ _ | caught hTurn' _ | back hTurn' =>
          cases hTurn.unique hTurn'
  | missed hTurn onward ih =>
      cases h' with
      | missed hTurn' onward' =>
          cases hTurn.unique hTurn'
          obtain ⟨rfl, rfl⟩ := ih onward'
          exact ⟨rfl, rfl⟩
      | past hTurn' _ | opened hTurn' _ _ | caught hTurn' _ | back hTurn' =>
          cases hTurn.unique hTurn'
  | opened hTurn inside onward ihInside ih =>
      cases h' with
      | opened hTurn' inside' onward' =>
          cases hTurn.unique hTurn'
          obtain ⟨rfl, -⟩ := ihInside inside'
          obtain ⟨rfl, rfl⟩ := ih onward'
          exact ⟨rfl, rfl⟩
      | caught hTurn' inside' =>
          cases hTurn.unique hTurn'
          cases (ihInside inside').2
      | past hTurn' _ | missed hTurn' _ | back hTurn' => cases hTurn.unique hTurn'
  | caught hTurn inside ih =>
      cases h' with
      | caught hTurn' inside' =>
          cases hTurn.unique hTurn'
          obtain ⟨rfl, hEnding⟩ := ih inside'
          exact ⟨rfl, hEnding⟩
      | opened hTurn' inside' _ =>
          cases hTurn.unique hTurn'
          cases (ih inside').2
      | past hTurn' _ | missed hTurn' _ | back hTurn' => cases hTurn.unique hTurn'
  | back hTurn =>
      cases h' with
      | back hTurn' =>
          cases hTurn.unique hTurn'
          exact ⟨rfl, rfl⟩
      | past hTurn' _ | missed hTurn' _ | opened hTurn' _ _ | caught hTurn' _ =>
          cases hTurn.unique hTurn'

/-- A run reports the problems of these calls, and fails for the cycle at their end if there is one,
and for nothing else. -/
structure Follows {α : Type} (run : Traced Interrupt α) (calls : List Call)
    (ending : Option (List Text)) : Prop where
  tells : Tells run.events (calls.filterMap Call.problem?)
  ends : ∀ i, run.outcome = .error i ↔ ∃ cycle, ending = some cycle ∧ i = .cycle cycle

theorem follows_of_ok {α : Type} {run : Traced Interrupt α} {a : α}
    (hTells : Tells run.events (calls.filterMap Call.problem?)) (hDone : run.outcome = .ok a) :
    Follows run calls none where
  tells := hTells
  ends i := by simp [hDone]

theorem follows_of_cycle {α : Type} {run : Traced Interrupt α}
    (hTells : Tells run.events (calls.filterMap Call.problem?))
    (hCycle : run.outcome = .error (.cycle cycle)) : Follows run calls (some cycle) where
  tells := hTells
  ends i := by simp [hCycle, eq_comm]

theorem Follows.exists_outcome {α : Type} {run : Traced Interrupt α} (h : Follows run calls none) :
    ∃ a, run.outcome = .ok a := by
  cases hDone : run.outcome with
  | ok a => exact ⟨a, rfl⟩
  | error i =>
      obtain ⟨cycle, hEnding, -⟩ := (h.ends i).mp hDone
      cases hEnding

/-- A line that misses a file reports that, and goes on. -/
theorem follows_of_missed (hStore : env.store.RefusesOnly)
    (hTurn : env.Takes chain line (.missed problem)) (number : Int) :
    Follows (env.expandLine chain number line) [⟨line, some problem⟩] none := by
  rcases hTurn.unresolved_or_unread with ⟨hKind, hTarget⟩ | ⟨p, e, hLeads, hNew, hRead, rfl⟩
  · rw [expandLine_of_unresolved hKind hTarget]
    exact follows_of_ok ((Tells.target env line).append (.noted_singleton problem)) rfl
  · rw [expandLine_of_leadsTo hLeads, expandFile_of_refused hNew hRead (hStore p e hRead)]
    have hRefused : Tells (.read p :: noted (.unresolvedInclude p e.message))
        [.unresolvedInclude p e.message] := ⟨rfl, rfl⟩
    exact follows_of_ok ((Tells.target env line).append hRefused) rfl

/-- A line that opens a file reports what the file does, and fails as it does. -/
theorem follows_of_opened {content : Text} {inner : List Call}
    (hTurn : env.Takes chain line (.opened p content)) (number : Int)
    (hInside : Follows (env.expandLines (chain ++ [p]) 1 content.lines) inner ending) :
    Follows (env.expandLine chain number line) (⟨line, none⟩ :: inner) ending := by
  cases hTurn with
  | opened hLeads hNew hRead =>
      rw [expandLine_of_leadsTo hLeads, expandFile_of_read hNew hRead]
      constructor
      · exact (Tells.target env line).append (hInside.tells.file p)
      · intro i
        rw [← hInside.ends i]
        cases (env.expandLines (chain ++ [p]) 1 content.lines).outcome <;> simp [Except.map]

/-- A line that leads back reports nothing itself, and fails for the cycle. -/
theorem follows_of_back (hTurn : env.Takes chain line (.back cycle)) (number : Int) :
    Follows (env.expandLine chain number line) [] (some cycle) := by
  cases hTurn with
  | back hLeads hKnown =>
      rw [expandLine_of_leadsTo hLeads, expandFile_of_mem hKnown]
      exact follows_of_cycle ((Tells.target env line).append ⟨rfl, rfl⟩) rfl

theorem follows_of_past (hTurn : env.Takes chain line .past) (number : Int) :
    Follows (env.expandLine chain number line) [] none := by
  cases hTurn with
  | past hKind =>
      cases hOther : LineKind.of line with
      | inclusion => exact absurd hOther hKind
      | plain =>
          rw [expandLine_of_plain hOther]
          exact follows_of_ok ⟨rfl, rfl⟩ rfl
      | hoisted =>
          rw [expandLine_of_hoisted hOther]
          exact follows_of_ok ⟨rfl, rfl⟩ rfl

/-- After a line that goes on come the lines behind it. -/
theorem Follows.onward {later : List Call} (hLine : Follows (env.expandLine chain number line) calls none)
    (hRest : Follows (env.expandLines chain (number + 1) rest) later ending) :
    Follows (env.expandLines chain number (line :: rest)) (calls ++ later) ending := by
  obtain ⟨entries, hDone⟩ := hLine.exists_outcome
  constructor
  · rw [events_expandLines_cons hDone, List.filterMap_append]
    exact hLine.tells.append hRest.tells
  · intro i
    simp [outcome_expandLines_cons_eq_error_iff, hDone, hRest.ends i]

/-- After a line that ends in a cycle comes nothing. -/
theorem Follows.stop (hLine : Follows (env.expandLine chain number line) calls (some cycle))
    (rest : List Text) : Follows (env.expandLines chain number (line :: rest)) calls (some cycle) := by
  have hCycle := (hLine.ends (.cycle cycle)).mpr ⟨cycle, rfl, rfl⟩
  have hRun : env.expandLines chain number (line :: rest) =
      ⟨(env.expandLine chain number line).events, .error (.cycle cycle)⟩ := by
    rw [expandLines_cons, Traced.bind_of_error _ hCycle]
  rw [hRun]
  exact follows_of_cycle hLine.tells rfl

theorem exists_takes (env : Environment) (chain : List Text) (line : Text) :
    ∃ turn, env.Takes chain line turn := by
  by_cases hKind : LineKind.of line = .inclusion
  · rcases unresolved_or_leadsTo env hKind with ⟨problem, hTarget⟩ | ⟨p, hLeads⟩
    · exact ⟨_, takes_of_unresolved hKind hTarget⟩
    · by_cases hKnown : p ∈ chain
      · exact ⟨_, .back hLeads hKnown⟩
      · cases hRead : env.store.readText p with
        | error e => exact ⟨_, .unread hLeads hKnown hRead⟩
        | ok content => exact ⟨_, .opened hLeads hKnown hRead⟩
  · exact ⟨_, .past hKind⟩

/-- Every expansion follows a way through its lines. -/
theorem exists_walk (hStore : env.store.RefusesOnly) (chain : List Text) (number : Int)
    (lines : List Text) : ∃ calls ending, env.Walk chain lines calls ending ∧
      Follows (env.expandLines chain number lines) calls ending := by
  induction chain, number, lines using expandLines.induct env with
  | case1 chain number =>
      rw [expandLines_nil]
      exact ⟨[], none, .done chain, follows_of_ok ⟨rfl, rfl⟩ rfl⟩
  | case2 chain number line rest ihFile ihRest =>
      obtain ⟨later, last, hWalk, hRest⟩ := ihRest
      obtain ⟨turn, hTurn⟩ := env.exists_takes chain line
      cases turn with
      | past => exact ⟨later, last, .past hTurn hWalk, (follows_of_past hTurn number).onward hRest⟩
      | missed problem =>
          exact ⟨_, last, .missed hTurn hWalk, (follows_of_missed hStore hTurn number).onward hRest⟩
      | back cycle => exact ⟨[], _, .back hTurn, (follows_of_back hTurn number).stop rest⟩
      | opened p content =>
          have hOpened : p ∈ env.catalog.files ∧ p ∉ chain := by
            cases hTurn with
            | opened hLeads hNew hRead => exact ⟨(leadsTo_iff_target.mp hLeads).2.1, hNew⟩
          obtain ⟨inner, innerEnd, hInner, hInside⟩ := ihFile p hOpened.1 hOpened.2 content.lines
          have hLine := follows_of_opened hTurn number hInside
          -- a cycle inside of the file is one of the includer as well
          cases innerEnd with
          | none => exact ⟨_, last, .opened hTurn hInner hWalk, hLine.onward hRest⟩
          | some cycle => exact ⟨_, _, .caught hTurn hInner, hLine.stop rest⟩

end Environment

namespace Effect

variable {env : Environment} {origin : Option Text} {x y : Effect} {base source id : Text}
  {lines : List Text} {calls : List Call} {ending : Option (List Text)} {parts : List Section}
  {verdict : Except Problem Text}

/-- A section reports what its expansion does, and the cycle that it ends in. -/
theorem tells_assemble (h : Environment.Follows (env.expandLines origin.toList 1 lines) calls ending) :
    Tells (assemble env origin lines).events
      (calls.filterMap Call.problem? ++ ending.toList.map .circularInclude) := by
  simp only [assemble, Traced.attempt_bind]
  apply h.tells.append
  cases hDone : (env.expandLines origin.toList 1 lines).outcome with
  | ok entries =>
      cases ending with
      | none => exact ⟨rfl, rfl⟩
      | some cycle =>
          have hCycle := (h.ends (.cycle cycle)).mpr ⟨cycle, rfl, rfl⟩
          cases hDone.symm.trans hCycle
  | error i =>
      obtain ⟨cycle, rfl, rfl⟩ := (h.ends i).mp hDone
      exact Tells.noted_singleton (.circularInclude cycle)

theorem outcome_assemble_eq_cycle_iff {cycle : List Text}
    (h : Environment.Follows (env.expandLines origin.toList 1 lines) calls ending) :
    (assemble env origin lines).outcome = .ok (.error (.circularInclude cycle)) ↔
      ending = some cycle := by
  simp [outcome_assemble_eq_problem_iff, h.ends]

theorem errors_enter : (enter x id verdict).errors = [] := by
  unfold enter
  split
  · rfl
  · cases verdict <;> rfl

/-- The errors in the journal are the problems of the sections, one after the other. -/
theorem errors_assembleAll (hStore : env.store.RefusesOnly)
    (hDone : (assembleAll env origin x parts).outcome = .ok y) :
    (assembleAll env origin x parts).errors =
      (parts.flatMap (problemsIn env origin)).map Problem.record := by
  induction parts generalizing x with
  | nil => rfl
  | cons part rest ih =>
      obtain ⟨verdict, between, hPart, hEnter, hRest⟩ := outcome_assembleAll_cons_eq_ok_iff.mp hDone
      obtain ⟨calls, ending, -, hFollows⟩ :=
        Environment.exists_walk hStore origin.toList 1 part.lines
      have hHere : (assemble env origin part.lines).errors =
          (problemsIn env origin part).map Problem.record := (tells_assemble hFollows).errors_eq
      have hNone := @errors_enter
        { x with problems := x.problems ++ (assemble env origin part.lines).problems }
        (idOf x.base part.name) verdict
      have hLater := ih hRest
      simp only [Traced.errors, Traced.records] at hHere hNone hLater ⊢
      rw [events_assembleAll_cons hPart hEnter]
      simp only [List.filterMap_append, List.filter_append, hHere, hNone, hLater, List.flatMap_cons,
        List.map_append, List.nil_append]

/-- What is reported while a file is read as an effect. -/
structure ReportsAll (env : Environment) (base source : Text) (origin : Option Text) (x : Effect) :
    Prop where
  outcome : (ofText env base source origin).outcome = .ok x
  /-- The journal has the problems of the effect as its errors, and no others. -/
  errors : (ofText env base source origin).errors = x.problems.map Problem.record
  problems : x.problems = (Section.ofText source).flatMap (problemsIn env origin)
  /-- The problems of a section are those of the calls on the one way through it, each in its place,
  and behind them the cycle that the way ends in, if there is one. -/
  walk : ∀ part ∈ Section.ofText source, ∃ calls ending,
    env.Walk origin.toList part.lines calls ending ∧
    (∀ calls' ending', env.Walk origin.toList part.lines calls' ending' →
      calls' = calls ∧ ending' = ending) ∧
    problemsIn env origin part =
      calls.filterMap Call.problem? ++ ending.toList.map .circularInclude ∧
    ∀ cycle, (assemble env origin part.lines).outcome = .ok (.error (.circularInclude cycle)) ↔
      ending = some cycle

/-- No failure of an include is silent, and none is reported twice. If the store only refuses, the
errors in the journal are the problems of the effect, in the same order, and in each section the
visits of include lines that miss a file cost one problem each, in depth-first order. All other
visits cost none. A section that meets a cycle reports what it met before and then the cycle. -/
theorem failures_reported (hStore : env.store.RefusesOnly) (base source : Text)
    (origin : Option Text) : ∃ x, ReportsAll env base source origin x := by
  obtain ⟨x, hDone⟩ := exists_outcome_ofText hStore base source origin
  have hProblems : x.problems = (Section.ofText source).flatMap (problemsIn env origin) :=
    problems_assembleAll hDone
  refine ⟨x, hDone, ?_, hProblems, ?_⟩
  · rw [hProblems]
    exact errors_assembleAll hStore hDone
  · intro part _
    obtain ⟨calls, ending, hWalk, hFollows⟩ :=
      Environment.exists_walk hStore origin.toList 1 part.lines
    exact ⟨calls, ending, hWalk, fun _ _ => hWalk.unique, (tells_assemble hFollows).noted,
      fun _ => outcome_assemble_eq_cycle_iff hFollows⟩

/-- Files that fail in every way: they ask for what is not there, and for each other. -/
def failing : Environment := Environment.ofMemory {} { files := ⟨[
  ("A".toList, some (Environment.asciiBytes "#include \x22Gone\x22\n#include \x22B\x22\n".toList)),
  ("B".toList, some (Environment.asciiBytes
    "#include KEY\n#include \x22A\x22\n#include \x22Gone\x22\n".toList)),
  ("Locked".toList, none)], by decide⟩ }

/-- A section with a cycle between other failures, and a section without one. -/
def failingSource : Text :=
  "-- V\n#include\n#include \x22A\x22\n#include \x22Locked\x22\n-- F\n#include \x22Locked\x22\n".toList

theorem failures_reported_failing : failing.store.RefusesOnly ∧
    ∃ x, ReportsAll failing "X".toList failingSource (some "X.glsl".toList) x ∧
      x.problems = [
        .unresolvedInclude "#include".toList "too few tokens".toList,
        .unresolvedInclude "#include \x22Gone\x22".toList "Unknown shader file name 'Gone'.".toList,
        .undefinedMacro "KEY".toList "#include KEY".toList,
        .circularInclude ["X.glsl".toList, "A".toList, "B".toList, "A".toList],
        .unresolvedInclude "Locked".toList "Locked".toList] := by
  have hStore : failing.store.RefusesOnly := Memory.refusesOnly_store _
  obtain ⟨x, hReports⟩ :=
    failures_reported hStore "X".toList failingSource (some "X.glsl".toList)
  have hSections : Section.ofText failingSource = [
      ⟨"V".toList, ["#include".toList, "#include \x22A\x22".toList, "#include \x22Locked\x22".toList]⟩,
      ⟨"F".toList, ["#include \x22Locked\x22".toList]⟩] := rfl
  refine ⟨hStore, x, hReports, ?_⟩
  rw [hReports.problems, hSections]
  simp only [List.flatMap_cons, List.flatMap_nil, problemsIn, assemble,
    Environment.expandLines_eq_expandWithin]
  rfl

end Effect

end ShaderLibrary
