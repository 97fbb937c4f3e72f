import ShaderLibrary.Proofs.IncludeGraph

/-! What the expansion of lines, of one line and of one file does, case by case,
so that later proofs need not open the recursion. -/
namespace ShaderLibrary.Environment

variable {env : Environment} {chain rest : List Text} {number : Int} {line p content : Text}

/-- The record and the note that a problem leaves. -/
def noted (problem : Problem) : List Event :=
  [.logged ⟨.error, problem.message⟩, .reported problem]

theorem mem_events_headerName {m : Macros} {event : Event}
    (h : event ∈ (headerName m line).events) : ∃ key, event = .lookedUp key := by
  unfold headerName at h
  split at h
  · simp at h
  · split at h
    · next key _ _ =>
        rcases Traced.mem_events_bind_iff.mp h with h | ⟨value, -, h⟩
        · exact ⟨key, List.mem_singleton.mp h⟩
        · simp at h
    · cases h

/-- Looking for the file of a line only asks questions. -/
theorem mem_events_target {event : Event} (h : event ∈ (env.target line).events) :
    (∃ key, event = .lookedUp key) ∨ ∃ name, event = .sought name := by
  rcases Traced.mem_events_bind_iff.mp h with h | ⟨name, -, h⟩
  · exact Or.inl (mem_events_headerName h)
  · exact Or.inr ⟨name, List.mem_singleton.mp h⟩

@[simp] theorem expandLines_nil : env.expandLines chain number [] = pure [] := by
  rw [expandLines]

theorem expandLines_cons : env.expandLines chain number (line :: rest) = (do
    let entries ← env.expandLine chain number line
    let others ← env.expandLines chain (number + 1) rest
    pure (entries ++ others)) := by
  rw [expandLines, expandLine]

/-- Lines succeed together if each of them does, and their entries follow each other. -/
theorem outcome_expandLines_cons_eq_ok_iff {all : List Text} :
    (env.expandLines chain number (line :: rest)).outcome = .ok all ↔
      ∃ entries others, (env.expandLine chain number line).outcome = .ok entries ∧
        (env.expandLines chain (number + 1) rest).outcome = .ok others ∧ all = entries ++ others := by
  simp only [expandLines_cons, Traced.outcome_bind_eq_ok_iff, Traced.outcome_pure, Except.ok.injEq]
  constructor
  · rintro ⟨entries, hLine, others, hRest, rfl⟩
    exact ⟨entries, others, hLine, hRest, rfl⟩
  · rintro ⟨entries, others, hLine, hRest, rfl⟩
    exact ⟨entries, hLine, others, hRest, rfl⟩

/-- The first line that fails decides the failure of all. -/
theorem outcome_expandLines_cons_eq_error_iff {i : Interrupt} :
    (env.expandLines chain number (line :: rest)).outcome = .error i ↔
      (env.expandLine chain number line).outcome = .error i ∨
        ∃ entries, (env.expandLine chain number line).outcome = .ok entries ∧
          (env.expandLines chain (number + 1) rest).outcome = .error i := by
  simp [expandLines_cons, Traced.outcome_bind_eq_error_iff]

theorem events_expandLines_cons {entries : List Text}
    (h : (env.expandLine chain number line).outcome = .ok entries) :
    (env.expandLines chain number (line :: rest)).events =
      (env.expandLine chain number line).events ++
        (env.expandLines chain (number + 1) rest).events := by
  rw [expandLines_cons, Traced.bind_of_ok _ h]
  cases hRest : (env.expandLines chain (number + 1) rest).outcome with
  | error i => rw [Traced.bind_of_error _ hRest]
  | ok others => simp [Traced.bind_of_ok _ hRest]

theorem expandLine_of_plain (hKind : LineKind.of line = .plain) :
    env.expandLine chain number line = ⟨[], .ok [line]⟩ := by
  rw [expandLine, entriesWith, hKind]
  rfl

theorem expandLine_of_hoisted (hKind : LineKind.of line = .hoisted) :
    env.expandLine chain number line = ⟨[.hoisted line], .ok [lineMarker (number + 1)]⟩ := by
  rw [expandLine, entriesWith, hKind]
  rfl

/-- An include line that leads nowhere costs its problem and leaves an empty text. -/
theorem expandLine_of_unresolved {problem : Problem} (hKind : LineKind.of line = .inclusion)
    (hTarget : (env.target line).outcome = .error problem) :
    env.expandLine chain number line =
      ⟨(env.target line).events ++ noted problem, .ok [[], lineMarker (number + 1)]⟩ := by
  rw [expandLine, entriesWith, hKind]
  simp only [Traced.attempt_bind, hTarget]
  rfl

/-- An include line that leads to a file stands for the text of that file. -/
theorem expandLine_of_leadsTo (hLeads : env.LeadsTo line p) :
    env.expandLine chain number line =
      ⟨(env.target line).events ++ (env.expandFile chain p).events,
        (env.expandFile chain p).outcome.map fun text => [text, lineMarker (number + 1)]⟩ := by
  obtain ⟨hKind, listed, hTarget⟩ := leadsTo_iff_target.mp hLeads
  rw [expandLine, entriesWith, hKind]
  simp only [Traced.attempt_bind, hTarget]
  change (⟨(env.target line).events ++ (env.expandFile chain p >>= _).events,
    (env.expandFile chain p >>= _).outcome⟩ : Traced _ _) = _
  cases hFile : (env.expandFile chain p).outcome with
  | error i => rw [Traced.bind_of_error _ hFile]; rfl
  | ok text => rw [Traced.bind_of_ok _ hFile]; simp [Except.map]

theorem outcome_expandLine_of_leadsTo_eq_ok_iff {entries : List Text} (hLeads : env.LeadsTo line p) :
    (env.expandLine chain number line).outcome = .ok entries ↔
      ∃ text, (env.expandFile chain p).outcome = .ok text ∧
        entries = [text, lineMarker (number + 1)] := by
  rw [expandLine_of_leadsTo hLeads]
  cases (env.expandFile chain p).outcome with
  | error i => simp [Except.map]
  | ok text => simp [Except.map, eq_comm]

theorem outcome_expandLine_of_leadsTo_eq_error_iff {i : Interrupt} (hLeads : env.LeadsTo line p) :
    (env.expandLine chain number line).outcome = .error i ↔
      (env.expandFile chain p).outcome = .error i := by
  rw [expandLine_of_leadsTo hLeads]
  cases (env.expandFile chain p).outcome <;> simp [Except.map]

/-- Every include line is of one of the two kinds above. -/
theorem unresolved_or_leadsTo (env : Environment) (hKind : LineKind.of line = .inclusion) :
    (∃ problem, (env.target line).outcome = .error problem) ∨ ∃ p, env.LeadsTo line p := by
  cases hTarget : (env.target line).outcome with
  | error problem => exact Or.inl ⟨problem, rfl⟩
  | ok target => exact Or.inr ⟨target.1, leadsTo_iff_target.mpr ⟨hKind, target.2, hTarget⟩⟩

/-- A file in progress ends the expansion before it is read. -/
theorem expandFile_of_mem (hMem : p ∈ chain) :
    env.expandFile chain p = ⟨[], .error (.cycle (chain ++ [p]))⟩ := by
  rw [expandFile, inlineWith, dif_pos hMem]
  rfl

/-- A file that the store refuses costs a problem and leaves an empty text. -/
theorem expandFile_of_refused {e : StoreError} (hNew : p ∉ chain)
    (hRead : env.store.readText p = .error e) (hRefusal : e.isRefusal = true) :
    env.expandFile chain p =
      ⟨.read p :: noted (.unresolvedInclude p e.message), .ok []⟩ := by
  rw [expandFile, inlineWith, dif_neg hNew]
  simp only [Traced.attempt_bind, Traced.readText, hRead, hRefusal]
  rfl

/-- A store that cannot be used any more ends the expansion. -/
theorem expandFile_of_broken {e : StoreError} (hNew : p ∉ chain)
    (hRead : env.store.readText p = .error e) (hRefusal : e.isRefusal = false) :
    env.expandFile chain p = ⟨[.read p], .error (.store e)⟩ := by
  rw [expandFile, inlineWith, dif_neg hNew]
  simp only [Traced.attempt_bind, Traced.readText, hRead, hRefusal]
  rfl

/-- The text of a file is its entries below a marker for its first line. -/
theorem expandFile_of_read (hNew : p ∉ chain) (hRead : env.store.readText p = .ok content) :
    env.expandFile chain p =
      ⟨.read p :: .opened p :: (env.expandLines (chain ++ [p]) 1 content.lines).events ++ [.closed p],
        (env.expandLines (chain ++ [p]) 1 content.lines).outcome.map fun entries =>
          Text.joinLines (lineMarker 1 :: entries)⟩ := by
  rw [expandFile, inlineWith, dif_neg hNew]
  simp only [Traced.attempt_bind, Traced.readText, hRead]
  cases hRun : (env.expandLines (chain ++ [p]) 1 content.lines).outcome with
  | error i =>
      rw [Traced.bind_of_error _ (show (Traced.within p _).outcome = _ from hRun)]
      rfl
  | ok entries =>
      rw [Traced.bind_of_ok _ (show (Traced.within p _).outcome = _ from hRun)]
      simp [Traced.within, Except.map]

/-- A file succeeds if it is not in progress, and it is refused or its lines succeed. -/
theorem outcome_expandFile_eq_ok_iff {text : Text} :
    (env.expandFile chain p).outcome = .ok text ↔ p ∉ chain ∧
      ((∃ e, env.store.readText p = .error e ∧ e.isRefusal = true ∧ [] = text) ∨
        ∃ content entries, env.store.readText p = .ok content ∧
          (env.expandLines (chain ++ [p]) 1 content.lines).outcome = .ok entries ∧
          Text.joinLines (lineMarker 1 :: entries) = text) := by
  by_cases hMem : p ∈ chain
  · simp [expandFile_of_mem hMem, hMem]
  · cases hRead : env.store.readText p with
    | error e =>
        cases hRefusal : e.isRefusal with
        | false => simp [expandFile_of_broken hMem hRead hRefusal, hRefusal]
        | true => simp [expandFile_of_refused hMem hRead hRefusal, hMem, hRefusal]
    | ok content =>
        rw [expandFile_of_read hMem hRead]
        cases hRun : (env.expandLines (chain ++ [p]) 1 content.lines).outcome with
        | error i => simp [Except.map, hRun]
        | ok entries => simp [Except.map, hMem, hRun]

/-- A file fails if it is in progress, if the store cannot be used, or as its lines fail. -/
theorem outcome_expandFile_eq_error_iff {i : Interrupt} :
    (env.expandFile chain p).outcome = .error i ↔
      (p ∈ chain ∧ .cycle (chain ++ [p]) = i) ∨ (p ∉ chain ∧
        ((∃ e, env.store.readText p = .error e ∧ e.isRefusal = false ∧ .store e = i) ∨
          ∃ content, env.store.readText p = .ok content ∧
            (env.expandLines (chain ++ [p]) 1 content.lines).outcome = .error i)) := by
  by_cases hMem : p ∈ chain
  · simp [expandFile_of_mem hMem, hMem]
  · cases hRead : env.store.readText p with
    | error e =>
        cases hRefusal : e.isRefusal with
        | false => simp [expandFile_of_broken hMem hRead hRefusal, hMem, hRefusal]
        | true => simp [expandFile_of_refused hMem hRead hRefusal, hMem, hRefusal]
    | ok content =>
        rw [expandFile_of_read hMem hRead]
        cases hRun : (env.expandLines (chain ++ [p]) 1 content.lines).outcome with
        | error i => simp [Except.map, hMem, hRun]
        | ok entries => simp [Except.map, hMem, hRun]

end ShaderLibrary.Environment
