import ShaderLibrary.Trace

/-! Runs in sequence. A run that succeeds hands its value on and its events stay
in front; a run that fails decides the outcome of the whole. -/
namespace ShaderLibrary.Traced

variable {ε ε₂ α β : Type}

/-- The warnings among the records of a run. -/
def warnings (run : Traced ε α) : List Record :=
  run.records.filter fun record => record.severity = .warning

/-- The errors among the records of a run. -/
def errors (run : Traced ε α) : List Record :=
  run.records.filter fun record => record.severity = .error

@[simp] theorem outcome_pure (a : α) : (pure a : Traced ε α).outcome = .ok a := rfl

@[simp] theorem events_pure (a : α) : (pure a : Traced ε α).events = [] := rfl

theorem bind_of_ok {run : Traced ε α} {a : α} (next : α → Traced ε β)
    (h : run.outcome = .ok a) :
    run >>= next = ⟨run.events ++ (next a).events, (next a).outcome⟩ := by
  change run.andThen next = _
  simp only [andThen, h]

theorem bind_of_error {run : Traced ε α} {e : ε} (next : α → Traced ε β)
    (h : run.outcome = .error e) : run >>= next = ⟨run.events, .error e⟩ := by
  change run.andThen next = _
  simp only [andThen, h]

/-- Nothing is lost by waiting: a run that cannot fail is followed by the rest. -/
theorem attempt_bind (run : Traced ε α) (next : Except ε α → Traced ε₂ β) :
    run.attempt >>= next =
      ⟨run.events ++ (next run.outcome).events, (next run.outcome).outcome⟩ := rfl

/-- A sequence succeeds only through the value of its first part. -/
theorem outcome_bind_eq_ok_iff {run : Traced ε α} {next : α → Traced ε β} {b : β} :
    (run >>= next).outcome = .ok b ↔ ∃ a, run.outcome = .ok a ∧ (next a).outcome = .ok b := by
  cases h : run.outcome with
  | error e => simp [bind_of_error next h]
  | ok a => simp [bind_of_ok next h]

/-- A sequence fails in its first part, or in the rest after the value of it. -/
theorem outcome_bind_eq_error_iff {run : Traced ε α} {next : α → Traced ε β} {e : ε} :
    (run >>= next).outcome = .error e ↔
      run.outcome = .error e ∨ ∃ a, run.outcome = .ok a ∧ (next a).outcome = .error e := by
  cases h : run.outcome with
  | error e' => simp [bind_of_error next h]
  | ok a => simp [bind_of_ok next h]

theorem mem_events_bind_iff {run : Traced ε α} {next : α → Traced ε β} {event : Event} :
    event ∈ (run >>= next).events ↔
      event ∈ run.events ∨ ∃ a, run.outcome = .ok a ∧ event ∈ (next a).events := by
  cases h : run.outcome with
  | error e => simp [bind_of_error next h]
  | ok a => simp [bind_of_ok next h]

end ShaderLibrary.Traced
