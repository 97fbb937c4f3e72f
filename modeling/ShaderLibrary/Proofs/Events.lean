import ShaderLibrary.Proofs.Sections

/-! Events of an expansion, each with its reason. Whatever an expansion asks, opens or notes
comes from a line that occurs in what it expands, or from a file that its lines reach. -/
namespace ShaderLibrary

namespace Environment

variable {env : Environment} {chain lines rest : List Text} {number : Int}
  {line p name content : Text} {event : Event}

/-- Some include line that occurs asks for a file of this name, whether there is one or not. -/
def Asks (env : Environment) (lines : List Text) (name : Text) : Prop :=
  ∃ line, env.Occurs lines line ∧ LineKind.of line = .inclusion ∧
    (headerName env.macros line).outcome = .ok name

/-- The events that an expansion of the lines may have. Nothing is shown to the user, and the
journal gets the records of problems only. -/
inductive Meets (env : Environment) (lines : List Text) : Event → Prop where
  | lookedUp (key : Text) : Meets env lines (.lookedUp key)
  | sought {name : Text} (hAsks : env.Asks lines name) : Meets env lines (.sought name)
  | read {p : Text} (hReach : env.Reaches lines p) : Meets env lines (.read p)
  | opened {p : Text} (hReach : env.Reaches lines p) : Meets env lines (.opened p)
  | closed {p : Text} (hReach : env.Reaches lines p) : Meets env lines (.closed p)
  | hoisted {line : Text} (hOccurs : env.Occurs lines line) : Meets env lines (.hoisted line)
  | noted {problem : Problem} {event : Event} (hNoted : event ∈ noted problem) :
      Meets env lines event

theorem Meets.mono {others : List Text} (h : env.Meets lines event)
    (hOccurs : ∀ line, env.Occurs lines line → env.Occurs others line)
    (hReach : ∀ q, env.Reaches lines q → env.Reaches others q) : env.Meets others event := by
  cases h with
  | lookedUp key => exact .lookedUp key
  | sought hAsks =>
      obtain ⟨line, hLine, hName⟩ := hAsks
      exact .sought ⟨line, hOccurs line hLine, hName⟩
  | read hp => exact .read (hReach _ hp)
  | opened hp => exact .opened (hReach _ hp)
  | closed hp => exact .closed (hReach _ hp)
  | hoisted hLine => exact .hoisted (hOccurs _ hLine)
  | noted hNoted => exact .noted hNoted

theorem Meets.cons (h : env.Meets rest event) : env.Meets (line :: rest) event := by
  refine h.mono (fun _ => Occurs.cons) fun q hReach => ?_
  obtain ⟨asking, hMem, hLeads⟩ := hReach
  exact ⟨asking, List.mem_cons_of_mem _ hMem, hLeads⟩

/-- What is met in an included file is met where it is included. -/
theorem Meets.of_included (h : env.Meets content.lines event) (hMem : line ∈ lines)
    (hLeads : env.LeadsTo line p) (hRead : env.store.readText p = .ok content) :
    env.Meets lines event :=
  h.mono (fun _ hOccurs => hOccurs.of_included hMem hLeads hRead) fun _ hReach =>
    reaches_iff.mpr ⟨line, hMem, p, hLeads, Or.inr ⟨content, hRead, hReach⟩⟩

theorem meets_of_mem_target (hMem : line ∈ lines) (hKind : LineKind.of line = .inclusion)
    (h : event ∈ (env.target line).events) : env.Meets lines event := by
  rcases Traced.mem_events_bind_iff.mp h with h | ⟨name, hName, h⟩
  · obtain ⟨key, rfl⟩ := mem_events_headerName h
    exact .lookedUp key
  · obtain rfl := List.mem_singleton.mp h
    exact .sought ⟨line, Or.inl hMem, hKind, hName⟩

/-- A file that a line leads to adds what its lines meet, and how it is read. -/
theorem meets_of_mem_file (hMem : line ∈ lines) (hLeads : env.LeadsTo line p)
    (hLines : p ∉ chain → ∀ content : Text,
      event ∈ (env.expandLines (chain ++ [p]) 1 content.lines).events →
      env.Meets content.lines event)
    (h : event ∈ (env.expandFile chain p).events) : env.Meets lines event := by
  have hReach : env.Reaches lines p := ⟨line, hMem, p, hLeads, .refl⟩
  by_cases hKnown : p ∈ chain
  · rw [expandFile_of_mem hKnown] at h
    cases h
  · cases hRead : env.store.readText p with
    | ok content =>
        rw [expandFile_of_read hKnown hRead] at h
        simp only [List.mem_cons, List.mem_append, List.not_mem_nil, or_false] at h
        rcases h with (rfl | rfl | hInside) | rfl
        · exact .read hReach
        · exact .opened hReach
        · exact (hLines hKnown content hInside).of_included hMem hLeads hRead
        · exact .closed hReach
    | error e =>
        cases hRefusal : e.isRefusal with
        | true =>
            rw [expandFile_of_refused hKnown hRead hRefusal] at h
            rcases List.mem_cons.mp h with rfl | hNoted
            · exact .read hReach
            · exact .noted hNoted
        | false =>
            rw [expandFile_of_broken hKnown hRead hRefusal] at h
            rw [List.mem_singleton.mp h]
            exact .read hReach

/-- An expansion has no other events. -/
theorem meets_of_mem_events (h : event ∈ (env.expandLines chain number lines).events) :
    env.Meets lines event := by
  induction chain, number, lines using expandLines.induct env with
  | case1 chain number => simp at h
  | case2 chain number line rest ihFile ihRest =>
      have hHere : line ∈ line :: rest := List.mem_cons_self
      rw [expandLines_cons] at h
      rcases Traced.mem_events_bind_iff.mp h with hLine | ⟨entries, -, hRest⟩
      · cases hKind : LineKind.of line with
        | plain =>
            rw [expandLine_of_plain hKind] at hLine
            cases hLine
        | hoisted =>
            rw [expandLine_of_hoisted hKind] at hLine
            rw [List.mem_singleton.mp hLine]
            exact .hoisted (Or.inl hHere)
        | inclusion =>
            rcases unresolved_or_leadsTo env hKind with ⟨problem, hTarget⟩ | ⟨p, hLeads⟩
            · rw [expandLine_of_unresolved hKind hTarget] at hLine
              rcases List.mem_append.mp hLine with hAsked | hNoted
              · exact meets_of_mem_target hHere hKind hAsked
              · exact .noted hNoted
            · rw [expandLine_of_leadsTo hLeads] at hLine
              have hListed := (leadsTo_iff_target.mp hLeads).2.1
              rcases List.mem_append.mp hLine with hAsked | hFile
              · exact meets_of_mem_target hHere hKind hAsked
              · exact meets_of_mem_file hHere hLeads
                  (fun hNew content hInside => ihFile p hListed hNew content.lines hInside) hFile
      · rcases Traced.mem_events_bind_iff.mp hRest with hRest | ⟨others, -, hPure⟩
        · exact (ihRest hRest).cons
        · cases hPure

theorem severity_of_noted {problem : Problem} {record : Record}
    (h : .logged record ∈ noted problem) : record.severity = .error := by
  have hRecord : record = ⟨.error, problem.message⟩ := by simpa [noted] using h
  rw [hRecord]

end Environment

namespace Effect

open Environment

variable {env : Environment} {origin : Option Text} {x : Effect} {base source id : Text}
  {verdict : Except Problem Text} {lines : List Text} {parts : List Section} {event : Event}

/-- A section adds nothing but the note of the cycle that costs its text. -/
theorem mem_events_assemble (h : event ∈ (assemble env origin lines).events) :
    env.Meets lines event := by
  simp only [assemble, Traced.attempt_bind, List.mem_append] at h
  rcases h with hLines | hEnd
  · exact meets_of_mem_events hLines
  · revert hEnd
    cases (env.expandLines origin.toList 1 lines).outcome with
    | ok entries => exact fun hEnd => by cases hEnd
    | error i =>
        cases i with
        | cycle chain => exact fun hEnd => .noted hEnd
        | store e => exact fun hEnd => by cases hEnd

theorem mem_events_enter (h : event ∈ (enter x id verdict).events) :
    ∃ record, event = .logged record ∧ "Shader section '".toList <+: record.message := by
  unfold enter at h
  split at h
  · exact ⟨_, List.mem_singleton.mp h, id ++ _, (List.append_assoc _ _ _).symm⟩
  · cases verdict <;> cases h

/-- An effect file has the events of its sections, and a record for each repeated id. -/
theorem mem_events_assembleAll (h : event ∈ (assembleAll env origin x parts).events) :
    (∃ part ∈ parts, env.Meets part.lines event) ∨
      ∃ record, event = .logged record ∧ "Shader section '".toList <+: record.message := by
  induction parts generalizing x with
  | nil => cases h
  | cons part rest ih =>
      rw [assembleAll] at h
      rcases Traced.mem_events_bind_iff.mp h with hPart | ⟨verdict, -, h⟩
      · exact Or.inl ⟨part, List.mem_cons_self, mem_events_assemble hPart⟩
      · rcases Traced.mem_events_bind_iff.mp h with hEnter | ⟨between, -, hRest⟩
        · exact Or.inr (mem_events_enter hEnter)
        · refine (ih hRest).imp_left ?_
          rintro ⟨other, hOther, hMeets⟩
          exact ⟨other, List.mem_cons_of_mem _ hOther, hMeets⟩

end Effect

end ShaderLibrary
