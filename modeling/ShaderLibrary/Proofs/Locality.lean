import ShaderLibrary.Proofs.Alike
import ShaderLibrary.Proofs.Cycle
import ShaderLibrary.Proofs.Events
import ShaderLibrary.Store.Disk

/-! Locality. What an effect file comes to depends on the answers to the questions that are asked
on the way, and on nothing else: two environments that give the same answers to these cannot be
told apart, and a file that is not reached is never asked for. -/
namespace ShaderLibrary

/-- The macros that are looked up, the names that are sought and the files that are read. -/
def Event.consulted? : Event → Option Event
  | .lookedUp key => some (.lookedUp key)
  | .sought name => some (.sought name)
  | .read path => some (.read path)
  | _ => none

/-- What a run asks its environment, in order. -/
def Traced.consulted {ε α : Type} (run : Traced ε α) : List Event :=
  run.events.filterMap Event.consulted?

theorem Traced.bind_congr {ε α β : Type} {run : Traced ε α} {next later : α → Traced ε β}
    (h : ∀ a, run.outcome = .ok a → later a = next a) : run >>= later = run >>= next := by
  cases hRun : run.outcome with
  | error e => rw [bind_of_error _ hRun, bind_of_error _ hRun]
  | ok a => rw [bind_of_ok _ hRun, bind_of_ok _ hRun, h a hRun]

namespace Environment

variable {R : Except StoreError Text → Except StoreError Text → Prop} {env other : Environment}
  {asked fewer : List Event} {chain lines : List Text} {number : Int} {line p q : Text}

/-- The environments answer alike whatever is asked in the events, where the results of reading a
file are to be related by `R`. -/
structure AgreesOn (R : Except StoreError Text → Except StoreError Text → Prop)
    (env other : Environment) (asked : List Event) : Prop where
  keys : ∀ key, .lookedUp key ∈ asked →
    other.macros.bindings.get? key = env.macros.bindings.get? key
  names : ∀ name, .sought name ∈ asked → other.catalog.find? name = env.catalog.find? name
  reads : ∀ path, .read path ∈ asked → R (env.store.readText path) (other.store.readText path)

theorem AgreesOn.mono (h : AgreesOn R env other asked) (hFewer : fewer ⊆ asked) :
    AgreesOn R env other fewer where
  keys key hKey := h.keys key (hFewer hKey)
  names name hName := h.names name (hFewer hName)
  reads path hPath := h.reads path (hFewer hPath)

theorem AgreesOn.of_bind {ε α β : Type} {run : Traced ε α} {next : α → Traced ε β}
    (h : AgreesOn R env other (run >>= next).events) :
    AgreesOn R env other run.events ∧
      ∀ a, run.outcome = .ok a → AgreesOn R env other (next a).events := by
  constructor
  · exact h.mono fun event hEvent => Traced.mem_events_bind_iff.mpr (Or.inl hEvent)
  · intro a hRun
    exact h.mono fun event hEvent => Traced.mem_events_bind_iff.mpr (Or.inr ⟨a, hRun, hEvent⟩)

theorem headerName_of_agrees (h : AgreesOn R env other (headerName env.macros line).events) :
    headerName other.macros line = headerName env.macros line := by
  unfold headerName at h ⊢
  split
  · rfl
  · next hQuoted =>
      rw [hQuoted] at h
      split
      · next key _ hWords =>
          rw [hWords] at h
          have hKey := h.of_bind.1.keys key (List.mem_singleton_self _)
          simp only [Macros.lookup, hKey]
      · rfl

theorem events_target_of_agrees (h : AgreesOn R env other (env.target line).events) :
    (other.target line).events = (env.target line).events := by
  unfold target at h ⊢
  rw [headerName_of_agrees h.of_bind.1]
  cases hHeader : (headerName env.macros line).outcome with
  | error problem => rw [Traced.bind_of_error _ hHeader, Traced.bind_of_error _ hHeader]
  | ok name =>
      rw [Traced.bind_of_ok _ hHeader, Traced.bind_of_ok _ hHeader]
      rfl

theorem find?_of_agrees (h : AgreesOn R env other (env.target line).events) {name : Text}
    (hHeader : (headerName env.macros line).outcome = .ok name) :
    other.catalog.find? name = env.catalog.find? name :=
  (h.of_bind.2 name hHeader).names name (List.mem_singleton_self _)

theorem leadsTo_of_agrees (h : AgreesOn R env other (env.target line).events)
    (hLeads : env.LeadsTo line p) : other.LeadsTo line p := by
  obtain ⟨hKind, name, hHeader, hFound⟩ := hLeads
  refine ⟨hKind, name, ?_, (find?_of_agrees h hHeader).trans hFound⟩
  rw [headerName_of_agrees h.of_bind.1]
  exact hHeader

theorem unresolved_of_agrees {problem : Problem}
    (h : AgreesOn R env other (env.target line).events)
    (hTarget : (env.target line).outcome = .error problem) :
    (other.target line).outcome = .error problem := by
  rw [outcome_target_eq_error_iff] at hTarget ⊢
  rw [headerName_of_agrees h.of_bind.1]
  refine hTarget.imp_right ?_
  rintro ⟨name, hHeader, hNone, hProblem⟩
  exact ⟨name, hHeader, (find?_of_agrees h hHeader).trans hNone, hProblem⟩

/-- A file is expanded the same way if what it asks for is answered the same way. -/
theorem expandFile_of_agrees (h : AgreesOn Eq env other (env.expandFile chain p).events)
    (hLines : p ∉ chain → ∀ content : Text,
      AgreesOn Eq env other (env.expandLines (chain ++ [p]) 1 content.lines).events →
      other.expandLines (chain ++ [p]) 1 content.lines =
        env.expandLines (chain ++ [p]) 1 content.lines) :
    other.expandFile chain p = env.expandFile chain p := by
  by_cases hKnown : p ∈ chain
  · rw [expandFile_of_mem hKnown, expandFile_of_mem hKnown]
  · cases hRead : env.store.readText p with
    | ok content =>
        rw [expandFile_of_read hKnown hRead] at h ⊢
        have hSame := (h.reads p List.mem_cons_self).symm.trans hRead
        have hInside := hLines hKnown content (h.mono fun event hEvent => by simp [hEvent])
        rw [expandFile_of_read hKnown hSame, hInside]
    | error e =>
        cases hRefusal : e.isRefusal with
        | true =>
            rw [expandFile_of_refused hKnown hRead hRefusal] at h ⊢
            have hSame := (h.reads p List.mem_cons_self).symm.trans hRead
            rw [expandFile_of_refused hKnown hSame hRefusal]
        | false =>
            rw [expandFile_of_broken hKnown hRead hRefusal] at h ⊢
            have hSame := (h.reads p List.mem_cons_self).symm.trans hRead
            rw [expandFile_of_broken hKnown hSame hRefusal]

theorem expandLines_of_agrees
    (h : AgreesOn Eq env other (env.expandLines chain number lines).events) :
    other.expandLines chain number lines = env.expandLines chain number lines := by
  induction chain, number, lines using expandLines.induct env with
  | case1 chain number => rw [expandLines_nil, expandLines_nil]
  | case2 chain number line rest ihFile ihRest =>
      rw [expandLines_cons] at h ⊢
      obtain ⟨hHere, hAfter⟩ := h.of_bind
      have hLine : other.expandLine chain number line = env.expandLine chain number line := by
        cases hKind : LineKind.of line with
        | plain => rw [expandLine_of_plain hKind, expandLine_of_plain hKind]
        | hoisted => rw [expandLine_of_hoisted hKind, expandLine_of_hoisted hKind]
        | inclusion =>
            rcases unresolved_or_leadsTo env hKind with ⟨problem, hTarget⟩ | ⟨p, hLeads⟩
            · rw [expandLine_of_unresolved hKind hTarget] at hHere ⊢
              have hAsked := hHere.mono (List.subset_append_left _ _)
              rw [expandLine_of_unresolved hKind (unresolved_of_agrees hAsked hTarget),
                events_target_of_agrees hAsked]
            · rw [expandLine_of_leadsTo hLeads] at hHere ⊢
              have hAsked := hHere.mono (List.subset_append_left _ _)
              have hListed := (leadsTo_iff_target.mp hLeads).2.1
              have hFile : other.expandFile chain p = env.expandFile chain p :=
                expandFile_of_agrees (hHere.mono (List.subset_append_right _ _))
                  fun hNew content => ihFile p hListed hNew content.lines
              rw [expandLine_of_leadsTo (leadsTo_of_agrees hAsked hLeads), hFile,
                events_target_of_agrees hAsked]
      rw [hLine, expandLines_cons]
      refine Traced.bind_congr fun entries hEntries => ?_
      rw [ihRest (hAfter entries hEntries).of_bind.1]

end Environment

open Environment

namespace Effect

variable {env other : Environment} {origin : Option Text} {x : Effect} {lines : List Text}
  {parts : List Section}

theorem assemble_of_agrees (hBlock : other.macros.block = env.macros.block)
    (h : AgreesOn Eq env other (assemble env origin lines).events) :
    assemble other origin lines = assemble env origin lines := by
  have hLines : other.expandLines origin.toList 1 lines = env.expandLines origin.toList 1 lines :=
    expandLines_of_agrees (h.mono (List.subset_append_left _ _))
  have hUnit (preamble : Preamble) (entries : List Text) :
      unit other.macros preamble entries = unit env.macros preamble entries := by
    rw [unit, unit, hBlock]
  simp only [assemble, hLines, hUnit]

theorem assembleAll_of_agrees (hBlock : other.macros.block = env.macros.block)
    (h : AgreesOn Eq env other (assembleAll env origin x parts).events) :
    assembleAll other origin x parts = assembleAll env origin x parts := by
  induction parts generalizing x with
  | nil => rfl
  | cons part rest ih =>
      rw [assembleAll] at h ⊢
      obtain ⟨hPart, hAfter⟩ := h.of_bind
      rw [assemble_of_agrees hBlock hPart, assembleAll]
      refine Traced.bind_congr fun verdict hVerdict => Traced.bind_congr fun next hNext => ?_
      exact ih ((hAfter verdict hVerdict).of_bind.2 next hNext)

end Effect

namespace Effect

variable {env other : Environment} {base text : Text} {origin : Option Text}

/-- The effects of environments that answer alike differ in reasons of the stores only. -/
theorem consulted_ofText_of_agrees (hBlock : other.macros.block = env.macros.block)
    (h : AgreesOn Store.ReadsAlike env other (ofText env base text origin).events) :
    (ofText other base text origin).consulted = (ofText env base text origin).consulted ∧
      Traced.Outcomes (fun _ _ => True) (Alike env.store other.store)
        (ofText env base text origin).outcome (ofText other base text origin).outcome := by
  -- between the two stands the second environment in the words of the first
  have hWords : AgreesOn Eq env { other with store := other.store.inWordsOf env.store }
      (ofText env base text origin).events :=
    ⟨h.keys, h.names, fun path hPath => (h.reads path hPath).readText_inWordsOf_eq⟩
  have hSame : ofText { other with store := other.store.inWordsOf env.store } base text origin =
      ofText env base text origin :=
    assembleAll_of_agrees hBlock hWords
  have hAlike := ofText_inWordsOf other.macros other.catalog env.store other.store base text origin
  rw [hSame] at hAlike
  exact ⟨hAlike.filterMap_eq Event.consulted? (fun _ => rfl) (fun _ => rfl),
    hAlike.outcome.imp (fun _ _ _ => trivial) fun _ _ hEffects => hEffects⟩

end Effect

namespace Environment

variable {env other : Environment} {lines : List Text} {line name p q : Text}

/-- A file that an occurring line leads to is reached. -/
theorem Occurs.reaches (h : env.Occurs lines line) (hLeads : env.LeadsTo line p) :
    env.Reaches lines p := by
  rcases h with hMem | ⟨q, content, ⟨first, hMem, r, hFirst, hPath⟩, hRead, hLine⟩
  · exact ⟨line, hMem, p, hLeads, .refl⟩
  · exact ⟨first, hMem, r, hFirst, hPath.tail ⟨content, hRead, line, hLine, hLeads⟩⟩

/-- Of what the lines reach nothing is different: a name that stands for another file, or for one in
only one of the environments, stands for no file that is reached there, and every file that is
reached is read with the same result. -/
structure SameFor (env other : Environment) (lines : List Text) : Prop where
  before : ∀ name p, other.catalog.find? name ≠ env.catalog.find? name →
    env.catalog.find? name = some p → ¬ env.Reaches lines p
  after : ∀ name p, other.catalog.find? name ≠ env.catalog.find? name →
    other.catalog.find? name = some p → ¬ other.Reaches lines p
  files : ∀ p, env.Reaches lines p → other.store.readText p = env.store.readText p

namespace SameFor

variable (hMacros : other.macros = env.macros) (h : env.SameFor other lines)

include hMacros h

theorem leadsTo (hReach : env.Reaches lines p)
    (hLeads : env.LeadsTo line p) : other.LeadsTo line p := by
  obtain ⟨hKind, name, hHeader, hFound⟩ := hLeads
  have hSame : other.catalog.find? name = env.catalog.find? name := by
    by_contra hOther
    exact h.before name p hOther hFound hReach
  refine ⟨hKind, name, ?_, hSame.trans hFound⟩
  rw [hMacros]
  exact hHeader

theorem reaches (hReach : env.Reaches lines p) :
    other.Reaches lines p := by
  obtain ⟨line, hMem, first, hLeads, hPath⟩ := hReach
  have hFirst : env.Reaches lines first := ⟨line, hMem, first, hLeads, .refl⟩
  refine ⟨line, hMem, first, leadsTo hMacros h hFirst hLeads, ?_⟩
  induction hPath with
  | refl => exact .refl
  | @tail q r hBefore hStep ih =>
      obtain ⟨content, hRead, next, hNext, hOnward⟩ := hStep
      have hq : env.Reaches lines q := ⟨line, hMem, first, hLeads, hBefore⟩
      have hr : env.Reaches lines r :=
        Occurs.reaches (Or.inr ⟨q, content, hq, hRead, hNext⟩) hOnward
      exact ih.tail ⟨content, (h.files q hq).trans hRead, next, hNext, leadsTo hMacros h hr hOnward⟩

theorem occurs (hOccurs : env.Occurs lines line) :
    other.Occurs lines line := by
  rcases hOccurs with hMem | ⟨q, content, hReach, hRead, hLine⟩
  · exact Or.inl hMem
  · exact Or.inr ⟨q, content, reaches hMacros h hReach, (h.files q hReach).trans hRead, hLine⟩

/-- A name that is asked for stands for the same file, or for none. -/
theorem find?_eq (hAsks : env.Asks lines name) :
    other.catalog.find? name = env.catalog.find? name := by
  obtain ⟨line, hOccurs, hKind, hHeader⟩ := hAsks
  by_contra hOther
  cases hFirst : env.catalog.find? name with
  | some p =>
      exact h.before name p hOther hFirst (hOccurs.reaches ⟨hKind, name, hHeader, hFirst⟩)
  | none =>
      obtain ⟨p, hSecond⟩ : ∃ p, other.catalog.find? name = some p :=
        Option.ne_none_iff_exists'.mp (hFirst ▸ hOther)
      have hName : (headerName other.macros line).outcome = .ok name := by
        rw [hMacros]
        exact hHeader
      exact h.after name p hOther hSecond
        ((occurs hMacros h hOccurs).reaches ⟨hKind, name, hName, hSecond⟩)

end SameFor

theorem Meets.asks (h : env.Meets lines (.sought name)) : env.Asks lines name := by
  cases h with
  | sought hAsks => exact hAsks
  | noted hNoted => simp [Environment.noted] at hNoted

theorem Meets.reaches (h : env.Meets lines (.read p)) : env.Reaches lines p := by
  cases h with
  | read hReach => exact hReach
  | noted hNoted => simp [Environment.noted] at hNoted

end Environment

namespace Effect

variable {env other : Environment} {base text : Text} {origin : Option Text}

/-- An effect file does not ask about what its sections do not reach. -/
theorem agreesOn_of_sameFor (hMacros : other.macros = env.macros)
    (h : ∀ part ∈ Section.ofText text, env.SameFor other part.lines) :
    AgreesOn Eq env other (ofText env base text origin).events where
  keys key _ := by rw [hMacros]
  names name hName := by
    rcases mem_events_assembleAll hName with ⟨part, hPart, hMeets⟩ | ⟨record, hRecord, -⟩
    · exact (h part hPart).find?_eq hMacros hMeets.asks
    · cases hRecord
  reads path hPath := by
    rcases mem_events_assembleAll hPath with ⟨part, hPart, hMeets⟩ | ⟨record, hRecord, -⟩
    · exact ((h part hPart).files path hMeets.reaches).symm
    · cases hRecord

/-- Two environments with the same block of macros may answer alike whatever is asked while an
effect file is assembled in the first of them. Then the same is asked in the same order in the
second, the same sections are assembled and have failed, and the problems are the same up to the
reasons for which a file cannot be read; if those agree too, nothing can be told apart. In
particular nothing changes if files change that no section reaches. -/
theorem resolution_local (env other : Environment) (base text : Text) (origin : Option Text) :
    (other.macros.block = env.macros.block →
      AgreesOn Store.ReadsAlike env other (ofText env base text origin).events →
        (ofText other base text origin).consulted = (ofText env base text origin).consulted ∧
        Traced.Outcomes (fun _ _ => True) (Alike env.store other.store)
          (ofText env base text origin).outcome (ofText other base text origin).outcome ∧
        (AgreesOn Eq env other (ofText env base text origin).events →
          ofText other base text origin = ofText env base text origin)) ∧
    (other.macros = env.macros → (∀ part ∈ Section.ofText text, env.SameFor other part.lines) →
      ofText other base text origin = ofText env base text origin) := by
  constructor
  · intro hBlock hAgree
    obtain ⟨hConsulted, hOutcomes⟩ := consulted_ofText_of_agrees hBlock hAgree
    exact ⟨hConsulted, hOutcomes, assembleAll_of_agrees hBlock⟩
  · intro hMacros hSame
    have hBlock : other.macros.block = env.macros.block := by rw [hMacros]
    exact assembleAll_of_agrees hBlock (agreesOn_of_sameFor hMacros hSame)

/-- A library of one file of noise, on a disk where that file is no longer. -/
def withoutNoise (d : Disk) : Environment where
  macros := {}
  catalog := { paths := ⟨[("N.glsl".toList, "shaders/N.glsl".toList)], by decide⟩ }
  store := d.store

/-- The noise has been deleted. -/
def deleted : Environment := withoutNoise {}

/-- There is a folder in the place of the noise. -/
def replaced : Environment := withoutNoise
  { root := .folder "shaders".toList (.folder "N.glsl".toList .empty .empty) .empty }

def noisySource : Text := "#include \"N.glsl\"\n".toList

/-- An effect file with one section that asks for the noise in vain. -/
def noisyEffect (reason : Text) : Effect where
  base := "X".toList
  sections := [("X.glsl".toList, "#line 1\n\n#line 2\n".toList)]
  problems := [.unresolvedInclude "shaders/N.glsl".toList reason]

theorem ofText_withoutNoise {d : Disk} {e : StoreError}
    (hRead : d.store.readText "shaders/N.glsl".toList = .error e) (hRefusal : e.isRefusal = true) :
    ofText (withoutNoise d) "X".toList noisySource none =
      ⟨[.sought "N.glsl".toList, .read "shaders/N.glsl".toList] ++
        noted (.unresolvedInclude "shaders/N.glsl".toList e.message),
        .ok (noisyEffect e.message)⟩ := by
  have hLeads : (withoutNoise d).LeadsTo "#include \"N.glsl\"".toList "shaders/N.glsl".toList :=
    ⟨rfl, "N.glsl".toList, rfl, rfl⟩
  have hLines : (withoutNoise d).expandLines [] 1 ["#include \"N.glsl\"".toList] =
      ⟨[.sought "N.glsl".toList, .read "shaders/N.glsl".toList] ++
        noted (.unresolvedInclude "shaders/N.glsl".toList e.message), .ok [[], lineMarker 2]⟩ := by
    rw [expandLines_cons, expandLines_nil, expandLine_of_leadsTo hLeads,
      expandFile_of_refused List.not_mem_nil hRead hRefusal]
    rfl
  have hSections : Section.ofText noisySource =
    [⟨Section.unnamed, ["#include \"N.glsl\"".toList]⟩] := rfl
  rw [ofText, hSections, assembleAll, assemble_eq_conclude]
  simp only [Option.toList_none, hLines]
  rfl

theorem readText_deleted : deleted.store.readText "shaders/N.glsl".toList =
    .error (.missing "shaders/N.glsl".toList) := rfl

theorem readText_replaced : replaced.store.readText "shaders/N.glsl".toList =
    .error (.isFolder "shaders/N.glsl".toList) := rfl

theorem agreesOn_replaced : AgreesOn Store.ReadsAlike deleted replaced
    (ofText deleted "X".toList noisySource none).events where
  keys key _ := rfl
  names name _ := rfl
  reads path hPath := by
    rw [deleted, ofText_withoutNoise readText_deleted rfl] at hPath
    simp only [noted, List.cons_append, List.nil_append, List.mem_cons,
      Event.read.injEq, reduceCtorEq, List.not_mem_nil, or_false, false_or] at hPath
    rw [hPath]
    exact .failed rfl

/-- The reasons for which a file cannot be read stand in the problems. -/
theorem reasons_not_local : replaced.macros.block = deleted.macros.block ∧
    AgreesOn Store.ReadsAlike deleted replaced (ofText deleted "X".toList noisySource none).events ∧
    ¬ ∀ x y, (ofText deleted "X".toList noisySource none).outcome = .ok x →
      (ofText replaced "X".toList noisySource none).outcome = .ok y → y.problems = x.problems := by
  refine ⟨rfl, agreesOn_replaced, fun hSame => ?_⟩
  have hProblems := hSame _ _ (congrArg Traced.outcome (ofText_withoutNoise readText_deleted rfl))
    (congrArg Traced.outcome (ofText_withoutNoise readText_replaced rfl))
  exact absurd hProblems (by decide)

theorem resolution_local_replaced :
    (ofText replaced "X".toList noisySource none).consulted =
      (ofText deleted "X".toList noisySource none).consulted ∧
    Traced.Outcomes (fun _ _ => True) (Alike deleted.store replaced.store)
      (ofText deleted "X".toList noisySource none).outcome
      (ofText replaced "X".toList noisySource none).outcome ∧
    ofText replaced "X".toList "main\n".toList none =
      ofText deleted "X".toList "main\n".toList none := by
  obtain ⟨hAgree, -⟩ := resolution_local deleted replaced "X".toList noisySource none
  obtain ⟨hConsulted, hOutcomes, -⟩ := hAgree rfl agreesOn_replaced
  obtain ⟨-, hUnreached⟩ := resolution_local deleted replaced "X".toList "main\n".toList none
  refine ⟨hConsulted, hOutcomes, hUnreached rfl fun part hPart => ?_⟩
  have hOnly : part = ⟨Section.unnamed, ["main".toList]⟩ := List.mem_singleton.mp hPart
  have hLines : part.lines = ["main".toList] := by rw [hOnly]
  have hNone (env : Environment) (p : Text) : ¬ env.Reaches part.lines p := by
    rintro ⟨line, hLine, -, ⟨hKind, -⟩, -⟩
    rw [hLines, List.mem_singleton] at hLine
    rw [hLine] at hKind
    cases hKind
  exact ⟨fun _ p _ _ => hNone deleted p, fun _ p _ _ => hNone replaced p,
    fun p hReach => absurd hReach (hNone deleted p)⟩

end Effect

end ShaderLibrary
