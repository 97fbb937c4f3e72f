import Mathlib.Data.List.Chain
import Mathlib.Data.List.Nodup
import ShaderLibrary.Expansion
import ShaderLibrary.Proofs.Depth

/-! Cycles of includes. The files in progress are a path of the include graph, so an
expansion that meets one of them again has found a cycle, and one that ends has passed
every file it reaches without finding any. -/
namespace ShaderLibrary

open Relation

/-- Whether the store fails only by refusing a request, and can always be used again. -/
def Store.RefusesOnly (store : Store) : Prop :=
  ∀ path e, store.readText path = .error e → e.isRefusal = true

/-- The store hands out the files at these paths or refuses to, and can be used again. -/
def Store.RefusesOn (store : Store) (paths : List Text) : Prop :=
  ∀ path ∈ paths, ∀ e, store.readText path = .error e → e.isRefusal = true

variable {env : Environment}

theorem Memory.refusesOnly_store (m : Memory) : m.store.RefusesOnly := by
  intro path e h
  change (m.readBytes path).map Text.decode = .error e at h
  unfold readBytes at h
  split at h
  · cases h
  · cases h
    rfl

namespace Environment

variable {chain inner lines : List Text} {number : Int}
  {line p q again text : Text} {i : Interrupt}

theorem transGen_of_isChain {R : Text → Text → Prop} (h : (p :: (inner ++ [q])).IsChain R) :
    TransGen R p q := by
  cases inner with
  | nil => exact .single (List.isChain_cons_cons.mp h).1
  | cons next rest =>
      obtain ⟨hFirst, hRest⟩ := List.isChain_cons_cons.mp h
      refine .head' hFirst (List.relationReflTransGen_of_exists_isChain_cons _ hRest ?_)
      simp

/-- How an inclusion of `p` below the files of `chain` comes back to a file in
progress: through the files of `inner`, the last of which includes `again`. -/
structure Circle (env : Environment) (chain : List Text) (p : Text) (inner : List Text)
    (again : Text) : Prop where
  head : (inner ++ [again]).head? = some p
  path : (inner ++ [again]).IsChain env.Includes
  known : again ∈ chain ++ inner
  distinct : chain.Nodup → (chain ++ inner).Nodup

theorem Circle.here (hKnown : p ∈ chain) : env.Circle chain p [] p where
  head := rfl
  path := .singleton p
  known := by simpa using hKnown
  distinct := by simp

theorem Circle.cons (hNew : p ∉ chain) (hStep : env.Includes p q)
    (h : env.Circle (chain ++ [p]) q inner again) : env.Circle chain p (p :: inner) again where
  head := rfl
  path := by
    rw [List.cons_append, List.isChain_cons]
    refine ⟨fun next hNext => ?_, h.path⟩
    rw [h.head] at hNext
    cases hNext
    exact hStep
  known := by simpa using h.known
  distinct := fun hChain => by
    simpa using h.distinct (Preamble.nodup_append_singleton hChain hNew)

theorem Circle.reaches (h : env.Circle chain p inner again) : ReflTransGen env.Includes p again := by
  obtain ⟨hHead, hPath, -, -⟩ := h
  cases inner with
  | nil =>
      cases hHead
      exact .refl
  | cons first rest =>
      cases hHead
      exact (transGen_of_isChain hPath).to_reflTransGen

/-- The file that comes again is on a cycle, unless it was in progress before. -/
theorem Circle.mem_or_transGen (h : env.Circle chain p inner again) :
    again ∈ chain ∨ TransGen env.Includes again again := by
  refine (List.mem_append.mp h.known).imp_right fun hInner => ?_
  obtain ⟨before, after, rfl⟩ := List.append_of_mem hInner
  have hPath := h.path
  rw [List.append_assoc, List.cons_append, List.isChain_split] at hPath
  exact transGen_of_isChain hPath.2

theorem exists_leadsTo_of_error (h : (env.expandLine chain number line).outcome = .error i) :
    ∃ p, env.LeadsTo line p ∧ (env.expandFile chain p).outcome = .error i := by
  cases hKind : LineKind.of line with
  | plain => rw [expandLine_of_plain hKind] at h; cases h
  | hoisted => rw [expandLine_of_hoisted hKind] at h; cases h
  | inclusion =>
      rcases unresolved_or_leadsTo env hKind with ⟨problem, hTarget⟩ | ⟨p, hLeads⟩
      · rw [expandLine_of_unresolved hKind hTarget] at h
        cases h
      · exact ⟨p, hLeads, (outcome_expandLine_of_leadsTo_eq_error_iff hLeads).mp h⟩

/-- If a file is interrupted, a circle has been found, below the file or at it. -/
theorem exists_circle_step (hStore : env.store.RefusesOnly)
    (hLines : p ∉ chain → ∀ content, env.store.readText p = .ok content →
      (env.expandLines (chain ++ [p]) 1 (Text.lines content)).outcome = .error i →
      ∃ line ∈ content.lines, ∃ q inner again, env.LeadsTo line q ∧
        env.Circle (chain ++ [p]) q inner again ∧ i = .cycle (chain ++ [p] ++ inner ++ [again]))
    (hFile : (env.expandFile chain p).outcome = .error i) :
    ∃ inner again, env.Circle chain p inner again ∧ i = .cycle (chain ++ inner ++ [again]) := by
  rcases outcome_expandFile_eq_error_iff.mp hFile with
    ⟨hKnown, rfl⟩ | ⟨hNew, ⟨e, hRead, hBroken, -⟩ | ⟨content, hRead, hInside⟩⟩
  · exact ⟨[], p, .here hKnown, by simp⟩
  · cases (hStore p e hRead).symm.trans hBroken
  · obtain ⟨line, hMem, q, inner, again, hLeads, hCircle, rfl⟩ := hLines hNew content hRead hInside
    exact ⟨p :: inner, again, hCircle.cons hNew ⟨content, hRead, line, hMem, hLeads⟩, by simp⟩

/-- If lines are interrupted, one of them leads into a circle. -/
theorem exists_circle (hStore : env.store.RefusesOnly)
    (h : (env.expandLines chain number lines).outcome = .error i) :
    ∃ line ∈ lines, ∃ p inner again, env.LeadsTo line p ∧ env.Circle chain p inner again ∧
      i = .cycle (chain ++ inner ++ [again]) := by
  induction chain, number, lines using expandLines.induct env with
  | case1 chain number => simp at h
  | case2 chain number line rest ihFile ihRest =>
      rcases outcome_expandLines_cons_eq_error_iff.mp h with hLine | ⟨entries, -, hRest⟩
      · obtain ⟨p, hLeads, hFile⟩ := exists_leadsTo_of_error hLine
        have hListed := (leadsTo_iff_target.mp hLeads).2.1
        obtain ⟨inner, again, hCircle, hCycle⟩ := exists_circle_step hStore
          (fun hNew content _ hInside => ihFile p hListed hNew content.lines hInside) hFile
        exact ⟨line, List.mem_cons_self, p, inner, again, hLeads, hCircle, hCycle⟩
      · obtain ⟨other, hMem, found⟩ := ihRest hRest
        exact ⟨other, List.mem_cons_of_mem _ hMem, found⟩

/-- A file that is expanded to its end reaches no file in progress and no cycle, if
that holds of its lines. -/
theorem noCycle_step (hFile : (env.expandFile chain p).outcome = .ok text)
    (hLines : p ∉ chain → ∀ content entries, env.store.readText p = .ok content →
      (env.expandLines (chain ++ [p]) 1 (Text.lines content)).outcome = .ok entries →
      ∀ q, env.Reaches content.lines q → q ∉ chain ++ [p] ∧ ¬ TransGen env.Includes q q)
    (hPath : ReflTransGen env.Includes p q) : q ∉ chain ∧ ¬ TransGen env.Includes q q := by
  obtain ⟨hNew, hRun⟩ := outcome_expandFile_eq_ok_iff.mp hFile
  have hBelow (r : Text) (hr : TransGen env.Includes p r) :
      r ∉ chain ++ [p] ∧ ¬ TransGen env.Includes r r := by
    obtain ⟨content, hRead, hReach⟩ := transGen_includes_iff.mp hr
    rcases hRun with ⟨e, hRefused, -⟩ | ⟨_, entries, hContent, hEntries, -⟩
    · cases hRead.symm.trans hRefused
    · cases hRead.symm.trans hContent
      exact hLines hNew content entries hRead hEntries r hReach
  rcases reflTransGen_iff_eq_or_transGen.mp hPath with rfl | hPath
  · exact ⟨hNew, fun hCycle => (hBelow q hCycle).1 (by simp)⟩
  · obtain ⟨hNotIn, hNoCycle⟩ := hBelow q hPath
    exact ⟨fun hMem => hNotIn (List.mem_append_left _ hMem), hNoCycle⟩

/-- Lines that are expanded to their end reach no file in progress and no cycle. -/
theorem noCycle_of_reaches {entries : List Text}
    (h : (env.expandLines chain number lines).outcome = .ok entries) (hReach : env.Reaches lines q) :
    q ∉ chain ∧ ¬ TransGen env.Includes q q := by
  induction chain, number, lines using expandLines.induct env generalizing entries q with
  | case1 chain number =>
      obtain ⟨line, hMem, -⟩ := hReach
      cases hMem
  | case2 chain number line rest ihFile ihRest =>
      obtain ⟨here, others, hLine, hRest, -⟩ := outcome_expandLines_cons_eq_ok_iff.mp h
      obtain ⟨_, hMem, p, hLeads, hPath⟩ := hReach
      rcases List.mem_cons.mp hMem with rfl | hMem
      · obtain ⟨text, hFile, -⟩ := (outcome_expandLine_of_leadsTo_eq_ok_iff hLeads).mp hLine
        have hListed := (leadsTo_iff_target.mp hLeads).2.1
        exact noCycle_step hFile
          (fun hNew content _ _ hInside _ => ihFile p hListed hNew content.lines hInside) hPath
      · exact ihRest hRest ⟨_, hMem, p, hLeads, hPath⟩

theorem exists_circle_of_expandFile (hStore : env.store.RefusesOnly)
    (hFile : (env.expandFile chain p).outcome = .error i) :
    ∃ inner again, env.Circle chain p inner again ∧ i = .cycle (chain ++ inner ++ [again]) :=
  exists_circle_step hStore (fun _ _ _ hInside => exists_circle hStore hInside) hFile

/-- An expansion of a file ends with a cycle if and only if it reaches one, or comes
back to a file in progress. -/
theorem expandFile_cycle_iff (hStore : env.store.RefusesOnly) :
    (∃ c, (env.expandFile chain p).outcome = .error (.cycle c)) ↔
      ∃ q, ReflTransGen env.Includes p q ∧ (q ∈ chain ∨ TransGen env.Includes q q) := by
  constructor
  · rintro ⟨c, hFile⟩
    obtain ⟨inner, again, hCircle, -⟩ := exists_circle_of_expandFile hStore hFile
    exact ⟨again, hCircle.reaches, hCircle.mem_or_transGen⟩
  · rintro ⟨q, hPath, hFound⟩
    cases hFile : (env.expandFile chain p).outcome with
    | ok text =>
        obtain ⟨hNotIn, hNoCycle⟩ := noCycle_step hFile
          (fun _ _ _ _ hInside _ hReach => noCycle_of_reaches hInside hReach) hPath
        exact absurd hFound (not_or.mpr ⟨hNotIn, hNoCycle⟩)
    | error i =>
        obtain ⟨inner, again, -, rfl⟩ := exists_circle_of_expandFile hStore hFile
        exact ⟨_, rfl⟩

/-- The same for lines, each of which leads to a file or nowhere. -/
theorem expandLines_cycle_iff (hStore : env.store.RefusesOnly) :
    (∃ c, (env.expandLines chain number lines).outcome = .error (.cycle c)) ↔
      ∃ q, env.Reaches lines q ∧ (q ∈ chain ∨ TransGen env.Includes q q) := by
  constructor
  · rintro ⟨c, hLines⟩
    obtain ⟨line, hMem, p, inner, again, hLeads, hCircle, -⟩ := exists_circle hStore hLines
    exact ⟨again, ⟨line, hMem, p, hLeads, hCircle.reaches⟩, hCircle.mem_or_transGen⟩
  · rintro ⟨q, hReach, hFound⟩
    cases hLines : (env.expandLines chain number lines).outcome with
    | ok entries =>
        obtain ⟨hNotIn, hNoCycle⟩ := noCycle_of_reaches hLines hReach
        exact absurd hFound (not_or.mpr ⟨hNotIn, hNoCycle⟩)
    | error i =>
        obtain ⟨-, -, -, inner, again, -, -, rfl⟩ := exists_circle hStore hLines
        exact ⟨_, rfl⟩

end Environment

namespace Effect

variable {origin : Option Text} {x : Effect} {base source id : Text}
  {parts : List Section} {chain : List Text}

theorem exists_outcome_assemble (hStore : env.store.RefusesOnly) (origin : Option Text)
    (lines : List Text) :
    ∃ verdict, (assemble env origin lines).outcome = .ok verdict := by
  rw [outcome_assemble]
  cases hLines : (env.expandLines origin.toList 1 lines).outcome with
  | ok entries => exact ⟨_, rfl⟩
  | error i =>
      obtain ⟨-, -, -, inner, again, -, -, rfl⟩ := Environment.exists_circle hStore hLines
      exact ⟨_, rfl⟩

/-- With such a store every file comes to an effect. -/
theorem exists_outcome_assembleAll (hStore : env.store.RefusesOnly) (x : Effect) :
    ∃ y, (assembleAll env origin x parts).outcome = .ok y := by
  induction parts generalizing x with
  | nil => exact ⟨x, rfl⟩
  | cons part rest ih =>
      obtain ⟨verdict, hPart⟩ := exists_outcome_assemble hStore origin part.lines
      obtain ⟨between, hEnter, -⟩ := outcome_enter
        { x with problems := x.problems ++ (assemble env origin part.lines).problems }
        (idOf x.base part.name) verdict
      obtain ⟨y, hRest⟩ := ih between
      exact ⟨y, outcome_assembleAll_cons_eq_ok_iff.mpr ⟨verdict, between, hPart, hEnter, hRest⟩⟩

theorem mem_failed_iff (hDone : (ofText env base source origin).outcome = .ok x) :
    (id, .circularInclude chain) ∈ x.failed ↔ ∃ part, deciding? base source id = some part ∧
      (env.expandLines origin.toList 1 part.lines).outcome = .error (.cycle chain) := by
  refine (holds_ofText_iff (v := .error (.circularInclude chain)) hDone).trans ?_
  simp only [outcome_assemble_eq_problem_iff, Problem.circularInclude.injEq, exists_eq_right]

end Effect

open Environment Effect

/-- Cycles are found exactly. If the store only refuses, a file that is expanded on
its own meets a cycle if and only if it reaches one, so files that are included
several times are fine. The chain of a cycle is a path from that file to the first one
that comes again. A section fails for a cycle if and only if the first section of its
id reaches a cycle or the file in which the section stands. -/
theorem cycle_detection_exact (hStore : env.store.RefusesOnly) :
    (∀ preamble path,
      ((∃ chain, (Expansion.processFile env preamble path).1.outcome = .error (.cycle chain)) ↔
        ∃ q, ReflTransGen env.Includes path q ∧ TransGen env.Includes q q) ∧
      ∀ chain, (Expansion.processFile env preamble path).1.outcome = .error (.cycle chain) →
        chain.head? = some path ∧ chain.IsChain env.Includes ∧
          ∃ before again, chain = before ++ [again] ∧ before.Nodup ∧ before.count again = 1) ∧
    ∀ base source origin, ∃ x, (ofText env base source (some origin)).outcome = .ok x ∧ ∀ id,
      ((∃ chain, (id, .circularInclude chain) ∈ x.failed) ↔
        ∃ part, deciding? base source id = some part ∧
          ∃ q, env.Reaches part.lines q ∧ (q = origin ∨ TransGen env.Includes q q)) ∧
      ∀ chain, (id, .circularInclude chain) ∈ x.failed → chain.head? = some origin := by
  constructor
  · intro preamble path
    change ((∃ chain, (env.expandFile [] path).outcome = _) ↔ _) ∧
      ∀ chain, (env.expandFile [] path).outcome = _ → _
    refine ⟨?_, fun chain hFile => ?_⟩
    · have hCycle := @expandFile_cycle_iff env [] path hStore
      simpa only [List.not_mem_nil, false_or] using hCycle
    · obtain ⟨inner, again, hCircle, hChain⟩ := exists_circle_of_expandFile hStore hFile
      cases hChain
      refine ⟨hCircle.head, hCircle.path, inner, again, rfl, hCircle.distinct .nil, ?_⟩
      exact List.count_eq_one_of_mem (hCircle.distinct .nil) hCircle.known
  · intro base source origin
    obtain ⟨x, hDone⟩ := exists_outcome_assembleAll hStore { base }
    refine ⟨x, hDone, fun id => ⟨?_, fun chain hFailed => ?_⟩⟩
    · have hCycle (lines : List Text) := @expandLines_cycle_iff env [origin] lines 1 hStore
      simp only [List.mem_singleton] at hCycle
      constructor
      · rintro ⟨chain, hFailed⟩
        obtain ⟨part, hPart, hLines⟩ := (mem_failed_iff hDone).mp hFailed
        exact ⟨part, hPart, (hCycle part.lines).mp ⟨chain, hLines⟩⟩
      · rintro ⟨part, hPart, hReach⟩
        obtain ⟨chain, hLines⟩ := (hCycle part.lines).mpr hReach
        exact ⟨chain, (mem_failed_iff hDone).mpr ⟨part, hPart, hLines⟩⟩
    · obtain ⟨part, -, hLines⟩ := (mem_failed_iff hDone).mp hFailed
      obtain ⟨-, -, -, inner, again, -, -, hChain⟩ := exists_circle hStore hLines
      cases hChain
      rfl

/-- Two files that include each other. -/
def twoFileRing : Environment := ofMemory {} { files := ⟨[
  ("A".toList, some (asciiBytes "#include \"B\"".toList)),
  ("B".toList, some (asciiBytes "#include \"A\"".toList))], by decide⟩ }

theorem cycle_detection_exact_ring : twoFileRing.store.RefusesOnly ∧
    (∃ chain, (Expansion.processFile twoFileRing ∅ "A".toList).1.outcome = .error (.cycle chain) ∧
      chain.head? = some "A".toList) ∧
    ∃ x, (ofText twoFileRing "X".toList "#include \"A\"".toList (some "X.glsl".toList)).outcome = .ok x ∧
      ∃ chain, ("X.glsl".toList, .circularInclude chain) ∈ x.failed ∧
        chain.head? = some "X.glsl".toList := by
  have hStore : twoFileRing.store.RefusesOnly := Memory.refusesOnly_store _
  have hStart : twoFileRing.LeadsTo "#include \"A\"".toList "A".toList := ⟨rfl, _, rfl, rfl⟩
  have hAB : twoFileRing.Includes "A".toList "B".toList :=
    ⟨_, rfl, "#include \"B\"".toList, List.mem_cons_self, rfl, _, rfl, rfl⟩
  have hBA : twoFileRing.Includes "B".toList "A".toList :=
    ⟨_, rfl, "#include \"A\"".toList, List.mem_cons_self, hStart⟩
  have hCycle : TransGen twoFileRing.Includes "A".toList "A".toList := .head hAB (.single hBA)
  obtain ⟨hFiles, hEffects⟩ := cycle_detection_exact hStore
  obtain ⟨hFound, hShape⟩ := hFiles ∅ "A".toList
  obtain ⟨chain, hFile⟩ := hFound.mpr ⟨"A".toList, .refl, hCycle⟩
  refine ⟨hStore, ⟨chain, hFile, (hShape chain hFile).1⟩, ?_⟩
  obtain ⟨x, hDone, hIds⟩ := hEffects "X".toList "#include \"A\"".toList "X.glsl".toList
  obtain ⟨hFailed, hHead⟩ := hIds "X.glsl".toList
  obtain ⟨chain, hMem⟩ := hFailed.mpr ⟨_, rfl, "A".toList,
    ⟨_, List.mem_cons_self, "A".toList, hStart, .refl⟩, Or.inr hCycle⟩
  exact ⟨x, hDone, chain, hMem, hHead chain hMem⟩

end ShaderLibrary
