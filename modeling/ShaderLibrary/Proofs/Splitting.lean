import ShaderLibrary.Proofs.Cycle
import ShaderLibrary.Proofs.Events
import ShaderLibrary.Proofs.Headings

/-! Splitting of effect files. Each section comes to what it would come to in a file of
its own, whatever stands beside it, and of several sections with one id the first one
decides. -/
namespace ShaderLibrary

namespace Effect

variable {env : Environment} {origin : Option Text} {x y between : Effect} {base source id : Text}
  {verdict : Except Problem Text} {lines : List Text} {part : Section} {parts : List Section}

/-- The record of a section whose id has been decided on before. -/
def repeatRecord (id : Text) : Record where
  severity := .warning
  message := "Shader section '".toList ++ id ++
    "' is defined more than once, using the first.".toList

/-- A repeated id changes nothing. Any other one is decided on. -/
theorem enter_cases (hEnter : (enter x id verdict).outcome = .ok y) :
    y = x ∨ (x.decides id = false ∧
      ((∃ text, y = { x with sections := x.sections ++ [(id, text)] }) ∨
        ∃ problem, y = { x with failed := x.failed ++ [(id, problem)] })) := by
  unfold enter at hEnter
  cases hDecides : x.decides id with
  | true =>
      rw [if_pos hDecides] at hEnter
      cases hEnter
      exact Or.inl rfl
  | false =>
      rw [if_neg (by rw [hDecides]; exact Bool.false_ne_true)] at hEnter
      cases verdict with
      | ok text =>
          cases hEnter
          exact Or.inr ⟨rfl, Or.inl ⟨text, rfl⟩⟩
      | error problem =>
          cases hEnter
          exact Or.inr ⟨rfl, Or.inr ⟨problem, rfl⟩⟩

theorem base_problems_of_enter (hEnter : (enter x id verdict).outcome = .ok y) :
    y.base = x.base ∧ y.problems = x.problems := by
  rcases enter_cases hEnter with rfl | ⟨-, ⟨text, rfl⟩ | ⟨problem, rfl⟩⟩
  · exact ⟨rfl, rfl⟩
  · exact ⟨rfl, rfl⟩
  · exact ⟨rfl, rfl⟩

theorem decides_of_enter (hEnter : (enter x id verdict).outcome = .ok y) (other : Text) :
    y.decides other = true ↔ x.decides other = true ∨ other = id := by
  obtain ⟨_, hEntered, -, hHolds⟩ := outcome_enter x id verdict
  cases hEnter.symm.trans hEntered
  constructor
  · intro h
    obtain ⟨v, hv⟩ := decides_iff.mp h
    rcases (hHolds other v).mp hv with hOld | ⟨-, rfl, -⟩
    · exact Or.inl (decides_iff.mpr ⟨v, hOld⟩)
    · exact Or.inr rfl
  · intro h
    by_cases hOld : x.decides other = true
    · obtain ⟨v, hv⟩ := decides_iff.mp hOld
      exact decides_iff.mpr ⟨v, (hHolds other v).mpr (Or.inl hv)⟩
    · obtain rfl := h.resolve_left hOld
      have hOpen : x.decides other = false := Bool.eq_false_iff.mpr hOld
      exact decides_iff.mpr ⟨verdict, (hHolds other _).mpr (Or.inr ⟨hOpen, rfl, rfl⟩)⟩

/-- The ids of sections in the file `base`. -/
def idsOf (base : Text) (parts : List Section) : List Text :=
  parts.map fun part => idOf base part.name

/-- The problems that the assembly of a section meets. -/
def problemsIn (env : Environment) (origin : Option Text) (part : Section) : List Problem :=
  (assemble env origin part.lines).problems

theorem problems_assembleAll (hDone : (assembleAll env origin x parts).outcome = .ok y) :
    y.problems = x.problems ++ parts.flatMap (problemsIn env origin) := by
  induction parts generalizing x with
  | nil =>
      cases hDone
      simp
  | cons part rest ih =>
      obtain ⟨verdict, between, -, hEnter, hRest⟩ := outcome_assembleAll_cons_eq_ok_iff.mp hDone
      have hBetween := (base_problems_of_enter hEnter).2
      rw [ih hRest, hBetween, List.flatMap_cons, List.append_assoc]
      rfl

/-- Sections are added behind those that are there, in the order of their ids. -/
theorem exists_sections_eq_append (hDone : (assembleAll env origin x parts).outcome = .ok y) :
    ∃ added, y.sections = x.sections ++ added ∧
      (∀ entry ∈ added, x.decides entry.1 = false) ∧
      (added.map Prod.fst).Pairwise fun a b =>
        (idsOf x.base parts).idxOf a < (idsOf x.base parts).idxOf b := by
  induction parts generalizing x with
  | nil =>
      cases hDone
      exact ⟨[], by simp, by simp, List.Pairwise.nil⟩
  | cons part rest ih =>
      obtain ⟨verdict, between, -, hEnter, hRest⟩ := outcome_assembleAll_cons_eq_ok_iff.mp hDone
      obtain ⟨added, hAdded, hNew, hOrder⟩ := ih hRest
      have hBase : between.base = x.base := (base_problems_of_enter hEnter).1
      have hDecides : ∀ other, between.decides other = true ↔
          x.decides other = true ∨ other = idOf x.base part.name := by
        intro other
        have hEntered := decides_of_enter hEnter other
        exact hEntered
      have hOther : ∀ entry ∈ added, entry.1 ≠ idOf x.base part.name ∧ x.decides entry.1 = false := by
        intro entry hEntry
        have hOpen : ¬ (x.decides entry.1 = true ∨ entry.1 = idOf x.base part.name) := by
          rw [← hDecides, hNew entry hEntry]
          exact Bool.false_ne_true
        exact ⟨fun h => hOpen (Or.inr h), Bool.eq_false_iff.mpr fun h => hOpen (Or.inl h)⟩
      -- the section in front moves the first place of every other id by one
      have hIndex : ∀ entry ∈ added, (idsOf x.base (part :: rest)).idxOf entry.1 =
          (idsOf x.base rest).idxOf entry.1 + 1 := by
        intro entry hEntry
        exact List.idxOf_cons_ne _ (Ne.symm (hOther entry hEntry).1)
      have hLater : (added.map Prod.fst).Pairwise fun a b =>
          (idsOf x.base (part :: rest)).idxOf a < (idsOf x.base (part :: rest)).idxOf b := by
        rw [hBase] at hOrder
        rw [List.pairwise_map] at hOrder ⊢
        refine hOrder.imp_of_mem fun ha hb hLess => ?_
        rw [hIndex _ ha, hIndex _ hb]
        omega
      rcases enter_cases hEnter with rfl | ⟨hOpen, ⟨text, rfl⟩ | ⟨problem, rfl⟩⟩
      · exact ⟨added, hAdded, fun entry hEntry => (hOther entry hEntry).2, hLater⟩
      · refine ⟨(idOf x.base part.name, text) :: added, by simpa using hAdded, ?_, ?_⟩
        · intro entry hEntry
          rcases List.mem_cons.mp hEntry with rfl | hEntry
          · exact hOpen
          · exact (hOther entry hEntry).2
        · refine List.pairwise_cons.mpr ⟨fun other hMem => ?_, hLater⟩
          obtain ⟨entry, hEntry, rfl⟩ := List.mem_map.mp hMem
          have hFirst : (idsOf x.base (part :: rest)).idxOf (idOf x.base part.name) = 0 :=
            List.idxOf_cons_self
          rw [hFirst, hIndex entry hEntry]
          omega
      · exact ⟨added, hAdded, fun entry hEntry => (hOther entry hEntry).2, hLater⟩

theorem warnings_assemble : (assemble env origin lines).warnings = [] := by
  apply List.filter_eq_nil_iff.mpr
  intro record hRecord
  obtain ⟨event, hEvent, hLogged⟩ := List.mem_filterMap.mp hRecord
  have hSame : event = .logged record := by
    cases event <;> simp_all [Event.logged?]
  cases mem_events_assemble (hSame ▸ hEvent) with
  | noted hNoted =>
      rw [Environment.severity_of_noted hNoted]
      decide

theorem events_assembleAll_cons (hPart : (assemble env origin part.lines).outcome = .ok verdict)
    (hEnter : (enter { x with problems := x.problems ++ (assemble env origin part.lines).problems }
      (idOf x.base part.name) verdict).outcome = .ok between) :
    (assembleAll env origin x (part :: parts)).events =
      (assemble env origin part.lines).events ++
        ((enter { x with problems := x.problems ++ (assemble env origin part.lines).problems }
          (idOf x.base part.name) verdict).events ++
          (assembleAll env origin between parts).events) := by
  rw [assembleAll]
  simp only [Traced.bind_of_ok _ hPart, Traced.bind_of_ok _ hEnter]

theorem warnings_enter : (enter x id verdict).warnings =
    (if x.decides id = true then [id] else []).map repeatRecord := by
  unfold enter
  split
  · rfl
  · cases verdict <;> rfl

/-- The first section of an id that is still open costs no warning, and all other ones
cost one each. -/
theorem exists_warnings_eq (hDone : (assembleAll env origin x parts).outcome = .ok y) :
    ∃ dropped : List Text, (assembleAll env origin x parts).warnings = dropped.map repeatRecord ∧
      dropped.Sublist (idsOf x.base parts) ∧
      ∀ id, dropped.count id =
        (idsOf x.base parts).count id - (if x.decides id = true then 0 else 1) := by
  induction parts generalizing x with
  | nil => exact ⟨[], rfl, List.Sublist.slnil, by simp [idsOf]⟩
  | cons part rest ih =>
      obtain ⟨verdict, between, hPart, hEnter, hRest⟩ := outcome_assembleAll_cons_eq_ok_iff.mp hDone
      obtain ⟨dropped, hWarnings, hSub, hCount⟩ := ih hRest
      have hBase : between.base = x.base := (base_problems_of_enter hEnter).1
      rw [hBase] at hSub hCount
      -- the assembly of a section warns of nothing, so only its entry can
      have hSplit : (assembleAll env origin x (part :: rest)).warnings =
          ((if x.decides (idOf x.base part.name) = true then [idOf x.base part.name] else []) ++
            dropped).map repeatRecord := by
        have hNone := @warnings_assemble env origin part.lines
        have hFirst := @warnings_enter
          { x with problems := x.problems ++ (assemble env origin part.lines).problems }
          (idOf x.base part.name) verdict
        rw [List.map_append, ← hWarnings]
        refine Eq.trans ?_ (congrArg (· ++ _) hFirst)
        simp only [Traced.warnings, Traced.records] at hNone ⊢
        rw [events_assembleAll_cons hPart hEnter, List.filterMap_append, List.filterMap_append,
          List.filter_append, List.filter_append, hNone, List.nil_append]
      refine ⟨_, hSplit, ?_, fun id => ?_⟩
      · split
        · exact hSub.cons_cons _
        · exact hSub.cons _
      · have hId := hCount id
        have hDecides := decides_of_enter hEnter id
        simp only [idsOf, List.map_cons, List.count_append, List.count_cons, beq_iff_eq] at hId ⊢
        by_cases hSame : idOf x.base part.name = id
        · have hHere : between.decides id = true := hDecides.mpr (Or.inr hSame.symm)
          simp only [hHere, hSame, ↓reduceIte] at hId ⊢
          cases hKnown : x.decides id with
          | true => simp [hId, Nat.add_comm]
          | false => simp [hId]
        · have hOther : between.decides id = true ↔ x.decides id = true :=
            hDecides.trans (or_iff_left (Ne.symm hSame))
          have hNothing : (if x.decides (idOf x.base part.name) = true then
              [idOf x.base part.name] else []).count id = 0 := by
            split
            · simp [hSame]
            · rfl
          simp only [hOther] at hId
          rw [hNothing, hId, if_neg hSame]
          omega

@[simp] theorem idOf_inj {name other : Text} : idOf base name = idOf base other ↔ name = other := by
  simp [idOf]

theorem exists_outcome_ofText (hStore : env.store.RefusesOnly) (base source : Text)
    (origin : Option Text) : ∃ x, (ofText env base source origin).outcome = .ok x :=
  exists_outcome_assembleAll hStore { base }

/-- An id is decided on in one way. -/
theorem Holds.unique {v w : Except Problem Text}
    (hDone : (ofText env base source origin).outcome = .ok x) (hv : x.Holds id v)
    (hw : x.Holds id w) : v = w := by
  obtain ⟨part, hPart, hv⟩ := (holds_ofText_iff hDone).mp hv
  obtain ⟨other, hOther, hw⟩ := (holds_ofText_iff hDone).mp hw
  cases hPart.symm.trans hOther
  exact Except.ok.inj (hv.symm.trans hw)

theorem id_of_deciding (h : deciding? base source id = some part) : idOf base part.name = id := by
  have hName := List.find?_some h
  exact beq_iff_eq.mp hName

theorem mem_idsOf_iff : id ∈ idsOf base (Section.ofText source) ↔
    ∃ part, deciding? base source id = some part := by
  rw [← Option.isSome_iff_exists, deciding?, List.find?_isSome, idsOf, List.mem_map]
  simp only [beq_iff_eq]

theorem exists_holds_iff (hStore : env.store.RefusesOnly)
    (hDone : (ofText env base source origin).outcome = .ok x) :
    (∃ v, x.Holds id v) ↔ id ∈ idsOf base (Section.ofText source) := by
  rw [mem_idsOf_iff]
  constructor
  · rintro ⟨v, hv⟩
    obtain ⟨part, hPart, -⟩ := (holds_ofText_iff hDone).mp hv
    exact ⟨part, hPart⟩
  · rintro ⟨part, hPart⟩
    obtain ⟨v, hv⟩ := exists_outcome_assemble hStore origin part.lines
    exact ⟨v, (holds_ofText_iff hDone).mpr ⟨part, hPart, hv⟩⟩

theorem mem_keys_sections_iff : id ∈ x.sections.map Prod.fst ↔ ∃ text, x.Holds id (.ok text) := by
  simp [Holds]

theorem mem_keys_failed_iff :
    id ∈ x.failed.map Prod.fst ↔ ∃ problem, x.Holds id (.error problem) := by
  simp [Holds]

/-- The first section of an id decides on it. -/
theorem holds_first_iff {later earlier : List Section} {v : Except Problem Text}
    (hDone : (ofText env base source origin).outcome = .ok x)
    (hParts : Section.ofText source = earlier ++ part :: later)
    (hFirst : ∀ other ∈ earlier, other.name ≠ part.name) :
    x.Holds (idOf base part.name) v ↔ (assemble env origin part.lines).outcome = .ok v := by
  have hDecides : deciding? base source (idOf base part.name) = some part := by
    rw [deciding?, hParts, List.find?_eq_some_iff_append]
    refine ⟨beq_self_eq_true _, earlier, later, rfl, fun other hOther => ?_⟩
    simpa using hFirst other hOther
  rw [holds_ofText_iff hDone, hDecides]
  simp

/-- In a file of its own a section comes to what it comes to as the first of its id. -/
theorem holds_alone_iff {later earlier : List Section} {alone : Text} {v : Except Problem Text}
    (hDone : (ofText env base source origin).outcome = .ok x)
    (hParts : Section.ofText source = earlier ++ part :: later)
    (hFirst : ∀ other ∈ earlier, other.name ≠ part.name) (hAlone : part.OnlyIn alone)
    (hOwn : (ofText env base alone origin).outcome = .ok y) :
    y.Holds id v ↔ id = idOf base part.name ∧ x.Holds id v := by
  have hOnly : y.Holds id v → id = idOf base part.name := by
    intro hv
    obtain ⟨other, hOther, -⟩ := (holds_ofText_iff hOwn).mp hv
    have hId := id_of_deciding hOther
    rw [deciding?, hAlone.ofText_eq] at hOther
    have hMem := List.mem_singleton.mp (List.mem_of_find?_eq_some hOther)
    rw [hMem] at hId
    exact hId.symm
  have hSplit : Section.ofText alone = [] ++ part :: [] := hAlone.ofText_eq
  have hSame : y.Holds (idOf base part.name) v ↔ x.Holds (idOf base part.name) v := by
    rw [holds_first_iff hDone hParts hFirst,
      holds_first_iff hOwn hSplit (List.forall_mem_nil _)]
  constructor
  · intro hv
    have hId := hOnly hv
    subst hId
    exact ⟨rfl, hSame.mp hv⟩
  · rintro ⟨rfl, hv⟩
    exact hSame.mpr hv

/-- The effect decides on the ids of `parts` as if each section stood in a file of its
own. Of several sections with one id the first one decides, even if it fails. -/
structure Separates (env : Environment) (base : Text) (origin : Option Text)
    (parts : List Section) (run : Traced StoreError Effect) (x : Effect) : Prop where
  outcome : run.outcome = .ok x
  ids : ∀ id, (id ∈ x.sections.map Prod.fst ∨ id ∈ x.failed.map Prod.fst) ↔ id ∈ idsOf base parts
  disjoint : ∀ id ∈ x.sections.map Prod.fst, id ∉ x.failed.map Prod.fst
  /-- No id is there twice, and they stand in the order in which the file has them. -/
  ordered : (x.sections.map Prod.fst).Pairwise fun a b =>
    (idsOf base parts).idxOf a < (idsOf base parts).idxOf b
  first : ∀ earlier part later, parts = earlier ++ part :: later →
    (∀ other ∈ earlier, other.name ≠ part.name) →
      ∀ v, x.Holds (idOf base part.name) v ↔ (assemble env origin part.lines).outcome = .ok v
  circular : ∀ entry ∈ x.failed, ∃ chain, entry.2 = .circularInclude chain
  alone : ∀ earlier part later, parts = earlier ++ part :: later →
    (∃ own, part.OnlyIn own) ∧ ∀ own, part.OnlyIn own →
      ∃ y, (ofText env base own origin).outcome = .ok y ∧ y.problems = problemsIn env origin part ∧
        ((∀ other ∈ earlier, other.name ≠ part.name) → ∀ id v,
          y.Holds id v ↔ id = idOf base part.name ∧ x.Holds id v)
  problems : x.problems = parts.flatMap (problemsIn env origin)
  /-- Every section whose id an earlier one has costs one warning. -/
  warnings : ∃ dropped : List Text, run.warnings = dropped.map repeatRecord ∧
    dropped.Sublist (idsOf base parts) ∧ ∀ id, dropped.count id = (idsOf base parts).count id - 1

theorem separates_of_outcome (hStore : env.store.RefusesOnly)
    (hDone : (ofText env base source origin).outcome = .ok x) :
    Separates env base origin (Section.ofText source) (ofText env base source origin) x where
  outcome := hDone
  ids id := by
    rw [mem_keys_sections_iff, mem_keys_failed_iff, ← exists_holds_iff hStore hDone]
    constructor
    · rintro (⟨text, hText⟩ | ⟨problem, hProblem⟩)
      · exact ⟨_, hText⟩
      · exact ⟨_, hProblem⟩
    · rintro ⟨text | problem, hv⟩
      · exact Or.inr ⟨_, hv⟩
      · exact Or.inl ⟨_, hv⟩
  disjoint id hText hFailed := by
    obtain ⟨text, hText⟩ := mem_keys_sections_iff.mp hText
    obtain ⟨problem, hProblem⟩ := mem_keys_failed_iff.mp hFailed
    cases Holds.unique hDone hText hProblem
  ordered := by
    obtain ⟨added, hAdded, -, hOrder⟩ := exists_sections_eq_append hDone
    rw [hAdded]
    exact hOrder
  first earlier part later hSplit hFirst v := holds_first_iff hDone hSplit hFirst
  circular := by
    rintro ⟨id, problem⟩ hEntry
    have hHolds : x.Holds id (.error problem) := hEntry
    obtain ⟨part, -, hPart⟩ := (holds_ofText_iff hDone).mp hHolds
    obtain ⟨chain, -, hChain⟩ := outcome_assemble_eq_problem_iff.mp hPart
    exact ⟨chain, hChain.symm⟩
  alone earlier part later hSplit := by
    have hMem : part ∈ Section.ofText source := by simp [hSplit]
    refine ⟨Section.exists_onlyIn hMem, fun own hOwn => ?_⟩
    obtain ⟨y, hAlone⟩ := exists_outcome_ofText hStore base own origin
    refine ⟨y, hAlone, ?_, fun hFirst id v => holds_alone_iff hDone hSplit hFirst hOwn hAlone⟩
    have hProblems := problems_assembleAll hAlone
    rw [hOwn.ofText_eq] at hProblems
    simpa using hProblems
  problems := problems_assembleAll hDone
  warnings := by
    obtain ⟨dropped, hWarnings, hSub, hCount⟩ := exists_warnings_eq hDone
    exact ⟨dropped, hWarnings, hSub, by simpa [decides] using hCount⟩

/-- An effect file is cut at its headings, in one way only, and each section is
assembled as if it stood in a file of its own. What stands above the first heading is
not even looked at: with any other lines there the run is the same, event by event. -/
theorem sibling_isolation (hStore : env.store.RefusesOnly) (base source : Text)
    (origin : Option Text) :
    ∃ opening blocks x,
      (∀ before others, Section.CutsInto source.lines before others ↔
        before = opening ∧ others = blocks) ∧
      Separates env base origin (Section.ofBlocks opening blocks)
        (ofText env base source origin) x ∧
      (blocks ≠ [] → ∀ other before, Section.CutsInto (Text.lines other) before blocks →
        ofText env base other origin = ofText env base source origin) := by
  obtain ⟨opening, blocks, hCut⟩ := Section.exists_cutsInto source.lines
  obtain ⟨x, hDone⟩ := exists_outcome_ofText hStore base source origin
  have hSeparates := separates_of_outcome hStore hDone
  have hParts : Section.ofText source = Section.ofBlocks opening blocks := hCut.ofLines_eq
  rw [hParts] at hSeparates
  refine ⟨opening, blocks, x, fun before others => ⟨fun h => h.unique hCut, ?_⟩, hSeparates, ?_⟩
  · rintro ⟨rfl, rfl⟩
    exact hCut
  · intro hBlocks other before hOther
    have hSame : Section.ofText other = Section.ofText source := by
      rw [Section.ofText, Section.ofText, hOther.ofLines_eq, hCut.ofLines_eq]
      cases blocks with
      | nil => exact absurd rfl hBlocks
      | cons b later => rfl
    rw [ofText, ofText, hSame]

/-- A file that opens with an include line and has two sections of one name, of which
the first is caught in the ring. -/
def repeatedSource : Text := Text.terminateLines ["#include \"B\"".toList, "-- V".toList,
  "#include \"A\"".toList, "-- V ".toList, "vertex".toList, "-- F".toList]

theorem sibling_isolation_repeated : twoFileRing.store.RefusesOnly ∧
    ∃ x, (ofText twoFileRing "X".toList repeatedSource none).outcome = .ok x ∧
      x.failed.map Prod.fst = ["X.V".toList] ∧ x.sections.map Prod.fst = ["X.F".toList] ∧
      ∃ dropped : List Text,
        (ofText twoFileRing "X".toList repeatedSource none).warnings = dropped.map repeatRecord ∧
        dropped.count "X.V".toList = 1 ∧ dropped.count "X.F".toList = 0 := by
  have hStore : twoFileRing.store.RefusesOnly := Memory.refusesOnly_store _
  have hDone : ∃ x, (ofText twoFileRing "X".toList repeatedSource none).outcome = .ok x ∧
      x.failed.map Prod.fst = ["X.V".toList] ∧ x.sections.map Prod.fst = ["X.F".toList] := by
    have hSections : Section.ofText repeatedSource = [⟨"V".toList, ["#include \"A\"".toList]⟩,
        ⟨"V".toList, ["vertex".toList]⟩, ⟨"F".toList, []⟩] := rfl
    rw [ofText, hSections]
    simp only [assembleAll, assemble, Environment.expandLines_eq_expandWithin]
    exact ⟨_, rfl, rfl, rfl⟩
  obtain ⟨x, hDone, hFailed, hSections⟩ := hDone
  obtain ⟨opening, blocks, _, hCut, hSeparates, -⟩ :=
    sibling_isolation hStore "X".toList repeatedSource none
  obtain ⟨rfl, rfl⟩ := (hCut ["#include \"B\"".toList] [⟨"-- V".toList, ["#include \"A\"".toList]⟩,
    ⟨"-- V ".toList, ["vertex".toList]⟩, ⟨"-- F".toList, []⟩]).mp ⟨rfl, by decide, by decide⟩
  obtain ⟨dropped, hWarnings, -, hCount⟩ := hSeparates.warnings
  exact ⟨hStore, x, hDone, hFailed, hSections, dropped, hWarnings, hCount _, hCount _⟩

end Effect

end ShaderLibrary
