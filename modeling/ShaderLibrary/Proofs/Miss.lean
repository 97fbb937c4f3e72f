import ShaderLibrary.Proofs.WriteOnce

/-! Requests for what is not in the cache. What comes of one is said from the file of
the id alone, and a request that fails leaves nothing behind for its id. -/
namespace ShaderLibrary

open Relation

namespace Effect

variable {env : Environment} {origin : Option Text} {x : Effect}
  {base source path id text : Text} {chain : List Text} {v : Except Problem Text}

/-- What the first section of the id comes to. -/
def Verdict (env : Environment) (base source : Text) (origin : Option Text) (id : Text)
    (v : Except Problem Text) : Prop :=
  ∃ part, deciding? base source id = some part ∧ (assemble env origin part.lines).outcome = .ok v

/-- A cycle is the only verdict that is no text. -/
theorem exists_chain_of_verdict {problem : Problem}
    (h : Verdict env base source origin id (.error problem)) :
    ∃ chain, problem = .circularInclude chain := by
  obtain ⟨part, -, hPart⟩ := h
  obtain ⟨chain, -, hChain⟩ := outcome_assemble_eq_problem_iff.mp hPart
  exact ⟨chain, hChain.symm⟩

/-- In terms of the include graph: the first section of the id reaches a cycle, or the
file in which it stands. -/
theorem exists_verdict_circular_iff (hStore : env.store.RefusesOnly) :
    (∃ chain, Verdict env base source (some path) id (.error (.circularInclude chain))) ↔
      ∃ part, deciding? base source id = some part ∧
        ∃ q, env.Reaches part.lines q ∧ (q = path ∨ TransGen env.Includes q q) := by
  have hCycle (lines : List Text) := @Environment.expandLines_cycle_iff env [path] lines 1 hStore
  simp only [List.mem_singleton] at hCycle
  simp only [Verdict, outcome_assemble_eq_problem_iff, Problem.circularInclude.injEq,
    exists_eq_right, ← hCycle]
  constructor
  · rintro ⟨chain, part, hPart, hLines⟩
    exact ⟨part, hPart, chain, hLines⟩
  · rintro ⟨part, hPart, chain, hLines⟩
    exact ⟨chain, part, hPart, hLines⟩

/-- The ids with a verdict are those that the headings of the file yield. -/
theorem exists_verdict_iff (hStore : env.store.RefusesOnly) :
    (∃ v, Verdict env base source origin id v) ↔
      ∃ name, Section.NamedIn source name ∧ idOf base name = id := by
  constructor
  · rintro ⟨v, part, hPart, -⟩
    have hMem : part ∈ Section.ofText source := List.mem_of_find?_eq_some hPart
    exact ⟨part.name, Section.namedIn_iff.mpr ⟨part, hMem, rfl⟩, id_of_deciding hPart⟩
  · rintro ⟨name, hName, hId⟩
    obtain ⟨part, hMem, rfl⟩ := Section.namedIn_iff.mp hName
    obtain ⟨first, hFirst⟩ := mem_idsOf_iff.mp (List.mem_map.mpr ⟨part, hMem, hId⟩)
    obtain ⟨v, hv⟩ := exists_outcome_assemble hStore origin first.lines
    exact ⟨v, first, hFirst, hv⟩

theorem answer_eq_text_iff (hDone : (ofText env base source origin).outcome = .ok x) :
    x.answer id = .ok text ↔ Verdict env base source origin id (.ok text) := by
  rw [answer_eq_ok_iff, lookup_sections_eq_some_iff hDone, holds_ofText_iff hDone]
  rfl

theorem answer_eq_circular_iff (hDone : (ofText env base source origin).outcome = .ok x) :
    x.answer id = .error (.problem (.circularInclude chain)) ↔
      Verdict env base source origin id (.error (.circularInclude chain)) := by
  constructor
  · intro h
    by_cases hSome : ∃ v, x.Holds id v
    · obtain ⟨v, hv⟩ := hSome
      rw [answer_of_holds hDone hv] at h
      cases v with
      | ok text => cases h
      | error problem =>
          cases h
          exact (holds_ofText_iff hDone).mp hv
    · rw [answer_of_open hDone (not_exists.mp hSome)] at h
      cases h
  · intro hv
    exact answer_of_holds hDone ((holds_ofText_iff hDone).mpr hv)

theorem answer_eq_unknown_iff (hDone : (ofText env base source origin).outcome = .ok x) :
    x.answer id = .error (.problem (.unknownSection id)) ↔
      ∀ v, ¬ Verdict env base source origin id v := by
  constructor
  · intro h v hv
    rw [answer_of_holds hDone ((holds_ofText_iff hDone).mpr hv)] at h
    cases v with
    | ok text => cases h
    | error problem =>
        obtain ⟨chain, rfl⟩ := exists_chain_of_verdict hv
        cases h
  · intro hNone
    exact answer_of_open hDone fun v hv => hNone v ((holds_ofText_iff hDone).mp hv)

end Effect

namespace Cache

variable {env : Environment} {c : Cache} {id other : Text}

/-- A request for an id of another file leaves an id as it is. -/
theorem get?_get_of_other (h : baseOf id ≠ baseOf other) :
    (c.get env (.text other)).2.get? id = c.get? id := by
  cases hOther : c.get? other with
  | some kept =>
      rw [get_of_kept hOther]
      rfl
  | none =>
      have hNone : (sectionsIn env other).lookup id = none :=
        Option.eq_none_iff_forall_ne_some.mpr fun text hText =>
          h (lookup_sectionsIn_eq_some_iff.mp hText).1
      rw [get_of_missing hOther]
      change (c.insertAll (sectionsIn env other)).get? id = c.get? id
      rw [get?_insertAll, hNone, Option.or_none]

/-- A failure for an id is not kept, and neither is a text. -/
theorem get?_get_of_error {fault : Fault} (h : c.get? id = none)
    (hFault : uncached env id = .error fault) : (c.get env (.text id)).2.get? id = none := by
  have hNone : (sectionsIn env id).lookup id = none := by
    apply Option.eq_none_iff_forall_ne_some.mpr
    intro text hText
    have hAnswer := (lookup_sectionsIn_eq_some_iff.mp hText).2
    rw [hFault] at hAnswer
    cases hAnswer
  rw [get_of_missing h]
  change (c.insertAll (sectionsIn env id)).get? id = none
  rw [get?_insertAll, h, hNone, Option.none_or]

end Cache

/-- The operation may give the id a text: it asks for an id of the same file, or hands
in a text for the id. -/
def Operation.Touches (operation : Operation) (id : Text) : Prop :=
  (∃ other, operation.asked? = some other ∧ Cache.baseOf id = Cache.baseOf other) ∨
    ∃ text, operation = .insert id text

namespace Session

variable {s next : Session} {base source path id text : Text} {run : Traced Fault Answer}
  {operation : Operation}

theorem get?_after_of_not_touches (h : ¬ operation.Touches id) :
    (s.after operation).cache.get? id = s.cache.get? id := by
  rcases s.cache_after operation with ⟨other, text, rfl, hCache⟩ | ⟨other, hAsked, hCache⟩ | ⟨-, hCache⟩
  · have hOther : id ≠ other := by
      rintro rfl
      exact h (Or.inr ⟨text, rfl⟩)
    rw [hCache, Cache.get?_insert, if_neg hOther, Option.or_none]
  · rw [hCache]
    exact Cache.get?_get_of_other fun hBase => h (Or.inl ⟨other, hAsked, hBase⟩)
  · rw [hCache]

theorem get?_afterAll_of_not_touches {operations : List Operation}
    (h : ∀ operation ∈ operations, ¬ operation.Touches id) :
    (s.afterAll operations).cache.get? id = s.cache.get? id :=
  frame_afterAll (fun s => s.cache.get? id)
    (fun _ operation hMem => get?_after_of_not_touches (h operation hMem)) s

theorem perform_get_of_missing (h : s.cache.get? id = none) :
    s.perform (.get (.text id)) = (⟨Cache.missEvents s.environment id,
      (Cache.uncached s.environment id).map .text⟩,
      s.withCache { s.cache.insertAll (Cache.sectionsIn s.environment id) with
        misses := s.cache.misses + 1 }) :=
  perform_get (Cache.get_of_missing h s.environment)

theorem outcome_get_eq_text_iff (h : s.cache.get? id = none) :
    (s.perform (.get (.text id))).1.outcome = .ok (.text text) ↔
      Cache.uncached s.environment id = .ok text := by
  rw [perform_get_of_missing h]
  cases Cache.uncached s.environment id <;> simp [Except.map]

theorem outcome_get_eq_error_iff {fault : Fault} (h : s.cache.get? id = none) :
    (s.perform (.get (.text id))).1.outcome = .error fault ↔
      Cache.uncached s.environment id = .error fault := by
  rw [perform_get_of_missing h]
  cases Cache.uncached s.environment id <;> simp [Except.map]

/-- What a request for an id does that is not in the cache, if its file can be read. -/
structure Loads (s : Session) (base path source id : Text) (run : Traced Fault Answer)
    (next : Session) : Prop where
  /-- The old entries stay, and all sections are added that the file assembles. -/
  entries : ∀ other text, next.cache.get? other = some text ↔
    s.cache.get? other = some text ∨ (s.cache.get? other = none ∧
      Effect.Verdict s.environment base source (some path) other (.ok text))
  numbers : next.cache.hits = s.cache.hits ∧ next.cache.misses = s.cache.misses + 1
  rest : next = s.withCache next.cache
  text : ∀ text, run.outcome = .ok (.text text) ↔
    Effect.Verdict s.environment base source (some path) id (.ok text)
  circular : ∀ chain, run.outcome = .error (.problem (.circularInclude chain)) ↔
    Effect.Verdict s.environment base source (some path) id (.error (.circularInclude chain))
  cyclic : (∃ chain, run.outcome = .error (.problem (.circularInclude chain))) ↔
    ∃ part, Effect.deciding? base source id = some part ∧ ∃ q,
      s.environment.Reaches part.lines q ∧ (q = path ∨ TransGen s.environment.Includes q q)
  unknown : run.outcome = .error (.problem (.unknownSection id)) ↔
    ∀ name, Section.NamedIn source name → Effect.idOf base name ≠ id
  complete : (∃ text, run.outcome = .ok (.text text)) ∨
    (∃ chain, run.outcome = .error (.problem (.circularInclude chain))) ∨
    run.outcome = .error (.problem (.unknownSection id))

theorem loads_of_read (hMissing : s.cache.get? id = none) (hBase : Cache.baseOf id = base)
    (hStore : s.environment.store.RefusesOnly)
    (hFound : s.environment.catalog.find? (base ++ s.environment.catalog.extension) = some path)
    (hRead : s.environment.store.readText path = .ok source) :
    s.Loads base path source id (s.perform (.get (.text id))).1 (s.perform (.get (.text id))).2 := by
  subst hBase
  obtain ⟨x, hDone⟩ :=
    Effect.exists_outcome_ofText hStore (Cache.baseOf id) source (some path)
  have hFile : Cache.fileOf s.environment id = .ok x :=
    Cache.fileOf_eq_ok_iff.mpr ⟨path, source, hFound, hRead, hDone⟩
  obtain ⟨hAnswer, hSections⟩ := Cache.of_fileOf_ok hFile
  have hText : ∀ text, (s.perform (.get (.text id))).1.outcome = .ok (.text text) ↔
      Effect.Verdict s.environment (Cache.baseOf id) source (some path) id (.ok text) := by
    intro text
    rw [outcome_get_eq_text_iff hMissing, hAnswer, Effect.answer_eq_text_iff hDone]
  have hCircular : ∀ chain, (s.perform (.get (.text id))).1.outcome =
      .error (.problem (.circularInclude chain)) ↔
      Effect.Verdict s.environment (Cache.baseOf id) source (some path) id
        (.error (.circularInclude chain)) := by
    intro chain
    rw [outcome_get_eq_error_iff hMissing, hAnswer, Effect.answer_eq_circular_iff hDone]
  have hUnknown : (s.perform (.get (.text id))).1.outcome =
      .error (.problem (.unknownSection id)) ↔
      ∀ v, ¬ Effect.Verdict s.environment (Cache.baseOf id) source (some path) id v := by
    rw [outcome_get_eq_error_iff hMissing, hAnswer, Effect.answer_eq_unknown_iff hDone]
  have hNext : (s.perform (.get (.text id))).2 =
      s.withCache { s.cache.insertAll x.sections with misses := s.cache.misses + 1 } := by
    rw [perform_get_of_missing hMissing, hSections]
  constructor
  case entries =>
    intro other text
    rw [hNext]
    change (s.cache.insertAll x.sections).get? other = some text ↔ _
    rw [Cache.get?_insertAll, Option.or_eq_some_iff,
      Effect.lookup_sections_eq_some_iff hDone, Effect.holds_ofText_iff hDone]
    rfl
  case numbers =>
    rw [hNext, Cache.insertAll_eq]
    exact ⟨rfl, rfl⟩
  case rest =>
    rw [hNext]
    rfl
  case text => exact hText
  case circular => exact hCircular
  case cyclic =>
    rw [← Effect.exists_verdict_circular_iff hStore]
    exact exists_congr hCircular
  case unknown =>
    rw [hUnknown, ← not_exists, Effect.exists_verdict_iff hStore]
    simp
  case complete =>
    by_cases hSome : ∃ v, Effect.Verdict s.environment (Cache.baseOf id) source (some path) id v
    · obtain ⟨v, hv⟩ := hSome
      cases v with
      | ok text => exact Or.inl ⟨text, (hText text).mpr hv⟩
      | error problem =>
          obtain ⟨chain, rfl⟩ := Effect.exists_chain_of_verdict hv
          exact Or.inr (Or.inl ⟨chain, (hCircular chain).mpr hv⟩)
    · exact Or.inr (Or.inr (hUnknown.mpr (not_exists.mp hSome)))

/-- What a request for an id does that is not in the cache. -/
structure Misses (s : Session) (base id : Text) (run : Traced Fault Answer) (next : Session) :
    Prop where
  unlisted : s.environment.catalog.find? (base ++ s.environment.catalog.extension) = none →
    run.outcome = .error (.problem (.unknownFile (base ++ s.environment.catalog.extension))) ∧
      next = s.withCache { s.cache with misses := s.cache.misses + 1 }
  unreadable : ∀ path e,
    s.environment.catalog.find? (base ++ s.environment.catalog.extension) = some path →
    s.environment.store.readText path = .error e →
    run.outcome = .error (.store e) ∧
      next = s.withCache { s.cache with misses := s.cache.misses + 1 }
  loads : s.environment.store.RefusesOnly → ∀ path source,
    s.environment.catalog.find? (base ++ s.environment.catalog.extension) = some path →
    s.environment.store.readText path = .ok source → s.Loads base path source id run next
  /-- After a failure the id has no text until an operation touches it, and as long as it
  has none, a request for it is what it would be with an empty cache. -/
  forgets : ∀ fault, run.outcome = .error fault → next.cache.get? id = none ∧ ∀ operations,
    ((∀ operation ∈ operations, ¬ operation.Touches id) →
      (next.afterAll operations).cache.get? id = none) ∧
    ((next.afterAll operations).cache.get? id = none →
      ((next.afterAll operations).perform (.get (.text id))).1 =
        (((next.afterAll operations).withCache {}).perform (.get (.text id))).1)

theorem perform_get_of_fileOf_error {fault : Fault} (h : s.cache.get? id = none)
    (hFile : Cache.fileOf s.environment id = .error fault) :
    (s.perform (.get (.text id))).1.outcome = .error fault ∧
      (s.perform (.get (.text id))).2 =
        s.withCache { s.cache with misses := s.cache.misses + 1 } := by
  obtain ⟨hAnswer, hSections⟩ := Cache.of_fileOf_error hFile
  rw [perform_get_of_missing h, hAnswer, hSections]
  exact ⟨rfl, rfl⟩

theorem get?_perform_of_error {fault : Fault} (h : s.cache.get? id = none)
    (hFault : (s.perform (.get (.text id))).1.outcome = .error fault) :
    (s.perform (.get (.text id))).2.cache.get? id = none := by
  exact Cache.get?_get_of_error h ((outcome_get_eq_error_iff h).mp hFault)

/-- With nothing for the id in the cache, it does not matter what else is there. -/
theorem perform_withCache_empty (h : s.cache.get? id = none) :
    (s.perform (.get (.text id))).1 = ((s.withCache {}).perform (.get (.text id))).1 := by
  have hEmpty : (s.withCache {}).cache.get? id = none := rfl
  rw [perform_get_of_missing h, perform_get_of_missing hEmpty]
  rfl

/-- A request for an id that is not in the cache goes to the file that is named by what
stands before the first dot. Without such a file, or if it cannot be read, the request
fails and no entry is added. Otherwise all that the file assembles is kept, and the
first section of the id decides on the answer. A failure is not kept. -/
theorem misses_of_missing (hMissing : s.cache.get? id = none) (hBase : '.' ∉ base)
    (hId : id = base ∨ ∃ rest, id = base ++ '.' :: rest) :
    s.Misses base id (s.perform (.get (.text id))).1 (s.perform (.get (.text id))).2 := by
  have hFileName : Cache.baseOf id = base := Cache.baseOf_eq hBase hId
  constructor
  case unlisted =>
    intro hFound
    apply perform_get_of_fileOf_error hMissing
    rw [Cache.fileOf, hFileName, hFound]
  case unreadable =>
    intro path e hFound hRead
    apply perform_get_of_fileOf_error hMissing
    rw [Cache.fileOf, hFileName, hFound]
    simp only [hRead]
  case loads =>
    intro hStore path source hFound hRead
    exact loads_of_read hMissing hFileName hStore hFound hRead
  case forgets =>
    intro fault hFault
    have hNone := get?_perform_of_error hMissing hFault
    refine ⟨hNone, fun operations => ⟨fun hOther => ?_, perform_withCache_empty⟩⟩
    rw [get?_afterAll_of_not_touches hOther]
    exact hNone

/-- A new library with a file of which one section includes the file itself. -/
def snakeSession : Session where
  library := { root := [], catalog := Cache.snake.catalog, macros := Cache.snake.macros }
  store := Cache.snake.store

theorem misses_of_missing_snake :
    snakeSession.cache.get? "X.C".toList = none ∧ '.' ∉ "X".toList ∧
      (∃ chain, (snakeSession.perform (.get (.text "X.C".toList))).1.outcome =
        .error (.problem (.circularInclude chain))) ∧
      (snakeSession.perform (.get (.text "X.C".toList))).2.cache.get? "X.C".toList = none ∧
      (snakeSession.perform (.get (.text "X.C".toList))).2.cache.get? "X.V".toList =
        some (Text.terminateLines ["#line 1".toList, "vertex".toList]) := by
  have hMissing : snakeSession.cache.get? "X.C".toList = none := rfl
  have hBase : '.' ∉ "X".toList := by decide
  have hMisses := misses_of_missing hMissing hBase (Or.inr ⟨"C".toList, rfl⟩)
  have hLoads := hMisses.loads (Memory.refusesOnly_store _) "X.glsl".toList Cache.snakeSource rfl rfl
  have hLeads : snakeSession.environment.LeadsTo "#include \"X.glsl\"".toList "X.glsl".toList :=
    ⟨rfl, _, rfl, rfl⟩
  obtain ⟨chain, hChain⟩ := hLoads.cyclic.mpr ⟨⟨"C".toList, ["#include \"X.glsl\"".toList]⟩, rfl,
    "X.glsl".toList, ⟨_, List.mem_cons_self, _, hLeads, .refl⟩, Or.inl rfl⟩
  have hVertex : (Effect.assemble snakeSession.environment (some "X.glsl".toList)
      ["vertex".toList]).outcome =
        .ok (.ok (Text.terminateLines ["#line 1".toList, "vertex".toList])) := by
    simp only [Effect.assemble, Environment.expandLines_eq_expandWithin]
    rfl
  have hKept := (hLoads.entries "X.V".toList _).mpr
    (Or.inr ⟨rfl, ⟨"V".toList, ["vertex".toList]⟩, rfl, hVertex⟩)
  exact ⟨hMissing, hBase, ⟨chain, hChain⟩, (hMisses.forgets _ hChain).1, hKept⟩

end Session

end ShaderLibrary
