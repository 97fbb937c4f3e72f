import ShaderLibrary.Session
import ShaderLibrary.Proofs.Cache

/-! Entries of the cache over whole sessions. An entry is written once: no operation
takes it away or replaces it, whatever becomes of the files, the macros and the catalog.
Requests are counted, and nothing else is. -/
namespace ShaderLibrary

namespace Cache

variable {env : Environment} {c : Cache} {id text : Text}

theorem get?_get (h : c.get? id = some text) (env : Environment) (other : Text) :
    (c.get env (.text other)).2.get? id = some text := by
  cases hOther : c.get? other with
  | some kept =>
      rw [get_of_kept hOther]
      exact h
  | none =>
      rw [get_of_missing hOther]
      change (c.insertAll (sectionsIn env other)).get? id = some text
      rw [get?_insertAll, h, Option.some_or]

/-- A request counts as a hit or as a miss, by what the cache held before. -/
theorem counts_get (c : Cache) (env : Environment) (id : Text) :
    (c.get env (.text id)).2.hits = c.hits + [c.get? id].countP Option.isSome ∧
      (c.get env (.text id)).2.misses = c.misses + [c.get? id].countP Option.isNone := by
  cases h : c.get? id with
  | some kept =>
      rw [get_of_kept h]
      exact ⟨rfl, rfl⟩
  | none =>
      rw [get_of_missing h, insertAll_eq]
      exact ⟨rfl, rfl⟩

end Cache

/-- The id that a value is. Only texts are ids. -/
def Value.id? : Value → Option Text
  | .text id => some id
  | _ => none

/-- The id that an operation asks the cache for. -/
def Operation.asked? : Operation → Option Text
  | .get v => v.id?
  | .getText v => v.id?
  | _ => none

theorem Value.id_cases (v : Value) :
    (∃ id, v.id? = some id ∧ v = .text id) ∨ (v.id? = none ∧ ∀ id, v ≠ .text id) := by
  cases v with
  | text id => exact Or.inl ⟨id, rfl, rfl⟩
  | nothing | truth _ | integer _ _ | number _ | list _ | record _ =>
      exact Or.inr ⟨rfl, fun _ => Value.noConfusion⟩

namespace Session

variable {s : Session} {id text : Text} {v : Value} {operation : Operation}

/-- The session with another cache. -/
def withCache (s : Session) (cache : Cache) : Session :=
  { s with library := { s.library with cache } }

/-- What a run leaves alone in the library if it succeeds is left alone in any case. -/
theorem frame_settle {α β : Type} {run : Traced Fault α} {next : α → Library × Answer}
    (f : Library → β) (h : ∀ a, run.outcome = .ok a → f (next a).1 = f s.library) :
    f (s.settle run next).2.library = f s.library := by
  rw [settle]
  split
  · next a hDone => exact h a hDone
  · rfl

theorem exists_catalog_of_rescan {l next : Library} {store : Store} {count : Nat}
    (h : (l.rescan store).outcome = .ok (next, count)) : ∃ catalog, next = { l with catalog } := by
  obtain ⟨found, -, hNext⟩ := Traced.outcome_bind_eq_ok_iff.mp h
  cases hNext
  exact ⟨found.1, rfl⟩

theorem cache_after_request {v : Value} (hAsked : operation.asked? = v.id?)
    (hCache : (s.after operation).cache = (s.cache.get s.environment v).2) :
    (∃ id, operation.asked? = some id ∧
      (s.after operation).cache = (s.cache.get s.environment (.text id)).2) ∨
    (operation.asked? = none ∧ (s.after operation).cache = s.cache) := by
  rcases v.id_cases with ⟨id, hId, rfl⟩ | ⟨hNone, hOther⟩
  · exact Or.inl ⟨id, hAsked.trans hId, hCache⟩
  · rw [Cache.get_of_not_text hOther] at hCache
    exact Or.inr ⟨hAsked.trans hNone, hCache⟩

/-- What an operation does to the cache. It is that of the cache itself if an id is asked
for or a text is handed in, and no other operation does anything to it. -/
theorem cache_after (s : Session) (operation : Operation) :
    (∃ id text, operation = .insert id text ∧ (s.after operation).cache = s.cache.insert id text) ∨
    (∃ id, operation.asked? = some id ∧
      (s.after operation).cache = (s.cache.get s.environment (.text id)).2) ∨
    (operation.asked? = none ∧ (s.after operation).cache = s.cache) := by
  cases operation with
  | get v => exact Or.inr (cache_after_request (v := v) rfl rfl)
  | getText v => exact Or.inr (cache_after_request (v := v) rfl rfl)
  | insert id text => exact Or.inl ⟨id, text, rfl, rfl⟩
  -- the others leave the cache alone, also where they fail midway
  | define key value => exact Or.inr (Or.inr ⟨rfl, frame_settle Library.cache fun _ _ => rfl⟩)
  | undefine key => exact Or.inr (Or.inr ⟨rfl, rfl⟩)
  | loadGlobalBlock => exact Or.inr (Or.inr ⟨rfl, frame_settle Library.cache fun _ _ => rfl⟩)
  | scan root => exact Or.inr (Or.inr ⟨rfl, frame_settle Library.cache fun _ _ => rfl⟩)
  | rescan =>
      refine Or.inr (Or.inr ⟨rfl, frame_settle Library.cache fun _ hDone => ?_⟩)
      obtain ⟨catalog, hNext⟩ := exists_catalog_of_rescan hDone
      rw [hNext]
  | change store => exact Or.inr (Or.inr ⟨rfl, rfl⟩)

theorem get?_after (h : s.cache.get? id = some text) (operation : Operation) :
    (s.after operation).cache.get? id = some text := by
  rcases s.cache_after operation with ⟨other, new, -, hCache⟩ | ⟨other, -, hCache⟩ | ⟨-, hCache⟩
  · rw [hCache, Cache.get?_insert, h, Option.some_or]
  · rw [hCache]
    exact Cache.get?_get h s.environment other
  · rw [hCache]
    exact h

theorem get?_afterAll (h : s.cache.get? id = some text) (operations : List Operation) :
    (s.afterAll operations).cache.get? id = some text := by
  induction operations generalizing s with
  | nil => exact h
  | cons operation rest ih => exact ih (get?_after h operation)

/-- What no operation of a run changes is the same after the run. -/
theorem frame_afterAll {β : Type} {operations : List Operation} (f : Session → β)
    (h : ∀ s, ∀ operation ∈ operations, f (s.after operation) = f s) (s : Session) :
    f (s.afterAll operations) = f s := by
  induction operations generalizing s with
  | nil => rfl
  | cons operation rest ih =>
      have hRest := fun other next hMem => h other next (List.mem_cons_of_mem operation hMem)
      have hRun : s.afterAll (operation :: rest) = (s.after operation).afterAll rest := rfl
      rw [hRun, ih hRest, h s operation List.mem_cons_self]

/-- What is in the cache for each id that a run asks for, when it asks for it. -/
def findings (s : Session) : List Operation → List (Option Text)
  | [] => []
  | operation :: rest =>
    (operation.asked?.map s.cache.get?).toList ++ (s.after operation).findings rest

/-- An operation counts what it finds, and only that. -/
theorem counts_after (s : Session) (operation : Operation) :
    (s.after operation).cache.hits =
        s.cache.hits + (operation.asked?.map s.cache.get?).toList.countP Option.isSome ∧
      (s.after operation).cache.misses =
        s.cache.misses + (operation.asked?.map s.cache.get?).toList.countP Option.isNone := by
  rcases s.cache_after operation with ⟨id, text, rfl, hCache⟩ | ⟨id, hAsked, hCache⟩ | ⟨hAsked, hCache⟩
  · rw [hCache]
    exact ⟨rfl, rfl⟩
  · rw [hCache, hAsked]
    exact s.cache.counts_get s.environment id
  · rw [hCache, hAsked]
    exact ⟨rfl, rfl⟩

theorem counts_afterAll (s : Session) (operations : List Operation) :
    (s.afterAll operations).cache.hits =
        s.cache.hits + (s.findings operations).countP Option.isSome ∧
      (s.afterAll operations).cache.misses =
        s.cache.misses + (s.findings operations).countP Option.isNone := by
  induction operations generalizing s with
  | nil => exact ⟨rfl, rfl⟩
  | cons operation rest ih =>
      obtain ⟨hHits, hMisses⟩ := s.counts_after operation
      obtain ⟨ihHits, ihMisses⟩ := ih (s.after operation)
      have hRun : s.afterAll (operation :: rest) = (s.after operation).afterAll rest := rfl
      rw [hRun, ihHits, ihMisses, hHits, hMisses, findings, List.countP_append, List.countP_append]
      omega

theorem length_findings (s : Session) (operations : List Operation) :
    (s.findings operations).length = (operations.filterMap Operation.asked?).length := by
  induction operations generalizing s with
  | nil => rfl
  | cons operation rest ih =>
      rw [findings, List.length_append, ih, List.filterMap_cons]
      cases operation.asked? with
      | none => simp
      | some id => simp [Nat.add_comm]

theorem perform_get {run : Traced Fault Text} {cache : Cache}
    (h : s.cache.get s.environment v = (run, cache)) :
    s.perform (.get v) = (⟨run.events, run.outcome.map .text⟩, s.withCache cache) := by
  have hCache : s.library.cache.get (s.library.environment s.store) v = (run, cache) := h
  simp only [perform, request, Library.get, hCache]
  rfl

theorem perform_getText {run : Traced Fault Text} {cache : Cache}
    (h : s.cache.get s.environment v = (run, cache)) :
    s.perform (.getText v) = (⟨(Library.soften v.toText run).events,
      (Library.soften v.toText run).outcome.map .text⟩, s.withCache cache) := by
  have hCache : s.library.cache.get (s.library.environment s.store) v = (run, cache) := h
  simp only [perform, request, Library.getText, Library.get, hCache]
  rfl

/-- The cache has a text for the id. A request answers it without any event and counts
as one hit, and another text that is handed in for the id is not taken. -/
structure Keeps (s : Session) (id text : Text) : Prop where
  kept : s.cache.get? id = some text
  get : s.perform (.get (.text id)) =
    (pure (.text text), s.withCache { s.cache with hits := s.cache.hits + 1 })
  getText : s.perform (.getText (.text id)) =
    (pure (.text text), s.withCache { s.cache with hits := s.cache.hits + 1 })
  insert : ∀ other, s.perform (.insert id other) = (pure (.text text), s)

theorem keeps_of_kept (h : s.cache.get? id = some text) : s.Keeps id text where
  kept := h
  get := perform_get (Cache.get_of_kept h s.environment)
  getText := perform_getText (Cache.get_of_kept h s.environment)
  insert other := by
    have hSame : s.cache.insert id other = s.cache := Cache.insert_of_kept h other
    rw [perform, h, hSame]
    rfl

/-- What a run of operations from `start` to `last` does to the entries and numbers of
the cache. -/
structure WritesOnce (start : Session) (operations : List Operation) (last : Session) : Prop where
  keeps : ∀ id text, start.cache.get? id = some text → last.Keeps id text
  only : ∀ operation, operation.asked? = none → (∀ id text, operation ≠ .insert id text) →
    (last.after operation).cache = last.cache
  requests : last.cache.hits + last.cache.misses =
    start.cache.hits + start.cache.misses + (operations.filterMap Operation.asked?).length
  misses : last.cache.misses =
    start.cache.misses + (start.findings operations).countP Option.isNone
  refused : ∀ v, (∀ id, v ≠ .text id) → last.perform (.get v) = (.fail (.invalidId v), last) ∧
    last.perform (.getText v) = (.fail (.invalidId v), last)

/-- A text that is in the cache at some point of a session stays there and is the answer
to each later request, which reads nothing. Only requests for ids and texts that are
handed in reach the cache at all. Each request for an id is counted, as a miss exactly if the
cache had nothing for the id when it was made. -/
theorem writesOnce_afterAll (start : Session) (operations : List Operation) :
    WritesOnce start operations (start.afterAll operations) where
  keeps id text h := keeps_of_kept (get?_afterAll h operations)
  only operation hNone hOther := by
    rcases (start.afterAll operations).cache_after operation with
      ⟨id, text, hInsert, -⟩ | ⟨id, hAsked, -⟩ | ⟨-, hCache⟩
    · exact absurd hInsert (hOther id text)
    · rw [hNone] at hAsked
      cases hAsked
    · exact hCache
  requests := by
    obtain ⟨hHits, hMisses⟩ := start.counts_afterAll operations
    have hLength := start.length_findings operations
    have hAll := List.length_eq_countP_add_countP Option.isSome (l := start.findings operations)
    have hRest : (start.findings operations).countP Option.isNone =
        (start.findings operations).countP fun found => ¬ found.isSome = true :=
      List.countP_congr fun found _ => by cases found <;> simp
    omega
  misses := (start.counts_afterAll operations).2
  refused v hOther := by
    have hGet := Cache.get_of_not_text (c := (start.afterAll operations).cache) hOther
      (start.afterAll operations).environment
    exact ⟨perform_get hGet, perform_getText hGet⟩

/-- A session with one text in its cache and a store that offers nothing. -/
def stranded : Session where
  library := { root := [], catalog := {}, macros := {}, cache :=
    ({} : Cache).insert "X.V".toList "vertex".toList }
  store := .absent

/-- Operations that fail, and a text that comes too late. -/
def strandedRun : List Operation :=
  [.get (.text "X.F".toList), .rescan, .get .nothing, .insert "X.V".toList "late".toList]

theorem writesOnce_afterAll_stranded :
    stranded.cache.get? "X.V".toList = some "vertex".toList ∧
      (stranded.afterAll strandedRun).Keeps "X.V".toList "vertex".toList ∧
      (stranded.afterAll strandedRun).cache.misses = 1 ∧
      (stranded.afterAll strandedRun).perform (.get .nothing) =
        (.fail (.invalidId .nothing), stranded.afterAll strandedRun) := by
  have hKept : stranded.cache.get? "X.V".toList = some "vertex".toList := rfl
  obtain ⟨hKeeps, -, -, hMisses, hRefused⟩ := writesOnce_afterAll stranded strandedRun
  exact ⟨hKept, hKeeps _ _ hKept, hMisses, (hRefused .nothing fun _ => Value.noConfusion).1⟩

end Session

end ShaderLibrary
