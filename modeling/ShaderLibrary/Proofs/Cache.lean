import Mathlib.Data.List.TakeWhile
import ShaderLibrary.Cache
import ShaderLibrary.Proofs.Dictionary
import ShaderLibrary.Proofs.Splitting

/-! Requests to the cache, one equation for each kind: an id with a text, an id without
one, and what is no id. The file of an id, read without the cache, says what a request
without a text adds and what it answers. -/
namespace ShaderLibrary

namespace Effect

variable {env : Environment} {origin : Option Text} {x : Effect} {base source id text : Text}

theorem lookup_sections_eq_some_iff (hDone : (ofText env base source origin).outcome = .ok x) :
    x.sections.lookup id = some text ↔ x.Holds id (.ok text) :=
  Dictionary.lookup_eq_some_iff_mem fun v w hv hw => by
    have hSame : Except.ok v = Except.ok w := Holds.unique (v := .ok v) (w := .ok w) hDone hv hw
    exact Except.ok.inj hSame

theorem lookup_failed_eq_some_iff {problem : Problem}
    (hDone : (ofText env base source origin).outcome = .ok x) :
    x.failed.lookup id = some problem ↔ x.Holds id (.error problem) :=
  Dictionary.lookup_eq_some_iff_mem fun v w hv hw => by
    have hSame : Except.error v = Except.error w :=
      Holds.unique (v := .error v) (w := .error w) hDone hv hw
    exact Except.error.inj hSame

/-- What the effect says about an id. -/
def answer (x : Effect) (id : Text) : Except Fault Text :=
  match x.sections.lookup id, x.failed.lookup id with
  | some text, _ => .ok text
  | none, some problem => .error (.problem problem)
  | none, none => .error (.problem (.unknownSection id))

theorem answer_eq_ok_iff : x.answer id = .ok text ↔ x.sections.lookup id = some text := by
  rw [answer]
  cases x.sections.lookup id with
  | some kept => simp
  | none => cases x.failed.lookup id <;> simp

theorem answer_of_holds {v : Except Problem Text}
    (hDone : (ofText env base source origin).outcome = .ok x) (h : x.Holds id v) :
    x.answer id = v.mapError .problem := by
  cases v with
  | ok text => exact answer_eq_ok_iff.mpr ((lookup_sections_eq_some_iff hDone).mpr h)
  | error problem =>
      have hFailed : x.failed.lookup id = some problem := (lookup_failed_eq_some_iff hDone).mpr h
      have hText : x.sections.lookup id = none := by
        cases hText : x.sections.lookup id with
        | none => rfl
        | some text =>
            have hHolds := (lookup_sections_eq_some_iff hDone).mp hText
            cases Holds.unique hDone h hHolds
      rw [answer, hText, hFailed]
      rfl

theorem answer_of_open (hDone : (ofText env base source origin).outcome = .ok x)
    (h : ∀ v, ¬ x.Holds id v) : x.answer id = .error (.problem (.unknownSection id)) := by
  have hText : x.sections.lookup id = none := Option.eq_none_iff_forall_ne_some.mpr
    fun text hText => h _ ((lookup_sections_eq_some_iff hDone).mp hText)
  have hFailed : x.failed.lookup id = none := Option.eq_none_iff_forall_ne_some.mpr
    fun problem hFailed => h _ ((lookup_failed_eq_some_iff hDone).mp hFailed)
  rw [answer, hText, hFailed]

end Effect

namespace Cache

variable {env : Environment} {c : Cache} {x : Effect} {base id other text : Text}

@[simp] theorem get?_insert (c : Cache) (id text other : Text) :
    (c.insert id text).get? other =
      (c.get? other).or (if other = id then some text else none) :=
  Dictionary.get?_insertIfNew c.texts id text other

theorem insert_of_kept {old : Text} (h : c.get? id = some old) (text : Text) :
    c.insert id text = c := by
  have hKept : c.texts.has id = true := by
    rw [Dictionary.has]
    exact Option.isSome_iff_exists.mpr ⟨old, h⟩
  rw [insert, Dictionary.insertIfNew, if_pos hKept]

theorem get?_insertAll (c : Cache) (entries : List (Text × Text)) (id : Text) :
    (c.insertAll entries).get? id = (c.get? id).or (entries.lookup id) := by
  induction entries generalizing c with
  | nil => simp [insertAll]
  | cons entry rest ih =>
      obtain ⟨key, value⟩ := entry
      have hStep : c.insertAll ((key, value) :: rest) = (c.insert key value).insertAll rest := rfl
      rw [hStep, ih, get?_insert, Option.or_assoc]
      by_cases hKey : id = key
      · subst hKey
        simp
      · have hBeq : (id == key) = false := beq_eq_false_iff_ne.mpr hKey
        simp [hKey, List.lookup_cons, hBeq]

/-- The numbers of a cache are not touched by entries. -/
theorem insertAll_eq (c : Cache) (entries : List (Text × Text)) :
    c.insertAll entries =
      { c with texts := entries.foldl (fun d entry => d.insertIfNew entry.1 entry.2) c.texts } := by
  induction entries generalizing c with
  | nil => rfl
  | cons entry rest ih => exact ih (c.insert entry.1 entry.2)

/-- The file of an id is named by what stands before its first dot. -/
theorem baseOf_eq (hBase : '.' ∉ base) (hId : id = base ∨ ∃ rest, id = base ++ '.' :: rest) :
    baseOf id = base := by
  have hAll : ∀ c ∈ base, (c != '.') = true := by
    intro c hc
    rw [bne_iff_ne]
    intro hDot
    rw [hDot] at hc
    exact hBase hc
  rcases hId with rfl | ⟨rest, rfl⟩
  · exact List.takeWhile_eq_self_iff.mpr hAll
  · rw [baseOf, List.takeWhile_append_of_pos hAll]
    simp

theorem dot_notMem_baseOf (id : Text) : '.' ∉ baseOf id := by
  intro hDot
  have hOther := List.mem_takeWhile_imp (p := (· != '.')) hDot
  exact absurd hOther (by decide)

@[simp] theorem baseOf_idOf (id name : Text) : baseOf (Effect.idOf (baseOf id) name) = baseOf id :=
  baseOf_eq (dot_notMem_baseOf id) (Or.inr ⟨name, rfl⟩)

/-- The effect that an id belongs to: its file is sought in the catalog, read and taken
apart. -/
def fileOf (env : Environment) (id : Text) : Except Fault Effect :=
  match env.catalog.find? (baseOf id ++ env.catalog.extension) with
  | none => .error (.problem (.unknownFile (baseOf id ++ env.catalog.extension)))
  | some path =>
    match env.store.readText path with
    | .error e => .error (.store e)
    | .ok source => (Effect.ofText env (baseOf id) source (some path)).outcome.mapError .store

/-- The answer for an id without a cache. -/
def uncached (env : Environment) (id : Text) : Except Fault Text :=
  match fileOf env id with
  | .error fault => .error fault
  | .ok x => x.answer id

/-- What the file of an id assembles now. Nothing, if there is no such file. -/
def sectionsIn (env : Environment) (id : Text) : List (Text × Text) :=
  match fileOf env id with
  | .error _ => []
  | .ok x => x.sections

/-- What a request does on its way, if the id has no text. -/
def missEvents (env : Environment) (id : Text) : List Event :=
  .logged ⟨.debug, "Shader cache miss for '".toList ++ id ++ "'".toList⟩ ::
    (readEffect env id).events

theorem outcome_readEffect (env : Environment) (id : Text) :
    (readEffect env id).outcome = fileOf env id := by
  rw [fileOf]
  split
  · next hFound =>
      have hResolve : ((env.catalog.resolve (baseOf id ++ env.catalog.extension)).mapError
          Fault.problem).outcome =
            .error (.problem (.unknownFile (baseOf id ++ env.catalog.extension))) := by
        rw [Traced.mapError, Environment.outcome_resolve_eq_error_iff.mpr ⟨hFound, rfl⟩]
        rfl
      rw [readEffect, Traced.bind_of_error _ hResolve]
  · next path hFound =>
      have hResolve : ((env.catalog.resolve (baseOf id ++ env.catalog.extension)).mapError
          Fault.problem).outcome = .ok ⟨path, Dictionary.mem_values_of_get? hFound⟩ := by
        have hPath : (env.catalog.resolve (baseOf id ++ env.catalog.extension)).outcome =
            .ok ⟨path, Dictionary.mem_values_of_get? hFound⟩ :=
          Environment.outcome_resolve_eq_ok_iff.mpr hFound
        rw [Traced.mapError, hPath]
        rfl
      rw [readEffect, Traced.bind_of_ok _ hResolve]
      cases hRead : env.store.readText path with
      | error e =>
          have hText : ((Traced.readText env.store path).mapError Fault.store).outcome =
              .error (.store e) := by
            rw [Traced.mapError, Traced.readText, hRead]
            rfl
          rw [Traced.bind_of_error _ hText]
      | ok source =>
          have hText : ((Traced.readText env.store path).mapError Fault.store).outcome =
              .ok source := by
            rw [Traced.mapError, Traced.readText, hRead]
            rfl
          rw [Traced.bind_of_ok _ hText]
          rfl

/-- Ids of one file are read from it. -/
theorem fileOf_congr (h : baseOf id = baseOf other) : fileOf env id = fileOf env other := by
  rw [fileOf, fileOf, h]

theorem fileOf_eq_ok_iff : fileOf env id = .ok x ↔
    ∃ path source, env.catalog.find? (baseOf id ++ env.catalog.extension) = some path ∧
      env.store.readText path = .ok source ∧
      (Effect.ofText env (baseOf id) source (some path)).outcome = .ok x := by
  rw [fileOf]
  cases env.catalog.find? (baseOf id ++ env.catalog.extension) with
  | none => simp
  | some path =>
      cases hRead : env.store.readText path with
      | error e => simp [hRead]
      | ok source =>
          cases hDone : (Effect.ofText env (baseOf id) source (some path)).outcome with
          | error e => simp [hRead, hDone, Except.mapError]
          | ok y => simp [hRead, hDone, Except.mapError]

theorem of_fileOf_error {fault : Fault} (h : fileOf env id = .error fault) :
    uncached env id = .error fault ∧ sectionsIn env id = [] := by
  rw [uncached, sectionsIn, h]
  exact ⟨rfl, rfl⟩

theorem of_fileOf_ok (h : fileOf env id = .ok x) :
    uncached env id = x.answer id ∧ sectionsIn env id = x.sections := by
  rw [uncached, sectionsIn, h]
  exact ⟨rfl, rfl⟩

theorem lookup_sectionsIn_iff : (sectionsIn env id).lookup other = some text ↔
    ∃ x, fileOf env id = .ok x ∧ x.sections.lookup other = some text := by
  rw [sectionsIn]
  cases fileOf env id with
  | error fault => simp
  | ok x => simp

theorem uncached_eq_ok_iff : uncached env id = .ok text ↔
    ∃ x, fileOf env id = .ok x ∧ x.sections.lookup id = some text := by
  rw [uncached]
  cases fileOf env id with
  | error fault => simp
  | ok x => simp [Effect.answer_eq_ok_iff]

/-- A file assembles ids that start with its name only, and what it assembles for one
is the answer for it. -/
theorem lookup_sectionsIn_eq_some_iff : (sectionsIn env id).lookup other = some text ↔
    baseOf other = baseOf id ∧ uncached env other = .ok text := by
  rw [lookup_sectionsIn_iff, uncached_eq_ok_iff]
  constructor
  · rintro ⟨x, hFile, hText⟩
    obtain ⟨path, source, -, -, hDone⟩ := fileOf_eq_ok_iff.mp hFile
    obtain ⟨part, hPart, -⟩ := (Effect.holds_ofText_iff hDone).mp
      ((Effect.lookup_sections_eq_some_iff hDone).mp hText)
    have hBase : baseOf other = baseOf id := by
      rw [← Effect.id_of_deciding hPart, baseOf_idOf]
    exact ⟨hBase, x, (fileOf_congr hBase).trans hFile, hText⟩
  · rintro ⟨hBase, x, hFile, hText⟩
    exact ⟨x, (fileOf_congr hBase).symm.trans hFile, hText⟩

theorem select_lookup (x : Effect) (id : Text) : select x (x.sections.lookup id) id = x.answer id := by
  rw [Effect.answer]
  cases x.sections.lookup id with
  | some text => rfl
  | none =>
      cases hFailed : x.failed.lookup id with
      | some problem => simp only [select, hFailed, Option.getD_some]
      | none => simp only [select, hFailed, Option.getD_none]

/-- An id with a text is answered without a look at anything else. -/
theorem get_of_kept (h : c.get? id = some text) (env : Environment) :
    c.get env (.text id) = (pure text, { c with hits := c.hits + 1 }) := by
  simp only [get, h]

/-- An id without a text is answered from its file, whatever the cache holds. -/
theorem get_of_missing (h : c.get? id = none) (env : Environment) :
    c.get env (.text id) = (⟨missEvents env id, uncached env id⟩,
      { c.insertAll (sectionsIn env id) with misses := c.misses + 1 }) := by
  have hGet : c.get env (.text id) = c.load env id := by
    simp only [get, h]
  have hRun : (Traced.log .debug ("Shader cache miss for '".toList ++ id ++ "'".toList) >>=
      fun _ => readEffect env id) = ⟨missEvents env id, fileOf env id⟩ := by
    rw [← outcome_readEffect]
    rfl
  rw [hGet, load]
  simp only [hRun, uncached, sectionsIn]
  cases fileOf env id with
  | error fault => rfl
  | ok x =>
      -- the id has no text of its own, so only the file can have given it one
      have hStart : ({ c with misses := c.misses + 1 } : Cache).get? id = none := h
      have hKept : ({ c with misses := c.misses + 1 }.insertAll x.sections).get? id =
          x.sections.lookup id := by
        rw [get?_insertAll, hStart, Option.none_or]
      have hCache : { c with misses := c.misses + 1 }.insertAll x.sections =
          { c.insertAll x.sections with misses := c.misses + 1 } := by
        rw [insertAll_eq, insertAll_eq]
      dsimp only
      rw [hKept, hCache, select_lookup]

/-- What a request adds is what the files assemble for ids of the same file. -/
theorem get?_get_eq_some_iff (h : c.get? id = none) :
    (c.get env (.text other)).2.get? id = some text ↔
      c.get? other = none ∧ baseOf id = baseOf other ∧ uncached env id = .ok text := by
  cases hOther : c.get? other with
  | some kept =>
      rw [get_of_kept hOther]
      change c.get? id = some text ↔ _
      simp [h]
  | none =>
      rw [get_of_missing hOther]
      change (c.insertAll (sectionsIn env other)).get? id = some text ↔ _
      rw [get?_insertAll, h, Option.none_or, lookup_sectionsIn_eq_some_iff]
      simp

/-- Only texts are ids. -/
theorem get_of_not_text {v : Value} (h : ∀ id, v ≠ .text id) (env : Environment) :
    c.get env v = (.fail (.invalidId v), c) := by
  cases v with
  | text id => exact absurd rfl (h id)
  | nothing | truth _ | integer _ _ | number _ | list _ | record _ => rfl

/-- A file with a vertex section, and a section that includes the file itself. -/
def snakeSource : Text := Text.terminateLines ["-- V".toList, "vertex".toList, "-- C".toList,
  "#include \"X.glsl\"".toList]

/-- A library with this one file. -/
def snake : Environment :=
  .ofMemory {} { files := ⟨[("X.glsl".toList, some (Environment.asciiBytes snakeSource))], by decide⟩ }

theorem fileOf_snake : fileOf snake "X.V".toList = .ok {
    base := "X".toList
    sections := [("X.V".toList, Text.terminateLines ["#line 1".toList, "vertex".toList])]
    failed := [("X.C".toList, .circularInclude ["X.glsl".toList, "X.glsl".toList])]
    problems := [.circularInclude ["X.glsl".toList, "X.glsl".toList]] } := by
  have hDone : (Effect.ofText snake "X".toList snakeSource (some "X.glsl".toList)).outcome = .ok {
      base := "X".toList
      sections := [("X.V".toList, Text.terminateLines ["#line 1".toList, "vertex".toList])]
      failed := [("X.C".toList, .circularInclude ["X.glsl".toList, "X.glsl".toList])]
      problems := [.circularInclude ["X.glsl".toList, "X.glsl".toList]] } := by
    have hSections : Section.ofText snakeSource = [⟨"V".toList, ["vertex".toList]⟩,
        ⟨"C".toList, ["#include \"X.glsl\"".toList]⟩] := rfl
    rw [Effect.ofText, hSections]
    simp only [Effect.assembleAll, Effect.assemble, Environment.expandLines_eq_expandWithin]
    rfl
  exact fileOf_eq_ok_iff.mpr ⟨_, _, rfl, rfl, hDone⟩

end Cache

end ShaderLibrary
