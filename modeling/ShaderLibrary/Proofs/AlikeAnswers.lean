import ShaderLibrary.Library
import ShaderLibrary.Proofs.Alike
import ShaderLibrary.Proofs.Transparency

/-! Requests to stores that refuse the same files for other reasons. Both are answered with the same
text or with none, and leave the same cache. A fault of one of the stores is told in its own words;
every other fault is the same. -/
namespace ShaderLibrary

/-- The same fault, or that of the stores for a path. -/
inductive Fault.Alike (a b : Store) : Fault → Fault → Prop where
  | same (fault : Fault) : Alike a b fault fault
  | store {e e' : StoreError} (h : e.Alike a b e') : Alike a b (.store e) (.store e')

variable {m : Macros} {c : Catalog} {a b : Store}

theorem Fault.Alike.of_inWordsOf {fault other : Fault} (h : fault.Alike (b.inWordsOf a) b other) :
    fault.Alike a b other := by
  cases h with
  | same => exact .same fault
  | store hReasons => exact .store hReasons.of_inWordsOf

theorem Store.ReadsAlike.outcomes {path : Text}
    (h : ReadsAlike (a.readText path) (b.readText path)) :
    Traced.Outcomes (StoreError.Alike a b) Eq (a.readText path) (b.readText path) := by
  generalize hFirst : a.readText path = first, hSecond : b.readText path = second at h
  cases h with
  | text t => exact .ok rfl
  | failed hKind => exact .error (.unread hFirst hSecond hKind)

namespace Cache

variable (cache : Cache) {id : Text}

/-- The same text, or faults that are alike. -/
def AnswersAlike (a b : Store) : Except Fault Text → Except Fault Text → Prop :=
  Traced.Outcomes (Fault.Alike a b) Eq

theorem AnswersAlike.refl (answer : Except Fault Text) : AnswersAlike a b answer answer := by
  cases answer with
  | ok text => exact .ok rfl
  | error fault => exact .error (.same fault)

theorem fileOf_alike (hReads : ∀ p, Store.ReadsAlike (a.readText p) (b.readText p)) (id : Text) :
    Traced.Outcomes (Fault.Alike a b) (Effect.Alike a b) (fileOf ⟨m, c, a⟩ id)
      (fileOf ⟨m, c, b⟩ id) := by
  unfold fileOf
  dsimp only
  cases c.find? (baseOf id ++ c.extension) with
  | none => exact .error (.same _)
  | some path =>
      have hRead := (hReads path).outcomes
      dsimp only
      generalize a.readText path = first, b.readText path = second at hRead ⊢
      cases hRead with
      | error hReasons => exact .error (.store hReasons)
      | @ok source _ hSame =>
          subst hSame
          have hDone := (Effect.ofText_alike (m := m) (c := c) hReads (baseOf id) source
            (some path)).outcome
          dsimp only
          generalize (Effect.ofText ⟨m, c, a⟩ (baseOf id) source (some path)).outcome = x,
            (Effect.ofText ⟨m, c, b⟩ (baseOf id) source (some path)).outcome = y at hDone ⊢
          cases hDone with
          | ok hEffects => exact .ok hEffects
          | error hReasons => exact .error (.store hReasons)

/-- The file of an id has the same sections in both stores, and the same answer for the id. -/
theorem uncached_alike (hReads : ∀ p, Store.ReadsAlike (a.readText p) (b.readText p)) (id : Text) :
    AnswersAlike a b (uncached ⟨m, c, a⟩ id) (uncached ⟨m, c, b⟩ id) ∧
      sectionsIn ⟨m, c, b⟩ id = sectionsIn ⟨m, c, a⟩ id := by
  have hFile := fileOf_alike (m := m) (c := c) hReads id
  unfold uncached sectionsIn
  generalize fileOf ⟨m, c, a⟩ id = first, fileOf ⟨m, c, b⟩ id = second at hFile
  cases hFile with
  | error hReasons => exact ⟨.error hReasons, rfl⟩
  | @ok x y hEffects =>
      have hAnswer : y.answer id = x.answer id := by
        rw [Effect.answer, Effect.answer, hEffects.sections, hEffects.failed]
      dsimp only
      rw [hAnswer]
      exact ⟨.refl _, hEffects.sections⟩

theorem get_alike (hReads : ∀ p, Store.ReadsAlike (a.readText p) (b.readText p)) (v : Value) :
    AnswersAlike a b (cache.get ⟨m, c, a⟩ v).1.outcome (cache.get ⟨m, c, b⟩ v).1.outcome ∧
      (cache.get ⟨m, c, b⟩ v).2 = (cache.get ⟨m, c, a⟩ v).2 := by
  cases v with
  | text id =>
      cases hKept : cache.get? id with
      | some text =>
          rw [get_of_kept hKept, get_of_kept hKept]
          exact ⟨.refl _, rfl⟩
      | none =>
          obtain ⟨hAnswer, hSections⟩ := uncached_alike (m := m) (c := c) hReads id
          rw [get_of_missing hKept, get_of_missing hKept, hSections]
          exact ⟨hAnswer, rfl⟩
  | nothing | truth _ | integer _ _ | number _ | list _ | record _ => exact ⟨.refl _, rfl⟩

theorem getAll_alike (hReads : ∀ p, Store.ReadsAlike (a.readText p) (b.readText p))
    (asked : List Value) :
    List.Forall₂ (AnswersAlike a b) (cache.getAll ⟨m, c, a⟩ asked).1 (cache.getAll ⟨m, c, b⟩ asked).1 ∧
      (cache.getAll ⟨m, c, b⟩ asked).2 = (cache.getAll ⟨m, c, a⟩ asked).2 := by
  induction asked generalizing cache with
  | nil => exact ⟨.nil, rfl⟩
  | cons v rest ih =>
      obtain ⟨hAnswer, hCache⟩ := cache.get_alike (m := m) (c := c) hReads v
      simp only [getAll, hCache]
      exact ⟨.cons hAnswer (ih _).1, (ih _).2⟩

/-- Requests tell the second store from itself in the words of the first by reasons only. -/
theorem getAll_inWordsOf (m : Macros) (c : Catalog) (a b : Store) (cache : Cache)
    (asked : List Value) :
    List.Forall₂ (AnswersAlike a b) (cache.getAll ⟨m, c, b.inWordsOf a⟩ asked).1
        (cache.getAll ⟨m, c, b⟩ asked).1 ∧
      (cache.getAll ⟨m, c, b⟩ asked).2 = (cache.getAll ⟨m, c, b.inWordsOf a⟩ asked).2 := by
  obtain ⟨hAnswers, hCache⟩ :=
    cache.getAll_alike (m := m) (c := c) (Store.readsAlike_inWordsOf a b) asked
  refine ⟨hAnswers.imp fun _ _ h => ?_, hCache⟩
  exact h.imp (fun _ _ => Fault.Alike.of_inWordsOf) fun _ _ hSame => hSame

end Cache

/-- The global block is the same if its file is, and also if neither store hands that file out. -/
theorem Macros.loadGlobalBlock_alike
    (h : ∀ path, c.find? globalName = some path →
      Store.ReadsAlike (a.readText path) (b.readText path)) :
    Traced.Outcomes (StoreError.Alike a b) Eq (m.loadGlobalBlock c a).outcome
      (m.loadGlobalBlock c b).outcome := by
  rw [loadGlobalBlock, loadGlobalBlock]
  simp only [Traced.attempt_bind]
  cases hFound : (c.resolve globalName).outcome with
  | error problem => exact .ok rfl
  | ok path =>
      have hRead := h path (Environment.outcome_resolve_eq_ok_iff.mp hFound)
      simp only [Traced.readText]
      generalize hFirst : a.readText path = first, hSecond : b.readText path = second at hRead
      cases hRead with
      | text t => exact .ok rfl
      | @failed e e' hKind =>
          dsimp only
          rw [hKind]
          split
          · exact .ok rfl
          · exact .error (.unread hFirst hSecond hKind)

/-- The stores list the same, so they have the same catalog. -/
theorem Library.load_alike {root : Text} {defines : List (Value × Value)} {strict : Bool}
    (hList : b.list = a.list)
    (hGlobal : ∀ catalog count path, (Catalog.scan { strict } a root).outcome = .ok (catalog, count) →
      catalog.find? Macros.globalName = some path →
        Store.ReadsAlike (a.readText path) (b.readText path)) :
    Traced.Outcomes (Fault.Alike a b) Eq (load a root defines strict).outcome
      (load b root defines strict).outcome := by
  rw [load, load, Catalog.scan_congr (congrFun hList root)]
  cases hFound : (Catalog.scan { strict } a root).outcome with
  | error fault =>
      rw [Traced.bind_of_error _ hFound, Traced.bind_of_error _ hFound]
      exact .error (.same fault)
  | ok found =>
      obtain ⟨catalog, count⟩ := found
      rw [Traced.bind_of_ok _ hFound, Traced.bind_of_ok _ hFound]
      dsimp only
      cases hDefined : Macros.defineAll {} defines with
      | error fault => exact .error (.same fault)
      | ok macros =>
          have hBlock := (Macros.loadGlobalBlock_alike (m := macros) fun path =>
            hGlobal catalog count path hFound).mapError fun _ _ => Fault.Alike.store
          refine hBlock.bind fun first second hSame => ?_
          rw [hSame]
          exact .ok rfl

end ShaderLibrary
