import ShaderLibrary.Library
import ShaderLibrary.Proofs.Cycle
import ShaderLibrary.Proofs.Dictionary
import ShaderLibrary.Store.Disk

/-! Loading a library. Apart from a store that breaks, it fails only as the listing of its folder
does, or by a macro whose key cannot be one. All files of its catalog have been listed. -/
namespace ShaderLibrary

namespace Traced

variable {ε ε₂ α β : Type} {run : Traced ε α} {next : α → Traced ε β}

/-- Nothing is shown to the user. -/
def Silent (run : Traced ε α) : Prop := ∀ text, .printed text ∉ run.events

theorem Silent.output_eq (h : run.Silent) : run.output = [] := by
  have hNone : run.events.filterMap Event.printed? = [] := by
    refine List.filterMap_eq_nil_iff.mpr fun event hEvent => ?_
    cases event with
    | printed text => exact absurd hEvent (h text)
    | _ => rfl
  rw [output, hNone, List.flatten_nil]

/-- Behind what shows nothing, everything is shown. -/
theorem Silent.output_append (h : run.Silent) (rest : Traced ε₂ β) :
    (⟨run.events ++ rest.events, rest.outcome⟩ : Traced ε₂ β).output = rest.output := by
  have hNone := h.output_eq
  simp only [output] at hNone ⊢
  rw [List.filterMap_append, List.flatten_append, hNone, List.nil_append]

theorem output_printed (text : Text) (rest : Traced ε α) :
    (⟨.printed text :: rest.events, rest.outcome⟩ : Traced ε α).output = text ++ rest.output := by
  simp [output, Event.printed?]

theorem silent_nil (outcome : Except ε α) : (⟨[], outcome⟩ : Traced ε α).Silent :=
  fun _ => List.not_mem_nil

theorem silent_singleton {event : Event} (h : event.printed? = none) (outcome : Except ε α) :
    (⟨[event], outcome⟩ : Traced ε α).Silent := by
  intro text hText
  cases List.mem_singleton.mp hText
  cases h

theorem Silent.attempt (h : run.Silent) : (run.attempt : Traced ε₂ (Except ε α)).Silent := h

theorem Silent.bind (hRun : run.Silent) (hNext : ∀ a, run.outcome = .ok a → (next a).Silent) :
    (run >>= next).Silent := by
  intro text hText
  rcases mem_events_bind_iff.mp hText with hFirst | ⟨a, hDone, hRest⟩
  · exact hRun text hFirst
  · exact hNext a hDone text hRest

end Traced

open Traced

namespace Catalog

variable {c : Catalog} {found : Dictionary Text} {path : Text}

/-- Only a strict catalog refuses a path. -/
theorem outcome_enter (found : Dictionary Text) (path : Text) :
    (enter false found path).outcome = .ok (found.insert (Path.baseName path) path) := by
  unfold enter
  dsimp only
  split
  · rfl
  · split <;> rfl

theorem silent_enter (strict : Bool) (found : Dictionary Text) (path : Text) :
    (enter strict found path).Silent := by
  unfold enter
  dsimp only
  split
  · exact silent_nil _
  · split
    · exact silent_nil _
    · split
      · exact silent_nil _
      · exact silent_singleton rfl _

theorem silent_enterAll (strict : Bool) (found : Dictionary Text) (paths : List Text) :
    (enterAll strict found paths).Silent := by
  induction paths generalizing found with
  | nil => exact silent_nil _
  | cons path rest ih => exact (silent_enter strict found path).bind fun next _ => ih next

/-- All paths are entered, and no others. -/
theorem exists_enterAll (found : Dictionary Text) (paths : List Text) :
    ∃ all, (enterAll false found paths).outcome = .ok all ∧
      ∀ p ∈ all.values, p ∈ found.values ∨ p ∈ paths := by
  induction paths generalizing found with
  | nil => exact ⟨found, rfl, fun p hp => Or.inl hp⟩
  | cons path rest ih =>
      obtain ⟨all, hAll, hValues⟩ := ih (found.insert (Path.baseName path) path)
      refine ⟨all, Traced.outcome_bind_eq_ok_iff.mpr ⟨_, outcome_enter found path, hAll⟩, ?_⟩
      intro p hp
      rcases hValues p hp with hBefore | hRest
      · rcases Dictionary.mem_values_of_insert hBefore with rfl | hOld
        · exact Or.inr List.mem_cons_self
        · exact Or.inl hOld
      · exact Or.inr (List.mem_cons_of_mem _ hRest)

theorem silent_scan (c : Catalog) (store : Store) (root : Text) : (c.scan store root).Silent := by
  refine (silent_enterAll _ _ _).bind fun found _ => ?_
  split
  · exact silent_nil _
  · exact silent_singleton rfl _

/-- A first scan fails as the listing of the folder does, and finds listed files only. -/
theorem outcome_scan (store : Store) (root : Text) :
    (∃ e, (store.list root).failure = some e ∧
      (scan { strict := false } store root).outcome = .error (.store e)) ∨
    ∃ c count, (store.list root).failure = none ∧
      (scan { strict := false } store root).outcome = .ok (c, count) ∧
      ∀ p ∈ c.files, p ∈ (store.list root).paths := by
  obtain ⟨found, hFound, hValues⟩ := exists_enterAll ∅
    ((store.list root).paths.filter ({ strict := false } : Catalog).admits)
  cases hFailure : (store.list root).failure with
  | some e =>
      refine Or.inl ⟨e, rfl, ?_⟩
      rw [scan, Traced.bind_of_ok _ hFound]
      simp only [hFailure]
      rfl
  | none =>
      refine Or.inr ⟨({ strict := false } : Catalog).add found, found.size, rfl, ?_, ?_⟩
      · rw [scan, Traced.bind_of_ok _ hFound]
        simp only [hFailure]
        rfl
      · intro p hp
        rcases Dictionary.mem_values_of_insertMany hp with hNone | hListed
        · cases hNone
        · rcases hValues p hListed with hNone | hPath
          · cases hNone
          · exact List.mem_of_mem_filter hPath

end Catalog

namespace Macros

variable {m : Macros} {defines : List (Value × Value)}

/-- The first key that cannot be one is the fault, if there is any. -/
theorem outcome_defineAll (m : Macros) (defines : List (Value × Value)) :
    (∃ entry ∈ defines, keyOf? entry.1 = none ∧
      m.defineAll defines = .error (.invalidKey entry.1)) ∨
    (∃ next, (∀ entry ∈ defines, keyOf? entry.1 ≠ none) ∧ m.defineAll defines = .ok next) := by
  induction defines generalizing m with
  | nil => exact Or.inr ⟨m, List.forall_mem_nil _, rfl⟩
  | cons entry rest ih =>
      have hStep : m.defineAll (entry :: rest) =
          (m.define entry.1 entry.2 >>= fun next => next.defineAll rest) := rfl
      cases hKey : keyOf? entry.1 with
      | none =>
          refine Or.inl ⟨entry, List.mem_cons_self, hKey, ?_⟩
          rw [hStep, define, hKey]
          rfl
      | some key =>
          have hDefine : m.define entry.1 entry.2 =
              .ok { m with bindings := m.bindings.insert key entry.2.toText } := by
            rw [define, hKey]
          have hRest : m.defineAll (entry :: rest) =
              defineAll { m with bindings := m.bindings.insert key entry.2.toText } rest := by
            rw [hStep, hDefine]
            rfl
          rw [hRest]
          rcases ih { m with bindings := m.bindings.insert key entry.2.toText } with
            ⟨bad, hBad, hNone, hFault⟩ | ⟨next, hAll, hNext⟩
          · exact Or.inl ⟨bad, List.mem_cons_of_mem _ hBad, hNone, hFault⟩
          · refine Or.inr ⟨next, List.forall_mem_cons.mpr ⟨?_, hAll⟩, hNext⟩
            rw [hKey]
            exact Option.some_ne_none key

variable {c : Catalog} {store : Store}

theorem silent_loadGlobalBlock (m : Macros) (c : Catalog) (store : Store) :
    (m.loadGlobalBlock c store).Silent := by
  have hSought : (c.resolve globalName).Silent := silent_singleton rfl _
  refine hSought.attempt.bind fun found _ => ?_
  cases found with
  | error problem => exact silent_nil _
  | ok path =>
      have hRead : (Traced.readText store path).Silent := silent_singleton rfl _
      refine hRead.attempt.bind fun content _ => ?_
      cases content with
      | ok text => exact silent_nil _
      | error e =>
          dsimp only
          split
          · exact silent_singleton rfl _
          · exact silent_nil _

/-- A global block that is refused is an empty one. -/
theorem exists_loadGlobalBlock (hStore : store.RefusesOn c.files) (m : Macros) :
    ∃ next, (m.loadGlobalBlock c store).outcome = .ok next := by
  rw [loadGlobalBlock, Traced.attempt_bind]
  cases (c.resolve globalName).outcome with
  | error problem => exact ⟨_, rfl⟩
  | ok path =>
      simp only [Traced.attempt_bind, Traced.readText]
      cases hRead : store.readText path.1 with
      | ok text => exact ⟨_, rfl⟩
      | error e =>
          simp only [hStore path.1 path.2 e hRead, if_true]
          exact ⟨_, rfl⟩

end Macros

/-- The store lists the folder or refuses to, and it refuses the files that it lists at most. -/
structure Store.RefusesBelow (store : Store) (root : Text) : Prop where
  listing : ∀ e, (store.list root).failure = some e → e.isRefusal = true
  files : store.RefusesOn (store.list root).paths

namespace Disk

variable {path : Text} {e : StoreError}

/-- What is wrong with a path by itself is a reason to refuse it, but for a character in it that no
path may hold. -/
theorem isRefusal_of_refusal? (hPath : '\x00' ∉ path) (h : refusal? path = some e) :
    e.isRefusal = true := by
  rw [refusal?, if_neg hPath] at h
  split at h
  · cases h
    rfl
  · split at h
    · cases h
      rfl
    · cases h

theorem isRefusal_of_follow {above : List Folder} {here : Folder} {names : List Text}
    (h : follow path above here names = .error e) : e.isRefusal = true := by
  fun_induction follow path above here names with
  | case1 | case8 => cases h
  | case2 above here name rest hSkip ih => exact ih h
  | case3 here rest hSkip ih => exact ih h
  | case4 here rest hSkip outer outermost ih => exact ih h
  | case7 above here name rest hSkip hUp hLong inside hFolder ih => exact ih h
  -- the name is too long, missing or that of a file in the way
  | case5 | case6 | case9 => cases h; rfl

theorem isRefusal_of_find {d : Disk} (hPath : '\x00' ∉ path) (h : d.find path = .error e) :
    e.isRefusal = true := by
  unfold find at h
  split at h
  · next hRefusal =>
      cases h
      exact isRefusal_of_refusal? hPath hRefusal
  · exact isRefusal_of_follow h

theorem isRefusal_of_readText {d : Disk} (hPath : '\x00' ∉ path)
    (h : d.store.readText path = .error e) : e.isRefusal = true := by
  have hBytes : d.readBytes path = .error e := by
    change (d.readBytes path).map Text.decode = .error e at h
    cases hRead : d.readBytes path with
    | ok bytes => rw [hRead] at h; cases h
    | error e' => rw [hRead] at h; cases h; rfl
  unfold readBytes at hBytes
  split at hBytes
  · cases hBytes
  · cases hBytes
    rfl
  · next hFind =>
      cases hBytes
      exact isRefusal_of_find hPath hFind

/-- A disk lists a folder or refuses to, and it refuses the files in it at most, if no path of them
holds that character. -/
theorem refusesBelow_store {d : Disk} {root : Text}
    (hPaths : ∀ path ∈ (d.list root).paths, '\x00' ∉ path) : d.store.RefusesBelow root where
  listing e hFailure := by
    change (d.list root).failure = some e at hFailure
    unfold list at hFailure
    split at hFailure
    · cases hFailure
    · cases hFailure
      rfl
  files path hPath e hRead := isRefusal_of_readText (hPaths path hPath) hRead

end Disk

namespace Library

variable {store : Store} {root : Text} {defines : List (Value × Value)}

/-- The faults of loading a library: its folder is not listed to the end, or a macro has a key that
cannot be one. -/
inductive LoadFault (store : Store) (root : Text) (defines : List (Value × Value)) :
    Fault → Prop where
  | listing {e : StoreError} (hFailure : (store.list root).failure = some e) :
      LoadFault store root defines (.store e)
  | key {entry : Value × Value} (hEntry : entry ∈ defines) (hKey : Macros.keyOf? entry.1 = none) :
      LoadFault store root defines (.invalidKey entry.1)

theorem silent_load (store : Store) (root : Text) (defines : List (Value × Value)) (strict : Bool) :
    (load store root defines strict).Silent :=
  (Catalog.silent_scan _ _ _).bind fun found _ =>
    .bind (silent_nil _) fun macros _ =>
      .bind (Macros.silent_loadGlobalBlock macros found.1 store) fun _ _ => silent_nil _

/-- A library can be loaded unless there is one of these faults. -/
theorem outcome_load (hStore : store.RefusesBelow root) (defines : List (Value × Value)) :
    (∃ fault, LoadFault store root defines fault ∧
      (load store root defines false).outcome = .error fault) ∨
    ∃ l, (∀ fault, ¬ LoadFault store root defines fault) ∧
      (load store root defines false).outcome = .ok l ∧ store.RefusesOn l.catalog.files := by
  rw [load]
  rcases Catalog.outcome_scan store root with
    ⟨e, hFailure, hScan⟩ | ⟨c, count, hListed, hScan, hFiles⟩
  · refine Or.inl ⟨.store e, .listing hFailure, ?_⟩
    rw [Traced.bind_of_error _ hScan]
  · have hCatalog : store.RefusesOn c.files := fun p hp => hStore.files p (hFiles p hp)
    rw [Traced.bind_of_ok _ hScan]
    rcases ({} : Macros).outcome_defineAll defines with
      ⟨entry, hEntry, hKey, hFault⟩ | ⟨macros, hKeys, hDone⟩
    · refine Or.inl ⟨.invalidKey entry.1, .key hEntry hKey, ?_⟩
      dsimp only
      rw [Traced.bind_of_error _ hFault]
    · obtain ⟨last, hBlock⟩ := Macros.exists_loadGlobalBlock hCatalog macros
      have hMapped :
          ((macros.loadGlobalBlock c store).mapError Fault.store).outcome = .ok last := by
        rw [Traced.mapError, hBlock]
        rfl
      refine Or.inr ⟨{ root, catalog := c, macros := last }, ?_, ?_, hCatalog⟩
      · rintro fault (hFailure | ⟨hEntry, hKey⟩)
        · rw [hListed] at hFailure
          cases hFailure
        · exact hKeys _ hEntry hKey
      · dsimp only
        rw [Traced.bind_of_ok _ hDone, Traced.bind_of_ok _ hMapped]
        rfl

end Library

end ShaderLibrary
