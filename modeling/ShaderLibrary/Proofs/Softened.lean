import ShaderLibrary.Proofs.MacroBlock
import ShaderLibrary.Proofs.Miss

/-! Requests without faults. As long as the store refuses files and does not break, no text is the
answer if and only if there is a fault, since a text that has been assembled has a last newline. -/
namespace ShaderLibrary

variable {env : Environment}

namespace Environment

variable {chain lines : List Text} {number : Int} {e : StoreError}

/-- Only a file of the catalog that cannot be read at all breaks an expansion off. -/
theorem exists_broken_of_expandLines
    (h : (env.expandLines chain number lines).outcome = .error (.store e)) :
    ∃ p ∈ env.catalog.files, env.store.readText p = .error e ∧ e.isRefusal = false := by
  induction chain, number, lines using expandLines.induct env with
  | case1 chain number => simp at h
  | case2 chain number line rest ihFile ihRest =>
      rcases outcome_expandLines_cons_eq_error_iff.mp h with hLine | ⟨entries, -, hRest⟩
      · obtain ⟨p, hLeads, hFile⟩ := exists_leadsTo_of_error hLine
        have hListed := (leadsTo_iff_target.mp hLeads).2.1
        rcases outcome_expandFile_eq_error_iff.mp hFile with
          ⟨-, hCycle⟩ | ⟨hNew, ⟨e', hRead, hBroken, hSame⟩ | ⟨content, -, hInside⟩⟩
        · cases hCycle
        · cases hSame
          exact ⟨p, hListed, hRead, hBroken⟩
        · exact ihFile p hListed hNew content.lines hInside
      · exact ihRest hRest

end Environment

namespace Effect

variable {origin : Option Text} {x : Effect} {base source : Text} {lines : List Text}
  {parts : List Section} {e : StoreError}

theorem exists_broken_of_assemble (h : (assemble env origin lines).outcome = .error e) :
    ∃ p ∈ env.catalog.files, env.store.readText p = .error e ∧ e.isRefusal = false := by
  rw [outcome_assemble] at h
  cases hLines : (env.expandLines origin.toList 1 lines).outcome with
  | ok entries => rw [hLines] at h; cases h
  | error i =>
      rw [hLines] at h
      cases i with
      | cycle chain => cases h
      | store e' =>
          cases h
          exact Environment.exists_broken_of_expandLines hLines

theorem exists_broken_of_assembleAll (h : (assembleAll env origin x parts).outcome = .error e) :
    ∃ p ∈ env.catalog.files, env.store.readText p = .error e ∧ e.isRefusal = false := by
  induction parts generalizing x with
  | nil => cases h
  | cons part rest ih =>
      rw [assembleAll] at h
      rcases Traced.outcome_bind_eq_error_iff.mp h with hPart | ⟨verdict, -, h⟩
      · exact exists_broken_of_assemble hPart
      · rcases Traced.outcome_bind_eq_error_iff.mp h with hEnter | ⟨between, -, hRest⟩
        · obtain ⟨y, hDone, -⟩ := outcome_enter
            { x with problems := x.problems ++ (assemble env origin part.lines).problems }
            (idOf x.base part.name) verdict
          rw [hDone] at hEnter
          cases hEnter
        · exact ih hRest

theorem getLast?_unit (macros : Macros) (preamble : Preamble) (entries : List Text) :
    (unit macros preamble entries).getLast? = some '\n' := by
  rw [unit, List.getLast?_append_of_ne_nil _ (List.cons_ne_nil _ _)]
  rfl

end Effect

/-- The faults of a request for an id, as far as files are at most refused: there is no file or no
section of that name, the section leads into a cycle, or its file is refused. -/
inductive Fault.Told (id : Text) : Fault → Prop where
  | noFile (name : Text) : Told id (.problem (.unknownFile name))
  | noSection : Told id (.problem (.unknownSection id))
  | cycle (chain : List Text) : Told id (.problem (.circularInclude chain))
  | refused {e : StoreError} (hRefusal : e.isRefusal = true) : Told id (.store e)

/-- What the journal says about a fault of a request for an id. -/
def Fault.complaint (id : Text) : Fault → Text
  | .store e => "Cannot read shader file for '".toList ++ id ++ "': ".toList ++ e.message
  | fault => "Cannot get shader '".toList ++ id ++ "': ".toList ++ fault.message

namespace Cache

variable {id text : Text} {fault : Fault}

theorem told_of_fileOf (hStore : env.store.RefusesOn env.catalog.files)
    (h : fileOf env id = .error fault) : fault.Told id := by
  rw [fileOf] at h
  split at h
  · cases h
    exact .noFile _
  · next path hFound =>
      have hListed : path ∈ env.catalog.files := Dictionary.mem_values_of_get? hFound
      split at h
      · next e hRead =>
          cases h
          exact .refused (hStore path hListed e hRead)
      · next source hRead =>
          cases hDone : (Effect.ofText env (baseOf id) source (some path)).outcome with
          | ok x => rw [hDone] at h; cases h
          | error e =>
              -- no file that is included is worse than refused
              obtain ⟨p, hMem, hBroken, hKind⟩ := Effect.exists_broken_of_assembleAll hDone
              have hRefusal := hStore p hMem e hBroken
              rw [hKind] at hRefusal
              cases hRefusal

/-- All faults of a request are told, if the files of the catalog are at most refused. -/
theorem told_of_uncached (hStore : env.store.RefusesOn env.catalog.files)
    (h : uncached env id = .error fault) : fault.Told id := by
  cases hFile : fileOf env id with
  | error other =>
      rw [(of_fileOf_error hFile).1] at h
      cases h
      exact told_of_fileOf hStore hFile
  | ok x =>
      obtain ⟨path, source, -, -, hDone⟩ := fileOf_eq_ok_iff.mp hFile
      rw [(of_fileOf_ok hFile).1] at h
      by_cases hSome : ∃ v, x.Holds id v
      · obtain ⟨v, hv⟩ := hSome
        rw [Effect.answer_of_holds hDone hv] at h
        cases v with
        | ok text => cases h
        | error problem =>
            cases h
            obtain ⟨chain, rfl⟩ :=
              Effect.exists_chain_of_verdict ((Effect.holds_ofText_iff hDone).mp hv)
            exact .cycle chain
      · rw [Effect.answer_of_open hDone (not_exists.mp hSome)] at h
        cases h
        exact .noSection

/-- An assembled text has a newline at its end, be the section ever so empty. -/
theorem getLast?_of_uncached (h : uncached env id = .ok text) : text.getLast? = some '\n' := by
  obtain ⟨x, hFile, hText⟩ := uncached_eq_ok_iff.mp h
  obtain ⟨path, source, -, -, hDone⟩ := fileOf_eq_ok_iff.mp hFile
  obtain ⟨part, -, hPart⟩ := (Effect.holds_ofText_iff hDone).mp
    ((Effect.lookup_sections_eq_some_iff hDone).mp hText)
  obtain ⟨entries, -, rfl⟩ := Effect.outcome_assemble_eq_text_iff.mp hPart
  exact Effect.getLast?_unit _ _ _

end Cache

namespace Library

variable {l : Library} {store : Store} {id text : Text} {run : Traced Fault Text} {fault : Fault}

theorem soften_of_ok (h : run.outcome = .ok text) : soften id run = ⟨run.events, .ok text⟩ := by
  rw [soften, Traced.attempt_bind, h]
  simp

/-- A fault that is told becomes a record with the id, and no text. -/
theorem soften_of_told (hTold : fault.Told id) (h : run.outcome = .error fault) :
    soften id run = ⟨run.events ++ [.logged ⟨.error, fault.complaint id⟩], .ok []⟩ := by
  rw [soften, Traced.attempt_bind, h]
  cases hTold with
  | noFile name => rfl
  | noSection => rfl
  | cycle chain => rfl
  | refused hRefusal =>
      simp only [hRefusal, if_true]
      rfl

theorem getText_eq (l : Library) (store : Store) (id : Text) :
    l.getText store (.text id) =
      (soften id (l.get store (.text id)).1, (l.get store (.text id)).2) := rfl

/-- A request is answered with a text of the cache, or as without one. -/
theorem outcome_get (l : Library) (store : Store) (id : Text) :
    (l.get store (.text id)).1.outcome =
      (l.cache.get? id).elim (Cache.uncached (l.environment store) id) .ok := by
  cases hKept : l.cache.get? id with
  | some text =>
      rw [get, Cache.get_of_kept hKept]
      rfl
  | none =>
      rw [get, Cache.get_of_missing hKept]
      rfl

theorem told_of_get (hStore : store.RefusesOn l.catalog.files)
    (h : (l.get store (.text id)).1.outcome = .error fault) : fault.Told id := by
  rw [outcome_get] at h
  cases hKept : l.cache.get? id with
  | some kept => rw [hKept] at h; cases h
  | none =>
      rw [hKept] at h
      exact Cache.told_of_uncached hStore h

end Library

namespace Session

variable {l : Library} {store : Store} {root id text : Text} {defines : List (Value × Value)}
  {strict : Bool} {operations : List Operation}

/-- The two kinds of requests for an id, in the session to which the operations have led. -/
structure Softens (s : Session) (operations : List Operation) (id : Text) : Prop where
  returns : ∃ text, (s.library.getText s.store (.text id)).1.outcome = .ok text
  /-- No text means that there is none. -/
  empty : (s.library.getText s.store (.text id)).1.outcome = .ok [] ↔
    ∃ fault, (s.library.get s.store (.text id)).1.outcome = .error fault
  told : ∀ fault, (s.library.get s.store (.text id)).1.outcome = .error fault →
    fault.Told id ∧
      .logged ⟨.error, fault.complaint id⟩ ∈ (s.library.getText s.store (.text id)).1.events
  same : ∀ text, (s.library.get s.store (.text id)).1.outcome = .ok text →
    (s.library.getText s.store (.text id)).1.outcome = .ok text ∧ text ≠ [] ∧
      (text.getLast? = some '\n' ∨ .insert id text ∈ operations)

/-- A text has been assembled, with a newline at its end, or it has been handed in. -/
theorem origin_of_get (hLoad : (Library.load store root defines strict).outcome = .ok l)
    (hText : ((afterAll ⟨l, store⟩ operations).library.get (afterAll ⟨l, store⟩ operations).store
      (.text id)).1.outcome = .ok text) :
    text.getLast? = some '\n' ∨ .insert id text ∈ operations := by
  rw [Library.outcome_get] at hText
  cases hKept : (afterAll ⟨l, store⟩ operations).library.cache.get? id with
  | none =>
      rw [hKept] at hText
      exact Or.inl (Cache.getLast?_of_uncached hText)
  | some kept =>
      rw [hKept] at hText
      cases hText
      have hNone : (⟨l, store⟩ : Session).cache.get? id = none := by
        rw [cache, (Library.load_eq_ok hLoad).1]
        rfl
      obtain ⟨before, operation, later, rfl, hEnters⟩ := exists_enters hNone hKept
      rcases hEnters.origin with rfl | ⟨-, hAssembled⟩
      · exact Or.inr (List.mem_append_right _ List.mem_cons_self)
      · exact Or.inl (Cache.getLast?_of_uncached hAssembled)

theorem softens_of_ok {s : Session}
    (hGet : (s.library.get s.store (.text id)).1.outcome = .ok text) (hText : text ≠ [])
    (hOrigin : text.getLast? = some '\n' ∨ .insert id text ∈ operations) :
    s.Softens operations id := by
  have hSoft : (s.library.getText s.store (.text id)).1.outcome = .ok text := by
    rw [Library.getText_eq, Library.soften_of_ok hGet]
  constructor
  case returns => exact ⟨text, hSoft⟩
  case empty =>
    rw [hSoft, hGet]
    simp [hText]
  case told =>
    intro fault hFault
    rw [hGet] at hFault
    cases hFault
  case same =>
    intro other hOther
    rw [hGet] at hOther
    cases hOther
    exact ⟨hSoft, hText, hOrigin⟩

theorem softens_of_told {s : Session} {fault : Fault}
    (hGet : (s.library.get s.store (.text id)).1.outcome = .error fault) (hTold : fault.Told id) :
    s.Softens operations id := by
  have hSoft := Library.soften_of_told hTold hGet
  constructor
  case returns => exact ⟨[], by rw [Library.getText_eq, hSoft]⟩
  case empty =>
    rw [Library.getText_eq, hSoft, hGet]
    simp
  case told =>
    intro other hOther
    rw [hGet] at hOther
    cases hOther
    rw [Library.getText_eq, hSoft]
    exact ⟨hTold, List.mem_append_right _ (List.mem_singleton_self _)⟩
  case same =>
    intro text hOther
    rw [hGet] at hOther
    cases hOther

theorem softens_afterAll (hLoad : (Library.load store root defines strict).outcome = .ok l)
    (hHanded : ∀ id, .insert id [] ∉ operations)
    (hStore : (afterAll ⟨l, store⟩ operations).store.RefusesOn
      (afterAll ⟨l, store⟩ operations).library.catalog.files) (id : Text) :
    Softens (afterAll ⟨l, store⟩ operations) operations id := by
  have hOrigin (text : Text) := @origin_of_get l store root id text defines strict operations hLoad
  generalize afterAll ⟨l, store⟩ operations = s at hStore hOrigin ⊢
  cases hGet : (s.library.get s.store (.text id)).1.outcome with
  | ok text =>
      refine softens_of_ok hGet ?_ (hOrigin text hGet)
      rintro rfl
      rcases hOrigin [] hGet with hNewline | hInsert
      · cases hNewline
      · exact hHanded id hInsert
  | error fault => exact softens_of_told hGet (Library.told_of_get hStore hGet)

end Session

end ShaderLibrary
