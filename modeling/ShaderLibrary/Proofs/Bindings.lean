import ShaderLibrary.Proofs.Loading
import ShaderLibrary.Proofs.MacroBlock

/-! The table of macros over whole histories. A key has the text of its last definition, unless it
was taken back after that. The block lists these bindings and nothing else, so two histories that
leave the same ones cannot be told apart by the text in front of the sections. -/
namespace ShaderLibrary

/-- The value can be a key: it is a text, and this is one word. -/
def Value.IsKey (v : Value) : Prop := ∃ key, v = .text key ∧ key.IsWord

/-- The operation defines the key or takes it back. -/
def Operation.Rebinds (key : Text) : Operation → Prop
  | .define given _ => given = .text key
  | .undefine other => other = key
  | _ => False

/-- The definitions that a table begins with, as operations. -/
def Operation.definitions (given : List (Value × Value)) : List Operation :=
  given.map fun entry => .define entry.1 entry.2

/-- The key is defined to this text at some point of the history, and is left alone after it. -/
def Survives (history : List Operation) (key value : Text) : Prop :=
  key.IsWord ∧ ∃ before given after, history = before ++ .define (.text key) given :: after ∧
    given.toText = value ∧ ∀ operation ∈ after, ¬ Operation.Rebinds key operation

section Histories

variable {history : List Operation} {operation : Operation} {key value : Text}

theorem not_survives_nil : ¬ Survives [] key value := by
  rintro ⟨-, before, given, after, hHistory, -⟩
  simp at hHistory

/-- The last operation of a history is the one that is taken out of it, or it comes after that. -/
theorem cases_of_append_singleton {before after : List Operation} {taken : Operation}
    (h : history ++ [operation] = before ++ taken :: after) :
    (history = before ∧ operation = taken ∧ after = []) ∨
      ∃ rest, after = rest ++ [operation] ∧ history = before ++ taken :: rest := by
  rcases after.eq_nil_or_concat' with rfl | ⟨rest, last, rfl⟩
  · obtain ⟨hFront, hLast⟩ := List.append_inj' h rfl
    exact Or.inl ⟨hFront, List.singleton_inj.mp hLast, rfl⟩
  · rw [← List.cons_append, ← List.append_assoc] at h
    obtain ⟨hFront, hLast⟩ := List.append_inj' h rfl
    rw [List.singleton_inj.mp hLast]
    exact Or.inr ⟨rest, rfl, hFront⟩

/-- What defines a key or takes it back decides alone, whatever was before. -/
theorem survives_of_rebinds (h : operation.Rebinds key) :
    Survives (history ++ [operation]) key value ↔
      key.IsWord ∧ ∃ given, operation = .define (.text key) given ∧ given.toText = value := by
  apply and_congr_right
  intro _
  constructor
  · rintro ⟨before, given, after, hHistory, hValue, hAfter⟩
    rcases cases_of_append_singleton hHistory with ⟨-, hSame, -⟩ | ⟨rest, rfl, -⟩
    · exact ⟨given, hSame, hValue⟩
    · exact absurd h (hAfter operation (by simp))
  · rintro ⟨given, rfl, hValue⟩
    exact ⟨history, given, [], rfl, hValue, List.forall_mem_nil _⟩

/-- What has nothing to do with a key leaves it as it is. -/
theorem survives_of_not_rebinds (h : ¬ operation.Rebinds key) :
    Survives (history ++ [operation]) key value ↔ Survives history key value := by
  apply and_congr_right
  intro _
  constructor
  · rintro ⟨before, given, after, hHistory, hValue, hAfter⟩
    rcases cases_of_append_singleton hHistory with ⟨-, rfl, -⟩ | ⟨rest, rfl, hFront⟩
    · exact absurd rfl h
    · exact ⟨before, given, rest, hFront, hValue, fun op hMem => hAfter op (by simp [hMem])⟩
  · rintro ⟨before, given, after, rfl, hValue, hAfter⟩
    refine ⟨before, given, after ++ [operation], by simp, hValue, ?_⟩
    intro op hMem
    rcases List.mem_append.mp hMem with hMem | hMem
    · exact hAfter op hMem
    · exact List.mem_singleton.mp hMem ▸ h

end Histories

namespace Macros

variable {m next : Macros} {history : List Operation} {operation : Operation}

/-- The table has the bindings that survive the history, and no others. -/
def Recalls (m : Macros) (history : List Operation) : Prop :=
  ∀ key value, m.bindings.get? key = some value ↔ Survives history key value

theorem recalls_empty : Recalls {} [] := by
  intro key value
  have hNone : ({} : Macros).bindings.get? key = none := rfl
  rw [hNone]
  exact iff_of_false nofun not_survives_nil

/-- One more operation, if the table after it has what the operation says for the keys that it is
about, and the same as before for all others. -/
theorem Recalls.append_singleton (h : m.Recalls history)
    (hBound : ∀ key value, operation.Rebinds key → (next.bindings.get? key = some value ↔
      key.IsWord ∧ ∃ given, operation = .define (.text key) given ∧ given.toText = value))
    (hOther : ∀ key, ¬ operation.Rebinds key → next.bindings.get? key = m.bindings.get? key) :
    next.Recalls (history ++ [operation]) := by
  intro key value
  by_cases hKey : operation.Rebinds key
  · rw [survives_of_rebinds hKey]
    exact hBound key value hKey
  · rw [survives_of_not_rebinds hKey, hOther key hKey]
    exact h key value

theorem Recalls.define (h : m.Recalls history) {key value : Value}
    (hDone : m.define key value = .ok next) : next.Recalls (history ++ [.define key value]) := by
  obtain ⟨name, rfl, hWord, rfl⟩ := define_eq_ok_iff.mp hDone
  apply h.append_singleton
  · intro other text hSame
    cases hSame
    have hName := Text.words_eq_singleton_iff.mp hWord
    simp [Dictionary.get?_insert, hName]
  · intro other hOther
    have hNe : other ≠ name := fun hSame => hOther (hSame ▸ rfl)
    rw [Dictionary.get?_insert, if_neg hNe]

/-- A definition that is refused leaves no trace: its key is no word. -/
theorem Recalls.define_error (h : m.Recalls history) {key value : Value} {fault : Fault}
    (hFault : m.define key value = .error fault) : m.Recalls (history ++ [.define key value]) := by
  apply h.append_singleton
  · intro other text hSame
    cases hSame
    have hWord : ¬ other.IsWord := by
      intro hWord
      rw [define_eq_ok_iff.mpr ⟨other, rfl, Text.words_eq_singleton_iff.mpr hWord, rfl⟩] at hFault
      cases hFault
    exact iff_of_false (fun hText => hWord ((h other text).mp hText).1) fun hText => hWord hText.1
  · intro other _
    rfl

theorem Recalls.undefine (h : m.Recalls history) (key : Text) :
    (m.undefine key).Recalls (history ++ [.undefine key]) := by
  apply h.append_singleton
  · intro other text hSame
    cases hSame
    simp [Macros.undefine, Dictionary.get?_erase]
  · intro other hOther
    have hNe : other ≠ key := fun hSame => hOther hSame.symm
    rw [Macros.undefine, Dictionary.get?_erase, if_neg hNe]

theorem Recalls.other (h : m.Recalls history) (hBindings : next.bindings = m.bindings)
    (hOther : operation.redefines = false) : next.Recalls (history ++ [operation]) := by
  have hNone : ∀ key, ¬ operation.Rebinds key := by
    cases operation with
    | define | undefine => cases hOther
    | _ => exact fun _ => id
  apply h.append_singleton
  · exact fun key _ hKey => absurd hKey (hNone key)
  · exact fun key _ => by rw [hBindings]

theorem exists_of_defineAll_cons {entry : Value × Value} {rest : List (Value × Value)}
    (hDone : m.defineAll (entry :: rest) = .ok next) :
    ∃ defined, m.define entry.1 entry.2 = .ok defined ∧ defined.defineAll rest = .ok next := by
  have hStep : m.defineAll (entry :: rest) =
      (m.define entry.1 entry.2 >>= fun defined => defined.defineAll rest) := rfl
  rw [hStep] at hDone
  cases hFirst : m.define entry.1 entry.2 with
  | error fault =>
      rw [hFirst] at hDone
      cases hDone
  | ok defined =>
      rw [hFirst] at hDone
      exact ⟨defined, rfl, hDone⟩

theorem Recalls.defineAll {given : List (Value × Value)} (h : m.Recalls history)
    (hDone : m.defineAll given = .ok next) :
    next.Recalls (history ++ Operation.definitions given) := by
  induction given generalizing m history with
  | nil =>
      cases hDone
      rw [Operation.definitions, List.map_nil, List.append_nil]
      exact h
  | cons entry rest ih =>
      obtain ⟨defined, hFirst, hRest⟩ := exists_of_defineAll_cons hDone
      have hRecalls := ih (h.define hFirst) hRest
      rw [List.append_assoc] at hRecalls
      exact hRecalls

theorem globalBlock_defineAll {given : List (Value × Value)} (hDone : m.defineAll given = .ok next) :
    next.globalBlock = m.globalBlock := by
  induction given generalizing m with
  | nil =>
      cases hDone
      rfl
  | cons entry rest ih =>
      obtain ⟨defined, hFirst, hRest⟩ := exists_of_defineAll_cons hDone
      obtain ⟨name, -, -, hDefined⟩ := define_eq_ok_iff.mp hFirst
      rw [ih hRest, hDefined]

theorem keyOf?_eq_none_iff {key : Value} : keyOf? key = none ↔ ¬ key.IsKey := by
  cases key with
  | text name => simp [keyOf?, Value.IsKey, Text.words_eq_singleton_iff]
  | nothing | truth _ | integer _ _ | number _ | list _ | record _ => simp [keyOf?, Value.IsKey]

/-- Definitions of keys are never refused. -/
theorem exists_defineAll {given : List (Value × Value)} (h : ∀ entry ∈ given, entry.1.IsKey)
    (m : Macros) : ∃ next, m.defineAll given = .ok next := by
  rcases m.outcome_defineAll given with ⟨entry, hMem, hNone, -⟩ | ⟨next, -, hNext⟩
  · exact absurd (h entry hMem) (keyOf?_eq_none_iff.mp hNone)
  · exact ⟨next, hNext⟩

theorem Recalls.lookup_eq_ok_iff (h : m.Recalls history) {key value : Text} (line : Text) :
    (m.lookup key line).outcome = .ok value ↔ Survives history key value := by
  rw [← h key value, lookup]
  cases m.bindings.get? key <;> simp

theorem Recalls.lookup_eq_error_iff (h : m.Recalls history) {key line : Text} {problem : Problem} :
    (m.lookup key line).outcome = .error problem ↔
      problem = .undefinedMacro key line ∧ ∀ value, ¬ Survives history key value := by
  simp only [← h key, lookup]
  cases m.bindings.get? key <;> simp [eq_comm]

theorem Recalls.mem_keys_iff (h : m.Recalls history) {key : Text} :
    key ∈ m.keys ↔ ∃ value, Survives history key value := by
  simp only [← h key]
  exact Dictionary.mem_keys_iff

/-- The block in front of the sections, made of the surviving bindings in the order of their keys. -/
theorem Recalls.exists_rows (h : m.Recalls history) :
    ∃ rows : List (Text × Text), rows.map Prod.fst = m.keys ∧
      (∀ row ∈ rows, Survives history row.1 row.2) ∧
      m.block = rows.flatMap (fun row => "#define ".toList ++ row.1 ++ ' ' :: row.2 ++ ['\n']) ++
        m.globalBlock := by
  refine ⟨m.bindings.entries, rfl, ?_, rfl⟩
  intro row hRow
  exact (h row.1 row.2).mp (Dictionary.get?_eq_some_iff.mpr hRow)

/-- Tables that recall the same bindings and have the same global block are the same. -/
theorem Recalls.eq {history' : List Operation} {m' : Macros} (h : m.Recalls history)
    (h' : m'.Recalls history')
    (hSame : ∀ key value, Survives history key value ↔ Survives history' key value)
    (hBlock : m.globalBlock = m'.globalBlock) : m = m' := by
  have hBindings : m.bindings = m'.bindings := by
    apply Dictionary.ext_get?
    intro key
    ext value
    exact (h key value).trans ((hSame key value).trans (h' key value).symm)
  cases m
  cases m'
  cases hBindings
  cases hBlock
  rfl

end Macros

namespace Session

variable {s : Session} {history : List Operation}

theorem recalls_after (h : s.library.macros.Recalls history) (operation : Operation) :
    (s.after operation).library.macros.Recalls (history ++ [operation]) := by
  cases hKind : operation.redefines with
  | false => exact h.other (bindings_after hKind) hKind
  | true =>
      cases operation with
      | define key value =>
          cases hDone : s.library.macros.define key value with
          | ok next =>
              have hNext : (s.after (.define key value)).library.macros = next := by
                simp only [after, perform, settle, hDone]
              rw [hNext]
              exact h.define hDone
          | error fault =>
              have hSame : (s.after (.define key value)).library.macros = s.library.macros := by
                simp only [after, perform, settle, hDone]
              rw [hSame]
              exact h.define_error hDone
      | undefine key => exact h.undefine key
      | _ => cases hKind

theorem recalls_afterAll (h : s.library.macros.Recalls history) (operations : List Operation) :
    (s.afterAll operations).library.macros.Recalls (history ++ operations) := by
  induction operations generalizing s history with
  | nil =>
      rw [List.append_nil]
      exact h
  | cons operation rest ih =>
      have hRest := ih (recalls_after h operation)
      rw [List.append_assoc] at hRest
      exact hRest

theorem perform_define_of_isKey {key : Value} (h : key.IsKey) (s : Session) (value : Value) :
    (s.perform (.define key value)).1 = ⟨[], .ok .nothing⟩ := by
  have hSome : Macros.keyOf? key ≠ none := fun hNone => Macros.keyOf?_eq_none_iff.mp hNone h
  obtain ⟨name, hName⟩ := Option.ne_none_iff_exists'.mp hSome
  simp only [perform, settle, Macros.define, hName]

theorem perform_define_of_not_isKey {key : Value} (h : ¬ key.IsKey) (s : Session) (value : Value) :
    s.perform (.define key value) = (⟨[], .error (.invalidKey key)⟩, s) := by
  simp only [perform, settle, Macros.define, Macros.keyOf?_eq_none_iff.mpr h]

/-- The global block is that of the last time when it was read, if it could be. -/
theorem globalBlock_after_load (s : Session) :
    ((s.perform .loadGlobalBlock).1.outcome = .ok .nothing ∧
      (s.after .loadGlobalBlock).library.macros.globalBlock =
        s.library.catalog.contentNamed s.store Macros.globalName) ∨
    ((∃ e, (s.perform .loadGlobalBlock).1.outcome = .error (.store e)) ∧
      s.after .loadGlobalBlock = s) := by
  cases hDone : (s.library.macros.loadGlobalBlock s.library.catalog s.store).outcome with
  | ok next =>
      have hRun : ((s.library.macros.loadGlobalBlock s.library.catalog s.store).mapError
          Fault.store).outcome = .ok next := by
        rw [Traced.mapError, hDone]
        rfl
      have hNext := Macros.loadGlobalBlock_eq_ok hDone
      apply Or.inl
      simp only [after, perform, settle, hRun, hNext, and_self]
  | error e =>
      have hRun : ((s.library.macros.loadGlobalBlock s.library.catalog s.store).mapError
          Fault.store).outcome = .error (.store e) := by
        rw [Traced.mapError, hDone]
        rfl
      apply Or.inr
      simp only [after, perform, settle, hRun]
      exact ⟨⟨e, rfl⟩, trivial⟩

/-- What the last reading of a run has left, whatever is done after it. -/
theorem globalBlock_afterAll_load {later : List Operation} (h : Operation.loadGlobalBlock ∉ later)
    (s : Session) (before : List Operation) :
    (((s.afterAll before).perform .loadGlobalBlock).1.outcome = .ok .nothing ∧
      (s.afterAll (before ++ .loadGlobalBlock :: later)).library.macros.globalBlock =
        (s.afterAll before).library.catalog.contentNamed (s.afterAll before).store
          Macros.globalName) ∨
    ((∃ e, ((s.afterAll before).perform .loadGlobalBlock).1.outcome = .error (.store e)) ∧
      (s.afterAll (before ++ .loadGlobalBlock :: later)).library.macros.globalBlock =
        (s.afterAll before).library.macros.globalBlock) := by
  have hLast : s.afterAll (before ++ .loadGlobalBlock :: later) =
      ((s.afterAll before).after .loadGlobalBlock).afterAll later := List.foldl_append
  rw [hLast, globalBlock_afterAll h]
  rcases (s.afterAll before).globalBlock_after_load with hLoaded | ⟨hFailed, hSame⟩
  · exact Or.inl hLoaded
  · rw [hSame]
    exact Or.inr ⟨hFailed, rfl⟩

/-- What a table shows after a run of operations from `start` to `last`. The history is that of the
table: the definitions that it began with, and the operations. -/
structure ShowsSurvivors (start : Session) (operations history : List Operation)
    (last : Session) : Prop where
  lookup_ok : ∀ key value line,
    (last.library.macros.lookup key line).outcome = .ok value ↔ Survives history key value
  lookup_error : ∀ key line problem,
    (last.library.macros.lookup key line).outcome = .error problem ↔
      problem = .undefinedMacro key line ∧ ∀ value, ¬ Survives history key value
  /-- A definition of a key is taken, whatever its value is. -/
  accepts : ∀ key value, Value.IsKey key →
    (last.perform (.define key value)).1 = ⟨[], .ok .nothing⟩
  /-- A definition of anything else is a fault, and changes nothing. -/
  refuses : ∀ key value, ¬ Value.IsKey key →
    last.perform (.define key value) = (⟨[], .error (.invalidKey key)⟩, last)
  /-- The keys come in the order of their code points, each of them once. -/
  ascending : last.library.macros.keys.Pairwise (· < ·)
  mem_keys : ∀ key, key ∈ last.library.macros.keys ↔ ∃ value, Survives history key value
  /-- The block is a row for each key in this order, and then the global block. -/
  rows : ∃ rows : List (Text × Text), rows.map Prod.fst = last.library.macros.keys ∧
    (∀ row ∈ rows, Survives history row.1 row.2) ∧
    last.library.macros.block =
      rows.flatMap (fun row => "#define ".toList ++ row.1 ++ ' ' :: row.2 ++ ['\n']) ++
        last.library.macros.globalBlock
  /-- The global block is empty until it is read for the first time. -/
  unread : Operation.loadGlobalBlock ∉ operations → last.library.macros.globalBlock = []
  /-- Later it is what was there the last time, or what it was before if it could not be read. -/
  reread : ∀ before later, operations = before ++ .loadGlobalBlock :: later →
    Operation.loadGlobalBlock ∉ later →
    (((start.afterAll before).perform .loadGlobalBlock).1.outcome = .ok .nothing ∧
      last.library.macros.globalBlock = (start.afterAll before).library.catalog.contentNamed
        (start.afterAll before).store Macros.globalName) ∨
    ((∃ e, ((start.afterAll before).perform .loadGlobalBlock).1.outcome = .error (.store e)) ∧
      last.library.macros.globalBlock = (start.afterAll before).library.macros.globalBlock)
  /-- Any other history with the same survivors gives the same text, above the same global block. -/
  same_block : ∀ given' (start' : Session) operations',
    Macros.defineAll {} given' = .ok start'.library.macros →
    (∀ key value, Survives history key value ↔
      Survives (Operation.definitions given' ++ operations') key value) →
    last.library.macros.globalBlock = (start'.afterAll operations').library.macros.globalBlock →
    last.library.macros.block = (start'.afterAll operations').library.macros.block

theorem recalls_of_start {given : List (Value × Value)}
    (hStart : Macros.defineAll {} given = .ok s.library.macros) (operations : List Operation) :
    (s.afterAll operations).library.macros.Recalls (Operation.definitions given ++ operations) :=
  recalls_afterAll (Macros.recalls_empty.defineAll hStart) operations

/-- A table is what survives of its history. It begins with definitions of keys, which all are taken,
and whatever is defined, taken back or read after that, each key has the text of its last definition
unless it was taken back later, and the block in front of the sections is made of these bindings alone,
as they are, with the global block below. -/
theorem showsSurvivors_afterAll {given : List (Value × Value)}
    (hKeys : ∀ entry ∈ given, entry.1.IsKey) :
    ∃ m, Macros.defineAll {} given = .ok m ∧
      ∀ start : Session, start.library.macros = m → ∀ operations,
        ShowsSurvivors start operations (Operation.definitions given ++ operations)
          (start.afterAll operations) := by
  obtain ⟨m, hDone⟩ := Macros.exists_defineAll hKeys {}
  refine ⟨m, hDone, ?_⟩
  rintro start rfl operations
  have hRecalls := recalls_of_start hDone operations
  have hEmpty : start.library.macros.globalBlock = [] := Macros.globalBlock_defineAll hDone
  constructor
  case lookup_ok => exact fun _ _ line => hRecalls.lookup_eq_ok_iff line
  case lookup_error => exact fun _ _ _ => hRecalls.lookup_eq_error_iff
  case accepts => exact fun _ value hKey => perform_define_of_isKey hKey _ value
  case refuses => exact fun _ value hKey => perform_define_of_not_isKey hKey _ value
  case ascending => exact (start.afterAll operations).library.macros.bindings.ascending
  case mem_keys => exact fun _ => hRecalls.mem_keys_iff
  case rows => exact hRecalls.exists_rows
  case unread =>
    intro hUnread
    rw [globalBlock_afterAll hUnread, hEmpty]
  case reread =>
    rintro before later rfl hLater
    exact globalBlock_afterAll_load hLater start before
  case same_block =>
    intro given' start' operations' hStart' hSame hBlock
    rw [hRecalls.eq (recalls_of_start hStart' operations') hSame hBlock]

/-- Two keys, not in order, and a value that a template would take for one of its own marks. -/
def marked : List (Value × Value) :=
  [(.text "B".toList, .integer 2), (.text "A".toList, .text "\x7b\x7b key \x7d\x7d".toList)]

/-- A session that begins with them, beside a file with a global block. -/
def markedStart : Session where
  library := { stagedLibrary with
    macros := { bindings := ⟨[
      ("A".toList, "\x7b\x7b key \x7d\x7d".toList), ("B".toList, "2".toList)], by decide⟩ } }
  store := stagedFiles.store

/-- A key is taken back and then defined again, and two that can be none are refused. -/
def markedRun : List Operation :=
  [.define (.text "B C".toList) .nothing, .undefine "B".toList, .define (.integer 3) .nothing,
    .define (.text "B".toList) (.text "\x7b$ B $\x7d".toList), .loadGlobalBlock, .undefine "C".toList]

theorem showsSurvivors_afterAll_marked :
    (∀ entry ∈ marked, entry.1.IsKey) ∧
    Macros.defineAll {} marked = .ok markedStart.library.macros ∧
    Survives (Operation.definitions marked ++ markedRun) "B".toList "\x7b$ B $\x7d".toList ∧
    (markedStart.afterAll markedRun).library.macros.block =
      "#define A \x7b\x7b key \x7d\x7d\n#define B \x7b$ B $\x7d\nfloat pi;".toList := by
  have hKeys : ∀ entry ∈ marked, entry.1.IsKey := by
    simp [marked, Value.IsKey]
    decide
  have hStart : Macros.defineAll {} marked = .ok markedStart.library.macros := rfl
  obtain ⟨m, hDone, hShows⟩ := showsSurvivors_afterAll hKeys
  have hMacros : markedStart.library.macros = m := Except.ok.inj (hStart.symm.trans hDone)
  have hShown := hShows markedStart hMacros markedRun
  exact ⟨hKeys, hStart, (hShown.lookup_ok "B".toList _ []).mp rfl, rfl⟩

end Session

end ShaderLibrary
