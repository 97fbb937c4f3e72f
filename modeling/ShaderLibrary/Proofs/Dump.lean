import ShaderLibrary.CommandLine.Command
import ShaderLibrary.Proofs.Events
import ShaderLibrary.Proofs.Loading
import ShaderLibrary.Proofs.Softened
import ShaderLibrary.Proofs.Transparency

/-! Dumps. If the library can be loaded, all ids are shown in their order, also those without a
text, and the exit code tells whether all of them have one. Otherwise one sentence says why. -/
namespace ShaderLibrary

open Traced

theorem Effect.silent_ofText (env : Environment) (base text : Text) (origin : Option Text) :
    (Effect.ofText env base text origin).Silent := by
  intro shown hShown
  rcases Effect.mem_events_assembleAll hShown with ⟨part, -, hMeets⟩ | ⟨record, hRecord, -⟩
  · cases hMeets with
    | noted hNoted => simp [Environment.noted] at hNoted
  · cases hRecord

namespace Cache

variable {env : Environment}

/-- What a request can do: it records that the id has no text yet, seeks the file of the id, reads
it, and assembles what is in it. -/
theorem mem_events_get {c : Cache} {id : Text} {event : Event}
    (h : event ∈ (c.get env (.text id)).1.events) :
    event = .logged ⟨.debug, "Shader cache miss for '".toList ++ id ++ "'".toList⟩ ∨
      (∃ name, event = .sought name) ∨ (∃ path, event = .read path) ∨
      ∃ text origin, event ∈ (Effect.ofText env (baseOf id) text origin).events := by
  cases hKept : c.get? id with
  | some text =>
      rw [get_of_kept hKept] at h
      cases h
  | none =>
      rw [get_of_missing hKept] at h
      rcases List.mem_cons.mp h with hMiss | hRead
      · exact Or.inl hMiss
      · rcases mem_events_bind_iff.mp hRead with hSought | ⟨path, -, hRest⟩
        · exact Or.inr (Or.inl ⟨_, List.mem_singleton.mp hSought⟩)
        · rcases mem_events_bind_iff.mp hRest with hFile | ⟨text, -, hText⟩
          · exact Or.inr (Or.inr (Or.inl ⟨_, List.mem_singleton.mp hFile⟩))
          · exact Or.inr (Or.inr (Or.inr ⟨text, some path.1, hText⟩))

theorem silent_get (c : Cache) (env : Environment) (id : Text) :
    (c.get env (.text id)).1.Silent := by
  intro shown hShown
  rcases mem_events_get hShown with hMiss | ⟨name, hSought⟩ | ⟨path, hRead⟩ | ⟨text, origin, hText⟩
  · cases hMiss
  · cases hSought
  · cases hRead
  · exact Effect.silent_ofText env (baseOf id) text origin shown hText

end Cache

namespace CommandLine

variable {s : Surroundings} {i : Invocation} {store : Store} {l : Library} {asked : List Value}
  {ids definitions : List Text} {id text : Text}

/-- An id with a text is shown, and then the others. -/
theorem dumpAll_cons {others : Bool} (hText : (l.getText store (.text id)).1.outcome = .ok text)
    (hOthers : (dumpAll store (l.getText store (.text id)).2 ids).outcome = .ok others) :
    dumpAll store l (id :: ids) =
      ⟨(l.getText store (.text id)).1.events ++ .printed (Program.dump id text) ::
        (dumpAll store (l.getText store (.text id)).2 ids).events, .ok (text != [] && others)⟩ := by
  rw [dumpAll]
  dsimp only
  rw [Traced.bind_of_ok _ hText]
  have hShown : (print (Program.dump id text) : Traced Fault Unit).outcome = .ok () := rfl
  rw [Traced.bind_of_ok _ hShown, Traced.bind_of_ok _ hOthers]
  simp [print, Traced.event]

/-- As long as nothing else is done, an id has the text that it has without a cache. -/
theorem outcome_getText (hStore : store.RefusesOn l.catalog.files)
    (hMirrors : l.cache.Mirrors (l.environment store) asked) (id : Text) :
    (l.getText store (.text id)).1.outcome =
        .ok ((Cache.uncached (l.environment store) id).toOption.getD []) ∧
      (l.getText store (.text id)).1.Silent := by
  have hGet : (l.get store (.text id)).1.outcome = Cache.uncached (l.environment store) id :=
    (hMirrors.get (.text id)).1
  have hSilent : (l.get store (.text id)).1.Silent :=
    Cache.silent_get l.cache (l.environment store) id
  rw [Library.getText_eq]
  cases hAnswer : Cache.uncached (l.environment store) id with
  | ok text =>
      rw [Library.soften_of_ok (hGet.trans hAnswer)]
      exact ⟨rfl, hSilent⟩
  | error fault =>
      have hTold := Cache.told_of_uncached hStore hAnswer
      rw [Library.soften_of_told hTold (hGet.trans hAnswer)]
      refine ⟨rfl, fun text hText => ?_⟩
      rcases List.mem_append.mp hText with hBefore | hRecord
      · exact hSilent text hBefore
      · cases List.mem_singleton.mp hRecord

/-- No text stands for a fault, since an assembled text is not empty. -/
theorem ne_nil_iff_isOk (answer : Except Fault Text)
    (h : ∀ text, answer = .ok text → text.getLast? = some '\n') :
    (answer.toOption.getD [] != []) = answer.isOk := by
  cases answer with
  | error fault => rfl
  | ok text =>
      have hText : text ≠ [] := by
        rintro rfl
        cases h [] rfl
      simpa [Except.toOption, Except.isOk, Except.toBool] using hText

/-- All ids are shown, with the texts that they have without a cache. -/
theorem dumpAll_spec (hStore : store.RefusesOn l.catalog.files)
    (hMirrors : l.cache.Mirrors (l.environment store) asked) (ids : List Text) :
    (dumpAll store l ids).outcome =
        .ok (ids.all fun id => (Cache.uncached (l.environment store) id).isOk) ∧
      (dumpAll store l ids).output = ids.flatMap fun id =>
        Program.dump id ((Cache.uncached (l.environment store) id).toOption.getD []) := by
  induction ids generalizing l asked with
  | nil => exact ⟨rfl, rfl⟩
  | cons id rest ih =>
      obtain ⟨hText, hSilent⟩ := outcome_getText hStore hMirrors id
      -- the library after the request differs in its cache only
      obtain ⟨hOthers, hOutput⟩ :=
        ih (l := (l.getText store (.text id)).2) hStore (hMirrors.get (.text id)).2
      have hFound := ne_nil_iff_isOk (Cache.uncached (l.environment store) id)
        fun text => Cache.getLast?_of_uncached
      rw [dumpAll_cons hText hOthers]
      constructor
      · rw [hFound]
        rfl
      · rw [hSilent.output_append ⟨_ :: _, _⟩, output_printed _ ⟨_, .ok _⟩, List.flatMap_cons]
        exact congrArg _ hOutput

/-- The key and the value that a text defines. -/
def defined (text : Text) : Value × Value :=
  (.text (Text.cut '=' text).1, .text (Text.cut '=' text).2)

theorem mapM_definition (definitions : List Text) :
    (definitions.map some).mapM definition = .ok (definitions.map defined) := by
  induction definitions with
  | nil => rfl
  | cons text rest ih =>
      rw [List.map_cons, List.mapM_cons, ih]
      rfl

theorem loadLibrary_eq (hDefines : i.defines = definitions.map some) :
    loadLibrary s i = Library.load s.store (i.folder s.working s.setting)
      (definitions.map defined) false := by
  have hRead : (⟨[], i.defines.mapM definition⟩ : Traced Fault (List (Value × Value))).outcome =
      .ok (definitions.map defined) := by
    rw [hDefines]
    exact mapM_definition definitions
  rw [loadLibrary, Traced.bind_of_ok _ hRead]
  rfl

theorem carryOut_eq_dump (hCommand : i.words.command.lowercase = "dump".toList) :
    carryOut s i = dump s i := by
  have hHelp : "dump".toList ≠ "help".toList := by decide
  have hVersion : "dump".toList ≠ "version".toList := by decide
  simp only [carryOut, hCommand, if_neg hHelp, if_neg hVersion, if_true]

/-- What a dump shows, and with which code it ends. -/
structure Dumps (s : Surroundings) (i : Invocation) (definitions : List Text) : Prop where
  ends : (carryOut s i).outcome = .ok 0 ∨ (carryOut s i).outcome = .ok 1
  /-- Only what cannot be loaded and what has no text makes a dump fail. -/
  fails : (carryOut s i).outcome = .ok 1 ↔
    (∃ fault, Library.LoadFault s.store (i.folder s.working s.setting)
      (definitions.map defined) fault) ∨
    ∃ l, (Library.load s.store (i.folder s.working s.setting)
      (definitions.map defined) false).outcome = .ok l ∧
      ∃ id ∈ i.words.ids, ∃ fault, (l.get s.store (.text id)).1.outcome = .error fault
  /-- Without a library one sentence is shown. -/
  unloaded : (∃ fault, Library.LoadFault s.store (i.folder s.working s.setting)
      (definitions.map defined) fault) →
    ∃ fault, (Library.load s.store (i.folder s.working s.setting)
        (definitions.map defined) false).outcome = .error fault ∧
      (carryOut s i).output = "Cannot load shaders: ".toList ++ fault.message ++ ['\n']
  /-- All ids are shown, in their order. -/
  loaded : (¬ ∃ fault, Library.LoadFault s.store (i.folder s.working s.setting)
      (definitions.map defined) fault) →
    ∃ l, ∃ texts : Text → Text,
      (Library.load s.store (i.folder s.working s.setting)
        (definitions.map defined) false).outcome = .ok l ∧
      (∀ id, (l.getText s.store (.text id)).1.outcome = .ok (texts id)) ∧
      (carryOut s i).output = i.words.ids.flatMap fun id => Program.dump id (texts id)

theorem isUserFault_of_loadFault {root : Text} {defines : List (Value × Value)} {fault : Fault}
    (hStore : store.RefusesBelow root) (h : Library.LoadFault store root defines fault) :
    isUserFault fault = true := by
  cases h with
  | listing hFailure => simp [isUserFault, hStore.listing _ hFailure]
  | key hEntry hKey => rfl

theorem dump_of_fault {fault : Fault} (hUser : isUserFault fault = true)
    (hLoad : (loadLibrary s i).outcome = .error fault) :
    dump s i = ⟨(loadLibrary s i).events ++
      [.printed ("Cannot load shaders: ".toList ++ fault.message ++ ['\n'])], .ok 1⟩ := by
  rw [dump, Traced.attempt_bind, hLoad]
  simp only [hUser, if_true]
  rfl

theorem dump_of_library {found : Bool} (hLoad : (loadLibrary s i).outcome = .ok l)
    (hAll : (dumpAll s.store l i.words.ids).outcome = .ok found) :
    dump s i = ⟨(loadLibrary s i).events ++ (dumpAll s.store l i.words.ids).events,
      .ok (if found then 0 else 1)⟩ := by
  rw [dump, Traced.attempt_bind, hLoad]
  dsimp only
  rw [Traced.bind_of_ok _ hAll]
  simp

theorem silent_loadLibrary (hDefines : i.defines = definitions.map some) :
    (loadLibrary s i).Silent := by
  rw [loadLibrary_eq hDefines]
  exact Library.silent_load _ _ _ _

/-- Without a library nothing is shown but why. -/
theorem dumps_of_fault {fault : Fault} (hCommand : i.words.command.lowercase = "dump".toList)
    (hDefines : i.defines = definitions.map some)
    (hStore : s.store.RefusesBelow (i.folder s.working s.setting))
    (hFault : Library.LoadFault s.store (i.folder s.working s.setting)
      (definitions.map defined) fault)
    (hLoad : (Library.load s.store (i.folder s.working s.setting)
      (definitions.map defined) false).outcome = .error fault) : Dumps s i definitions := by
  have hLibrary : (loadLibrary s i).outcome = .error fault := by
    rw [loadLibrary_eq hDefines]
    exact hLoad
  have hDump := dump_of_fault (isUserFault_of_loadFault hStore hFault) hLibrary
  rw [← carryOut_eq_dump hCommand] at hDump
  constructor
  case ends => exact Or.inr (by rw [hDump])
  case fails => exact ⟨fun _ => Or.inl ⟨fault, hFault⟩, fun _ => by rw [hDump]⟩
  case unloaded =>
    refine fun _ => ⟨fault, hLoad, ?_⟩
    rw [hDump, (silent_loadLibrary hDefines).output_append ⟨[_], .ok 1⟩]
    exact output_printed _ ⟨[], .ok 1⟩ |>.trans (List.append_nil _)
  case loaded => exact fun hNone => absurd ⟨fault, hFault⟩ hNone

/-- A library that has just been loaded answers as one without a cache, and so do its dumps. -/
theorem dumps_of_library (hCommand : i.words.command.lowercase = "dump".toList)
    (hDefines : i.defines = definitions.map some)
    (hNoFault : ∀ fault, ¬ Library.LoadFault s.store (i.folder s.working s.setting)
      (definitions.map defined) fault)
    (hLoad : (Library.load s.store (i.folder s.working s.setting)
      (definitions.map defined) false).outcome = .ok l)
    (hFiles : s.store.RefusesOn l.catalog.files) : Dumps s i definitions := by
  have hLibrary : (loadLibrary s i).outcome = .ok l := by
    rw [loadLibrary_eq hDefines]
    exact hLoad
  have hMirrors : l.cache.Mirrors (l.environment s.store) [] := by
    rw [(Library.load_eq_ok hLoad).1]
    exact Cache.mirrors_empty _
  obtain ⟨hAll, hOutput⟩ := dumpAll_spec hFiles hMirrors i.words.ids
  have hDump := dump_of_library hLibrary hAll
  rw [← carryOut_eq_dump hCommand] at hDump
  have hFound :
      (i.words.ids.all fun id => (Cache.uncached (l.environment s.store) id).isOk) = false ↔
      ∃ id ∈ i.words.ids, ∃ fault, (l.get s.store (.text id)).1.outcome = .error fault := by
    rw [List.all_eq_false]
    refine exists_congr fun id => and_congr_right fun _ => ?_
    have hGet : (l.get s.store (.text id)).1.outcome = Cache.uncached (l.environment s.store) id :=
      (hMirrors.get (.text id)).1
    rw [hGet]
    cases Cache.uncached (l.environment s.store) id <;> simp [Except.isOk, Except.toBool]
  generalize (i.words.ids.all fun id => (Cache.uncached (l.environment s.store) id).isOk) = found
    at hDump hFound
  constructor
  case ends =>
    rw [hDump]
    cases found with
    | true => exact Or.inl rfl
    | false => exact Or.inr rfl
  case fails =>
    have hCode : (carryOut s i).outcome = .ok 1 ↔ found = false := by
      rw [hDump]
      cases found <;> simp
    rw [hCode, hFound]
    constructor
    · exact fun hMissing => Or.inr ⟨l, hLoad, hMissing⟩
    · rintro (⟨fault, hFault⟩ | ⟨other, hOther, hMissing⟩)
      · exact absurd hFault (hNoFault fault)
      · cases hLoad.symm.trans hOther
        exact hMissing
  case unloaded =>
    rintro ⟨fault, hFault⟩
    exact absurd hFault (hNoFault fault)
  case loaded =>
    refine fun _ => ⟨l, _, hLoad, fun id => (outcome_getText hFiles hMirrors id).1, ?_⟩
    rw [hDump, (silent_loadLibrary hDefines).output_append ⟨_, .ok _⟩]
    exact hOutput

theorem dumps (hCommand : i.words.command.lowercase = "dump".toList)
    (hDefines : i.defines = definitions.map some)
    (hStore : s.store.RefusesBelow (i.folder s.working s.setting)) : Dumps s i definitions := by
  rcases Library.outcome_load hStore (definitions.map defined) with
    ⟨fault, hFault, hLoad⟩ | ⟨l, hNoFault, hLoad, hFiles⟩
  · exact dumps_of_fault hCommand hDefines hStore hFault hLoad
  · exact dumps_of_library hCommand hDefines hNoFault hLoad hFiles

end CommandLine

/-- As long as nobody hands in an empty text and the store at most refuses files, no text means no
shader: a request that is not to fail answers with none if and only if the same request otherwise
has a fault, of which the journal tells with the id, and else with the same text, which is not
empty. It ends in a newline unless it was handed in. So a dump shows all ids, whichever of them
fail, and its exit code is one if and only if there is one without a text, or no library. -/
theorem no_text_iff_fault :
    (∀ (store : Store) root defines strict (l : Library) (operations : List Operation),
      (Library.load store root defines strict).outcome = .ok l →
      (∀ id, .insert id [] ∉ operations) →
      (Session.afterAll ⟨l, store⟩ operations).store.RefusesOn
        (Session.afterAll ⟨l, store⟩ operations).library.catalog.files →
      ∀ id, Session.Softens (Session.afterAll ⟨l, store⟩ operations) operations id) ∧
    ∀ (s : CommandLine.Surroundings) (i : CommandLine.Invocation) (definitions : List Text),
      i.words.command.lowercase = "dump".toList → i.defines = definitions.map some →
      s.store.RefusesBelow (i.folder s.working s.setting) → CommandLine.Dumps s i definitions := by
  constructor
  · intro store root defines strict l operations hLoad hHanded hStore id
    exact Session.softens_afterAll hLoad hHanded hStore id
  · intro s i definitions hCommand hDefines hStore
    exact CommandLine.dumps hCommand hDefines hStore

/-- A text is handed in for an id without a section. -/
def handedIn : List Operation := [.insert "Lit.x".toList "x".toList]

/-- The staged library after that. -/
def lent : Session := Session.afterAll ⟨Session.stagedLibrary, Session.stagedFiles.store⟩ handedIn

theorem insert_empty_notMem_handedIn (id : Text) : .insert id [] ∉ handedIn := by
  simp [handedIn]

theorem refusesOn_lent : lent.store.RefusesOn lent.library.catalog.files :=
  fun path _ => Memory.refusesOnly_store Session.stagedFiles path

/-- What is handed in need not end in a newline, and is the answer as it is. -/
theorem handed_in_without_newline :
    (Library.load Session.stagedFiles.store "shaders".toList [] false).outcome =
      .ok Session.stagedLibrary ∧
    (∀ id, .insert id [] ∉ handedIn) ∧
    lent.store.RefusesOn lent.library.catalog.files ∧
    (lent.library.get lent.store (.text "Lit.x".toList)).1.outcome = .ok "x".toList ∧
    (lent.library.getText lent.store (.text "Lit.x".toList)).1.outcome = .ok "x".toList ∧
    "x".toList.getLast? ≠ some '\n' :=
  ⟨rfl, insert_empty_notMem_handedIn, refusesOn_lent, rfl, rfl, by decide⟩

/-- A disk with one shader file. -/
def shelf : Disk where
  root := .folder "shaders".toList
    (.file "A.glsl".toList (Environment.asciiBytes "main\n".toList) .empty) .empty

/-- A dump of the shader of that file and of one that is not there. -/
def shelfDump : CommandLine.Invocation where
  words := ⟨"Dump".toList, ["B.x".toList, "A.glsl".toList]⟩
  root := some "shaders".toList
  defines := ["K=1".toList].map some

theorem list_shelf : shelf.store.list "shaders".toList = ⟨["shaders/A.glsl".toList], none⟩ := by
  have hFolder : shelf.find "shaders".toList = .ok (.folder
      (.file "A.glsl".toList (Environment.asciiBytes "main\n".toList) .empty)) := rfl
  have hPaths : Folder.listing "shaders".toList
      (.file "A.glsl".toList (Environment.asciiBytes "main\n".toList) .empty) =
        ["shaders/A.glsl".toList] := by
    simp only [Folder.listing, Folder.survey, Folder.Survey.paths, Text.sort,
      List.mergeSort_singleton, List.mergeSort_nil, List.map_cons, List.map_nil, List.flatMap_nil,
      List.append_nil]
    rfl
  change shelf.list "shaders".toList = _
  rw [Disk.list, hFolder]
  simp only [hPaths]
  rfl

/-- The library that is loaded for it. -/
def shelfLibrary : Library where
  root := "shaders".toList
  catalog := { paths := ⟨[("A.glsl".toList, "shaders/A.glsl".toList)], by decide⟩ }
  macros := { bindings := ⟨[("K".toList, "1".toList)], by decide⟩ }

theorem load_shelf : (Library.load shelf.store "shaders".toList
    (["K=1".toList].map CommandLine.defined) false).outcome = .ok shelfLibrary := by
  simp only [Library.load, Catalog.scan, list_shelf]
  rfl

theorem uncached_shelf : Cache.uncached (shelfLibrary.environment shelf.store) "A.glsl".toList =
    .ok "#define K 1\n#line 1\nmain\n".toList := by
  have hDone : (Effect.ofText (shelfLibrary.environment shelf.store) "A".toList "main\n".toList
      (some "shaders/A.glsl".toList)).outcome = .ok {
        base := "A".toList
        sections := [("A.glsl".toList, "#define K 1\n#line 1\nmain\n".toList)] } := by
    have hSections : Section.ofText "main\n".toList = [⟨Section.unnamed, ["main".toList]⟩] := rfl
    rw [Effect.ofText, hSections]
    simp only [Effect.assembleAll, Effect.assemble, Environment.expandLines_eq_expandWithin]
    rfl
  exact Cache.uncached_eq_ok_iff.mpr ⟨_, Cache.fileOf_eq_ok_iff.mpr ⟨_, _, rfl, rfl, hDone⟩, rfl⟩

theorem refusesBelow_shelf : shelf.store.RefusesBelow "shaders".toList := by
  apply Disk.refusesBelow_store
  intro path hPath
  have hListed : path ∈ (shelf.store.list "shaders".toList).paths := hPath
  rw [list_shelf, List.mem_singleton] at hListed
  rw [hListed]
  decide

theorem no_text_iff_fault_shelf :
    (Library.load Session.stagedFiles.store "shaders".toList [] false).outcome =
      .ok Session.stagedLibrary ∧
    (∀ id, .insert id [] ∉ handedIn) ∧
    lent.Softens handedIn "Lit.x".toList ∧
    shelf.store.RefusesBelow "shaders".toList ∧
    (CommandLine.carryOut ⟨shelf.store, "/".toList, none⟩ shelfDump).outcome = .ok 1 ∧
    (CommandLine.carryOut ⟨shelf.store, "/".toList, none⟩ shelfDump).output =
      Program.dump "B.x".toList [] ++
        Program.dump "A.glsl".toList "#define K 1\n#line 1\nmain\n".toList := by
  obtain ⟨hSessions, hDumps⟩ := no_text_iff_fault
  have hLoad : (Library.load Session.stagedFiles.store "shaders".toList [] false).outcome =
      .ok Session.stagedLibrary := rfl
  have hSoftens : lent.Softens handedIn "Lit.x".toList :=
    hSessions _ _ _ _ _ handedIn hLoad insert_empty_notMem_handedIn refusesOn_lent _
  have hShown : CommandLine.Dumps ⟨shelf.store, "/".toList, none⟩ shelfDump ["K=1".toList] :=
    hDumps ⟨shelf.store, "/".toList, none⟩ shelfDump ["K=1".toList] rfl rfl refusesBelow_shelf
  refine ⟨hLoad, insert_empty_notMem_handedIn, hSoftens, refusesBelow_shelf, ?_, ?_⟩
  · refine hShown.fails.mpr (Or.inr ⟨_, load_shelf, "B.x".toList, List.mem_cons_self, ?_⟩)
    exact ⟨.problem (.unknownFile "B.glsl".toList), rfl⟩
  · have hNone : ¬ ∃ fault, Library.LoadFault shelf.store "shaders".toList
        (["K=1".toList].map CommandLine.defined) fault := by
      rintro ⟨fault, hFailure | ⟨hEntry, hKey⟩⟩
      · rw [list_shelf] at hFailure
        cases hFailure
      · rw [List.mem_singleton.mp hEntry] at hKey
        cases hKey
    obtain ⟨l, texts, hLibrary, hTexts, hOutput⟩ := hShown.loaded hNone
    cases load_shelf.symm.trans hLibrary
    have hMissing : texts "B.x".toList = [] := (Except.ok.inj (hTexts "B.x".toList)).symm
    have hText : (shelfLibrary.getText shelf.store (.text "A.glsl".toList)).1.outcome =
        .ok "#define K 1\n#line 1\nmain\n".toList := by
      rw [Library.getText_eq, Library.soften_of_ok]
      rw [Library.outcome_get]
      exact uncached_shelf
    have hShelf : texts "A.glsl".toList = "#define K 1\n#line 1\nmain\n".toList :=
      Except.ok.inj ((hTexts "A.glsl".toList).symm.trans hText)
    rw [hOutput, ← hShelf, ← hMissing]
    simp [shelfDump]

end ShaderLibrary
