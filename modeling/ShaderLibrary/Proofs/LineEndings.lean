import Mathlib.Data.List.Forall2
import ShaderLibrary.Proofs.AlikeAnswers
import ShaderLibrary.Proofs.Pieces
import ShaderLibrary.Proofs.Splitting

/-! Line endings. Sources are only looked at line by line, so a store whose files have
other line endings cannot be told apart from the first one by any request. If it also has other
reasons for not handing out a file, these reasons are all that is different. -/
namespace ShaderLibrary

namespace Text

variable {s t : Text}

/-- The second text is the first one with other line endings: some newlines have got a
carriage return in front of them, and a last line without an ending may have got one. -/
inductive Reended : Text → Text → Prop where
  | nil : Reended [] []
  | keep {s t : Text} (c : Char) (rest : Reended s t) : Reended (c :: s) (c :: t)
  | widen {s t : Text} (rest : Reended s t) : Reended ('\n' :: s) ('\r' :: '\n' :: t)
  | close {c : Char} (ending : Text) (hLast : c ≠ '\n')
      (hEnding : ending = ['\n'] ∨ ending = ['\r', '\n']) : Reended [c] (c :: ending)

theorem Reended.append (front : Text) (h : Reended s t) : Reended (front ++ s) (front ++ t) := by
  induction front with
  | nil => exact h
  | cons c rest ih => exact .keep c ih

/-- The parts between newlines stay the same, up to carriage returns at their ends. -/
theorem Reended.forall₂_pieces (h : Reended s t) :
    List.Forall₂ (fun old new => new = old ∨ new = old ++ ['\r']) (pieces s) (pieces t) := by
  induction h with
  | nil => exact .nil
  | @keep s t c rest ih =>
      by_cases hNewline : c = '\n'
      · rw [hNewline, pieces_newline, pieces_newline]
        exact .cons (Or.inl rfl) ih
      · rw [pieces_cons hNewline, pieces_cons hNewline]
        generalize pieces s = olds, pieces t = news at ih
        cases ih with
        | nil => exact .cons (Or.inl rfl) .nil
        | cons hFirst hOthers =>
            refine .cons ?_ hOthers
            rcases hFirst with rfl | rfl
            · exact Or.inl rfl
            · exact Or.inr rfl
  | widen rest ih =>
      rw [pieces_newline, pieces_cons (by decide), pieces_newline]
      exact .cons (Or.inr rfl) ih
  | @close c ending hLast hEnding =>
      have hReturn : '\r' ≠ '\n' := by decide
      rcases hEnding with rfl | rfl
      · rw [pieces_cons hLast, pieces_cons hLast, pieces_newline]
        exact .cons (Or.inl rfl) .nil
      · rw [pieces_cons hLast, pieces_cons hLast, pieces_cons hReturn, pieces_newline]
        exact .cons (Or.inr rfl) .nil

/-- No line of the text ends in a carriage return. -/
def NoReturns (t : Text) : Prop := ∀ line ∈ t.splitOn '\n', line.getLast? ≠ some '\r'

theorem dropReturn_of_not {line : Text} (h : line.getLast? ≠ some '\r') : dropReturn line = line := by
  rw [dropReturn, if_neg h]

theorem dropReturn_append (line : Text) : dropReturn (line ++ ['\r']) = line := by
  simp [dropReturn]

/-- Other line endings, the same lines. -/
theorem Reended.lines_eq (h : Reended s t) (hReturns : NoReturns s) : t.lines = s.lines := by
  have hClean : ∀ piece ∈ pieces s, piece.getLast? ≠ some '\r' :=
    fun piece hPiece => hReturns piece (mem_splitOn_of_mem_pieces hPiece)
  have hPieces := h.forall₂_pieces
  rw [lines, lines]
  generalize pieces s = olds, pieces t = news at hClean hPieces
  induction hPieces with
  | nil => rfl
  | @cons old new olds news hFirst hOthers ih =>
      have hOld := dropReturn_of_not (hClean old List.mem_cons_self)
      have hRest := ih fun piece hPiece => hClean piece (List.mem_cons_of_mem _ hPiece)
      rw [List.map_cons, List.map_cons, hRest]
      rcases hFirst with rfl | rfl
      · rfl
      · rw [dropReturn_append, hOld]

end Text

namespace Store

variable {a b : Store} {path : Text}

/-- The stores list the same paths, and for each path they hand out the same lines, or
refuse it alike. -/
structure SameLines (a b : Store) : Prop where
  list : b.list = a.list
  lines : ∀ path, (b.readText path).map Text.lines = (a.readText path).map Text.lines

theorem SameLines.of_ok {s : Text} (h : a.SameLines b) (hRead : a.readText path = .ok s) :
    ∃ t, b.readText path = .ok t ∧ t.lines = s.lines := by
  have hLines := h.lines path
  rw [hRead] at hLines
  cases hOther : b.readText path with
  | error e => rw [hOther] at hLines; cases hLines
  | ok t =>
      rw [hOther] at hLines
      exact ⟨t, rfl, Except.ok.inj hLines⟩

theorem SameLines.of_error {e : StoreError} (h : a.SameLines b)
    (hRead : a.readText path = .error e) : b.readText path = .error e := by
  have hLines := h.lines path
  rw [hRead] at hLines
  cases hOther : b.readText path with
  | error e' => rw [hOther] at hLines; cases hLines; rfl
  | ok t => rw [hOther] at hLines; cases hLines

end Store

namespace Environment

variable {m : Macros} {c : Catalog} {a b : Store} {chain lines : List Text} {number : Int} {line p : Text}

/-- A file has the same expansion in both stores, if its lines have. -/
theorem expandFile_of_sameLines (h : a.SameLines b)
    (hLines : p ∉ chain → ∀ content : Text,
      (Environment.mk m c b).expandLines (chain ++ [p]) 1 content.lines =
        (Environment.mk m c a).expandLines (chain ++ [p]) 1 content.lines) :
    (Environment.mk m c b).expandFile chain p = (Environment.mk m c a).expandFile chain p := by
  by_cases hKnown : p ∈ chain
  · rw [expandFile_of_mem hKnown, expandFile_of_mem hKnown]
  · cases hRead : a.readText p with
    | ok s =>
        obtain ⟨t, hOther, hSame⟩ := h.of_ok hRead
        have hFirst : (Environment.mk m c a).store.readText p = .ok s := hRead
        have hSecond : (Environment.mk m c b).store.readText p = .ok t := hOther
        rw [expandFile_of_read hKnown hSecond, expandFile_of_read hKnown hFirst, hSame,
          hLines hKnown s]
    | error e =>
        have hFirst : (Environment.mk m c a).store.readText p = .error e := hRead
        have hSecond : (Environment.mk m c b).store.readText p = .error e := h.of_error hRead
        cases hRefusal : e.isRefusal with
        | true =>
            rw [expandFile_of_refused hKnown hSecond hRefusal,
              expandFile_of_refused hKnown hFirst hRefusal]
        | false =>
            rw [expandFile_of_broken hKnown hSecond hRefusal,
              expandFile_of_broken hKnown hFirst hRefusal]

/-- Lines have the same expansion in both stores, event by event. -/
theorem expandLines_of_sameLines (h : a.SameLines b) :
    (Environment.mk m c b).expandLines chain number lines =
      (Environment.mk m c a).expandLines chain number lines := by
  induction chain, number, lines using expandLines.induct ⟨m, c, a⟩ with
  | case1 chain number => rw [expandLines_nil, expandLines_nil]
  | case2 chain number line rest ihFile ihRest =>
      have hLine : (Environment.mk m c b).expandLine chain number line =
          (Environment.mk m c a).expandLine chain number line := by
        cases hKind : LineKind.of line with
        | plain => rw [expandLine_of_plain hKind, expandLine_of_plain hKind]
        | hoisted => rw [expandLine_of_hoisted hKind, expandLine_of_hoisted hKind]
        | inclusion =>
            -- where a line leads to is not a question to the store
            rcases unresolved_or_leadsTo ⟨m, c, a⟩ hKind with ⟨problem, hTarget⟩ | ⟨p, hLeads⟩
            · have hSecond : ((Environment.mk m c b).target line).outcome = .error problem := hTarget
              rw [expandLine_of_unresolved hKind hSecond, expandLine_of_unresolved hKind hTarget]
              rfl
            · have hSecond : (Environment.mk m c b).LeadsTo line p := hLeads
              have hListed := (leadsTo_iff_target.mp hLeads).2.1
              rw [expandLine_of_leadsTo hSecond, expandLine_of_leadsTo hLeads,
                expandFile_of_sameLines h fun hNew content => ihFile p hListed hNew content.lines]
              rfl
      rw [expandLines_cons, expandLines_cons, hLine, ihRest]

end Environment

variable {m : Macros} {c : Catalog} {a b : Store}

namespace Effect

variable {origin : Option Text} {x : Effect} {base source other : Text} {lines : List Text}
  {parts : List Section}

theorem assemble_of_sameLines (h : a.SameLines b) :
    assemble ⟨m, c, b⟩ origin lines = assemble ⟨m, c, a⟩ origin lines := by
  rw [assemble, assemble, Environment.expandLines_of_sameLines h]

theorem assembleAll_of_sameLines (h : a.SameLines b) :
    assembleAll ⟨m, c, b⟩ origin x parts = assembleAll ⟨m, c, a⟩ origin x parts := by
  induction parts generalizing x with
  | nil => rfl
  | cons part rest ih => simp only [assembleAll, assemble_of_sameLines h, ih]

/-- An effect file is taken apart line by line, so its endings do not matter either. -/
theorem ofText_of_sameLines (h : a.SameLines b) (hLines : other.lines = source.lines) :
    ofText ⟨m, c, b⟩ base other origin = ofText ⟨m, c, a⟩ base source origin := by
  rw [ofText, ofText, Section.ofText, Section.ofText, hLines, assembleAll_of_sameLines h]

end Effect

namespace Cache

variable {cache : Cache} {id : Text}

theorem readEffect_of_sameLines (h : a.SameLines b) :
    readEffect ⟨m, c, b⟩ id = readEffect ⟨m, c, a⟩ id := by
  rw [readEffect, readEffect]
  congr 1
  funext path
  cases hRead : a.readText path with
  | ok source =>
      obtain ⟨other, hOther, hLines⟩ := h.of_ok hRead
      have hFirst : ((Traced.readText a path).mapError Fault.store).outcome = .ok source := by
        rw [Traced.mapError, Traced.readText, hRead]
        rfl
      have hSecond : ((Traced.readText b path).mapError Fault.store).outcome = .ok other := by
        rw [Traced.mapError, Traced.readText, hOther]
        rfl
      rw [Traced.bind_of_ok _ hFirst, Traced.bind_of_ok _ hSecond,
        Effect.ofText_of_sameLines h hLines]
      rfl
  | error e =>
      have hFirst : ((Traced.readText a path).mapError Fault.store).outcome = .error (.store e) := by
        rw [Traced.mapError, Traced.readText, hRead]
        rfl
      have hSecond : ((Traced.readText b path).mapError Fault.store).outcome = .error (.store e) := by
        rw [Traced.mapError, Traced.readText, h.of_error hRead]
        rfl
      rw [Traced.bind_of_error _ hFirst, Traced.bind_of_error _ hSecond]
      rfl

/-- A request has the same answer from both stores, and leaves the same cache. -/
theorem get_of_sameLines (h : a.SameLines b) (v : Value) :
    cache.get ⟨m, c, b⟩ v = cache.get ⟨m, c, a⟩ v := by
  cases v with
  | text id => simp only [get, load, readEffect_of_sameLines h]
  | nothing | truth _ | integer _ _ | number _ | list _ | record _ => rfl

theorem getAll_of_sameLines (h : a.SameLines b) (asked : List Value) :
    cache.getAll ⟨m, c, b⟩ asked = cache.getAll ⟨m, c, a⟩ asked := by
  induction asked generalizing cache with
  | nil => rfl
  | cons v rest ih => simp only [getAll, get_of_sameLines h, ih]

end Cache

/-- The global block is not looked at line by line, so its file must be the same. -/
theorem Macros.loadGlobalBlock_of_eq
    (h : ∀ path, c.find? globalName = some path → b.readText path = a.readText path) :
    m.loadGlobalBlock c b = m.loadGlobalBlock c a := by
  rw [loadGlobalBlock, loadGlobalBlock]
  simp only [Traced.attempt_bind]
  cases hFound : (c.resolve globalName).outcome with
  | error problem => rfl
  | ok path =>
      have hSame := h path (Environment.outcome_resolve_eq_ok_iff.mp hFound)
      simp only [Traced.readText, hSame]

theorem Library.load_of_sameLines {root : Text} {defines : List (Value × Value)} {strict : Bool}
    (h : a.SameLines b)
    (hGlobal : ∀ catalog count path, (Catalog.scan { strict } a root).outcome = .ok (catalog, count) →
      catalog.find? Macros.globalName = some path → b.readText path = a.readText path) :
    load b root defines strict = load a root defines strict := by
  rw [load, load, Catalog.scan_congr (congrFun h.list root)]
  cases hScan : (Catalog.scan { strict } a root).outcome with
  | error fault => rw [Traced.bind_of_error _ hScan, Traced.bind_of_error _ hScan]
  | ok found =>
      obtain ⟨catalog, count⟩ := found
      have hBlock (macros : Macros) := @Macros.loadGlobalBlock_of_eq macros catalog a b fun path =>
        hGlobal catalog count path hScan
      rw [Traced.bind_of_ok _ hScan, Traced.bind_of_ok _ hScan]
      simp only [hBlock]

/-- The second store lists the same paths, and its texts are the same as those of the first
one or have other line endings. What one of them does not hand out, the other one does not hand out
either, for a reason of its own. -/
structure Store.Reends (a b : Store) : Prop where
  list : b.list = a.list
  texts : ∀ path, Store.ReadsAlike (a.readText path) (b.readText path) ∨
    ∃ s t, a.readText path = .ok s ∧ b.readText path = .ok t ∧ s.NoReturns ∧ s.Reended t

/-- The second store has the reasons of the first one. -/
def Store.SharesReasons (a b : Store) : Prop :=
  ∀ path e, a.readText path = .error e → b.readText path = .error e

namespace Store

theorem Reends.sameLines (h : a.Reends b) (hReasons : a.SharesReasons b) : a.SameLines b where
  list := h.list
  lines path := by
    rcases h.texts path with hAlike | ⟨s, t, hFirst, hSecond, hReturns, hReended⟩
    · generalize hFirst : a.readText path = first, hSecond : b.readText path = second at hAlike
      cases hAlike with
      | text t => rfl
      | failed hKind =>
          rw [hReasons path _ hFirst] at hSecond
          rw [hSecond]
    · rw [hFirst, hSecond]
      exact congrArg Except.ok (hReended.lines_eq hReturns)

/-- In the words of the first store, the second one differs from it in line endings only. -/
theorem Reends.sameLines_inWordsOf (h : a.Reends b) : a.SameLines (b.inWordsOf a) where
  list := h.list
  lines path := by
    rcases h.texts path with hAlike | ⟨s, t, hFirst, hSecond, hReturns, hReended⟩
    · rw [hAlike.readText_inWordsOf_eq]
    · rw [readText_inWordsOf, hFirst, hSecond]
      exact congrArg Except.ok (hReended.lines_eq hReturns)

/-- What is the same of two stores that may have reasons of their own. -/
structure TellsAlike (a b : Store) : Prop where
  /-- The same library is loaded from both, if the file with the global block is the same or not
  handed out. -/
  loads : ∀ root defines strict,
    (∀ catalog count path, (Catalog.scan { strict } a root).outcome = .ok (catalog, count) →
      catalog.find? Macros.globalName = some path →
        ReadsAlike (a.readText path) (b.readText path)) →
    Traced.Outcomes (Fault.Alike a b) Eq (Library.load a root defines strict).outcome
      (Library.load b root defines strict).outcome
  /-- Requests one after the other have the same texts for answers, or faults that are alike. -/
  answers : ∀ (l : Library) asked, List.Forall₂ (Cache.AnswersAlike a b)
    (l.cache.getAll (l.environment a) asked).1 (l.cache.getAll (l.environment b) asked).1
  caches : ∀ (l : Library) asked,
    (l.cache.getAll (l.environment b) asked).2 = (l.cache.getAll (l.environment a) asked).2
  /-- An effect file with other line endings has the same sections, fails the same ones, and has
  problems that are alike. -/
  effects : ∀ macros catalog base s t origin, s.NoReturns → s.Reended t →
    Traced.Alike a b (StoreError.Alike a b) (Effect.Alike a b)
      (Effect.ofText ⟨macros, catalog, a⟩ base s origin)
      (Effect.ofText ⟨macros, catalog, b⟩ base t origin)

/-- What is the same of two stores that have the same reasons. -/
structure TellsSame (a b : Store) : Prop where
  loads : ∀ root defines strict,
    (∀ catalog count path, (Catalog.scan { strict } a root).outcome = .ok (catalog, count) →
      catalog.find? Macros.globalName = some path → b.readText path = a.readText path) →
    Library.load b root defines strict = Library.load a root defines strict
  /-- Each request does the same, also for the user who reads the log. -/
  requests : ∀ (l : Library) v,
    l.cache.get (l.environment b) v = l.cache.get (l.environment a) v
  answers : ∀ (l : Library) asked,
    l.cache.getAll (l.environment b) asked = l.cache.getAll (l.environment a) asked
  effects : ∀ macros catalog base s t origin, s.NoReturns → s.Reended t →
    Effect.ofText ⟨macros, catalog, b⟩ base t origin =
      Effect.ofText ⟨macros, catalog, a⟩ base s origin

theorem SameLines.tellsSame (h : a.SameLines b) : a.TellsSame b where
  loads _ _ _ hGlobal := Library.load_of_sameLines h hGlobal
  requests _ v := Cache.get_of_sameLines h v
  answers _ asked := Cache.getAll_of_sameLines h asked
  effects _ _ _ _ _ _ hReturns hReended := Effect.ofText_of_sameLines h (hReended.lines_eq hReturns)

/-- From the first store to the second in the words of the first, and on to the second. -/
theorem Reends.tellsAlike (h : a.Reends b) : a.TellsAlike b := by
  have hWords : a.TellsSame (b.inWordsOf a) := h.sameLines_inWordsOf.tellsSame
  have hAnswers (l : Library) (asked : List Value) :=
    Cache.getAll_inWordsOf l.macros l.catalog a b l.cache asked
  constructor
  case loads => exact fun _ _ _ hGlobal => Library.load_alike h.list hGlobal
  case answers =>
    intro l asked
    rw [← hWords.answers l asked]
    exact (hAnswers l asked).1
  case caches =>
    intro l asked
    rw [← hWords.answers l asked]
    exact (hAnswers l asked).2
  case effects =>
    intro macros catalog base s t origin hReturns hReended
    rw [← hWords.effects macros catalog base s t origin hReturns hReended]
    exact Effect.ofText_inWordsOf macros catalog a b base t origin

end Store

/-- Line endings are invisible. Two stores may differ in the line endings of their files, and in the
reasons for which they do not hand out a file. Then a library that is loaded from one is the library
that is loaded from the other, if the file with the global block is the same; with any macros, and
with any catalog, requests one after the other have the same answers from both and leave the same
cache; and an effect file comes to the same texts, failures and problems. Only the reasons of a store
stand in its own words, in problems and in faults. If these are the same, nothing can be told
apart. -/
theorem line_endings_invisible (h : a.Reends b) :
    a.TellsAlike b ∧ (a.SharesReasons b → a.TellsSame b) :=
  ⟨h.tellsAlike, fun hReasons => (h.sameLines hReasons).tellsSame⟩

theorem Memory.readText_write_of_ne {files : Memory} {path other : Text}
    (content : Option (List UInt8)) (h : other ≠ path) :
    (files.write path content).store.readText other = files.store.readText other := by
  have hFiles : (files.write path content).files.get? other = files.files.get? other :=
    (Dictionary.get?_insert _ _ _ _).trans (if_neg h)
  have hBytes : (files.write path content).readBytes other = files.readBytes other := by
    rw [readBytes, readBytes, hFiles]
  exact congrArg (Except.map Text.decode) hBytes

/-- A file whose last line has no ending, beside a global block and a file without content. -/
def unixFiles : Memory where
  files := ⟨[
    ("shaders/GlobalDefines.glsl".toList, some (Environment.asciiBytes "#define PI 3\r\n".toList)),
    ("shaders/N.glsl".toList, none),
    ("shaders/X.glsl".toList,
      some (Environment.asciiBytes "-- V\n#include \"N.glsl\"\nend".toList))], by decide⟩

/-- The same files with a wider ending and one at the end of the last line. -/
def mixedFiles : Memory :=
  unixFiles.write "shaders/X.glsl".toList
    (some (Environment.asciiBytes "-- V\r\n#include \"N.glsl\"\nend\n".toList))

theorem list_mixedFiles : mixedFiles.store.list = unixFiles.store.list := by
  have hKeys : mixedFiles.files.keys = unixFiles.files.keys := by decide
  funext root
  simp only [Memory.store, Memory.list, hKeys]
  rfl

/-- The files as a host hands them out that has a reason of its own for the one without content. -/
def hosted (files : Memory) (e : StoreError) : Store where
  list := files.store.list
  readBytes path :=
    if path = "shaders/N.glsl".toList then .error e else files.store.readBytes path

theorem readText_hosted_of_ne (files : Memory) (e : StoreError) {path : Text}
    (h : path ≠ "shaders/N.glsl".toList) :
    (hosted files e).readText path = files.store.readText path := by
  simp only [Store.readText, hosted, if_neg h]

/-- The first host has lost the file. -/
def unixHost : Store := hosted unixFiles (.missing "shaders/N.glsl".toList)

/-- The second one has a folder in its place. -/
def mixedHost : Store := hosted mixedFiles (.isFolder "shaders/N.glsl".toList)

theorem reended_mixed : Text.NoReturns "-- V\n#include \"N.glsl\"\nend".toList ∧
    Text.Reended "-- V\n#include \"N.glsl\"\nend".toList
      "-- V\r\n#include \"N.glsl\"\nend\n".toList := by
  constructor
  · unfold Text.NoReturns
    decide
  · exact .append "-- V".toList (.widen (.append "#include \"N.glsl\"\nen".toList
      (.close ['\n'] (by decide) (Or.inl rfl))))

theorem reends_mixedFiles : unixFiles.store.Reends mixedFiles.store where
  list := list_mixedFiles
  texts path := by
    by_cases hPath : path = "shaders/X.glsl".toList
    · subst hPath
      exact Or.inr ⟨_, _, rfl, rfl, reended_mixed⟩
    · refine Or.inl (.of_eq ?_)
      exact (Memory.readText_write_of_ne _ hPath).symm

theorem reends_mixedHost : unixHost.Reends mixedHost where
  list := list_mixedFiles
  texts path := by
    by_cases hPath : path = "shaders/N.glsl".toList
    · subst hPath
      exact Or.inl (.failed rfl)
    · rw [unixHost, mixedHost, readText_hosted_of_ne _ _ hPath, readText_hosted_of_ne _ _ hPath]
      exact reends_mixedFiles.texts path

/-- The library that is loaded from them. -/
def hostLibrary : Library where
  root := "shaders".toList
  catalog := { strict := true, paths := ⟨[
    ("GlobalDefines.glsl".toList, "shaders/GlobalDefines.glsl".toList),
    ("N.glsl".toList, "shaders/N.glsl".toList),
    ("X.glsl".toList, "shaders/X.glsl".toList)], by decide⟩ }
  macros := { globalBlock := "#define PI 3\r\n".toList }

theorem load_hosted {files : Memory} (e : StoreError)
    (hList : files.store.list "shaders".toList = ⟨["shaders/GlobalDefines.glsl".toList,
      "shaders/N.glsl".toList, "shaders/X.glsl".toList], none⟩)
    (hGlobal : files.store.readText "shaders/GlobalDefines.glsl".toList =
      .ok "#define PI 3\r\n".toList) :
    (Library.load (hosted files e) "shaders".toList [] true).outcome = .ok hostLibrary := by
  have hScan : (Catalog.scan { strict := true } (hosted files e) "shaders".toList).outcome =
      .ok (hostLibrary.catalog, 3) := by
    have hPaths : (hosted files e).list "shaders".toList = _ := hList
    simp only [Catalog.scan, hPaths]
    rfl
  have hBlock : ((Macros.loadGlobalBlock {} hostLibrary.catalog (hosted files e)).mapError
      Fault.store).outcome = .ok hostLibrary.macros := by
    have hFound : (hostLibrary.catalog.resolve Macros.globalName).outcome =
        .ok ⟨"shaders/GlobalDefines.glsl".toList, by decide⟩ := rfl
    have hRead := (readText_hosted_of_ne files e (by decide)).trans hGlobal
    simp only [Macros.loadGlobalBlock, Traced.mapError, Traced.attempt_bind, hFound, Traced.readText,
      hRead]
    rfl
  rw [Library.load]
  exact Traced.outcome_bind_eq_ok_iff.mpr ⟨_, hScan, Traced.outcome_bind_eq_ok_iff.mpr
    ⟨{}, rfl, Traced.outcome_bind_eq_ok_iff.mpr ⟨_, hBlock, rfl⟩⟩⟩

/-- The reason of the host is told with an include line for the file. -/
theorem problems_hosted {files : Memory} {e : StoreError} (h : e.isRefusal = true) :
    (Effect.ofText (hostLibrary.environment (hosted files e)) "X".toList
      "#include \"N.glsl\"\n".toList none).problems =
        [.unresolvedInclude "shaders/N.glsl".toList e.message] := by
  have hLeads : (hostLibrary.environment (hosted files e)).LeadsTo "#include \"N.glsl\"".toList
      "shaders/N.glsl".toList := ⟨rfl, "N.glsl".toList, rfl, rfl⟩
  have hRead : (hosted files e).readText "shaders/N.glsl".toList = .error e := rfl
  have hNew : "shaders/N.glsl".toList ∉ (none : Option Text).toList := List.not_mem_nil
  have hSections : Section.ofText "#include \"N.glsl\"\n".toList =
    [⟨Section.unnamed, ["#include \"N.glsl\"".toList]⟩] := rfl
  rw [Effect.ofText, hSections, Effect.assembleAll, Effect.assemble_eq_conclude,
    Environment.expandLines_cons, Environment.expandLines_nil, Environment.expandLine_of_leadsTo hLeads,
    Environment.expandFile_of_refused hNew hRead h]
  rfl

/-- The reasons for which the hosts do not hand out a file can be told apart, in the answer to a
request for it and in the problem of an include line. -/
theorem reasons_not_invisible : unixHost.Reends mixedHost ∧
    (Library.load unixHost "shaders".toList [] true).outcome = .ok hostLibrary ∧
    (Library.load mixedHost "shaders".toList [] true).outcome = .ok hostLibrary ∧
    (hostLibrary.cache.getAll (hostLibrary.environment unixHost) [.text "N.V".toList]).1 =
      [.error (.store (.missing "shaders/N.glsl".toList))] ∧
    (hostLibrary.cache.getAll (hostLibrary.environment mixedHost) [.text "N.V".toList]).1 =
      [.error (.store (.isFolder "shaders/N.glsl".toList))] ∧
    (Effect.ofText (hostLibrary.environment mixedHost) "X".toList
        "#include \"N.glsl\"\n".toList none).problems ≠
      (Effect.ofText (hostLibrary.environment unixHost) "X".toList
        "#include \"N.glsl\"\n".toList none).problems := by
  refine ⟨reends_mixedHost, load_hosted _ rfl rfl, load_hosted _ rfl rfl, rfl, rfl, ?_⟩
  rw [mixedHost, unixHost, problems_hosted rfl, problems_hosted rfl]
  decide

theorem line_endings_invisible_mixed :
    unixHost.Reends mixedHost ∧
    List.Forall₂ (Cache.AnswersAlike unixHost mixedHost)
      (hostLibrary.cache.getAll (hostLibrary.environment unixHost)
        [.text "X.V".toList, .text "N.V".toList]).1
      (hostLibrary.cache.getAll (hostLibrary.environment mixedHost)
        [.text "X.V".toList, .text "N.V".toList]).1 ∧
    unixFiles.store.Reends mixedFiles.store ∧ unixFiles.store.SharesReasons mixedFiles.store ∧
    hostLibrary.cache.getAll (hostLibrary.environment mixedFiles.store) [.text "X.V\r".toList] =
      hostLibrary.cache.getAll (hostLibrary.environment unixFiles.store) [.text "X.V\r".toList] := by
  obtain ⟨hAlike, -⟩ := line_endings_invisible reends_mixedHost
  obtain ⟨-, hSame⟩ := line_endings_invisible reends_mixedFiles
  have hReasons : unixFiles.store.SharesReasons mixedFiles.store := by
    intro path e hError
    by_cases hPath : path = "shaders/X.glsl".toList
    · subst hPath
      cases hError
    · exact (Memory.readText_write_of_ne _ hPath).trans hError
  exact ⟨reends_mixedHost, hAlike.answers hostLibrary _, reends_mixedFiles, hReasons,
    (hSame hReasons).answers hostLibrary _⟩

end ShaderLibrary
