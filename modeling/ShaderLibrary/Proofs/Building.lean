import ShaderLibrary.Program
import ShaderLibrary.Proofs.Journal

/-! Programs that are built. Each shader is compiled with the text that its id has by itself, since
the cache is not to be seen in it, and with the stage that its id tells. The compiler may answer as
it likes: whatever it refuses, it is asked for every shader and for the whole. -/
namespace ShaderLibrary

open Traced
open Library (headlines)

namespace Library

variable {l : Library} {store : Store}

/-- The library with nothing in its cache. -/
def fresh (l : Library) : Library := { l with cache := {} }

/-- A request for an id by itself has a text, and none is the text of an id with a fault. -/
theorem getText_fresh (hStore : store.RefusesOn l.catalog.files) (id : Text) :
    (l.fresh.getText store (.text id)).1.outcome =
      .ok ((Cache.uncached (l.environment store) id).toOption.getD []) ∧
    ((Cache.uncached (l.environment store) id).toOption.getD [] = [] ↔
      ∃ fault, (l.fresh.get store (.text id)).1.outcome = .error fault) := by
  refine ⟨?text, ?none⟩
  case text =>
    have hMirrors := Cache.mirrors_empty (l.environment store)
    exact (CommandLine.outcome_getText (l := l.fresh) hStore hMirrors id).1
  case none =>
  have hGet : (l.fresh.get store (.text id)).1.outcome =
      Cache.uncached (l.environment store) id := outcome_get l.fresh store id
  rw [hGet]
  cases hAnswer : Cache.uncached (l.environment store) id with
  | error fault => simp [Except.toOption]
  | ok text =>
      have hText : text ≠ [] := by
        rintro rfl
        cases Cache.getLast?_of_uncached hAnswer
      simpa [Except.toOption] using hText

end Library

theorem Stage.exists_ofId (id : Text) :
    ∃ stage, (Stage.ofId id : Traced Fault Stage).outcome = .ok stage := by
  unfold Stage.ofId
  split
  · exact ⟨_, rfl⟩
  · exact ⟨_, rfl⟩

namespace Shader

/-- What the compiler is asked about a shader. -/
def request (s : Shader) : Request := .compile s.stage s.text s.id

/-- What is recorded about a shader that could not be compiled. -/
def complaint (s : Shader) : Record := ⟨.error, Program.compileMessage s.id s.verdict.log⟩

/-- The stage and the text of a shader are those that a library has for its id. -/
structure StemsFrom (s : Shader) (l : Library) (store : Store) : Prop where
  stage : (Stage.ofId s.id : Traced Fault Stage).outcome = .ok s.stage
  text : (l.getText store (.text s.id)).1.outcome = .ok s.text
  /-- An id with a fault has no text, and all others have one. -/
  textless : s.text = [] ↔ ∃ fault, (l.get store (.text s.id)).1.outcome = .error fault

end Shader

namespace Compiler

variable {c : Compiler} {past : List Request} {s : Shader}
  {shaders others before after : List Shader}

/-- The compiler offers whatever it is asked for. -/
def Offers (c : Compiler) : Prop := ∀ past request, ∃ verdict, c.answer past request = some verdict

/-- Shaders that are compiled one after the other: each has the verdict on the request for it, which
comes after the requests for those before it. -/
inductive Compiles (c : Compiler) : List Request → List Shader → Prop where
  | nil (past : List Request) : Compiles c past []
  | cons {past : List Request} {s : Shader} {rest : List Shader}
      (hVerdict : c.answer past s.request = some s.verdict)
      (hRest : Compiles c (past ++ [s.request]) rest) : Compiles c past (s :: rest)

theorem Compiles.append (h : c.Compiles past shaders)
    (hOthers : c.Compiles (past ++ shaders.map Shader.request) others) :
    c.Compiles past (shaders ++ others) := by
  induction h with
  | nil past =>
      rw [List.map_nil, List.append_nil] at hOthers
      exact hOthers
  | cons hVerdict hRest ih =>
      rw [List.map_cons, List.append_cons] at hOthers
      exact .cons hVerdict (ih hOthers)

theorem Compiles.verdict (h : c.Compiles past (before ++ s :: after)) :
    c.answer (past ++ before.map Shader.request) s.request = some s.verdict := by
  induction before generalizing past with
  | nil =>
      cases h with
      | cons hVerdict hRest => rwa [List.map_nil, List.append_nil]
  | cons first before ih =>
      cases h with
      | cons hVerdict hRest =>
          rw [List.map_cons, List.append_cons]
          exact ih hRest

end Compiler

namespace Program

variable {store : Store} {compiler : Compiler} {shows : Bool} {b next last : Building}
  {ids others : List Text} {id : Text} {made more : List Shader} {run : Traced Fault Building}

def compileHeadline : Text := "Cannot compile shader! ".toList

def linkHeadline : Text := "Cannot link shader program (".toList

theorem compileHeadline_foreign :
    ∀ head ∈ headlines, ¬ compileHeadline <+: head ∧ ¬ head <+: compileHeadline := by decide

theorem linkHeadline_foreign :
    ∀ head ∈ headlines, ¬ linkHeadline <+: head ∧ ¬ head <+: linkHeadline := by decide

/-- The library that is built with answers as one with nothing in its cache. -/
structure Building.Current (b : Building) (store : Store) : Prop where
  refuses : store.RefusesOn b.library.catalog.files
  mirrors : ∃ asked, b.library.cache.Mirrors (b.library.environment store) asked

/-- A run that has the shaders for some ids compiled and adds them to what has been built. -/
structure Adds (store : Store) (compiler : Compiler) (b : Building) (run : Traced Fault Building)
    (ids : List Text) (made : List Shader) (next : Building) : Prop where
  done : run.outcome = .ok next
  current : next.Current store
  /-- The library changes in its cache only. -/
  fresh : next.library.fresh = b.library.fresh
  shaders : next.shaders = b.shaders ++ made
  requests : next.requests = b.requests ++ made.map Shader.request
  aligned : made.map (·.id) = ids
  stems : ∀ s ∈ made, s.StemsFrom b.library.fresh store
  compiles : compiler.Compiles b.requests made
  complaints : run.recordsUnder compileHeadline =
    (made.filter fun s => !s.verdict.ok).map Shader.complaint
  unlinked : run.recordsUnder linkHeadline = []

theorem Adds.nil (h : b.Current store) : Adds store compiler b (pure b) [] [] b where
  done := rfl
  current := h
  fresh := rfl
  shaders := (List.append_nil _).symm
  requests := (List.append_nil _).symm
  aligned := rfl
  stems _ hMem := absurd hMem List.not_mem_nil
  compiles := .nil _
  complaints := rfl
  unlinked := rfl

/-- One run after the other adds the shaders of both. -/
theorem Adds.bind {rest : Building → Traced Fault Building}
    (h : Adds store compiler b run ids made next)
    (hRest : Adds store compiler next (rest next) others more last) :
    Adds store compiler b (run >>= rest) (ids ++ others) (made ++ more) last := by
  constructor
  case done => exact outcome_bind_eq_ok_iff.mpr ⟨next, h.done, hRest.done⟩
  case current => exact hRest.current
  case fresh => exact hRest.fresh.trans h.fresh
  case shaders => rw [hRest.shaders, h.shaders, List.append_assoc]
  case requests => rw [hRest.requests, h.requests, List.map_append, List.append_assoc]
  case aligned => rw [List.map_append, h.aligned, hRest.aligned]
  case stems =>
    intro s hMem
    rcases List.mem_append.mp hMem with hMade | hMore
    · exact h.stems s hMade
    · rw [← h.fresh]
      exact hRest.stems s hMore
  case compiles =>
    refine h.compiles.append ?_
    rw [← h.requests]
    exact hRest.compiles
  case complaints =>
    rw [recordsUnder_bind _ _ h.done, h.complaints, hRest.complaints, List.filter_append,
      List.map_append]
  case unlinked => rw [recordsUnder_bind _ _ h.done, h.unlinked, hRest.unlinked, List.append_nil]

/-- What has been built when a shader is added, with the library after the request for its text. -/
def Building.add (b : Building) (store : Store) (s : Shader) : Building where
  library := (b.library.getText store (.text s.id)).2
  requests := b.requests ++ [s.request]
  shaders := b.shaders ++ [s]

/-- What is shown and recorded of a shader when it has been compiled. -/
def finish (shows : Bool) (s : Shader) (next : Building) : Traced Fault Building where
  events := (if shows then [.printed (dump s.id s.text ++ ['\n'])] else []) ++
    if s.verdict.ok then [] else [.logged s.complaint]
  outcome := .ok next

theorem recordsUnder_finish (shows : Bool) (s : Shader) (next : Building) :
    (finish shows s next).recordsUnder compileHeadline =
        ([s].filter fun s => !s.verdict.ok).map Shader.complaint ∧
      (finish shows s next).recordsUnder linkHeadline = [] := by
  obtain ⟨id, stage, text, ⟨ok, message⟩⟩ := s
  cases shows <;> cases ok <;> exact ⟨rfl, rfl⟩

section One

variable {s : Shader} (hStage : (Stage.ofId s.id : Traced Fault Stage).outcome = .ok s.stage)
  (hText : (b.library.getText store (.text s.id)).1.outcome = .ok s.text)
  (hVerdict : compiler.answer b.requests s.request = some s.verdict)

include hStage hText hVerdict

/-- A shader is compiled in three parts: its stage, its text, and what the compiler says. -/
theorem compileOne_eq (shows : Bool) :
    compileOne store compiler shows b s.id = (Stage.ofId s.id >>= fun _ =>
      (b.library.getText store (.text s.id)).1 >>= fun _ => finish shows s (b.add store s)) := by
  rw [compileOne, bind_of_ok _ hStage, bind_of_ok _ hStage]
  dsimp only
  rw [bind_of_ok _ hText, bind_of_ok _ hText]
  have hAsk : ask { b with library := (b.library.getText store (.text s.id)).2 } compiler
      (.compile s.stage s.text s.id) = pure (s.verdict,
        { b with
          library := (b.library.getText store (.text s.id)).2
          requests := b.requests ++ [s.request] }) := by
    have hAnswer : compiler.answer b.requests (.compile s.stage s.text s.id) = some s.verdict :=
      hVerdict
    rw [ask, hAnswer]
    rfl
  rw [hAsk]
  obtain ⟨id, stage, text, ⟨ok, message⟩⟩ := s
  cases shows <;> cases ok <;> rfl

/-- Under a headline that belongs to no request, there is only what is recorded at the end. -/
theorem recordsUnder_compileOne (hStore : store.RefusesOn b.library.catalog.files) (shows : Bool)
    {headline : Text} (hForeign : ∀ head ∈ headlines, ¬ headline <+: head ∧ ¬ head <+: headline) :
    (compileOne store compiler shows b s.id).recordsUnder headline =
      (finish shows s (b.add store s)).recordsUnder headline := by
  have hStageRecords := (Stage.headed_ofId s.id).recordsUnder_eq_nil hForeign
  have hTextRecords := (Library.headed_getText hStore s.id).recordsUnder_eq_nil hForeign
  rw [compileOne_eq hStage hText hVerdict, recordsUnder_bind _ _ hStage,
    recordsUnder_bind _ _ hText, hStageRecords, hTextRecords, List.nil_append, List.nil_append]

theorem adds_compileOne (h : b.Current store) (hStems : s.StemsFrom b.library.fresh store)
    (shows : Bool) :
    Adds store compiler b (compileOne store compiler shows b s.id) [s.id] [s] (b.add store s) := by
  obtain ⟨asked, hMirrors⟩ := h.mirrors
  obtain ⟨hCompile, hLink⟩ := recordsUnder_finish shows s (b.add store s)
  constructor
  case done =>
    rw [compileOne_eq hStage hText hVerdict, bind_of_ok _ hStage, bind_of_ok _ hText]
    rfl
  case current => exact ⟨h.refuses, _, (hMirrors.get (.text s.id)).2⟩
  case fresh => rfl
  case shaders => rfl
  case requests => rfl
  case aligned => rfl
  case stems => exact fun other hMem => List.mem_singleton.mp hMem ▸ hStems
  case compiles => exact .cons hVerdict (.nil _)
  case complaints =>
    rw [recordsUnder_compileOne hStage hText hVerdict h.refuses shows compileHeadline_foreign,
      hCompile]
  case unlinked =>
    rw [recordsUnder_compileOne hStage hText hVerdict h.refuses shows linkHeadline_foreign, hLink]

end One

/-- One more shader is compiled, whatever the compiler says about it. -/
theorem exists_adds_compileOne (hOffers : compiler.Offers) (h : b.Current store) (shows : Bool)
    (id : Text) :
    ∃ s next, Adds store compiler b (compileOne store compiler shows b id) [id] [s] next := by
  obtain ⟨stage, hStage⟩ := Stage.exists_ofId id
  obtain ⟨asked, hMirrors⟩ := h.mirrors
  obtain ⟨hText, -⟩ := CommandLine.outcome_getText h.refuses hMirrors id
  obtain ⟨hFresh, hTextless⟩ := Library.getText_fresh h.refuses id
  -- what is in the cache is not to be seen in the text
  generalize (Cache.uncached (b.library.environment store) id).toOption.getD [] = text
    at hText hFresh hTextless
  obtain ⟨verdict, hVerdict⟩ := hOffers b.requests (.compile stage text id)
  exact ⟨_, _, adds_compileOne (s := ⟨id, stage, text, verdict⟩) hStage hText hVerdict h
    ⟨hStage, hFresh, hTextless⟩ shows⟩

/-- All shaders are compiled, in the order of their ids. -/
theorem exists_adds_foldlM (hOffers : compiler.Offers) (h : b.Current store) (shows : Bool)
    (ids : List Text) :
    ∃ made next, Adds store compiler b (ids.foldlM (compileOne store compiler shows) b) ids made
      next := by
  induction ids generalizing b with
  | nil => exact ⟨[], b, .nil h⟩
  | cons id rest ih =>
      obtain ⟨s, next, hOne⟩ := exists_adds_compileOne hOffers h shows id
      obtain ⟨made, last, hRest⟩ := ih hOne.current
      rw [List.foldlM_cons]
      exact ⟨s :: made, last, hOne.bind hRest⟩

/-- A program that has been built of the shaders with the given ids. -/
structure Builds (l : Library) (store : Store) (compiler : Compiler) (ids : List Text)
    (shows : Bool) (p : Program) (b : Building) : Prop where
  done : (build l store compiler ids shows).outcome = .ok (p, b)
  aligned : p.shaders.map (·.id) = ids
  /-- No shader depends on the others, or on what has been in the cache. -/
  stems : ∀ s ∈ p.shaders, s.StemsFrom l.fresh store
  /-- The compiler is asked for each shader in turn, and for the whole at last. -/
  requests : b.requests = p.shaders.map Shader.request ++ [.link p.shaders]
  verdicts : ∀ before s after, p.shaders = before ++ s :: after →
    compiler.answer (before.map Shader.request) s.request = some s.verdict
  linked : compiler.answer (p.shaders.map Shader.request) (.link p.shaders) = some p.linked
  ok_iff : p.ok = true ↔ p.linked.ok = true ∧ ∀ s ∈ p.shaders, s.verdict.ok = true
  complaints : (build l store compiler ids shows).recordsUnder compileHeadline =
    (p.shaders.filter fun s => !s.verdict.ok).map Shader.complaint
  linkComplaints : (build l store compiler ids shows).recordsUnder linkHeadline =
    if p.linked.ok then [] else [⟨.error, linkMessage ids p.linked.log⟩]

/-- What is recorded when a program is linked, and the program. -/
def conclude (b : Building) (ids : List Text) (linked : Verdict) :
    Traced Fault (Program × Building) where
  events := if linked.ok then [] else [.logged ⟨.error, linkMessage ids linked.log⟩]
  outcome := .ok (⟨b.shaders, linked⟩, { b with requests := b.requests ++ [.link b.shaders] })

theorem recordsUnder_conclude (b : Building) (ids : List Text) (linked : Verdict) :
    (conclude b ids linked).recordsUnder compileHeadline = [] ∧
      (conclude b ids linked).recordsUnder linkHeadline =
        if linked.ok then [] else [⟨.error, linkMessage ids linked.log⟩] := by
  obtain ⟨ok, message⟩ := linked
  cases ok <;> exact ⟨rfl, rfl⟩

theorem build_eq {l : Library} {linked : Verdict}
    (hDone : (ids.foldlM (compileOne store compiler shows) { library := l }).outcome = .ok b)
    (hLinked : compiler.answer b.requests (.link b.shaders) = some linked) :
    build l store compiler ids shows =
      (ids.foldlM (compileOne store compiler shows) { library := l } >>= fun _ =>
        conclude b ids linked) := by
  have hAsk : ask b compiler (.link b.shaders) =
      pure (linked, { b with requests := b.requests ++ [.link b.shaders] }) := by
    rw [ask, hLinked]
  rw [build, bind_of_ok _ hDone, bind_of_ok _ hDone, hAsk]
  obtain ⟨ok, message⟩ := linked
  cases ok <;> rfl

/-- A cache that has been filled by requests is not to be seen: every shader is compiled with the
stage and the text that its id has by itself in a library without a cache, or without a text if
there is none. The compiler is asked for each of them once, in the order of the ids, and once for
the whole when all of them are compiled, and every verdict answers its own request. The program can
be used if and only if no verdict is against it, and for each one that is there is one record. -/
theorem build_spec {l : Library} {asked : List Value} (hStore : store.RefusesOn l.catalog.files)
    (hCache : l.cache = (Cache.getAll {} (l.environment store) asked).2) (hOffers : compiler.Offers)
    (ids : List Text) (shows : Bool) : ∃ p b, Builds l store compiler ids shows p b := by
  have hMirrors := ((Cache.mirrors_empty (l.environment store)).getAll asked).2
  rw [← hCache] at hMirrors
  have hCurrent : Building.Current { library := l } store := ⟨hStore, _, hMirrors⟩
  obtain ⟨made, b, hAdds⟩ := exists_adds_foldlM hOffers hCurrent shows ids
  have hShaders : b.shaders = made := hAdds.shaders
  have hRequests : b.requests = made.map Shader.request := hAdds.requests
  obtain ⟨linked, hLinked⟩ := hOffers b.requests (.link b.shaders)
  have hBuild := build_eq hAdds.done hLinked
  refine ⟨⟨made, linked⟩, { b with requests := b.requests ++ [.link b.shaders] }, ?_⟩
  constructor
  case done =>
    rw [hBuild, bind_of_ok _ hAdds.done, conclude, hShaders]
  case aligned => exact hAdds.aligned
  case stems => exact hAdds.stems
  case requests => rw [hRequests, hShaders]
  case verdicts =>
    rintro before s after rfl
    exact hAdds.compiles.verdict
  case linked => rw [← hRequests, ← hShaders, hLinked]
  case ok_iff => simp [Program.ok]
  case complaints =>
    rw [hBuild, recordsUnder_bind _ _ hAdds.done, hAdds.complaints,
      (recordsUnder_conclude b ids linked).1, List.append_nil]
  case linkComplaints =>
    rw [hBuild, recordsUnder_bind _ _ hAdds.done, hAdds.unlinked,
      (recordsUnder_conclude b ids linked).2, List.nil_append]

/-- The texts of the shaders are those that their ids have without a cache. -/
theorem Builds.texts_eq {l : Library} {p : Program} (h : Builds l store compiler ids shows p b)
    (hStore : store.RefusesOn l.catalog.files) : p.shaders.map (·.text) =
      ids.map fun id => (Cache.uncached (l.environment store) id).toOption.getD [] := by
  rw [← h.aligned, List.map_map]
  refine List.map_congr_left fun s hMem => ?_
  exact Except.ok.inj ((h.stems s hMem).text.symm.trans (Library.getText_fresh hStore s.id).1)

/-- The library of the file that includes itself, after a request for the section that does so. -/
def snakeLibrary : Library where
  root := []
  catalog := Cache.snake.catalog
  macros := Cache.snake.macros
  cache := (Cache.getAll {} Cache.snake [.text "X.C".toList]).2

/-- A compiler that wants a text for each shader, tells how many requests it has had, and links
anything. -/
def wantsText : Compiler where
  answer
    | past, .compile _ text _ => some ⟨text != [], Text.ofNat past.length⟩
    | _, .link _ => some ⟨true, []⟩

/-- A shader without a text is compiled too, between two others whose text is in the cache from the
start. It costs the program. -/
theorem build_spec_snake : Cache.snake.store.RefusesOn snakeLibrary.catalog.files ∧
    wantsText.Offers ∧
    ∃ p b, Builds snakeLibrary Cache.snake.store wantsText
        ["X.V".toList, "X.C".toList, "X.V".toList] true p b ∧
      p.shaders.map (·.text) = [Text.terminateLines ["#line 1".toList, "vertex".toList], [],
        Text.terminateLines ["#line 1".toList, "vertex".toList]] ∧
      p.ok = false := by
  have hStore : Cache.snake.store.RefusesOn snakeLibrary.catalog.files :=
    fun path _ => Memory.refusesOnly_store _ path
  have hOffers : wantsText.Offers := by
    rintro past (_ | _)
    · exact ⟨_, rfl⟩
    · exact ⟨_, rfl⟩
  have hCache : snakeLibrary.cache = (Cache.getAll {}
      (snakeLibrary.environment Cache.snake.store) [.text "X.C".toList]).2 := rfl
  obtain ⟨p, b, hBuilds⟩ := build_spec hStore hCache hOffers
    ["X.V".toList, "X.C".toList, "X.V".toList] true
  have hVertex : Cache.uncached Cache.snake "X.V".toList =
      .ok (Text.terminateLines ["#line 1".toList, "vertex".toList]) := by
    rw [Cache.uncached, Cache.fileOf_snake]
    rfl
  have hCycle : Cache.uncached Cache.snake "X.C".toList =
      .error (.problem (.circularInclude ["X.glsl".toList, "X.glsl".toList])) := by
    have hFile : Cache.fileOf Cache.snake "X.C".toList = Cache.fileOf Cache.snake "X.V".toList :=
      Cache.fileOf_congr rfl
    rw [Cache.uncached, hFile, Cache.fileOf_snake]
    rfl
  have hTexts := hBuilds.texts_eq hStore
  change p.shaders.map (·.text) = [(Cache.uncached Cache.snake "X.V".toList).toOption.getD [],
    (Cache.uncached Cache.snake "X.C".toList).toOption.getD [],
    (Cache.uncached Cache.snake "X.V".toList).toOption.getD []] at hTexts
  rw [hVertex, hCycle] at hTexts
  refine ⟨hStore, hOffers, p, b, hBuilds, hTexts, ?_⟩
  have hNone : [] ∈ p.shaders.map (·.text) := by
    rw [hTexts]
    exact .tail _ (.head _)
  obtain ⟨s, hMem, hText⟩ := List.mem_map.mp hNone
  obtain ⟨before, after, hSplit⟩ := List.append_of_mem hMem
  have hVerdict : (s.text != []) = s.verdict.ok :=
    congrArg Verdict.ok (Option.some.inj (hBuilds.verdicts before s after hSplit))
  rw [hText] at hVerdict
  rw [Bool.eq_false_iff, Ne, hBuilds.ok_iff]
  rintro ⟨-, hAll⟩
  cases hVerdict.trans (hAll s hMem)

end Program

end ShaderLibrary
