import ShaderLibrary.Proofs.Macros
import ShaderLibrary.Proofs.WriteOnce

/-! The macros in front of the sections over whole sessions. A file is assembled with the macros
of the time when it is read, and with the global block of the beginning, whatever has become
of the file of that block since. -/
namespace ShaderLibrary

/-- The content of the file with a name. It is empty if the catalog has no such file, and if the
store does not hand it out. -/
def Catalog.contentNamed (c : Catalog) (store : Store) (name : Text) : Text :=
  match c.find? name with
  | none => []
  | some path => (store.readText path).toOption.getD []

namespace Macros

variable {m next : Macros} {c : Catalog} {store : Store}

/-- The definitions in front of a section, with a global block below them. -/
def front (m : Macros) (globalBlock : Text) : Text :=
  (Text.terminateLines m.definitionLines ++ globalBlock).terminated

theorem terminated_block_eq_front {content : Text} (h : m.globalBlock = content) :
    m.block.terminated = m.front content := by
  rw [block_eq, h, front]

theorem loadGlobalBlock_eq_ok (hDone : (m.loadGlobalBlock c store).outcome = .ok next) :
    next = { m with globalBlock := c.contentNamed store globalName } := by
  rw [loadGlobalBlock, Traced.attempt_bind] at hDone
  cases hResolve : (c.resolve globalName).outcome with
  | error problem =>
      have hFound := (Environment.outcome_resolve_eq_error_iff.mp hResolve).1
      rw [hResolve] at hDone
      rw [Catalog.contentNamed, hFound]
      exact (Except.ok.inj hDone).symm
  | ok target =>
      have hFound := Environment.outcome_resolve_eq_ok_iff.mp hResolve
      rw [hResolve] at hDone
      simp only [Traced.attempt_bind, Traced.readText] at hDone
      rw [Catalog.contentNamed, hFound]
      cases hRead : store.readText target.1 with
      | ok text =>
          rw [hRead] at hDone
          simp only [hRead]
          exact (Except.ok.inj hDone).symm
      | error e =>
          simp only [hRead] at hDone ⊢
          split at hDone
          · exact (Except.ok.inj hDone).symm
          · cases hDone

end Macros

/-- A new library has nothing in its cache and the global block of the time. -/
theorem Library.load_eq_ok {store : Store} {root : Text} {defines : List (Value × Value)}
    {strict : Bool} {l : Library} (hDone : (load store root defines strict).outcome = .ok l) :
    l.cache = {} ∧ l.macros.globalBlock = l.catalog.contentNamed store Macros.globalName := by
  obtain ⟨⟨catalog, count⟩, -, hDone⟩ := Traced.outcome_bind_eq_ok_iff.mp hDone
  obtain ⟨defined, -, hDone⟩ := Traced.outcome_bind_eq_ok_iff.mp hDone
  obtain ⟨macros, hMacros, hDone⟩ := Traced.outcome_bind_eq_ok_iff.mp hDone
  cases hDone
  refine ⟨rfl, ?_⟩
  cases hLoad : (defined.loadGlobalBlock catalog store).outcome with
  | error e =>
      rw [Traced.mapError, hLoad] at hMacros
      cases hMacros
  | ok loaded =>
      rw [Traced.mapError, hLoad] at hMacros
      cases hMacros
      rw [Macros.loadGlobalBlock_eq_ok hLoad]

namespace Effect

variable {env : Environment} {id text : Text}

/-- A unit is made of whole lines: the preamble, the macros, and a body below a line marker. -/
theorem unit_eq (macros : Macros) (preamble : Preamble) (entries : List Text) :
    unit macros preamble entries = preamble.render ++ macros.block.terminated ++
      "#line 1\n".toList ++ Text.terminateLines entries := by
  rw [unit, List.append_assoc _ (Text.joinLines _),
    Text.joinLines_append_newline (List.cons_ne_nil _ _), List.append_assoc _ "#line 1\n".toList]
  rfl

/-- The lines for the top of a section that is expanded on its own in the file at `path`. -/
def preambleOf (env : Environment) (path : Text) (part : Section) : Preamble :=
  .addAll ∅ (env.expandLines [path] 1 part.lines).hoistedLines

/-- The text for an id is that of a section of the file that its name leads to: the lines
for the top, what stands in front of every section, and the section itself below a line marker. -/
structure Fronted (env : Environment) (front id text path source : Text) (part : Section)
    (entries : List Text) : Prop where
  found : env.catalog.find? (Cache.baseOf id ++ env.catalog.extension) = some path
  read : env.store.readText path = .ok source
  decides : deciding? (Cache.baseOf id) source id = some part
  expands : (env.expandLines [path] 1 part.lines).outcome = .ok entries
  text_eq : text = (preambleOf env path part).render ++ front ++ "#line 1\n".toList ++
    Text.terminateLines entries
  /-- Nothing runs on into the line below it. -/
  endsLine : Text.EndsLine (preambleOf env path part).render ∧ Text.EndsLine front

theorem exists_fronted (h : Cache.uncached env id = .ok text) :
    ∃ path source part entries,
      Fronted env env.macros.block.terminated id text path source part entries := by
  obtain ⟨x, hFile, hText⟩ := Cache.uncached_eq_ok_iff.mp h
  obtain ⟨path, source, hFound, hRead, hDone⟩ := Cache.fileOf_eq_ok_iff.mp hFile
  obtain ⟨part, hDecides, hPart⟩ :=
    (holds_ofText_iff hDone).mp ((lookup_sections_eq_some_iff hDone).mp hText)
  obtain ⟨entries, hEntries, rfl⟩ := outcome_assemble_eq_text_iff.mp hPart
  exact ⟨path, source, part, entries, {
    found := hFound
    read := hRead
    decides := hDecides
    expands := hEntries
    text_eq := unit_eq env.macros (preambleOf env path part) entries
    endsLine := ⟨Text.endsLine_terminateLines _, Text.endsLine_terminated _⟩ }⟩

end Effect

/-- Whether the macros may be others after the operation. -/
def Operation.redefines : Operation → Bool
  | .define _ _ | .undefine _ => true
  | _ => false

namespace Session

variable {s : Session} {id text content : Text} {operation : Operation} {operations : List Operation}

/-- What an operation does to the macros. A macro is defined or taken back, or the global
block is read again, and no other operation does anything to them. -/
theorem macros_after (s : Session) (operation : Operation) :
    (∃ key value, operation = .define key value ∧
      s.library.macros.define key value = .ok (s.after operation).library.macros) ∨
    (∃ key, operation = .undefine key ∧
      (s.after operation).library.macros = s.library.macros.undefine key) ∨
    (operation = .loadGlobalBlock ∧ (s.after operation).library.macros =
      { s.library.macros with
        globalBlock := s.library.catalog.contentNamed s.store Macros.globalName }) ∨
    (s.after operation).library.macros = s.library.macros := by
  cases operation with
  | define key value =>
      cases hDone : s.library.macros.define key value with
      | ok next =>
          refine Or.inl ⟨key, value, rfl, ?_⟩
          simp only [after, perform, settle, hDone]
      | error fault =>
          refine Or.inr (Or.inr (Or.inr ?_))
          simp only [after, perform, settle, hDone]
  | undefine key => exact Or.inr (Or.inl ⟨key, rfl, rfl⟩)
  | loadGlobalBlock =>
      cases hDone : (s.library.macros.loadGlobalBlock s.library.catalog s.store).outcome with
      | ok next =>
          refine Or.inr (Or.inr (Or.inl ⟨rfl, ?_⟩))
          rw [← Macros.loadGlobalBlock_eq_ok hDone]
          simp only [after, perform, settle, Traced.mapError, hDone, Except.mapError]
      | error e =>
          refine Or.inr (Or.inr (Or.inr ?_))
          simp only [after, perform, settle, Traced.mapError, hDone, Except.mapError]
  -- the others leave the macros alone, also where they fail midway
  | get v => exact Or.inr (Or.inr (Or.inr rfl))
  | getText v => exact Or.inr (Or.inr (Or.inr rfl))
  | insert id text => exact Or.inr (Or.inr (Or.inr rfl))
  | scan root => exact Or.inr (Or.inr (Or.inr (frame_settle Library.macros fun _ _ => rfl)))
  | rescan =>
      refine Or.inr (Or.inr (Or.inr (frame_settle Library.macros fun _ hDone => ?_)))
      obtain ⟨catalog, hNext⟩ := exists_catalog_of_rescan hDone
      rw [hNext]
  | change store => exact Or.inr (Or.inr (Or.inr rfl))

theorem bindings_after (h : operation.redefines = false) :
    (s.after operation).library.macros.bindings = s.library.macros.bindings := by
  rcases s.macros_after operation with ⟨key, value, rfl, -⟩ | ⟨key, rfl, -⟩ | ⟨-, hMacros⟩ | hMacros
  · cases h
  · cases h
  · rw [hMacros]
  · rw [hMacros]

theorem globalBlock_after (h : operation ≠ .loadGlobalBlock) :
    (s.after operation).library.macros.globalBlock = s.library.macros.globalBlock := by
  rcases s.macros_after operation with ⟨key, value, -, hDone⟩ | ⟨key, -, hMacros⟩ | ⟨hLoad, -⟩ | hMacros
  · obtain ⟨name, -, -, hMacros⟩ := Macros.define_eq_ok_iff.mp hDone
    rw [hMacros]
  · rw [hMacros]
    rfl
  · exact absurd hLoad h
  · rw [hMacros]

theorem bindings_afterAll (h : ∀ operation ∈ operations, operation.redefines = false)
    (s : Session) : (s.afterAll operations).library.macros.bindings = s.library.macros.bindings :=
  frame_afterAll (fun s => s.library.macros.bindings)
    (fun _ operation hMem => bindings_after (h operation hMem)) s

theorem globalBlock_afterAll (h : Operation.loadGlobalBlock ∉ operations) (s : Session) :
    (s.afterAll operations).library.macros.globalBlock = s.library.macros.globalBlock :=
  frame_afterAll (fun s => s.library.macros.globalBlock)
    (fun _ _ hMem => globalBlock_after fun hSame => h (hSame ▸ hMem)) s

/-- The operation gives the id its text. -/
def Enters (s : Session) (operation : Operation) (id text : Text) : Prop :=
  s.cache.get? id = none ∧ (s.after operation).cache.get? id = some text

/-- A new text has been handed in, or a request has assembled it with the files and macros of
the time. -/
theorem Enters.origin (h : s.Enters operation id text) :
    operation = .insert id text ∨
      (operation.asked?.isSome = true ∧ Cache.uncached s.environment id = .ok text) := by
  obtain ⟨hNone, hText⟩ := h
  rcases s.cache_after operation with ⟨other, new, rfl, hCache⟩ | ⟨other, hAsked, hCache⟩ | ⟨-, hCache⟩
  · rw [hCache, Cache.get?_insert, hNone, Option.none_or] at hText
    split at hText
    · next hSame =>
        cases hText
        exact Or.inl (hSame ▸ rfl)
    · cases hText
  · rw [hCache] at hText
    obtain ⟨-, -, hAnswer⟩ := (Cache.get?_get_eq_some_iff hNone).mp hText
    exact Or.inr ⟨hAsked ▸ rfl, hAnswer⟩
  · rw [hCache, hNone] at hText
    cases hText

/-- A text that a run leaves in the cache has been given to its id by one of the operations. -/
theorem exists_enters (hNone : s.cache.get? id = none)
    (hText : (s.afterAll operations).cache.get? id = some text) :
    ∃ before operation later, operations = before ++ operation :: later ∧
      (s.afterAll before).Enters operation id text := by
  induction operations generalizing s with
  | nil =>
      change s.cache.get? id = some text at hText
      rw [hNone] at hText
      cases hText
  | cons operation rest ih =>
      cases hFirst : (s.after operation).cache.get? id with
      | some other =>
          -- what is there after the first operation stays to the end
          have hKept := get?_afterAll hFirst rest
          cases hKept.symm.trans hText
          exact ⟨[], operation, rest, rfl, hNone, hFirst⟩
      | none =>
          obtain ⟨before, last, later, rfl, hEnters⟩ := ih hFirst hText
          exact ⟨operation :: before, last, later, rfl, hEnters⟩

/-- What stands in front of the sections that a run of operations from `start` to `last`
assembles, with `content` as the global block of all of them. -/
structure SharesMacros (start : Session) (operations : List Operation) (content : Text)
    (last : Session) : Prop where
  /-- The texts that a request adds have the macros of the time in front. -/
  fronts : ∀ operation id text, operation.asked?.isSome = true → last.Enters operation id text →
    ∃ path source part entries, Effect.Fronted last.environment
      (last.library.macros.front content) id text path source part entries
  /-- A text in the cache has the macros in front that there were when it was assembled. -/
  origin : ∀ id text, last.cache.get? id = some text →
    ∃ before operation later, operations = before ++ operation :: later ∧
      (start.afterAll before).Enters operation id text ∧
      (operation = .insert id text ∨ ∃ path source part entries,
        Effect.Fronted (start.afterAll before).environment
          ((start.afterAll before).library.macros.front content) id text path source part entries)
  ascending : last.library.macros.keys.Pairwise (· < ·)
  /-- Nothing but new definitions changes what stands in front. -/
  stays : ∀ more, (∀ operation ∈ more, Operation.redefines operation = false) →
    (last.afterAll more).library.macros.front content = last.library.macros.front content

/-- All sections share their macros. Each section that a request adds to the cache has in front,
below the lines for its top and above a first line marker, the definitions that there are at the
time, in the ascending order of their keys, and the content that the file with the global block
had when the library was loaded. Another scan, or another content of that file, changes
neither. -/
theorem sharesMacros_afterAll {store : Store} {root : Text} {defines : List (Value × Value)}
    {strict : Bool} {l : Library} (hLoad : (Library.load store root defines strict).outcome = .ok l)
    (hRun : Operation.loadGlobalBlock ∉ operations) :
    SharesMacros ⟨l, store⟩ operations (l.catalog.contentNamed store Macros.globalName)
      (afterAll ⟨l, store⟩ operations) := by
  obtain ⟨hCache, hContent⟩ := Library.load_eq_ok hLoad
  have hFront (run : List Operation) (hRun : Operation.loadGlobalBlock ∉ run) :
      (afterAll ⟨l, store⟩ run).library.macros.block.terminated =
        (afterAll ⟨l, store⟩ run).library.macros.front
          (l.catalog.contentNamed store Macros.globalName) :=
    Macros.terminated_block_eq_front ((globalBlock_afterAll hRun _).trans hContent)
  constructor
  case fronts =>
    intro operation id text hAsked hEnters
    rcases hEnters.origin with rfl | ⟨-, hText⟩
    · cases hAsked
    · rw [← hFront operations hRun]
      exact Effect.exists_fronted hText
  case origin =>
    intro id text hText
    have hNone : (⟨l, store⟩ : Session).cache.get? id = none := by
      rw [cache, hCache]
      rfl
    obtain ⟨before, operation, later, rfl, hEnters⟩ := exists_enters hNone hText
    refine ⟨before, operation, later, rfl, hEnters, hEnters.origin.imp_right fun hOrigin => ?_⟩
    rw [← hFront before fun hMem => hRun (List.mem_append_left _ hMem)]
    exact Effect.exists_fronted hOrigin.2
  case ascending => exact (afterAll ⟨l, store⟩ operations).library.macros.bindings.ascending
  case stays =>
    intro more hMore
    rw [Macros.front, Macros.front, Macros.definitionLines, Macros.definitionLines,
      bindings_afterAll hMore]

/-- A file of two sections, beside a global block without a newline at its end. -/
def stagedFiles : Memory where
  files := ⟨[
    ("shaders/GlobalDefines.glsl".toList, some (Environment.asciiBytes "float pi;".toList)),
    ("shaders/Lit.glsl".toList,
      some (Environment.asciiBytes "-- V\nvertex\n-- F\nfragment\n".toList))], by decide⟩

/-- The library of these files. -/
def stagedLibrary : Library where
  root := "shaders".toList
  catalog := { paths := ⟨[
    ("GlobalDefines.glsl".toList, "shaders/GlobalDefines.glsl".toList),
    ("Lit.glsl".toList, "shaders/Lit.glsl".toList)], by decide⟩ }
  macros := { globalBlock := "float pi;".toList }

/-- A macro is defined, and then the file with the global block is emptied and found again. -/
def stagedRun : List Operation :=
  [.define (.text "SHADOW".toList) (.integer 1),
    .change (stagedFiles.write "shaders/GlobalDefines.glsl".toList (some [])).store, .rescan]

def staged : Session := afterAll ⟨stagedLibrary, stagedFiles.store⟩ stagedRun

/-- A request for one section also adds the other one, with the same in front. -/
theorem sharesMacros_afterAll_staged :
    (Library.load stagedFiles.store "shaders".toList [] false).outcome = .ok stagedLibrary ∧
    Operation.loadGlobalBlock ∉ stagedRun ∧
    staged.Enters (.get (.text "Lit.V".toList)) "Lit.F".toList
      "#define SHADOW 1\nfloat pi;\n#line 1\nfragment\n".toList ∧
    ∃ path source part entries, Effect.Fronted staged.environment
      "#define SHADOW 1\nfloat pi;\n".toList "Lit.F".toList
      "#define SHADOW 1\nfloat pi;\n#line 1\nfragment\n".toList path source part entries := by
  have hLoad : (Library.load stagedFiles.store "shaders".toList [] false).outcome =
      .ok stagedLibrary := rfl
  have hRun : Operation.loadGlobalBlock ∉ stagedRun := by simp [stagedRun]
  have hDone : (Effect.ofText staged.environment "Lit".toList "-- V\nvertex\n-- F\nfragment\n".toList
      (some "shaders/Lit.glsl".toList)).outcome = .ok {
        base := "Lit".toList
        sections := [("Lit.V".toList, "#define SHADOW 1\nfloat pi;\n#line 1\nvertex\n".toList),
          ("Lit.F".toList, "#define SHADOW 1\nfloat pi;\n#line 1\nfragment\n".toList)] } := by
    have hSections : Section.ofText "-- V\nvertex\n-- F\nfragment\n".toList =
        [⟨"V".toList, ["vertex".toList]⟩, ⟨"F".toList, ["fragment".toList]⟩] := rfl
    rw [Effect.ofText, hSections]
    simp only [Effect.assembleAll, Effect.assemble, Environment.expandLines_eq_expandWithin]
    rfl
  have hText : Cache.uncached staged.environment "Lit.F".toList =
      .ok "#define SHADOW 1\nfloat pi;\n#line 1\nfragment\n".toList :=
    Cache.uncached_eq_ok_iff.mpr ⟨_, Cache.fileOf_eq_ok_iff.mpr ⟨_, _, rfl, rfl, hDone⟩, rfl⟩
  have hEnters : staged.Enters (.get (.text "Lit.V".toList)) "Lit.F".toList
      "#define SHADOW 1\nfloat pi;\n#line 1\nfragment\n".toList := by
    have hCache : (staged.after (.get (.text "Lit.V".toList))).cache =
        (staged.cache.get staged.environment (.text "Lit.V".toList)).2 := rfl
    refine ⟨rfl, ?_⟩
    rw [hCache, Cache.get?_get_eq_some_iff rfl]
    exact ⟨rfl, rfl, hText⟩
  exact ⟨hLoad, hRun, hEnters, (sharesMacros_afterAll hLoad hRun).fronts _ _ _ rfl hEnters⟩

end Session

end ShaderLibrary
