import Mathlib.Data.List.Dedup
import ShaderLibrary.Expansion
import ShaderLibrary.Proofs.Cycle
import ShaderLibrary.Proofs.Evaluation
import ShaderLibrary.Proofs.Events

/-! Files in progress, at every moment of an expansion. A file is opened only if it is not in
progress, and it is closed again in any case, so the files in progress are those at the start and
behind them different files of the catalog. -/
namespace ShaderLibrary

namespace Expansion

variable {files others chain : List Text} {p : Text} {events first second : List Event}

theorem afterAll_append (x : Expansion) (first second : List Event) :
    x.afterAll (first ++ second) = (x.afterAll first).afterAll second :=
  List.foldl_append

/-- From a state with the files of `chain` in progress, the events open files of `files` only, none
of them while it is in progress, and close what they have opened. -/
structure Stacked (files chain : List Text) (events : List Event) : Prop where
  moments : ∀ x : Expansion, x.inProgress = chain → ∀ before, before <+: events →
    ∃ more, (x.afterAll before).inProgress = chain ++ more ∧ more.Nodup ∧
      ∀ p ∈ more, p ∉ chain ∧ p ∈ files
  restores : ∀ x : Expansion, x.inProgress = chain → (x.afterAll events).inProgress = chain

namespace Stacked

theorem mono (h : Stacked files chain events) (hFiles : files ⊆ others) :
    Stacked others chain events where
  moments x hChain before hBefore := by
    obtain ⟨more, hMore, hNodup, hNew⟩ := h.moments x hChain before hBefore
    exact ⟨more, hMore, hNodup, fun p hp => (hNew p hp).imp_right (hFiles ·)⟩
  restores := h.restores

/-- Events that neither open a file nor close one leave everything in progress. -/
theorem quiet (h : ∀ event ∈ events, ∀ x : Expansion, (x.after event).inProgress = x.inProgress) :
    Stacked files chain events := by
  have hSame (events : List Event)
      (h : ∀ event ∈ events, ∀ x : Expansion, (x.after event).inProgress = x.inProgress)
      (x : Expansion) : (x.afterAll events).inProgress = x.inProgress := by
    induction events generalizing x with
    | nil => rfl
    | cons event rest ih =>
        rw [List.forall_mem_cons] at h
        calc
          (x.afterAll (event :: rest)).inProgress =
              ((x.after event).afterAll rest).inProgress := rfl
          _ = (x.after event).inProgress := ih h.2 _
          _ = x.inProgress := h.1 x
  constructor
  · rintro x rfl before hBefore
    refine ⟨[], ?_, .nil, List.forall_mem_nil _⟩
    rw [hSame before (fun event hEvent => h event (hBefore.subset hEvent)), List.append_nil]
  · rintro x rfl
    exact hSame events h x

theorem append (hFirst : Stacked files chain first) (hSecond : Stacked files chain second) :
    Stacked files chain (first ++ second) where
  moments x hChain before hBefore := by
    rcases List.prefix_or_prefix_of_prefix hBefore (List.prefix_append first second) with hIn | hOut
    · exact hFirst.moments x hChain before hIn
    · obtain ⟨late, rfl⟩ := hOut
      rw [afterAll_append]
      exact hSecond.moments _ (hFirst.restores x hChain) late
        ((List.prefix_append_right_inj first).mp hBefore)
  restores x hChain := by
    rw [afterAll_append]
    exact hSecond.restores _ (hFirst.restores x hChain)

/-- What happens inside a file happens with that file in progress too. -/
theorem within (hNew : p ∉ chain) (hListed : p ∈ files)
    (hInside : Stacked files (chain ++ [p]) events) :
    Stacked files chain (.opened p :: events ++ [.closed p]) := by
  have hOpened (x : Expansion) (hChain : x.inProgress = chain) :
      (x.after (.opened p)).inProgress = chain ++ [p] := by
    rw [← hChain]
    rfl
  have hClosed (x : Expansion) (hChain : x.inProgress = chain) :
      (x.afterAll (.opened p :: events ++ [.closed p])).inProgress = chain := by
    have hInner := hInside.restores _ (hOpened x hChain)
    rw [afterAll_append]
    change (((x.after (.opened p)).afterAll events).inProgress).dropLast = chain
    rw [hInner, List.dropLast_concat]
  refine ⟨fun x hChain before hBefore => ?_, hClosed⟩
  rcases List.prefix_concat_iff.mp hBefore with rfl | hBefore
  · exact ⟨[], by rw [List.append_nil]; exact hClosed x hChain, .nil, List.forall_mem_nil _⟩
  · rcases List.prefix_cons_iff.mp hBefore with rfl | ⟨inner, rfl, hInner⟩
    · exact ⟨[], by rw [List.append_nil]; exact hChain, .nil, List.forall_mem_nil _⟩
    · obtain ⟨more, hMore, hNodup, hFresh⟩ := hInside.moments _ (hOpened x hChain) inner hInner
      refine ⟨p :: more, ?_, List.nodup_cons.mpr ⟨fun hp => ?_, hNodup⟩, ?_⟩
      · exact hMore.trans (List.append_assoc chain [p] more)
      · exact (hFresh p hp).1 (List.mem_append_right _ (List.mem_singleton_self p))
      · refine List.forall_mem_cons.mpr ⟨⟨hNew, hListed⟩, fun q hq => ?_⟩
        exact (hFresh q hq).imp_left (mt (List.mem_append_left _))

theorem bind {ε α β : Type} {run : Traced ε α} {next : α → Traced ε β}
    (hRun : Stacked files chain run.events)
    (hNext : ∀ a, run.outcome = .ok a → Stacked files chain (next a).events) :
    Stacked files chain (run >>= next).events := by
  cases hOutcome : run.outcome with
  | error e => rwa [Traced.bind_of_error _ hOutcome]
  | ok a =>
      rw [Traced.bind_of_ok _ hOutcome]
      exact hRun.append (hNext a hOutcome)

theorem nil : Stacked files chain [] := quiet (List.forall_mem_nil _)

theorem noted (problem : Problem) : Stacked files chain (Environment.noted problem) :=
  quiet (by simp [Environment.noted, after])

end Stacked

end Expansion

open Expansion

namespace Environment

variable {env : Environment} {files chain : List Text} {p : Text}

theorem stacked_target (line : Text) : Stacked files chain (env.target line).events := by
  refine .quiet fun event hEvent x => ?_
  rcases mem_events_target hEvent with ⟨key, rfl⟩ | ⟨name, rfl⟩ <;> rfl

/-- A file is opened and closed around its lines, if it is opened at all. -/
theorem stacked_file (hListed : p ∈ files)
    (hLines : p ∉ chain → ∀ content : Text,
      Stacked files (chain ++ [p]) (env.expandLines (chain ++ [p]) 1 content.lines).events) :
    Stacked files chain (env.expandFile chain p).events := by
  have hAsked : Stacked files chain [.read p] := .quiet (by simp [after])
  by_cases hKnown : p ∈ chain
  · rw [expandFile_of_mem hKnown]
    exact .nil
  · cases hRead : env.store.readText p with
    | ok content =>
        rw [expandFile_of_read hKnown hRead]
        exact hAsked.append (.within hKnown hListed (hLines hKnown content))
    | error e =>
        cases hRefusal : e.isRefusal with
        | true =>
            rw [expandFile_of_refused hKnown hRead hRefusal]
            exact hAsked.append (.noted _)
        | false =>
            rw [expandFile_of_broken hKnown hRead hRefusal]
            exact hAsked

/-- A line opens the file that it leads to, if it leads to one. -/
theorem stacked_line (number : Int) (line : Text)
    (hFile : ∀ p ∈ env.catalog.files, p ∉ chain → ∀ content : Text,
      Stacked env.catalog.files (chain ++ [p])
        (env.expandLines (chain ++ [p]) 1 content.lines).events) :
    Stacked env.catalog.files chain (env.expandLine chain number line).events := by
  cases hKind : LineKind.of line with
  | plain =>
      rw [expandLine_of_plain hKind]
      exact .nil
  | hoisted =>
      rw [expandLine_of_hoisted hKind]
      exact .quiet (by simp [after])
  | inclusion =>
      rcases unresolved_or_leadsTo env hKind with ⟨problem, hTarget⟩ | ⟨p, hLeads⟩
      · rw [expandLine_of_unresolved hKind hTarget]
        exact (stacked_target line).append (.noted problem)
      · have hListed := (leadsTo_iff_target.mp hLeads).2.1
        rw [expandLine_of_leadsTo hLeads]
        exact (stacked_target line).append (stacked_file hListed (hFile p hListed))

theorem stacked_lines (env : Environment) (chain : List Text) (number : Int) (lines : List Text) :
    Stacked env.catalog.files chain (env.expandLines chain number lines).events := by
  induction chain, number, lines using expandLines.induct env with
  | case1 chain number =>
      rw [expandLines_nil]
      exact .nil
  | case2 chain number line rest ihFile ihRest =>
      have hLine : Stacked env.catalog.files chain (env.expandLine chain number line).events :=
        stacked_line number line fun p hListed hNew content => ihFile p hListed hNew content.lines
      rw [expandLines_cons]
      exact hLine.bind fun _ _ => ihRest.bind fun _ _ => .nil

theorem stacked_expandLine (env : Environment) (chain : List Text) (number : Int) (line : Text) :
    Stacked env.catalog.files chain (env.expandLine chain number line).events :=
  stacked_line number line fun p _ _ content => env.stacked_lines (chain ++ [p]) 1 content.lines

/-- A file on its own may be one that the catalog does not have. -/
theorem stacked_expandFile (env : Environment) (chain : List Text) (path : Text) :
    Stacked (path :: env.catalog.files) chain (env.expandFile chain path).events :=
  stacked_file List.mem_cons_self fun _ content =>
    (env.stacked_lines (chain ++ [path]) 1 content.lines).mono (List.subset_cons_self _ _)

end Environment

namespace Effect

open Environment

variable {env : Environment} {origin : Option Text}

theorem stacked_assemble (env : Environment) (origin : Option Text) (lines : List Text) :
    Stacked env.catalog.files origin.toList (assemble env origin lines).events := by
  have hLines := env.stacked_lines origin.toList 1 lines
  rw [assemble_eq_conclude, conclude]
  cases (env.expandLines origin.toList 1 lines).outcome with
  | ok entries => exact hLines
  | error i =>
      cases i with
      | cycle chain => exact hLines.append (.noted _)
      | store e => exact hLines

theorem stacked_assembleAll (env : Environment) (origin : Option Text) (x : Effect)
    (parts : List Section) :
    Stacked env.catalog.files origin.toList (assembleAll env origin x parts).events := by
  induction parts generalizing x with
  | nil => exact .nil
  | cons part rest ih =>
      rw [assembleAll]
      refine (stacked_assemble env origin part.lines).bind fun _ _ =>
        .bind (.quiet ?_) fun _ _ => ih _
      intro event hEvent x
      obtain ⟨record, rfl, -⟩ := mem_events_enter hEvent
      rfl

end Effect

namespace Expansion

variable {env : Environment} {files : List Text} {events : List Event} {x : Expansion}

/-- At every moment the files in progress are different, and at most one more than the different
files of the catalog. -/
def Bounded (env : Environment) (x : Expansion) (events : List Event) : Prop :=
  ∀ before, before <+: events → (x.afterAll before).inProgress.Nodup ∧
    (x.afterAll before).inProgress.length ≤ env.catalog.files.dedup.length + 1

/-- The files in progress are different files, so there are not more of them than there are. -/
theorem Stacked.nodup_and_length_le (h : Stacked files x.inProgress events)
    (hNodup : x.inProgress.Nodup) {before : List Event} (hBefore : before <+: events) :
    (x.afterAll before).inProgress.Nodup ∧
      (x.afterAll before).inProgress.length ≤ x.inProgress.length + files.dedup.length := by
  obtain ⟨more, hMore, hDistinct, hNew⟩ := h.moments x rfl before hBefore
  have hFew : more.length ≤ files.dedup.length :=
    hDistinct.length_le_of_subset fun p hp => List.mem_dedup.mpr (hNew p hp).2
  rw [hMore, List.length_append]
  refine ⟨List.nodup_append'.mpr ⟨hNodup, hDistinct, fun p hp hLater => ?_⟩, by omega⟩
  exact (hNew p hLater).1 hp

theorem bounded_expandFile (env : Environment) (preamble : Preamble) (path : Text) :
    Bounded env { preamble } (env.expandFile [] path).events := by
  intro before hBefore
  have hStacked := env.stacked_expandFile [] path
  obtain ⟨hNodup, hLength⟩ :=
    hStacked.nodup_and_length_le (x := { preamble }) List.nodup_nil hBefore
  refine ⟨hNodup, hLength.trans ?_⟩
  have hOne : (path :: env.catalog.files).dedup.length ≤ env.catalog.files.dedup.length + 1 := by
    by_cases hListed : path ∈ env.catalog.files
    · rw [List.dedup_cons_of_mem hListed]
      omega
    · rw [List.dedup_cons_of_notMem hListed, List.length_cons]
  simpa using hOne

theorem bounded_ofText (env : Environment) (base text : Text) (origin : Option Text) :
    Bounded env (start origin) (Effect.ofText env base text origin).events := by
  intro before hBefore
  have hStacked := Effect.stacked_assembleAll env origin { base } (Section.ofText text)
  obtain ⟨hNodup, hLength⟩ := hStacked.nodup_and_length_le (x := start origin)
    (by cases origin <;> simp [start]) hBefore
  refine ⟨hNodup, hLength.trans ?_⟩
  have hOrigin : origin.toList.length ≤ 1 := by cases origin <;> simp
  change origin.toList.length + _ ≤ _
  omega

/-- Every expansion comes to an end, with a text or with the reason that there is none, whatever
files there are and however they include each other: of a line in any state, of a file, and of the
sections of an effect file there is exactly one run, and it is the one that is carried out. From
the start of a file or an effect file the files in progress never repeat, and there is at most one
more than the catalog has. -/
theorem expansion_ends (env : Environment) :
    (∀ (x : Expansion) number line, ∃ run,
      (∀ other, env.EvaluatesLine x.inProgress number line other ↔ other = run) ∧
      x.processLine env number line =
        (⟨run.events, complete (number + 1) line run.outcome⟩, x.afterAll run.events)) ∧
    (∀ preamble path, ∃ run, (∀ other, env.EvaluatesFile [] path other ↔ other = run) ∧
      processFile env preamble path = (run, ({ preamble } : Expansion).afterAll run.events) ∧
      Bounded env { preamble } run.events) ∧
    ∀ base text origin, ∃ run,
      (∀ other, Effect.EvaluatesSections env origin { base } (Section.ofText text) other ↔
        other = run) ∧
      Effect.ofText env base text origin = run ∧ Bounded env (start origin) run.events := by
  refine ⟨fun x number line => ?_, fun preamble path => ?_, fun base text origin => ?_⟩
  · exact ⟨_, fun _ => Environment.evaluatesLine_iff, rfl⟩
  · exact ⟨_, fun _ => Environment.evaluatesFile_iff, rfl, bounded_expandFile env preamble path⟩
  · exact ⟨_, fun _ => Effect.evaluatesSections_iff, rfl, bounded_ofText env base text origin⟩

/-- Below an effect file that includes a ring of two files there can be no more in progress. -/
theorem expansion_ends_ring : ∃ run before,
    (∀ other, Effect.EvaluatesSections twoFileRing (some "X.glsl".toList)
      { base := "X".toList } (Section.ofText "#include \"A\"".toList) other ↔ other = run) ∧
    before <+: run.events ∧
    ((start (some "X.glsl".toList)).afterAll before).inProgress =
      ["X.glsl".toList, "A".toList, "B".toList] ∧
    ["X.glsl".toList, "A".toList, "B".toList].Nodup ∧
    3 ≤ twoFileRing.catalog.files.dedup.length + 1 := by
  obtain ⟨-, -, hEffects⟩ := expansion_ends twoFileRing
  obtain ⟨run, hOnly, hRun, hBounded⟩ :=
    hEffects "X".toList "#include \"A\"".toList (some "X.glsl".toList)
  have hBefore : run.events.take 6 <+: run.events := List.take_prefix 6 _
  have hMoment : ((start (some "X.glsl".toList)).afterAll (run.events.take 6)).inProgress =
      ["X.glsl".toList, "A".toList, "B".toList] := by
    have hSections : Section.ofText "#include \"A\"".toList =
      [⟨Section.unnamed, ["#include \"A\"".toList]⟩] := rfl
    rw [← hRun, Effect.ofText, hSections]
    simp only [Effect.assembleAll, Effect.assemble, Environment.expandLines_eq_expandWithin]
    rfl
  obtain ⟨hNodup, hLength⟩ := hBounded _ hBefore
  rw [hMoment] at hNodup hLength
  exact ⟨run, _, hOnly, hBefore, hMoment, hNodup, hLength⟩

end Expansion

end ShaderLibrary
