import Mathlib.Data.List.Forall2
import ShaderLibrary.Proofs.Evaluation

/-! Stores that refuse the same files for other reasons. A reason is told to the user and decides
nothing, so two such stores lead to the same texts, and to problems that differ in the reasons. -/
namespace ShaderLibrary

/-- The same text is read, or none: then both stores have refused, or neither can be used. -/
inductive Store.ReadsAlike : Except StoreError Text → Except StoreError Text → Prop where
  | text (t : Text) : ReadsAlike (.ok t) (.ok t)
  | failed {e e' : StoreError} (hKind : e'.isRefusal = e.isRefusal) :
      ReadsAlike (.error e) (.error e')

theorem Store.ReadsAlike.of_eq {first second : Except StoreError Text} (h : first = second) :
    ReadsAlike first second := by
  subst h
  cases first with
  | ok t => exact .text t
  | error e => exact .failed rfl

/-- The second store in the words of the first: what both refuse is refused for the reason that
the first one has. -/
def Store.inWordsOf (b a : Store) : Store where
  list := b.list
  readBytes path :=
    match a.readBytes path, b.readBytes path with
    | .error e, .error e' => .error (if e'.isRefusal = e.isRefusal then e else e')
    | _, bytes => bytes

namespace Store

variable {a b : Store} {path : Text}

theorem readText_inWordsOf (a b : Store) (path : Text) : (b.inWordsOf a).readText path =
    match a.readText path, b.readText path with
    | .error e, .error e' => .error (if e'.isRefusal = e.isRefusal then e else e')
    | _, text => text := by
  simp only [readText, inWordsOf]
  cases a.readBytes path with
  | ok bytes => rfl
  | error e => cases b.readBytes path <;> rfl

theorem readsAlike_inWordsOf (a b : Store) (path : Text) :
    ReadsAlike ((b.inWordsOf a).readText path) (b.readText path) := by
  rw [readText_inWordsOf]
  cases hSecond : b.readText path with
  | ok t => cases a.readText path <;> exact .text t
  | error e' =>
      cases a.readText path with
      | ok s => exact .failed rfl
      | error e =>
          refine .failed ?_
          split
          · assumption
          · rfl

theorem ReadsAlike.readText_inWordsOf_eq (h : ReadsAlike (a.readText path) (b.readText path)) :
    a.readText path = (b.inWordsOf a).readText path := by
  rw [readText_inWordsOf]
  generalize a.readText path = first, b.readText path = second at h
  cases h with
  | text t => rfl
  | failed hKind => simp only [hKind, if_true]

/-- A reason in other words is the one that it was, or that of the first store for a like refusal. -/
theorem eq_or_of_inWordsOf {e e' : StoreError} (hFirst : (b.inWordsOf a).readText path = .error e)
    (hSecond : b.readText path = .error e') :
    e' = e ∨ a.readText path = .error e ∧ e'.isRefusal = e.isRefusal := by
  rw [readText_inWordsOf, hSecond] at hFirst
  cases hRead : a.readText path with
  | ok s =>
      rw [hRead] at hFirst
      exact Or.inl (Except.error.inj hFirst)
  | error original =>
      rw [hRead] at hFirst
      dsimp only at hFirst
      split at hFirst
      · next hKind =>
          cases hFirst
          exact Or.inr ⟨rfl, hKind⟩
      · exact Or.inl (Except.error.inj hFirst)

end Store

/-- The same problem, or that of one file for which the stores have their own reasons. -/
inductive Problem.Alike (a b : Store) : Problem → Problem → Prop where
  | same (problem : Problem) : Alike a b problem problem
  | refused {path : Text} {e e' : StoreError} (hFirst : a.readText path = .error e)
      (hSecond : b.readText path = .error e') :
      Alike a b (.unresolvedInclude path e.message) (.unresolvedInclude path e'.message)

/-- The same error, or those of one path for which the stores have their own reasons. Then both have
refused it, or neither can be used. -/
inductive StoreError.Alike (a b : Store) : StoreError → StoreError → Prop where
  | same (e : StoreError) : Alike a b e e
  | unread {path : Text} {e e' : StoreError} (hFirst : a.readText path = .error e)
      (hSecond : b.readText path = .error e') (hKind : e'.isRefusal = e.isRefusal) : Alike a b e e'

/-- The same event, or one about problems that are alike. -/
inductive Event.Alike (a b : Store) : Event → Event → Prop where
  | same (event : Event) : Alike a b event event
  | reported {p q : Problem} (h : p.Alike a b q) : Alike a b (.reported p) (.reported q)
  | logged {p q : Problem} (h : p.Alike a b q) :
      Alike a b (.logged ⟨.error, p.message⟩) (.logged ⟨.error, q.message⟩)

/-- The same cycle, or a store that cannot be used. -/
inductive Interrupt.Alike (a b : Store) : Interrupt → Interrupt → Prop where
  | cycle (chain : List Text) : Alike a b (.cycle chain) (.cycle chain)
  | store {e e' : StoreError} (h : e.Alike a b e') : Alike a b (.store e) (.store e')

/-! What is alike after a change of words is alike. -/

section words

variable {a b : Store}

theorem Problem.Alike.of_inWordsOf {problem other : Problem}
    (h : problem.Alike (b.inWordsOf a) b other) : problem.Alike a b other := by
  cases h with
  | same => exact .same problem
  | refused hFirst hSecond =>
      rcases Store.eq_or_of_inWordsOf hFirst hSecond with rfl | ⟨hRead, -⟩
      · exact .same _
      · exact .refused hRead hSecond

theorem StoreError.Alike.of_inWordsOf {e e' : StoreError} (h : e.Alike (b.inWordsOf a) b e') :
    e.Alike a b e' := by
  cases h with
  | same => exact .same e
  | unread hFirst hSecond hKind =>
      rcases Store.eq_or_of_inWordsOf hFirst hSecond with rfl | ⟨hRead, -⟩
      · exact .same _
      · exact .unread hRead hSecond hKind

theorem Event.Alike.of_inWordsOf {event other : Event} (h : event.Alike (b.inWordsOf a) b other) :
    event.Alike a b other := by
  cases h with
  | same => exact .same event
  | reported hProblem => exact .reported hProblem.of_inWordsOf
  | logged hProblem => exact .logged hProblem.of_inWordsOf

end words

namespace Traced

variable {a b : Store} {ε α β γ δ : Type} {E : ε → ε → Prop} {V : α → β → Prop} {W : γ → δ → Prop}
  {run : Traced ε α} {other : Traced ε β}

/-- There are two related values, or two related reasons that there is none. -/
inductive Outcomes (E : ε → ε → Prop) (V : α → β → Prop) : Except ε α → Except ε β → Prop where
  | ok {x : α} {y : β} (h : V x y) : Outcomes E V (.ok x) (.ok y)
  | error {e e' : ε} (h : E e e') : Outcomes E V (.error e) (.error e')

theorem Outcomes.imp {F : ε → ε → Prop} {U : α → β → Prop} {first : Except ε α}
    {second : Except ε β} (h : Outcomes E V first second) (hReasons : ∀ e e', E e e' → F e e')
    (hValues : ∀ x y, V x y → U x y) : Outcomes F U first second := by
  cases h with
  | ok h => exact .ok (hValues _ _ h)
  | error h => exact .error (hReasons _ _ h)

theorem Outcomes.mapError {ε₂ : Type} {F : ε₂ → ε₂ → Prop} {f : ε → ε₂}
    (h : Outcomes E V run.outcome other.outcome) (hReasons : ∀ e e', E e e' → F (f e) (f e')) :
    Outcomes F V (run.mapError f).outcome (other.mapError f).outcome := by
  unfold Traced.mapError
  generalize run.outcome = first, other.outcome = second at h
  cases h with
  | ok h => exact .ok h
  | error h => exact .error (hReasons _ _ h)

theorem Outcomes.bind {next : α → Traced ε γ} {later : β → Traced ε δ}
    (h : Outcomes E V run.outcome other.outcome)
    (hNext : ∀ x y, V x y → Outcomes E W (next x).outcome (later y).outcome) :
    Outcomes E W (run >>= next).outcome (other >>= later).outcome := by
  generalize hRun : run.outcome = first, hOther : other.outcome = second at h
  cases h with
  | ok hValues =>
      rw [bind_of_ok _ hRun, bind_of_ok _ hOther]
      exact hNext _ _ hValues
  | error hReasons =>
      rw [bind_of_error _ hRun, bind_of_error _ hOther]
      exact .error hReasons

/-- Two runs that do alike things one after the other, and come to related outcomes. -/
structure Alike (a b : Store) (E : ε → ε → Prop) (V : α → β → Prop) (run : Traced ε α)
    (other : Traced ε β) : Prop where
  events : List.Forall₂ (Event.Alike a b) run.events other.events
  outcome : Outcomes E V run.outcome other.outcome

theorem forall₂_same (events : List Event) : List.Forall₂ (Event.Alike a b) events events :=
  List.forall₂_same.mpr fun event _ => .same event

theorem Alike.bind {next : α → Traced ε γ} {later : β → Traced ε δ} (h : Alike a b E V run other)
    (hNext : ∀ x y, V x y → Alike a b E W (next x) (later y)) :
    Alike a b E W (run >>= next) (other >>= later) := by
  obtain ⟨hEvents, hOutcome⟩ := h
  generalize hRun : run.outcome = first, hOther : other.outcome = second at hOutcome
  cases hOutcome with
  | error hReasons =>
      rw [bind_of_error _ hRun, bind_of_error _ hOther]
      exact ⟨hEvents, .error hReasons⟩
  | @ok x y hValues =>
      have hRest := hNext x y hValues
      rw [bind_of_ok _ hRun, bind_of_ok _ hOther]
      exact ⟨List.rel_append hEvents hRest.events, hRest.outcome⟩

theorem Alike.pure {x : α} {y : β} (h : V x y) : Alike a b E V ⟨[], .ok x⟩ ⟨[], .ok y⟩ :=
  ⟨.nil, .ok h⟩

/-- What is picked from the events is the same if problems are not looked at. -/
theorem Alike.filterMap_eq (h : Alike a b E V run other) (pick : Event → Option γ)
    (hReported : ∀ problem, pick (.reported problem) = none)
    (hLogged : ∀ record, pick (.logged record) = none) :
    other.events.filterMap pick = run.events.filterMap pick := by
  have hEvents := h.events
  generalize run.events = first, other.events = second at hEvents
  induction hEvents with
  | nil => rfl
  | cons hEvent hRest ih =>
      cases hEvent with
      | same event => rw [List.filterMap_cons, List.filterMap_cons, ih]
      | reported hProblem => simp only [List.filterMap_cons, hReported, ih]
      | logged hProblem => simp only [List.filterMap_cons, hLogged, ih]

theorem Alike.problems (h : Alike a b E V run other) :
    List.Forall₂ (Problem.Alike a b) run.problems other.problems := by
  have hEvents := h.events
  unfold Traced.problems
  generalize run.events = first, other.events = second at hEvents
  induction hEvents with
  | nil => exact .nil
  | @cons event _ _ _ hEvent hRest ih =>
      cases hEvent with
      | same =>
          cases event with
          | reported problem => exact .cons (.same problem) ih
          | _ => exact ih
      | reported hProblem => exact .cons hProblem ih
      | logged hProblem => exact ih

end Traced

open Traced

variable {m : Macros} {c : Catalog} {a b : Store}

namespace Environment

variable {chain : List Text} {p : Text}

theorem noted_alike {problem other : Problem} (h : problem.Alike a b other) :
    List.Forall₂ (Event.Alike a b) (noted problem) (noted other) :=
  .cons (.logged h) (.cons (.reported h) .nil)

/-- A file is refused by both stores or by none, and it does alike if its lines do. -/
theorem expandFile_alike (hReads : Store.ReadsAlike (a.readText p) (b.readText p))
    (hLines : p ∉ chain → ∀ content : Text, Alike a b (Interrupt.Alike a b) Eq
      ((Environment.mk m c a).expandLines (chain ++ [p]) 1 content.lines)
      ((Environment.mk m c b).expandLines (chain ++ [p]) 1 content.lines)) :
    Alike a b (Interrupt.Alike a b) Eq ((Environment.mk m c a).expandFile chain p)
      ((Environment.mk m c b).expandFile chain p) := by
  by_cases hKnown : p ∈ chain
  · rw [expandFile_of_mem hKnown, expandFile_of_mem hKnown]
    exact ⟨.nil, .error (.cycle _)⟩
  · generalize hFirst : (Environment.mk m c a).store.readText p = first,
      hSecond : (Environment.mk m c b).store.readText p = second at hReads
    cases hReads with
    | text content =>
        obtain ⟨hEvents, hOutcome⟩ := hLines hKnown content
        rw [expandFile_of_read hKnown hFirst, expandFile_of_read hKnown hSecond]
        constructor
        · exact .cons (.same _) (.cons (.same _) (List.rel_append hEvents (forall₂_same _)))
        · generalize
            ((Environment.mk m c a).expandLines (chain ++ [p]) 1 content.lines).outcome = x,
            ((Environment.mk m c b).expandLines (chain ++ [p]) 1 content.lines).outcome = y
            at hOutcome
          cases hOutcome with
          | ok hSame =>
              rw [hSame]
              exact .ok rfl
          | error hAlike => exact .error hAlike
    | @failed e e' hKind =>
        cases hRefusal : e.isRefusal with
        | true =>
            rw [expandFile_of_refused hKnown hFirst hRefusal,
              expandFile_of_refused hKnown hSecond (hKind.trans hRefusal)]
            exact ⟨.cons (.same _) (noted_alike (.refused hFirst hSecond)), .ok rfl⟩
        | false =>
            rw [expandFile_of_broken hKnown hFirst hRefusal,
              expandFile_of_broken hKnown hSecond (hKind.trans hRefusal)]
            exact ⟨forall₂_same _, .error (.store (.unread hFirst hSecond hKind))⟩

theorem expandLines_alike (hReads : ∀ p, Store.ReadsAlike (a.readText p) (b.readText p))
    (chain : List Text) (number : Int) (lines : List Text) :
    Alike a b (Interrupt.Alike a b) Eq ((Environment.mk m c a).expandLines chain number lines)
      ((Environment.mk m c b).expandLines chain number lines) := by
  induction chain, number, lines using expandLines.induct ⟨m, c, a⟩ with
  | case1 chain number =>
      rw [expandLines_nil, expandLines_nil]
      exact .pure rfl
  | case2 chain number line rest ihFile ihRest =>
      have hLine : Alike a b (Interrupt.Alike a b) Eq
          ((Environment.mk m c a).expandLine chain number line)
          ((Environment.mk m c b).expandLine chain number line) := by
        cases hKind : LineKind.of line with
        | plain =>
            rw [expandLine_of_plain hKind, expandLine_of_plain hKind]
            exact ⟨.nil, .ok rfl⟩
        | hoisted =>
            rw [expandLine_of_hoisted hKind, expandLine_of_hoisted hKind]
            exact ⟨forall₂_same _, .ok rfl⟩
        | inclusion =>
            -- where a line leads to is not a question to the store
            rcases unresolved_or_leadsTo ⟨m, c, a⟩ hKind with ⟨problem, hTarget⟩ | ⟨p, hLeads⟩
            · have hOther : ((Environment.mk m c b).target line).outcome = .error problem := hTarget
              rw [expandLine_of_unresolved hKind hTarget, expandLine_of_unresolved hKind hOther]
              exact ⟨forall₂_same _, .ok rfl⟩
            · have hOther : (Environment.mk m c b).LeadsTo line p := hLeads
              have hListed := (leadsTo_iff_target.mp hLeads).2.1
              obtain ⟨hEvents, hOutcome⟩ := expandFile_alike (m := m) (c := c) (hReads p)
                fun hNew content => ihFile p hListed hNew content.lines
              rw [expandLine_of_leadsTo hLeads, expandLine_of_leadsTo hOther]
              refine ⟨List.rel_append (forall₂_same _) hEvents, ?_⟩
              generalize ((Environment.mk m c a).expandFile chain p).outcome = x,
                ((Environment.mk m c b).expandFile chain p).outcome = y at hOutcome
              cases hOutcome with
              | ok hSame =>
                  rw [hSame]
                  exact .ok rfl
              | error hAlike => exact .error hAlike
      rw [expandLines_cons, expandLines_cons]
      refine hLine.bind fun entries _ hEntries => ihRest.bind fun others _ hOthers => ?_
      rw [hEntries, hOthers]
      exact .pure rfl

end Environment

namespace Effect

variable {origin : Option Text} {x y : Effect} {id : Text} {verdict : Except Problem Text}
  {parts : List Section}

/-- The effects have the same sections and have failed the same ones. -/
structure Alike (a b : Store) (x y : Effect) : Prop where
  base : y.base = x.base
  sections : y.sections = x.sections
  failed : y.failed = x.failed
  problems : List.Forall₂ (Problem.Alike a b) x.problems y.problems

theorem assemble_alike (hReads : ∀ p, Store.ReadsAlike (a.readText p) (b.readText p))
    (origin : Option Text) (lines : List Text) :
    Traced.Alike a b (StoreError.Alike a b) Eq (assemble ⟨m, c, a⟩ origin lines)
      (assemble ⟨m, c, b⟩ origin lines) := by
  have hLines := Environment.expandLines_alike (m := m) (c := c) hReads origin.toList 1 lines
  have hTop := hLines.filterMap_eq Event.hoisted? (fun _ => rfl) (fun _ => rfl)
  obtain ⟨hEvents, hOutcome⟩ := hLines
  rw [assemble_eq_conclude, assemble_eq_conclude]
  generalize (Environment.mk m c a).expandLines origin.toList 1 lines = run,
    (Environment.mk m c b).expandLines origin.toList 1 lines = other at hTop hEvents hOutcome
  simp only [conclude, Traced.hoistedLines, hTop]
  generalize run.outcome = first, other.outcome = second at hOutcome
  cases hOutcome with
  | ok hSame => exact ⟨hEvents, .ok (by rw [hSame])⟩
  | error hAlike =>
      cases hAlike with
      | cycle chain => exact ⟨List.rel_append hEvents (forall₂_same _), .ok rfl⟩
      | store hReasons => exact ⟨hEvents, .error hReasons⟩

theorem enter_alike (h : Alike a b x y) :
    Traced.Alike a b (StoreError.Alike a b) (Alike a b) (enter x id verdict) (enter y id verdict) := by
  have hDecides : y.decides id = x.decides id := by
    rw [decides, decides, h.sections, h.failed]
  unfold enter
  rw [hDecides]
  cases x.decides id with
  | true => exact ⟨forall₂_same _, .ok h⟩
  | false =>
      cases verdict with
      | ok text => exact .pure ⟨h.base, congrArg (· ++ _) h.sections, h.failed, h.problems⟩
      | error problem => exact .pure ⟨h.base, h.sections, congrArg (· ++ _) h.failed, h.problems⟩

theorem assembleAll_alike (hReads : ∀ p, Store.ReadsAlike (a.readText p) (b.readText p))
    (h : Alike a b x y) :
    Traced.Alike a b (StoreError.Alike a b) (Alike a b) (assembleAll ⟨m, c, a⟩ origin x parts)
      (assembleAll ⟨m, c, b⟩ origin y parts) := by
  induction parts generalizing x y with
  | nil => exact .pure h
  | cons part rest ih =>
      have hPart := assemble_alike (m := m) (c := c) hReads origin part.lines
      rw [assembleAll, assembleAll, h.base]
      refine hPart.bind fun verdict _ hVerdict => ?_
      have hBefore : Alike a b
          { x with problems := x.problems ++ (assemble ⟨m, c, a⟩ origin part.lines).problems }
          { y with
            base := x.base
            problems := y.problems ++ (assemble ⟨m, c, b⟩ origin part.lines).problems } :=
        ⟨rfl, h.sections, h.failed, List.rel_append h.problems hPart.problems⟩
      rw [← hVerdict]
      exact (enter_alike hBefore).bind fun _ _ hNext => ih hNext

theorem ofText_alike (hReads : ∀ p, Store.ReadsAlike (a.readText p) (b.readText p))
    (base text : Text) (origin : Option Text) :
    Traced.Alike a b (StoreError.Alike a b) (Alike a b) (ofText ⟨m, c, a⟩ base text origin)
      (ofText ⟨m, c, b⟩ base text origin) :=
  assembleAll_alike hReads ⟨rfl, rfl, rfl, .nil⟩

/-- An effect file tells the second store from itself in the words of the first by reasons only. -/
theorem ofText_inWordsOf (m : Macros) (c : Catalog) (a b : Store) (base text : Text)
    (origin : Option Text) :
    Traced.Alike a b (StoreError.Alike a b) (Alike a b) (ofText ⟨m, c, b.inWordsOf a⟩ base text origin)
      (ofText ⟨m, c, b⟩ base text origin) := by
  obtain ⟨hEvents, hOutcome⟩ :=
    ofText_alike (m := m) (c := c) (Store.readsAlike_inWordsOf a b) base text origin
  refine ⟨hEvents.imp fun _ _ => Event.Alike.of_inWordsOf,
    hOutcome.imp (fun _ _ => StoreError.Alike.of_inWordsOf) fun _ _ h => ?_⟩
  exact ⟨h.base, h.sections, h.failed, h.problems.imp fun _ _ => Problem.Alike.of_inWordsOf⟩

end Effect

end ShaderLibrary
