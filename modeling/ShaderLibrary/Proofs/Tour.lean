import Mathlib.Data.List.Basic
import ShaderLibrary.Proofs.Inclusion
import ShaderLibrary.Proofs.Lines

/-! Tours of the sources in depth-first order. A tour says what a reader meets who
reads each included file at the line that asks for it. It knows nothing of files in
progress, of markers or of joined texts; that an expansion follows it is proved. -/
namespace ShaderLibrary

/-- A stop of the reader: a line that stays as it is, a line for the top of the unit,
an include line that gives no text, the start of an included file, and the return to
its includer. Numbers are those of the lines in their own file or section. -/
inductive Visit where
  | kept (number : Int) (line : Text)
  | lifted (number : Int) (line : Text)
  | missed (number : Int) (problem : Problem)
  | entered
  | left (number : Int)
deriving DecidableEq, Repr

namespace Visit

/-- The line that stands for the visit among the inlined lines, with its number. An
include line without a text stands there as an empty line. -/
def numbered? : Visit → Option (Int × Text)
  | kept number line => some (number, line)
  | missed number _ => some (number, [])
  | _ => none

def inlined? (v : Visit) : Option Text := v.numbered?.map Prod.snd

def lifted? : Visit → Option Text
  | lifted _ line => some line
  | _ => none

/-- The source line of the visit and what becomes of it. Include lines are not told:
their visits tell what they lead to. -/
def source? : Visit → Option (LineKind × Text)
  | kept _ line => some (.plain, line)
  | lifted _ line => some (.hoisted, line)
  | _ => none

theorem mem_filterMap_lifted?_iff {visits : List Visit} {line : Text} :
    line ∈ visits.filterMap lifted? ↔ (.hoisted, line) ∈ visits.filterMap source? := by
  simp only [List.mem_filterMap]
  refine exists_congr fun visit => and_congr_right fun _ => ?_
  cases visit <;> simp [lifted?, source?]

/-- The lines that an expansion writes for the visit, its markers included. -/
def written : Visit → List Text
  | kept _ line => [line]
  | lifted number _ => [lineMarker (number + 1)]
  | missed number _ => [[], lineMarker (number + 1)]
  | entered => [lineMarker 1]
  | left number => [lineMarker (number + 1)]

/-- The events by which the visit is remembered. -/
def leaves : Visit → List Event
  | lifted _ line => [.hoisted line]
  | missed _ problem => Environment.noted problem
  | _ => []

end Visit

/-- Whether something stays behind after the event: a line for the top, a problem
or a record. Questions to the environment leave nothing. -/
def Event.lasts : Event → Bool
  | hoisted _ | reported _ | logged _ => true
  | _ => false

namespace Environment

variable {env : Environment} {chain lines rest : List Text} {number : Int} {line p content : Text}
  {visits : List Visit}

/-- The text that an include line stands for: that of the file it leads to. -/
def contentOf (env : Environment) (line : Text) : Except Problem Text :=
  match (env.target line).outcome with
  | .error problem => .error problem
  | .ok file => (env.store.readText file).mapError fun e => .unresolvedInclude file e.message

/-- The stops at `lines`, the first of which has this number. A tour ends only if no
file includes itself, since a reader would never come back from such a file. -/
inductive Tour (env : Environment) : Int → List Text → List Visit → Prop where
  | done (number : Int) : Tour env number [] []
  | kept {number : Int} {line : Text} {rest : List Text} {visits : List Visit}
      (hKind : LineKind.of line = .plain) (onward : Tour env (number + 1) rest visits) :
      Tour env number (line :: rest) (.kept number line :: visits)
  | lifted {number : Int} {line : Text} {rest : List Text} {visits : List Visit}
      (hKind : LineKind.of line = .hoisted) (onward : Tour env (number + 1) rest visits) :
      Tour env number (line :: rest) (.lifted number line :: visits)
  | missed {number : Int} {line : Text} {rest : List Text} {visits : List Visit} {problem : Problem}
      (hKind : LineKind.of line = .inclusion) (hContent : env.contentOf line = .error problem)
      (onward : Tour env (number + 1) rest visits) :
      Tour env number (line :: rest) (.missed number problem :: visits)
  | included {number : Int} {line content : Text} {rest : List Text} {inner visits : List Visit}
      (hKind : LineKind.of line = .inclusion) (hContent : env.contentOf line = .ok content)
      (inside : Tour env 1 content.lines inner) (onward : Tour env (number + 1) rest visits) :
      Tour env number (line :: rest) (.entered :: inner ++ .left number :: visits)

/-- There is one tour of given lines at most. -/
theorem Tour.unique {other : List Visit} (h : Tour env number lines visits)
    (h' : Tour env number lines other) : visits = other := by
  induction h generalizing other with
  | done number => cases h'; rfl
  | kept hKind onward ih =>
      cases h' with
      | kept _ onward' => rw [ih onward']
      | lifted hKind' _ | missed hKind' _ _ | included hKind' _ _ _ => cases hKind.symm.trans hKind'
  | lifted hKind onward ih =>
      cases h' with
      | lifted _ onward' => rw [ih onward']
      | kept hKind' _ | missed hKind' _ _ | included hKind' _ _ _ => cases hKind.symm.trans hKind'
  | missed hKind hContent onward ih =>
      cases h' with
      | missed _ hContent' onward' =>
          cases hContent.symm.trans hContent'
          rw [ih onward']
      | included _ hContent' _ _ => cases hContent.symm.trans hContent'
      | kept hKind' _ | lifted hKind' _ => cases hKind.symm.trans hKind'
  | included hKind hContent inside onward ihInside ih =>
      cases h' with
      | included _ hContent' inside' onward' =>
          cases hContent.symm.trans hContent'
          rw [ihInside inside', ih onward']
      | missed _ hContent' _ => cases hContent.symm.trans hContent'
      | kept hKind' _ | lifted hKind' _ => cases hKind.symm.trans hKind'

theorem LeadsTo.contentOf_eq (hLeads : env.LeadsTo line p) :
    env.contentOf line =
      (env.store.readText p).mapError fun e => .unresolvedInclude p e.message := by
  obtain ⟨-, listed, hTarget⟩ := leadsTo_iff_target.mp hLeads
  rw [contentOf, hTarget]

theorem contentOf_eq_ok_iff (hKind : LineKind.of line = .inclusion) :
    env.contentOf line = .ok content ↔
      ∃ p, env.LeadsTo line p ∧ env.store.readText p = .ok content := by
  constructor
  · intro h
    rcases unresolved_or_leadsTo env hKind with ⟨problem, hTarget⟩ | ⟨p, hLeads⟩
    · rw [contentOf, hTarget] at h
      cases h
    · refine ⟨p, hLeads, ?_⟩
      rw [hLeads.contentOf_eq] at h
      cases hRead : env.store.readText p with
      | error e => rw [hRead] at h; cases h
      | ok other => rw [hRead] at h; cases h; rfl
  · rintro ⟨p, hLeads, hRead⟩
    rw [hLeads.contentOf_eq, hRead]
    rfl

theorem filter_lasts_events_target : (env.target line).events.filter Event.lasts = [] := by
  refine List.filter_eq_nil_iff.mpr fun event hEvent => ?_
  rcases mem_events_target hEvent with ⟨key, rfl⟩ | ⟨name, rfl⟩ <;> exact Bool.false_ne_true

theorem Tour.exists_tail (h : Tour env number (line :: rest) visits) :
    ∃ later, Tour env (number + 1) rest later ∧ later ⊆ visits := by
  cases h with
  | kept _ onward | lifted _ onward | missed _ _ onward =>
      exact ⟨_, onward, List.subset_cons_self _ _⟩
  | included _ _ _ onward => exact ⟨_, onward, fun visit hVisit => by simp [hVisit]⟩

theorem Tour.exists_of_leadsTo (h : Tour env number lines visits) (hMem : line ∈ lines)
    (hLeads : env.LeadsTo line p) (hRead : env.store.readText p = .ok content) :
    ∃ inner, Tour env 1 content.lines inner ∧ inner ⊆ visits := by
  have hContent := (contentOf_eq_ok_iff hLeads.1).mpr ⟨p, hLeads, hRead⟩
  induction lines generalizing number visits with
  | nil => cases hMem
  | cons first rest ih =>
      rcases List.mem_cons.mp hMem with rfl | hMem
      · cases h with
        | included _ hIncluded inside _ =>
            cases hContent.symm.trans hIncluded
            exact ⟨_, inside, fun visit hVisit => by simp [hVisit]⟩
        | missed _ hMissed _ => cases hContent.symm.trans hMissed
        | kept hKind _ | lifted hKind _ => cases hKind.symm.trans hLeads.1
      · obtain ⟨later, hLater, hSub⟩ := h.exists_tail
        obtain ⟨inner, hInner, hSub'⟩ := ih hLater hMem
        exact ⟨inner, hInner, List.Subset.trans hSub' hSub⟩

/-- A tour holds the tour of every file that can be read and that its lines reach. -/
theorem Tour.exists_of_reaches {q : Text} (h : Tour env number lines visits)
    (hReach : env.Reaches lines q) (hRead : env.store.readText q = .ok content) :
    ∃ inner, Tour env 1 content.lines inner ∧ inner ⊆ visits := by
  obtain ⟨line, hMem, p, hLeads, hPath⟩ := hReach
  induction hPath using Relation.ReflTransGen.head_induction_on generalizing number lines line visits with
  | refl => exact h.exists_of_leadsTo hMem hLeads hRead
  | head hStep hRest ih =>
      obtain ⟨between, hBetween, below, hBelow, hNext⟩ := hStep
      obtain ⟨inner, hInner, hSub⟩ := h.exists_of_leadsTo hMem hLeads hBetween
      obtain ⟨innermost, hInnermost, hSub'⟩ := ih hInner below hBelow hNext
      exact ⟨innermost, hInnermost, List.Subset.trans hSub' hSub⟩

theorem Tour.mem_source_of_mem_lines (h : Tour env number lines visits) (hMem : line ∈ lines)
    (hKind : LineKind.of line ≠ .inclusion) :
    (LineKind.of line, line) ∈ visits.filterMap Visit.source? := by
  induction lines generalizing number visits with
  | nil => cases hMem
  | cons first rest ih =>
      rcases List.mem_cons.mp hMem with rfl | hMem
      · cases h with
        | kept hPlain _ => simp [Visit.source?, hPlain]
        | lifted hHoisted _ => simp [Visit.source?, hHoisted]
        | missed hInclusion _ _ | included hInclusion _ _ _ => exact absurd hInclusion hKind
      · obtain ⟨later, hLater, hSub⟩ := h.exists_tail
        exact List.filterMap_subset _ hSub (ih hLater hMem)

theorem Tour.occurs_of_mem_source {kind : LineKind} (h : Tour env number lines visits)
    (hMem : (kind, line) ∈ visits.filterMap Visit.source?) :
    LineKind.of line = kind ∧ kind ≠ .inclusion ∧ env.Occurs lines line := by
  induction h with
  | done number => cases hMem
  | kept hPlain onward ih =>
      rcases List.mem_cons.mp hMem with hHere | hMem
      · cases hHere
        exact ⟨hPlain, by decide, Or.inl List.mem_cons_self⟩
      · exact (ih hMem).imp_right (And.imp_right .cons)
  | lifted hHoisted onward ih =>
      rcases List.mem_cons.mp hMem with hHere | hMem
      · cases hHere
        exact ⟨hHoisted, by decide, Or.inl List.mem_cons_self⟩
      · exact (ih hMem).imp_right (And.imp_right .cons)
  | missed hInclusion hMissed onward ih => exact (ih hMem).imp_right (And.imp_right .cons)
  | included hInclusion hIncluded inside onward ihInside ih =>
      obtain ⟨p, hLeads, hRead⟩ := (contentOf_eq_ok_iff hInclusion).mp hIncluded
      simp only [List.filterMap_append, List.filterMap_cons, Visit.source?, List.cons_append,
        List.mem_append] at hMem
      rcases hMem with hInside | hOnward
      · obtain ⟨hKind, hNot, hOccurs⟩ := ihInside hInside
        exact ⟨hKind, hNot, hOccurs.of_included List.mem_cons_self hLeads hRead⟩
      · exact (ih hOnward).imp_right (And.imp_right .cons)

/-- A tour meets the lines that occur, and no others. -/
theorem Tour.mem_source_iff {kind : LineKind} (h : Tour env number lines visits) :
    (kind, line) ∈ visits.filterMap Visit.source? ↔
      LineKind.of line = kind ∧ kind ≠ .inclusion ∧ env.Occurs lines line := by
  refine ⟨h.occurs_of_mem_source, ?_⟩
  rintro ⟨rfl, hNot, hMem | ⟨q, content, hReach, hRead, hMem⟩⟩
  · exact h.mem_source_of_mem_lines hMem hNot
  · obtain ⟨inner, hInner, hSub⟩ := h.exists_of_reaches hReach hRead
    exact List.filterMap_subset _ hSub (hInner.mem_source_of_mem_lines hMem hNot)

/-- The entries and events of a run are those of the visits, marker by marker. -/
structure Recounts (entries : List Text) (events : List Event) (visits : List Visit) : Prop where
  written : entries.flatMap (·.splitOn '\n') = visits.flatMap Visit.written
  leaves : events.filter Event.lasts = visits.flatMap Visit.leaves

theorem Recounts.append {entries others : List Text} {events later : List Event}
    {visits more : List Visit} (h : Recounts entries events visits)
    (h' : Recounts others later more) :
    Recounts (entries ++ others) (events ++ later) (visits ++ more) where
  written := by rw [List.flatMap_append, List.flatMap_append, h.written, h'.written]
  leaves := by rw [List.filter_append, List.flatMap_append, h.leaves, h'.leaves]

/-- Joined below a marker for the first line, the entries are the lines that are written. -/
theorem Recounts.splitOn_joinLines {entries : List Text} {events : List Event}
    (h : Recounts entries events visits) (number : Int) :
    (Text.joinLines (lineMarker number :: entries)).splitOn '\n' =
      lineMarker number :: visits.flatMap Visit.written := by
  rw [Text.splitOn_joinLines (List.cons_ne_nil _ _), List.flatMap_cons,
    List.splitOn_eq_singleton (newline_notMem_lineMarker number), h.written]
  rfl

/-- An included file is recounted between the marker for its first line and the
marker for the line after the include line. -/
theorem Recounts.included {inside : List Text} {events before : List Event} (number : Int)
    (h : Recounts inside events visits) (hBefore : before.filter Event.lasts = []) :
    Recounts [Text.joinLines (lineMarker 1 :: inside), lineMarker (number + 1)]
      (before ++ .read p :: .opened p :: events ++ [.closed p])
      (.entered :: visits ++ [.left number]) where
  written := by
    have hMarker : (lineMarker (number + 1)).splitOn '\n' = [lineMarker (number + 1)] :=
      List.splitOn_eq_singleton (newline_notMem_lineMarker _)
    simp [h.splitOn_joinLines, hMarker, Visit.written]
  leaves := by
    simp [hBefore, h.leaves, Event.lasts, Visit.leaves]

/-- The lines for the top are those that the tour lifts, in its order. -/
theorem Recounts.hoistedLines_eq {run : Traced Interrupt (List Text)} {entries : List Text}
    (h : Recounts entries run.events visits) :
    run.hoistedLines = visits.filterMap Visit.lifted? := by
  have hLasts : run.hoistedLines = (run.events.filter Event.lasts).filterMap Event.hoisted? := by
    rw [Traced.hoistedLines, List.filterMap_filter]
    congr 1
    funext event
    cases event <;> rfl
  rw [hLasts, h.leaves, List.filterMap_flatMap, List.filterMap_eq_flatMap_toList]
  congr 1
  funext visit
  cases visit <;> rfl

/-- What the expansion of one line adds to a tour, if the files that it opens are toured. -/
theorem exists_stop {entries : List Text}
    (hDone : (env.expandLine chain number line).outcome = .ok entries) (hClean : '\n' ∉ line)
    (hFiles : ∀ p ∈ env.catalog.files, p ∉ chain → ∀ content inside,
      (env.expandLines (chain ++ [p]) 1 (Text.lines content)).outcome = .ok inside →
      ∃ visits, env.Tour 1 content.lines visits ∧
        Recounts inside (env.expandLines (chain ++ [p]) 1 content.lines).events visits) :
    ∃ stops, (∀ rest visits, env.Tour (number + 1) rest visits →
        env.Tour number (line :: rest) (stops ++ visits)) ∧
      Recounts entries (env.expandLine chain number line).events stops := by
  have hMarker : (lineMarker (number + 1)).splitOn '\n' = [lineMarker (number + 1)] :=
    List.splitOn_eq_singleton (newline_notMem_lineMarker _)
  cases hKind : LineKind.of line with
  | plain =>
      rw [expandLine_of_plain hKind] at hDone ⊢
      cases hDone
      refine ⟨[.kept number line], fun rest visits => .kept hKind, ?_, rfl⟩
      simp [List.splitOn_eq_singleton hClean, Visit.written]
  | hoisted =>
      rw [expandLine_of_hoisted hKind] at hDone ⊢
      cases hDone
      refine ⟨[.lifted number line], fun rest visits => .lifted hKind, ?_, rfl⟩
      simp [hMarker, Visit.written]
  | inclusion =>
      rcases unresolved_or_leadsTo env hKind with ⟨problem, hTarget⟩ | ⟨p, hLeads⟩
      · rw [expandLine_of_unresolved hKind hTarget] at hDone ⊢
        cases hDone
        refine ⟨[.missed number problem], fun rest visits => .missed hKind (by rw [contentOf, hTarget]), ?_, ?_⟩
        · simp [hMarker, Visit.written]
        · simp [filter_lasts_events_target, Visit.leaves, noted, Event.lasts]
      · obtain ⟨text, hFile, rfl⟩ := (outcome_expandLine_of_leadsTo_eq_ok_iff hLeads).mp hDone
        rw [expandLine_of_leadsTo hLeads]
        obtain ⟨hNew, ⟨e, hRead, hRefusal, rfl⟩ | ⟨content, inside, hRead, hInside, rfl⟩⟩ :=
          outcome_expandFile_eq_ok_iff.mp hFile
        · have hContent : env.contentOf line = .error (.unresolvedInclude p e.message) := by
            rw [hLeads.contentOf_eq, hRead]
            rfl
          refine ⟨[.missed number (.unresolvedInclude p e.message)],
            fun rest visits => .missed hKind hContent, ?_, ?_⟩
          · simp [hMarker, Visit.written]
          · rw [expandFile_of_refused hNew hRead hRefusal]
            simp [filter_lasts_events_target, Visit.leaves, noted, Event.lasts]
        · have hContent := (contentOf_eq_ok_iff hKind).mpr ⟨p, hLeads, hRead⟩
          have hListed := (leadsTo_iff_target.mp hLeads).2.1
          obtain ⟨visits, hTour, hRecounts⟩ := hFiles p hListed hNew content inside hInside
          refine ⟨.entered :: visits ++ [.left number], fun rest onward hOnward => ?_, ?_⟩
          · simpa using Tour.included hKind hContent hTour hOnward
          · rw [expandFile_of_read hNew hRead]
            simpa using hRecounts.included number filter_lasts_events_target

/-- An expansion that succeeds follows the tour of its lines. -/
theorem exists_tour {entries : List Text}
    (hDone : (env.expandLines chain number lines).outcome = .ok entries)
    (hClean : ∀ line ∈ lines, '\n' ∉ line) :
    ∃ visits, env.Tour number lines visits ∧
      Recounts entries (env.expandLines chain number lines).events visits := by
  induction chain, number, lines using expandLines.induct env generalizing entries with
  | case1 chain number =>
      simp only [expandLines_nil, Traced.outcome_pure, Except.ok.injEq] at hDone
      subst hDone
      exact ⟨[], .done number, rfl, by simp⟩
  | case2 chain number line rest ihFile ihRest =>
      obtain ⟨here, others, hLine, hRest, rfl⟩ := outcome_expandLines_cons_eq_ok_iff.mp hDone
      obtain ⟨visits, hTour, hOthers⟩ :=
        ihRest hRest fun line hMem => hClean line (List.mem_cons_of_mem _ hMem)
      obtain ⟨stops, hStops, hHere⟩ := exists_stop hLine (hClean line List.mem_cons_self)
        fun p hListed hNew content inside hInside =>
          ihFile p hListed hNew content.lines hInside fun _ => Text.newline_notMem_of_mem_lines
      refine ⟨stops ++ visits, hStops rest visits hTour, ?_⟩
      rw [events_expandLines_cons hLine]
      exact hHere.append hOthers

end Environment

end ShaderLibrary
