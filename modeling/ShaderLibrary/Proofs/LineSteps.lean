import ShaderLibrary.Proofs.SymbolicNames

/-! One line of a running expansion, whatever becomes of it. It leaves the same files in progress and
adds to the rest of the state only at the end, so the lines behind it do what they would do without
it. -/
namespace ShaderLibrary

namespace Text

theorem length_ofNat_le_iff {n most : Nat} (h : 0 < most) :
    (ofNat n).length ≤ most ↔ n < Nat.pow 10 most :=
  Nat.length_toDigits_le_iff (by decide) h

theorem hasNumeral_iff {n : Int} : hasNumeral n = true ↔ n.natAbs < Nat.pow 10 mostDigits := by
  rw [hasNumeral, decide_eq_true_iff, length_ofNat_le_iff (by decide)]

end Text

namespace Expansion

variable {env : Environment} {x y z : Expansion} {chain entries : List Text} {number : Int}
  {line : Text}

/-- What the second preamble has behind the lines of the first one is new and has no line twice. -/
def Lifts (p q : Preamble) : Prop :=
  ∃ lifted : List Text, q.lines = p.lines ++ lifted ∧ lifted.Nodup ∧ ∀ line ∈ lifted, line ∉ p.lines

theorem Lifts.refl (p : Preamble) : Lifts p p :=
  ⟨[], (List.append_nil _).symm, .nil, List.forall_mem_nil _⟩

theorem Lifts.trans {p q r : Preamble} (hFirst : Lifts p q) (hSecond : Lifts q r) : Lifts p r := by
  obtain ⟨lifted, hLifted, hNodup, hNew⟩ := hFirst
  obtain ⟨more, hMore, hMoreNodup, hMoreNew⟩ := hSecond
  simp only [hLifted, List.mem_append, not_or] at hMoreNew
  refine ⟨lifted ++ more, ?_, List.nodup_append'.mpr ⟨hNodup, hMoreNodup, ?_⟩, fun line hLine => ?_⟩
  · rw [hMore, hLifted, List.append_assoc]
  · exact fun line hOld hLine => (hMoreNew line hLine).2 hOld
  · rcases List.mem_append.mp hLine with hOld | hLater
    · exact hNew line hOld
    · exact (hMoreNew line hLater).1

theorem lifts_add (p : Preamble) (line : Text) : Lifts p (p.add line) := by
  unfold Preamble.add
  split
  · exact .refl p
  · next hNew => exact ⟨[line], rfl, List.nodup_singleton line, List.forall_mem_singleton.mpr hNew⟩

theorem lifts_addAll (p : Preamble) (lines : List Text) : Lifts p (p.addAll lines) := by
  induction lines generalizing p with
  | nil => exact .refl p
  | cons line rest ih => exact (lifts_add p line).trans (ih (p.add line))

/-- The second state has the same files in progress as the first one, and goes on with the lines for
the top and the problems where the first one ends. -/
structure Continues (x y : Expansion) : Prop where
  inProgress : y.inProgress = x.inProgress
  preamble : Lifts x.preamble y.preamble
  problems : x.problems <+: y.problems

theorem Continues.refl (x : Expansion) : x.Continues x :=
  ⟨rfl, .refl _, List.prefix_rfl⟩

theorem Continues.trans (hFirst : x.Continues y) (hSecond : y.Continues z) : x.Continues z :=
  ⟨hSecond.inProgress.trans hFirst.inProgress, hFirst.preamble.trans hSecond.preamble,
    hFirst.problems.trans hSecond.problems⟩

/-- Of a state, a line sees the files in progress only. -/
theorem Continues.processLine_eq (h : x.Continues y) (number : Int) (line : Text) :
    (y.processLine env number line).1 = (x.processLine env number line).1 := by
  rw [processLine, h.inProgress]
  rfl

theorem continues_processLine (env : Environment) (x : Expansion) (number : Int) (line : Text) :
    x.Continues (x.processLine env number line).2 := by
  constructor
  case inProgress => exact (env.stacked_expandLine x.inProgress number line).restores x rfl
  case preamble =>
    rw [processLine, preamble_afterAll]
    exact lifts_addAll _ _
  case problems =>
    rw [processLine, problems_afterAll]
    exact List.prefix_append _ _

/-- The entries for a line that comes to its end: the line itself, or the marker for the next line
in the place of one that is lifted, or what an include line stands for and the marker. -/
def EntriesOf (number : Int) (line : Text) (entries : List Text) : Prop :=
  match LineKind.of line with
  | .plain => entries = [line]
  | .hoisted => entries = [lineMarker (number + 1)]
  | .inclusion => ∃ text, entries = [text, lineMarker (number + 1)]

theorem entriesOf_of_ok (h : (env.expandLine chain number line).outcome = .ok entries) :
    EntriesOf number line entries := by
  unfold EntriesOf
  cases hKind : LineKind.of line with
  | plain =>
      rw [Environment.expandLine_of_plain hKind] at h
      exact (Except.ok.inj h).symm
  | hoisted =>
      rw [Environment.expandLine_of_hoisted hKind] at h
      exact (Except.ok.inj h).symm
  | inclusion =>
      rcases Environment.unresolved_or_leadsTo env hKind with ⟨problem, hTarget⟩ | ⟨p, hLeads⟩
      · rw [Environment.expandLine_of_unresolved hKind hTarget] at h
        exact ⟨[], (Except.ok.inj h).symm⟩
      · obtain ⟨text, -, hEntries⟩ :=
          (Environment.outcome_expandLine_of_leadsTo_eq_ok_iff hLeads).mp h
        exact ⟨text, hEntries⟩

/-- Only an include line can be interrupted. -/
theorem kind_of_interrupted {i : Interrupt}
    (h : (env.expandLine chain number line).outcome = .error i) :
    LineKind.of line = .inclusion := by
  cases hKind : LineKind.of line with
  | plain =>
      rw [Environment.expandLine_of_plain hKind] at h
      cases h
  | hoisted =>
      rw [Environment.expandLine_of_hoisted hKind] at h
      cases h
  | inclusion => rfl

theorem EntriesOf.dropLast_append (h : EntriesOf number line entries)
    (hKind : LineKind.of line ≠ .plain) :
    entries.dropLast ++ [lineMarker (number + 1)] = entries := by
  unfold EntriesOf at h
  split at h
  · contradiction
  · rw [h]
    rfl
  · obtain ⟨text, rfl⟩ := h
    rfl

/-- The entries that a line adds, also one that does not come to its end. -/
def added : Except Unfinished (List Text) → List Text
  | .ok entries => entries
  | .error unfinished => unfinished.entries

/-- What becomes of the entries `out` with a line, by the way in which the line ends. -/
def Leaves (out later : List Text) (number : Int) (line : Text) :
    Except Unfinished (List Text) → Prop
  | .ok entries => EntriesOf number line entries ∧ later = out ++ entries
  | .error (.interrupted _) => LineKind.of line = .inclusion ∧ later = out
  -- only a number that is too long to be written keeps a marker out, and then nothing else
  | .error (.noMarker kept) =>
    Nat.pow 10 Text.mostDigits ≤ (number + 1).natAbs ∧ LineKind.of line ≠ .plain ∧
      EntriesOf number line (kept ++ [lineMarker (number + 1)]) ∧ later = out ++ kept

theorem leaves_processLine (env : Environment) (x : Expansion) (number : Int) (line : Text)
    (out : List Text) :
    Leaves out (out ++ added (x.processLine env number line).1.outcome) number line
      (x.processLine env number line).1.outcome := by
  have hRun : (x.processLine env number line).1.outcome =
      complete (number + 1) line (env.expandLine x.inProgress number line).outcome := rfl
  rw [hRun]
  cases hLine : (env.expandLine x.inProgress number line).outcome with
  | error i => exact ⟨kind_of_interrupted hLine, List.append_nil out⟩
  | ok entries =>
      have hEntries := entriesOf_of_ok hLine
      rw [complete]
      split
      · exact ⟨hEntries, rfl⟩
      · next hMarker =>
          obtain ⟨hLong, hKind⟩ := not_or.mp hMarker
          refine ⟨Nat.le_of_not_lt (mt Text.hasNumeral_iff.mpr hLong), hKind, ?_, rfl⟩
          rwa [hEntries.dropLast_append hKind]

/-- A line with its number, and what it does to the entries and the state before it. -/
def feedLine (env : Environment) (before : List Text × Expansion) (numbered : Int × Text) :
    List Text × Expansion :=
  let (run, x) := before.2.processLine env numbered.1 numbered.2
  (before.1 ++ added run.outcome, x)

theorem entries_feedLine (env : Environment) (out : List Text) (x : Expansion) (number : Int)
    (line : Text) : (feedLine env (out, x) (number, line)).1 =
      out ++ added (x.processLine env number line).1.outcome := rfl

/-- Lines one after the other. Each goes on with what the one before it has left, also if that one
has not come to its end. -/
def feed (env : Environment) (before : List Text × Expansion) (numbered : List (Int × Text)) :
    List Text × Expansion :=
  numbered.foldl (feedLine env) before

theorem continues_feed (env : Environment) (out : List Text) (x : Expansion)
    (numbered : List (Int × Text)) : x.Continues (feed env (out, x) numbered).2 := by
  induction numbered generalizing out x with
  | nil => exact .refl x
  | cons first rest ih => exact (continues_processLine env x first.1 first.2).trans (ih _ _)

/-- Every line adds what it would add as the first one. -/
theorem entries_feed (env : Environment) (out : List Text) (x : Expansion)
    (numbered : List (Int × Text)) :
    (feed env (out, x) numbered).1 = out ++ numbered.flatMap fun (number, line) =>
      added (x.processLine env number line).1.outcome := by
  induction numbered generalizing out x with
  | nil => exact (List.append_nil out).symm
  | cons first rest ih =>
      have hFirst := continues_processLine env x first.1 first.2
      rw [feed, List.foldl_cons, ← feed, feedLine, ih, List.flatMap_cons, List.append_assoc]
      simp only [hFirst.processLine_eq]

/-- A line leaves the files in progress as they are, whether it comes to its end or is interrupted at
whatever depth, and it only adds lines for the top, none twice, and problems. To the entries it
adds its own if it comes to its end, and nothing if it is interrupted; only if the number of the
next line is too long to be written does it stop right before the marker. So lines can share a
state, and each of them adds the entries that it would add alone. -/
theorem processLine_restores (env : Environment) (x : Expansion) (out : List Text) :
    (∀ number line, x.Continues (feedLine env (out, x) (number, line)).2 ∧
      Leaves out (feedLine env (out, x) (number, line)).1 number line
        (x.processLine env number line).1.outcome) ∧
    ∀ numbered, x.Continues (feed env (out, x) numbered).2 ∧
      (feed env (out, x) numbered).1 = out ++ numbered.flatMap fun (number, line) =>
        added (x.processLine env number line).1.outcome :=
  ⟨fun number line => ⟨continues_processLine env x number line,
    leaves_processLine env x number line out⟩,
    fun numbered => ⟨continues_feed env out x numbered, entries_feed env out x numbered⟩⟩

/-- The number of the last line that can have no marker for the next one. -/
def lastNumber : Int := Int.ofNat (Nat.pow 10 Text.mostDigits) - 1

theorem not_hasNumeral_lastNumber : Text.hasNumeral (lastNumber + 1) = false := by
  have hSelf (n : Nat) : ¬ (Int.ofNat n).natAbs < n := Nat.lt_irrefl n
  rw [← Bool.not_eq_true, Text.hasNumeral_iff, lastNumber, Int.sub_add_cancel]
  exact hSelf _

/-- A directive may leave one entry, and not every line that fails leaves none. -/
theorem lifted_line_leaves_one_entry :
    LineKind.of "#version 330".toList ≠ .plain ∧
    (feedLine .sample ([], {}) (1, "#version 330".toList)).1 = ["#line 2".toList] ∧
    (¬ ∃ text, (feedLine .sample ([], {}) (1, "#version 330".toList)).1 = [text, lineMarker 2]) ∧
    (processLine {} .sample lastNumber "#include".toList).1.outcome = .error (.noMarker [[]]) ∧
    (feedLine .sample ([], {}) (lastNumber, "#include".toList)).1 = [[]] := by
  have hLifted : (feedLine .sample ([], {}) (1, "#version 330".toList)).1 = ["#line 2".toList] := rfl
  have hShort : (processLine {} .sample lastNumber "#include".toList).1.outcome =
      .error (.noMarker [[]]) := by
    have hTarget : (Environment.sample.target "#include".toList).outcome =
        .error (.unresolvedInclude "#include".toList "too few tokens".toList) := rfl
    obtain ⟨-, hOutcome⟩ := processLine_of_unresolved {} lastNumber rfl hTarget
    rw [hOutcome, complete, not_hasNumeral_lastNumber, if_neg (by decide)]
    rfl
  refine ⟨by decide, hLifted, ?_, hShort, ?_⟩
  · rintro ⟨text, hText⟩
    rw [hLifted] at hText
    cases hText
  · rw [entries_feedLine, hShort]
    rfl

/-- A cycle found two files deep costs its line and nothing else. -/
theorem processLine_restores_ring :
    (processLine { inProgress := ["X.glsl".toList] } twoFileRing 1 "#include \"A\"".toList).1.outcome =
      .error (.interrupted (.cycle
        ["X.glsl".toList, "A".toList, "B".toList, "A".toList])) ∧
    (feed twoFileRing (["#line 1".toList], { inProgress := ["X.glsl".toList] })
      [(1, "#include \"A\"".toList), (2, "#version 330".toList), (3, "light".toList)]).1 =
        ["#line 1".toList, "#line 3".toList, "light".toList] ∧
    (feed twoFileRing (["#line 1".toList], { inProgress := ["X.glsl".toList] })
      [(1, "#include \"A\"".toList), (2, "#version 330".toList), (3, "light".toList)]).2.inProgress =
        ["X.glsl".toList] := by
  obtain ⟨-, hRun⟩ := processLine_restores twoFileRing { inProgress := ["X.glsl".toList] }
    ["#line 1".toList]
  obtain ⟨hContinues, hEntries⟩ := hRun
    [(1, "#include \"A\"".toList), (2, "#version 330".toList), (3, "light".toList)]
  have hLeads : twoFileRing.LeadsTo "#include \"A\"".toList "A".toList :=
    ⟨rfl, "A".toList, rfl, rfl⟩
  have hCycle : (processLine { inProgress := ["X.glsl".toList] } twoFileRing 1
      "#include \"A\"".toList).1.outcome = .error (.interrupted (.cycle
        ["X.glsl".toList, "A".toList, "B".toList, "A".toList])) := by
    obtain ⟨-, hOutcome⟩ := processLine_of_leadsTo (x := { inProgress := ["X.glsl".toList] }) 1 hLeads
    rw [hOutcome]
    simp only [inline, Environment.expandFile, Environment.expandLines_eq_expandWithin]
    rfl
  refine ⟨hCycle, ?_, hContinues.inProgress⟩
  rw [hEntries]
  simp only [List.flatMap_cons, hCycle]
  rfl

end Expansion

end ShaderLibrary
