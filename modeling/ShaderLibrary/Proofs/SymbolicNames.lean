import ShaderLibrary.Proofs.ContextFree
import ShaderLibrary.Proofs.Dictionary
import ShaderLibrary.Proofs.Macros

/-! Includes by a macro. The text of the macro spells the name of a file, in quotes or without them,
and then the include is that of this name: all that is left of the line itself is its mention in the
problem of a name that leads nowhere. -/
namespace ShaderLibrary

open Text

variable {env : Environment} {key value name before after line other : Text}

/-- The text of a macro stands for this name. The name is in quotes, and then it may be any text, or
it has none, neither in it nor blanks at its ends. Blanks around all of it do not count. -/
def Spells (value name : Text) : Prop :=
  ∃ inner, (inner = doubleQuote :: (name ++ [doubleQuote]) ∨
      (inner = name ∧ doubleQuote ∉ name ∧ name.Trimmed)) ∧
    ∃ before after : Text, before.AllBlank ∧ after.AllBlank ∧ value = before ++ inner ++ after

theorem namedBy_of_spells (h : Spells value name) : namedBy value = name := by
  obtain ⟨inner, hInner, before, after, hBefore, hAfter, rfl⟩ := h
  have hBlank : isBlank doubleQuote = false := rfl
  rcases hInner with rfl | ⟨rfl, hQuote, hTrimmed⟩
  · have hLast : (doubleQuote :: (name ++ [doubleQuote])).getLast? = some doubleQuote := by
      rw [← List.cons_append, List.getLast?_append]
      rfl
    have hTrimmed : Trimmed (doubleQuote :: (name ++ [doubleQuote])) := by
      simp [Trimmed, hLast, hBlank]
    have hName : betweenQuotes? (doubleQuote :: (name ++ [doubleQuote])) = some name :=
      betweenQuotes?_append List.not_mem_nil name List.not_mem_nil
    rw [namedBy, trim_append hBefore hTrimmed hAfter, hName]
    rfl
  · rw [namedBy, trim_append hBefore hTrimmed hAfter, betweenQuotes?_of_notMem hQuote]
    rfl

/-- The include line that asks for a file by a macro. -/
def symbolicInclude (before key after : Text) : Text := "#include".toList ++ before ++ key ++ after

/-- The include line that asks for a file by its name. -/
def literalInclude (name : Text) : Text :=
  "#include ".toList ++ doubleQuote :: (name ++ [doubleQuote])

/-- Behind the last quote of a line nothing belongs to the name. -/
theorem headerName_quoted (m : Macros) (name : Text) (hAfter : doubleQuote ∉ after) :
    headerName m ("#include ".toList ++ doubleQuote :: (name ++ doubleQuote :: after)) =
      pure name := by
  have hQuoted : quotedName?
      ("#include ".toList ++ doubleQuote :: (name ++ doubleQuote :: after)) = some name :=
    betweenQuotes?_append (by decide) name hAfter
  rw [headerName, hQuoted]

theorem headerName_literalInclude (m : Macros) (name : Text) :
    headerName m (literalInclude name) = pure name :=
  headerName_quoted m name List.not_mem_nil

theorem words_symbolicInclude (hKey : key.words = [key]) (hBefore : before.AllBlank)
    (hApart : before ≠ []) (hAfter : after.AllBlank) :
    (symbolicInclude before key after).words = ["#include".toList, key] := by
  obtain ⟨c, rest, rfl⟩ := List.exists_cons_of_ne_nil hApart
  obtain ⟨hFirst, hRest⟩ := List.forall_mem_cons.mp hBefore
  have hLine : symbolicInclude (c :: rest) key after =
      "#include".toList ++ c :: (rest ++ (key ++ after)) := by
    unfold symbolicInclude
    rw [List.append_assoc, List.append_assoc, List.cons_append]
  have hDirective : words "#include".toList = ["#include".toList] := by decide
  rw [hLine, words_append_cons _ _ hFirst, words_blank_append hRest, words_append_blank key hAfter,
    hDirective, hKey]
  rfl

/-- A macro that spells a name gives the line that name, after one look at the table. -/
theorem headerName_symbolicInclude {m : Macros} (hReachable : m.Reachable)
    (hBound : m.bindings.get? key = some value) (hQuote : doubleQuote ∉ key)
    (hSpells : Spells value name) (hBefore : before.AllBlank) (hApart : before ≠ [])
    (hAfter : after.AllBlank) :
    headerName m (symbolicInclude before key after) = ⟨[.lookedUp key], .ok name⟩ := by
  have hNoQuote {t : Text} (h : t.AllBlank) : doubleQuote ∉ t := by
    intro hMem
    have hBlank := h _ hMem
    exact absurd hBlank (by decide)
  have hDirective : doubleQuote ∉ "#include".toList := by decide
  have hLine : doubleQuote ∉ symbolicInclude before key after := by
    unfold symbolicInclude
    simp only [List.mem_append, not_or]
    exact ⟨⟨⟨hDirective, hNoQuote hBefore⟩, hQuote⟩, hNoQuote hAfter⟩
  have hUnquoted : quotedName? (symbolicInclude before key after) = none :=
    betweenQuotes?_of_notMem hLine
  have hWord := hReachable.words_eq (Dictionary.mem_keys_iff.mpr ⟨value, hBound⟩)
  have hLookup : m.lookup key (symbolicInclude before key after) = ⟨[.lookedUp key], .ok value⟩ := by
    rw [Macros.lookup, hBound]
    rfl
  rw [headerName, hUnquoted, words_symbolicInclude hWord hBefore hApart hAfter]
  simp only [hLookup]
  rw [← namedBy_of_spells hSpells]
  rfl

namespace Expansion

/-- Whether a line gets a marker is all that its end depends on. -/
theorem complete_congr (next : Int) (hKind : LineKind.of line = LineKind.of other) :
    complete next line = complete next other := by
  funext outcome
  cases outcome <;> simp only [complete, hKind]

/-- Two lines do the same from a state on: they come to the same entries or to the same failure,
lift the same lines, leave the same files in progress, and add the same problems, except that each
names itself in the problem of a name that leads nowhere. -/
structure SameInclude (x : Expansion) (env : Environment) (number : Int) (line other : Text) :
    Prop where
  outcome : (x.processLine env number line).1.outcome = (x.processLine env number other).1.outcome
  preamble : (x.processLine env number line).2.preamble = (x.processLine env number other).2.preamble
  inProgress :
    (x.processLine env number line).2.inProgress = (x.processLine env number other).2.inProgress
  problems :
    (x.processLine env number line).2.problems = (x.processLine env number other).2.problems ∨
    ∃ reason,
      (x.processLine env number line).2.problems = x.problems ++ [.unresolvedInclude line reason] ∧
      (x.processLine env number other).2.problems = x.problems ++ [.unresolvedInclude other reason]

/-- A line that leads nowhere adds its problem, and changes nothing else. -/
theorem processLine_of_unresolved {problem : Problem} (x : Expansion) (number : Int)
    (hKind : LineKind.of line = .inclusion) (hTarget : (env.target line).outcome = .error problem) :
    (x.processLine env number line).2 = { x with problems := x.problems ++ [problem] } ∧
      (x.processLine env number line).1.outcome =
        complete (number + 1) line (.ok [[], lineMarker (number + 1)]) := by
  simp only [processLine, Environment.expandLine_of_unresolved hKind hTarget, afterAll_append,
    afterAll_target, and_true]
  rfl

/-- Of an include line, only its name matters. -/
theorem sameInclude_of_headerName (x : Expansion) (number : Int)
    (hKind : LineKind.of line = .inclusion) (hOther : LineKind.of other = .inclusion)
    (hName : (headerName env.macros line).outcome = .ok name)
    (hOtherName : (headerName env.macros other).outcome = .ok name) :
    SameInclude x env number line other := by
  have hComplete := complete_congr (number + 1) (hKind.trans hOther.symm)
  cases hFound : env.catalog.find? name with
  | none =>
      obtain ⟨hState, hOutcome⟩ := processLine_of_unresolved x number hKind
        (Environment.outcome_target_eq_error_iff.mpr (Or.inr ⟨name, hName, hFound, rfl⟩))
      obtain ⟨hOtherState, hOtherOutcome⟩ := processLine_of_unresolved x number hOther
        (Environment.outcome_target_eq_error_iff.mpr (Or.inr ⟨name, hOtherName, hFound, rfl⟩))
      constructor
      · rw [hOutcome, hOtherOutcome, hComplete]
      · rw [hState, hOtherState]
      · rw [hState, hOtherState]
      · rw [hState, hOtherState]
        exact Or.inr ⟨_, rfl, rfl⟩
  | some p =>
      obtain ⟨hState, hOutcome⟩ := processLine_of_leadsTo (x := x) number
        (show env.LeadsTo line p from ⟨hKind, name, hName, hFound⟩)
      obtain ⟨hOtherState, hOtherOutcome⟩ := processLine_of_leadsTo (x := x) number
        (show env.LeadsTo other p from ⟨hOther, name, hOtherName, hFound⟩)
      constructor
      · rw [hOutcome, hOtherOutcome, hComplete]
      · rw [hState, hOtherState]
      · rw [hState, hOtherState]
      · rw [hState, hOtherState]
        exact Or.inl rfl

/-- An include by a macro is the include of the name that the macro spells, in any state and on a line
of any number, whether the name leads to a file, to nothing, to a file that cannot be read, or back
into a file in progress. -/
theorem symbolic_include_agrees (hReachable : env.macros.Reachable)
    (hBound : env.macros.bindings.get? key = some value) (hQuote : doubleQuote ∉ key)
    (hSpells : Spells value name) (hBefore : before.AllBlank) (hApart : before ≠ [])
    (hAfter : after.AllBlank) (x : Expansion) (number : Int) :
    SameInclude x env number (symbolicInclude before key after) (literalInclude name) := by
  have hSymbolic : (headerName env.macros (symbolicInclude before key after)).outcome = .ok name := by
    rw [headerName_symbolicInclude hReachable hBound hQuote hSpells hBefore hApart hAfter]
  have hLiteral : (headerName env.macros (literalInclude name)).outcome = .ok name := by
    rw [headerName_literalInclude]
    rfl
  exact sameInclude_of_headerName x number rfl rfl hSymbolic hLiteral

/-- The sample with a macro for its light. -/
def aliased : Environment :=
  { Environment.sample with
    macros := { bindings := ⟨[("LIGHT".toList, " \x22Light\x22\n".toList)], by decide⟩ } }

/-- While the noise is in progress, the light is a cycle by either line, found below a line that has
been lifted. -/
theorem symbolic_include_agrees_light :
    aliased.macros.Reachable ∧
    Spells " \x22Light\x22\n".toList "Light".toList ∧
    SameInclude { inProgress := ["Noise".toList] } aliased 7
      "#include\t LIGHT ".toList "#include \x22Light\x22".toList ∧
    (processLine { inProgress := ["Noise".toList] } aliased 7 "#include\t LIGHT ".toList).1.outcome =
      .error (.interrupted (.cycle ["Noise".toList, "Light".toList, "Noise".toList])) ∧
    (processLine { inProgress := ["Noise".toList] } aliased 7
      "#include\t LIGHT ".toList).2.preamble.lines = ["#version 330".toList] := by
  have hDefined : ({} : Macros).define (.text "LIGHT".toList) (.text " \x22Light\x22\n".toList) =
      .ok aliased.macros := rfl
  have hReachable : aliased.macros.Reachable := .define .empty hDefined
  have hBlank : AllBlank " ".toList := by decide
  have hSpells : Spells " \x22Light\x22\n".toList "Light".toList :=
    ⟨_, Or.inl rfl, " ".toList, "\n".toList, hBlank, by decide, rfl⟩
  have hSame : SameInclude { inProgress := ["Noise".toList] } aliased 7
      (symbolicInclude "\t ".toList "LIGHT".toList " ".toList) (literalInclude "Light".toList) :=
    symbolic_include_agrees hReachable rfl (by decide) hSpells (by decide) (by decide) hBlank _ _
  have hLeads : aliased.LeadsTo "#include\t LIGHT ".toList "Light".toList :=
    ⟨rfl, "Light".toList, rfl, rfl⟩
  obtain ⟨hState, hOutcome⟩ :=
    processLine_of_leadsTo (x := { inProgress := ["Noise".toList] }) 7 hLeads
  refine ⟨hReachable, hSpells, hSame, ?_, ?_⟩
  · rw [hOutcome]
    simp only [inline, Environment.expandFile, Environment.expandLines_eq_expandWithin]
    rfl
  · rw [hState]
    simp only [inline, Environment.expandFile, Environment.expandLines_eq_expandWithin]
    rfl

end Expansion

end ShaderLibrary
