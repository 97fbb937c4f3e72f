import ShaderLibrary.Proofs.SymbolicNames

/-! Text behind the name on an include line. As long as there is no quote in it, it is not seen.
A quote in it is taken for the end of the name, so the line asks for a file with a quote in its
name, which only a catalog with such a name can have. -/
namespace ShaderLibrary

open Text

variable {env : Environment} {name trailing inner after : Text}

/-- The include line that asks for a file by its name, with more text behind a space. -/
def trailedInclude (name trailing : Text) : Text := literalInclude name ++ ' ' :: trailing

theorem trailedInclude_eq (name trailing : Text) : trailedInclude name trailing =
    "#include ".toList ++ doubleQuote :: (name ++ doubleQuote :: ' ' :: trailing) :=
  calc
    trailedInclude name trailing =
        "#include ".toList ++ (doubleQuote :: (name ++ [doubleQuote]) ++ ' ' :: trailing) :=
      List.append_assoc _ _ _
    _ = "#include ".toList ++ doubleQuote :: (name ++ doubleQuote :: ' ' :: trailing) :=
      congrArg ("#include ".toList ++ doubleQuote :: ·) (List.append_assoc name _ _)

theorem headerName_trailedInclude (m : Macros) (name : Text) (h : doubleQuote ∉ trailing) :
    headerName m (trailedInclude name trailing) = pure name := by
  have hAfter : doubleQuote ∉ ' ' :: trailing :=
    List.not_mem_cons_of_ne_of_not_mem (by decide) h
  rw [trailedInclude_eq]
  exact headerName_quoted m name hAfter

/-- Up to its last quote, the text belongs to the name. -/
theorem headerName_trailedInclude_of_lastQuote (m : Macros) (name inner : Text)
    (hAfter : doubleQuote ∉ after) :
    headerName m (trailedInclude name (inner ++ doubleQuote :: after)) =
      pure (name ++ doubleQuote :: ' ' :: inner) := by
  have hName : name ++ doubleQuote :: ' ' :: (inner ++ doubleQuote :: after) =
      name ++ doubleQuote :: ' ' :: inner ++ doubleQuote :: after :=
    (List.append_assoc name (doubleQuote :: ' ' :: inner) (doubleQuote :: after)).symm
  rw [trailedInclude_eq, hName]
  exact headerName_quoted m _ hAfter

namespace Expansion

/-- A line that asks for a name out of the catalog is noted and leaves an empty text. -/
theorem processLine_of_unlisted {line : Text} (x : Expansion) (number : Int)
    (hKind : LineKind.of line = .inclusion)
    (hName : (headerName env.macros line).outcome = .ok name)
    (hUnlisted : env.catalog.find? name = none) :
    (x.processLine env number line).2 = { x with
        problems := x.problems ++ [.unresolvedInclude line (Problem.unknownFile name).message] } ∧
      (x.processLine env number line).1.outcome =
        complete (number + 1) line (.ok [[], lineMarker (number + 1)]) :=
  processLine_of_unresolved x number hKind
    (Environment.outcome_target_eq_error_iff.mpr (Or.inr ⟨name, hName, hUnlisted, rfl⟩))

/-- Text without a quote behind the name is not seen, in any state and on a line of any number. With
a quote in it, the line is the include of a longer name, which goes on up to the last quote of the
line. If no file of the catalog has a quote in its name, this name leads nowhere, whatever the name
in front of it leads to, and the include is noted and left out. -/
theorem trailing_text_unseen (env : Environment) (x : Expansion) (number : Int)
    (name trailing : Text) :
    (doubleQuote ∉ trailing →
      SameInclude x env number (trailedInclude name trailing) (literalInclude name)) ∧
    ∀ inner after, trailing = inner ++ doubleQuote :: after → doubleQuote ∉ after →
      SameInclude x env number (trailedInclude name trailing)
        (literalInclude (name ++ doubleQuote :: ' ' :: inner)) ∧
      ((∀ known ∈ env.catalog.names, doubleQuote ∉ known) →
        (x.processLine env number (trailedInclude name trailing)).2 = { x with
          problems := x.problems ++ [.unresolvedInclude (trailedInclude name trailing)
            (Problem.unknownFile (name ++ doubleQuote :: ' ' :: inner)).message] } ∧
        (x.processLine env number (trailedInclude name trailing)).1.outcome =
          complete (number + 1) (trailedInclude name trailing)
            (.ok [[], lineMarker (number + 1)])) := by
  have hLiteral (other : Text) :
      (headerName env.macros (literalInclude other)).outcome = .ok other := by
    rw [headerName_literalInclude]
    rfl
  constructor
  · intro hQuote
    have hName : (headerName env.macros (trailedInclude name trailing)).outcome = .ok name := by
      rw [headerName_trailedInclude _ _ hQuote]
      rfl
    exact sameInclude_of_headerName x number rfl rfl hName (hLiteral name)
  · rintro inner after rfl hAfter
    have hName : (headerName env.macros
        (trailedInclude name (inner ++ doubleQuote :: after))).outcome =
          .ok (name ++ doubleQuote :: ' ' :: inner) := by
      rw [headerName_trailedInclude_of_lastQuote _ _ _ hAfter]
      rfl
    refine ⟨sameInclude_of_headerName x number rfl rfl hName (hLiteral _), fun hClean => ?_⟩
    refine processLine_of_unlisted x number rfl hName ?_
    cases hFound : env.catalog.find? (name ++ doubleQuote :: ' ' :: inner) with
    | none => rfl
    | some path =>
        -- the name has a quote in it, so it is none of the catalog
        have hQuote := hClean _ (Dictionary.mem_keys_iff.mpr ⟨path, hFound⟩)
        simp at hQuote

/-- The text of a comment in which another file is named. -/
def comment : Text := "// not \x22Light\x22".toList

/-- A name in quotes behind the name of the noise hides the noise. It is left out, and so is the line
that it lifts. -/
theorem quoted_comment_hides_include :
    doubleQuote ∉ "Noise".toList ∧ '\n' ∉ comment ∧
    (processLine {} Environment.sample 1 (literalInclude "Noise".toList)).1.outcome =
      .ok [Text.joinLines ["#line 1".toList, "noise".toList, "#line 3".toList], "#line 2".toList] ∧
    (processLine {} Environment.sample 1 (literalInclude "Noise".toList)).2.preamble.lines =
      ["#extension all".toList] ∧
    (processLine {} Environment.sample 1 (trailedInclude "Noise".toList comment)).1.outcome =
      .ok [[], "#line 2".toList] ∧
    (processLine {} Environment.sample 1 (trailedInclude "Noise".toList comment)).2.preamble.lines =
      [] := by
  have hLeads : Environment.sample.LeadsTo (literalInclude "Noise".toList) "Noise".toList :=
    ⟨rfl, "Noise".toList, rfl, rfl⟩
  obtain ⟨hState, hOutcome⟩ := processLine_of_leadsTo (x := {}) 1 hLeads
  have hName : (headerName Environment.sample.macros
      (trailedInclude "Noise".toList comment)).outcome = .ok "Noise\x22 // not \x22Light".toList := rfl
  obtain ⟨hMissed, hEmpty⟩ := processLine_of_unlisted {} 1 rfl hName rfl
  refine ⟨by decide, by decide, ?_, ?_, ?_, ?_⟩
  · rw [hOutcome]
    simp only [inline, Environment.expandFile, Environment.expandLines_eq_expandWithin]
    rfl
  · rw [hState]
    simp only [inline, Environment.expandFile, Environment.expandLines_eq_expandWithin]
    rfl
  · rw [hEmpty]
    rfl
  · rw [hMissed]
    rfl

/-- Behind a comment without quotes the noise is included as before, and behind one with quotes
nothing is. -/
theorem trailing_text_unseen_noise :
    SameInclude {} Environment.sample 1 "#include \x22Noise\x22 // noise".toList
      "#include \x22Noise\x22".toList ∧
    (processLine {} Environment.sample 1 "#include \x22Noise\x22 // not \x22Light\x22".toList).1.outcome =
      .ok [[], "#line 2".toList] := by
  have hClean : ∀ known ∈ Environment.sample.catalog.names, doubleQuote ∉ known := by decide
  have hQuote : doubleQuote ∉ "// noise".toList := by decide
  obtain ⟨hUnseen, -⟩ :=
    trailing_text_unseen Environment.sample {} 1 "Noise".toList "// noise".toList
  obtain ⟨-, hSeen⟩ := trailing_text_unseen Environment.sample {} 1 "Noise".toList comment
  obtain ⟨-, hEmpty⟩ := hSeen "// not \x22Light".toList [] rfl List.not_mem_nil
  exact ⟨hUnseen hQuote, (hEmpty hClean).2⟩

end Expansion

end ShaderLibrary
