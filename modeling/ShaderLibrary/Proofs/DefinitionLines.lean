import ShaderLibrary.Proofs.VersionLines

/-! Definitions line by line. A key is one word, but a value may be any text. As long as no value
has a newline in it, there is one line for each macro, and the lines can be read back. Otherwise the
rest of the value follows on lines of its own, where it may define what it likes. -/
namespace ShaderLibrary

namespace Text

/-- The parts of whole lines are the lines. -/
theorem pieces_terminateLines {ls : List Text} (h : ∀ line ∈ ls, '\n' ∉ line) :
    pieces (terminateLines ls) = ls := by
  induction ls with
  | nil => rfl
  | cons line rest ih =>
      have hRest := ih fun other hOther => h other (List.mem_cons_of_mem _ hOther)
      have hText : terminateLines (line :: rest) = line ++ '\n' :: terminateLines rest := by
        simp [terminateLines]
      rw [hText, pieces_append_newline _ (h line List.mem_cons_self), hRest]

end Text

namespace Macros

variable {m other : Macros} {key value line : Text}

/-- No value has a newline in it. -/
def SingleLined (m : Macros) : Prop := ∀ value ∈ m.bindings.values, '\n' ∉ value

instance (m : Macros) : Decidable m.SingleLined :=
  inferInstanceAs (Decidable (∀ value ∈ m.bindings.values, '\n' ∉ value))

theorem newline_mem_definition_iff (hKey : '\n' ∉ key) :
    '\n' ∈ "#define ".toList ++ key ++ ' ' :: value ↔ '\n' ∈ value := by
  have hDirective : '\n' ∉ "#define ".toList := by decide
  have hBlank : '\n' ≠ ' ' := by decide
  simp only [List.mem_append, List.mem_cons, hDirective, hKey, hBlank, false_or]

/-- The lines of definitions are single lines if the values are. -/
theorem Reachable.singleLined_iff (h : m.Reachable) :
    m.SingleLined ↔ ∀ line ∈ m.definitionLines, '\n' ∉ line := by
  simp only [SingleLined, Dictionary.values, definitionLines, List.forall_mem_map]
  refine forall₂_congr fun entry hEntry => ?_
  have hKey := Text.newline_notMem_of_words (h.words_eq (List.mem_map_of_mem hEntry))
  rw [newline_mem_definition_iff hKey]

/-- The key and the value on the line of a definition. -/
def keyAndValue (line : Text) : Text × Text := Text.cut ' ' (line.drop "#define ".toList.length)

theorem keyAndValue_definition (hKey : ' ' ∉ key) (value : Text) :
    keyAndValue ("#define ".toList ++ key ++ ' ' :: value) = (key, value) := by
  rw [keyAndValue, List.append_assoc, List.drop_left, Text.cut_of_notMem hKey]

/-- The macros can be read off the lines that define them. -/
theorem Reachable.map_keyAndValue (h : m.Reachable) :
    m.definitionLines.map keyAndValue = m.bindings.entries := by
  have hRead : ∀ entry ∈ m.bindings.entries,
      keyAndValue ("#define ".toList ++ entry.1 ++ ' ' :: entry.2) = entry := by
    intro entry hEntry
    have hBlank : Text.isBlank ' ' = true := by decide
    have hKey := Text.notMem_of_words hBlank (h.words_eq (List.mem_map_of_mem hEntry))
    exact keyAndValue_definition hKey entry.2
  rw [definitionLines, List.map_map]
  exact (List.map_congr_left hRead).trans (List.map_id _)

theorem splitOn_block_of_singleLined (hReachable : m.Reachable) (h : m.SingleLined) :
    m.block.splitOn '\n' = m.definitionLines ++ m.globalBlock.splitOn '\n' := by
  rw [block_eq]
  exact Text.splitOn_terminateLines_append (hReachable.singleLined_iff.mp h) m.globalBlock

/-- Without a global block, there is one line for each macro if and only if no value has a newline
in it. -/
theorem splitOn_block_eq_iff (hReachable : m.Reachable) (hGlobal : m.globalBlock = []) :
    m.block.splitOn '\n' = m.definitionLines ++ [[]] ↔ m.SingleLined := by
  constructor
  · intro h
    refine hReachable.singleLined_iff.mpr fun line hLine hNewline => ?_
    have hPiece : line ∈ m.block.splitOn '\n' := by
      rw [h]
      exact List.mem_append_left _ hLine
    rw [List.splitOn_eq_splitOnP] at hPiece
    have hOther := Text.eq_false_of_mem_splitOnP hPiece hNewline
    exact absurd hOther (by decide)
  · intro h
    rw [splitOn_block_of_singleLined hReachable h, hGlobal]
    rfl

/-- The block tells the macros, if there is nothing else in it. -/
theorem eq_of_block_eq (hReachable : m.Reachable) (hOther : other.Reachable)
    (hGlobal : m.globalBlock = []) (hOtherGlobal : other.globalBlock = [])
    (hSingle : m.SingleLined) (hOtherSingle : other.SingleLined) (h : m.block = other.block) :
    m = other := by
  have hLines : m.definitionLines = other.definitionLines := by
    have hSplit := congrArg (·.splitOn '\n') h
    simp only [(splitOn_block_eq_iff hReachable hGlobal).mpr hSingle,
      (splitOn_block_eq_iff hOther hOtherGlobal).mpr hOtherSingle] at hSplit
    exact List.append_cancel_right hSplit
  have hEntries : m.bindings.entries = other.bindings.entries := by
    rw [← hReachable.map_keyAndValue, ← hOther.map_keyAndValue, hLines]
  obtain ⟨⟨entries, ascending⟩, globalBlock⟩ := m
  obtain ⟨⟨others, othersAscending⟩, otherBlock⟩ := other
  cases hEntries
  obtain rfl : globalBlock = [] := hGlobal
  obtain rfl : otherBlock = [] := hOtherGlobal
  rfl

/-- Between the lines for the top and the body of a unit stand the definitions, and nothing else. -/
theorem splitOn_unit_of_singleLined {env : Environment} {base source id text body : Text}
    {part : Section} {visits : List Visit} (hReachable : env.macros.Reachable)
    (hGlobal : env.macros.globalBlock = []) (hSingle : env.macros.SingleLined)
    (hLaid : Effect.LaidOut env base source id text part visits body) :
    text.splitOn '\n' = (Effect.gathered visits).inOrder ++ env.macros.definitionLines ++
      (body.splitOn '\n' ++ [[]]) := by
  have hPieces : Text.pieces env.macros.block = env.macros.definitionLines := by
    rw [block_eq, hGlobal, List.append_nil]
    exact Text.pieces_terminateLines (hReachable.singleLined_iff.mp hSingle)
  rw [hLaid.splitOn_rows, hPieces]

/-- Without a global block, a block has exactly one line for each macro, in ascending order of the
keys, if and only if no value has a newline in it. Then different macros have different blocks, and
in every assembled text only the lines of these macros stand between the lines for the top and the
body. -/
theorem one_line_per_definition (hReachable : m.Reachable) (hGlobal : m.globalBlock = []) :
    (m.block.splitOn '\n' = m.definitionLines ++ [[]] ↔ m.SingleLined) ∧
    (m.SingleLined →
      (∀ other : Macros, other.Reachable → other.globalBlock = [] → other.SingleLined →
        m.block = other.block → m = other) ∧
      ∀ (env : Environment) base source origin x id text, env.macros = m →
        (Effect.ofText env base source origin).outcome = .ok x → (id, text) ∈ x.sections →
        ∃ part visits body, Effect.LaidOut env base source id text part visits body ∧
          text.splitOn '\n' = (Effect.gathered visits).inOrder ++ m.definitionLines ++
            (body.splitOn '\n' ++ [[]])) := by
  refine ⟨splitOn_block_eq_iff hReachable hGlobal, fun hSingle => ⟨?_, ?_⟩⟩
  · intro other hOther hOtherGlobal hOtherSingle
    exact eq_of_block_eq hReachable hOther hGlobal hOtherGlobal hSingle hOtherSingle
  · rintro env base source origin x id text rfl hDone hMem
    obtain ⟨part, visits, body, hLaid, -⟩ := Effect.exists_laidOut hDone hMem
    exact ⟨part, visits, body, hLaid,
      splitOn_unit_of_singleLined hReachable hGlobal hSingle hLaid⟩

/-- Two macros with a value of one line each. -/
def plainPair : Macros where
  bindings := ⟨[("A".toList, "1".toList), ("B".toList, "2".toList)], by decide⟩

/-- One macro, with a value that goes on with the definition of another one. -/
def smuggling : Macros where
  bindings := ⟨[("A".toList, "1\n#define B 2".toList)], by decide⟩

theorem reachable_plainPair : plainPair.Reachable := by
  have hFirst : ({} : Macros).define (.text "A".toList) (.text "1".toList) =
      .ok { bindings := ⟨[("A".toList, "1".toList)], by decide⟩ } := rfl
  have hSecond : ({ bindings := ⟨[("A".toList, "1".toList)], by decide⟩ } : Macros).define
      (.text "B".toList) (.text "2".toList) = .ok plainPair := rfl
  exact .define (.define .empty hFirst) hSecond

theorem reachable_smuggling : smuggling.Reachable := by
  have hDefined : ({} : Macros).define (.text "A".toList) (.text "1\n#define B 2".toList) =
      .ok smuggling := rfl
  exact .define .empty hDefined

/-- A value brings the definition of another macro with it, and the block is that of two macros. -/
theorem newline_in_value_defines_another :
    smuggling.Reachable ∧ plainPair.Reachable ∧
    smuggling.globalBlock = [] ∧ plainPair.globalBlock = [] ∧
    smuggling.keys = ["A".toList] ∧
    smuggling.block.splitOn '\n' = ["#define A 1".toList, "#define B 2".toList, []] ∧
    smuggling.block.splitOn '\n' ≠ smuggling.definitionLines ++ [[]] ∧
    smuggling.block = plainPair.block ∧ smuggling.bindings.entries ≠ plainPair.bindings.entries :=
  ⟨reachable_smuggling, reachable_plainPair, rfl, rfl, rfl, by decide, by decide, by decide, by decide⟩

theorem one_line_per_definition_pair :
    plainPair.Reachable ∧ plainPair.globalBlock = [] ∧ plainPair.SingleLined ∧
    plainPair.block.splitOn '\n' = ["#define A 1".toList, "#define B 2".toList, []] := by
  have hSingle : plainPair.SingleLined := by decide
  obtain ⟨hLines, -⟩ := one_line_per_definition reachable_plainPair rfl
  exact ⟨reachable_plainPair, rfl, hSingle, hLines.mpr hSingle⟩

end Macros

end ShaderLibrary
