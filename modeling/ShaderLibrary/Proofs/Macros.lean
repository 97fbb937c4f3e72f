import Mathlib.Data.List.Basic
import ShaderLibrary.Macros
import ShaderLibrary.Proofs.Pieces
import ShaderLibrary.Proofs.Words

/-! The macros in front of a section, line by line. A key is one word, so a definition begins
a line. What its value has after a newline follows as it is, and so does the global block. -/
namespace ShaderLibrary

namespace Macros

variable {m : Macros} {key line : Text}

/-- The lines that define the macros, in the ascending order of their keys. -/
def definitionLines (m : Macros) : List Text :=
  m.bindings.entries.map fun entry => "#define ".toList ++ entry.1 ++ ' ' :: entry.2

theorem block_eq (m : Macros) : m.block = Text.terminateLines m.definitionLines ++ m.globalBlock := by
  rw [block, definitionLines, Text.terminateLines, List.flatMap_map]
  rfl

/-- The lines that stand in front of a section as they come: those of a value after its first
one, and those of the global block. -/
def carriedLines (m : Macros) : List Text :=
  m.bindings.values.flatMap (fun value => (value.splitOn '\n').tail) ++ m.globalBlock.splitOn '\n'

/-- Macros as they come about: they are defined and taken back, and given a global block. -/
inductive Reachable : Macros → Prop where
  | empty : Reachable {}
  | define {m next : Macros} {key value : Value} (before : Reachable m)
      (hDone : m.define key value = .ok next) : Reachable next
  | undefine {m : Macros} (before : Reachable m) (key : Text) : Reachable (m.undefine key)
  | load {m : Macros} (before : Reachable m) (globalBlock : Text) :
      Reachable { m with globalBlock }

/-- Only a text of one word is taken as a key. -/
theorem define_eq_ok_iff {key value : Value} {next : Macros} :
    m.define key value = .ok next ↔ ∃ name, key = .text name ∧ name.words = [name] ∧
      next = { m with bindings := m.bindings.insert name value.toText } := by
  rw [define]
  cases key with
  | text name =>
      by_cases hWord : name.words = [name]
      · simp [keyOf?, hWord, eq_comm]
      · simp [keyOf?, hWord]
  | nothing | truth _ | integer _ _ | number _ | list _ | record _ => simp [keyOf?]

theorem Reachable.words_eq (h : m.Reachable) (hKey : key ∈ m.keys) : key.words = [key] := by
  induction h with
  | empty => cases hKey
  | define before hDone ih =>
      obtain ⟨name, -, hWord, rfl⟩ := define_eq_ok_iff.mp hDone
      rcases Dictionary.mem_keys_insertEntry hKey with rfl | hOld
      · exact hWord
      · exact ih hOld
  | undefine before other ih =>
      obtain ⟨entry, hEntry, rfl⟩ := List.mem_map.mp hKey
      exact ih (List.mem_map_of_mem (List.mem_filter.mp hEntry).1)
  | load before globalBlock ih => exact ih hKey

/-- A definition is no version directive, since the two differ in their second character. -/
theorem isVersionLine_of_definition (rest : Text) :
    isVersionLine ("#define ".toList ++ rest) = false := rfl

/-- The first line of a definition begins with the directive, and the others come from its value. -/
theorem mem_tail_of_mem_definition {value : Text} (hKey : '\n' ∉ key)
    (hLine : line ∈ ("#define ".toList ++ key ++ ' ' :: value).splitOn '\n')
    (hVersion : isVersionLine line = true) : line ∈ (value.splitOn '\n').tail := by
  have hFront : '\n' ∉ "#define ".toList ++ key ++ [' '] := by simp [hKey]
  have hText : "#define ".toList ++ key ++ ' ' :: value =
      "#define ".toList ++ key ++ [' '] ++ value := by simp
  rw [hText, Text.splitOn_append_of_notMem hFront] at hLine
  rcases List.mem_cons.mp hLine with rfl | hLine
  · rw [List.append_assoc, List.append_assoc, isVersionLine_of_definition] at hVersion
    cases hVersion
  · exact hLine

theorem splitOn_block (m : Macros) :
    m.block.splitOn '\n' = m.definitionLines.flatMap (·.splitOn '\n') ++ m.globalBlock.splitOn '\n' := by
  rw [block_eq]
  induction m.definitionLines with
  | nil => rfl
  | cons line rest ih =>
      have hText : Text.terminateLines (line :: rest) ++ m.globalBlock =
          line ++ '\n' :: (Text.terminateLines rest ++ m.globalBlock) := by
        simp [Text.terminateLines]
      rw [hText, List.splitOn_append_cons_self, ih, List.flatMap_cons, List.append_assoc]

/-- A version line in front of a section, if it is not lifted, is one that the macros carry. -/
theorem Reachable.mem_carriedLines (h : m.Reachable) (hLine : line ∈ m.block.splitOn '\n')
    (hVersion : isVersionLine line = true) : line ∈ m.carriedLines := by
  rw [splitOn_block] at hLine
  rcases List.mem_append.mp hLine with hLine | hLine
  · obtain ⟨definition, hDefinition, hLine⟩ := List.mem_flatMap.mp hLine
    obtain ⟨entry, hEntry, rfl⟩ := List.mem_map.mp hDefinition
    have hKey := Text.newline_notMem_of_words (h.words_eq (List.mem_map_of_mem hEntry))
    exact List.mem_append_left _ (List.mem_flatMap.mpr
      ⟨entry.2, List.mem_map_of_mem hEntry, mem_tail_of_mem_definition hKey hLine hVersion⟩)
  · exact List.mem_append_right _ hLine

end Macros

end ShaderLibrary
