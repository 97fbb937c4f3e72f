import ShaderLibrary.Effect
import ShaderLibrary.Fault
import ShaderLibrary.Stage
import Mathlib.Data.List.Infix

/-! The stage of a section and the name of its file. The id of a section ends in the name of the
section, so a stage that the end of this name tells is the stage of the section in every file. An
abbreviation is looked for in the whole id, and one in the name of the file counts as well. -/
namespace ShaderLibrary

section Parts

variable {α β : Type} {p x y t : List α} {c : α}

/-- A part that does not contain the separator lies on one side of it. -/
theorem infix_append_cons_iff (hc : c ∉ p) : p <:+: x ++ c :: y ↔ p <:+: x ∨ p <:+: y := by
  constructor
  · intro h
    rcases List.infix_append_iff.mp h with h | h | ⟨front, back, rfl, hFront, hBack⟩
    · exact .inl h
    · rcases List.infix_cons_iff.mp h with h | h
      · cases p with
        | nil => exact .inl (List.nil_infix)
        | cons d p =>
            obtain ⟨rfl, -⟩ := List.cons_prefix_cons.mp h
            exact absurd List.mem_cons_self hc
      · exact .inr h
    · cases back with
      | nil => exact .inl (by simpa using hFront.isInfix)
      | cons d back =>
          obtain ⟨rfl, -⟩ := List.cons_prefix_cons.mp hBack
          simp at hc
  · rintro (h | h)
    · exact h.trans (List.prefix_append x (c :: y)).isInfix
    · exact h.trans ((List.suffix_cons c y).trans (List.suffix_append x (c :: y))).isInfix

/-- An end that does not contain the separator lies behind it. -/
theorem suffix_append_cons_iff (hc : c ∉ p) : p <:+ x ++ c :: y ↔ p <:+ y := by
  have hBehind : y <:+ x ++ c :: y := (List.suffix_cons c y).trans (List.suffix_append x (c :: y))
  refine ⟨fun h => ?_, fun h => h.trans hBehind⟩
  have hWhole : ¬ c :: y <:+ p := fun h => hc (h.subset List.mem_cons_self)
  rcases List.suffix_or_suffix_of_suffix h (List.suffix_append x (c :: y)) with h | h
  · rcases List.suffix_cons_iff.mp h with rfl | h
    · exact absurd List.mem_cons_self hc
    · exact h
  · exact absurd h hWhole

end Parts

namespace Text

theorem contains_iff {p : Text} : ∀ {t : Text}, contains p t = true ↔ p <:+: t
  | [] => by simp [contains]
  | c :: rest => by
      rw [contains, Bool.or_eq_true, List.isPrefixOf_iff_prefix, contains_iff, List.infix_cons_iff]

/-- The two lower case forms of a sigma taken for one. -/
def unfinal (c : Char) : Char := if c = '\u03C2' then '\u03C3' else c

/-- Lower case looks at what is around a character for the form of a sigma only. -/
theorem map_unfinal_lowercaseAfter (before t : Text) :
    (lowercaseAfter before t).map unfinal = (t.flatMap lowerChar).map unfinal := by
  induction t generalizing before with
  | nil => rfl
  | cons c rest ih =>
      have hHead : (if c = capitalSigma then
            if meetsCased before && !meetsCased rest then ['\u03C2'] else ['\u03C3']
          else lowerChar c).map unfinal = (lowerChar c).map unfinal := by
        by_cases hSigma : c = capitalSigma
        · subst hSigma
          rw [if_pos rfl]
          split <;> decide
        · rw [if_neg hSigma]
      rw [lowercaseAfter, List.map_append, ih, hHead, List.flatMap_cons, List.map_append]

/-- A text that is looked for in ids: the dot between the two names is not in it, and nothing in it
depends on what is around it. -/
structure IsKeyword (p : Text) : Prop where
  noDot : '.' ∉ p
  noSigma : '\u03C2' ∉ p ∧ '\u03C3' ∉ p

instance (p : Text) : Decidable (IsKeyword p) :=
  decidable_of_iff ('.' ∉ p ∧ '\u03C2' ∉ p ∧ '\u03C3' ∉ p)
    ⟨fun ⟨hDot, hSigma⟩ => ⟨hDot, hSigma⟩, fun ⟨hDot, hSigma⟩ => ⟨hDot, hSigma⟩⟩

theorem IsKeyword.eq_map_unfinal_iff {p t : Text} (h : IsKeyword p) :
    p = t.map unfinal ↔ p = t := by
  constructor
  · intro hMap
    have hFixed : ∀ c ∈ t, unfinal c = c := by
      intro c hc
      by_cases hFinal : c = '\u03C2'
      · have hMem : unfinal c ∈ p := hMap ▸ List.mem_map_of_mem hc
        rw [unfinal, if_pos hFinal] at hMem
        exact absurd hMem h.noSigma.2
      · rw [unfinal, if_neg hFinal]
    rw [hMap, List.map_congr_left hFixed, List.map_id']
  · rintro rfl
    have hFixed : ∀ c ∈ p, unfinal c = c := fun c hc =>
      if_neg (ne_of_mem_of_not_mem hc h.noSigma.1)
    rw [List.map_congr_left hFixed, List.map_id']

theorem IsKeyword.infix_map_unfinal_iff {p t : Text} (h : IsKeyword p) :
    p <:+: t.map unfinal ↔ p <:+: t := by
  simp only [List.infix_map_iff, h.eq_map_unfinal_iff, exists_eq_right']

theorem IsKeyword.suffix_map_unfinal_iff {p t : Text} (h : IsKeyword p) :
    p <:+ t.map unfinal ↔ p <:+ t := by
  simp only [List.suffix_map_iff, h.eq_map_unfinal_iff, exists_eq_right']

end Text

open Text

namespace Effect

/-- Apart from the forms of a sigma, the lower case of an id is that of its two names. -/
theorem map_unfinal_lowercase_idOf (base name : Text) :
    (idOf base name).lowercase.map unfinal =
      base.lowercase.map unfinal ++ '.' :: name.lowercase.map unfinal := by
  have hDot : lowerChar '.' = ['.'] := by decide
  simp only [lowercase, map_unfinal_lowercaseAfter, idOf, List.flatMap_append, List.flatMap_cons,
    hDot, List.map_append]
  rfl

/-- A word occurs in an id if it occurs in one of the two names. -/
theorem contains_lowercase_idOf {word : Text} (h : IsKeyword word) (base name : Text) :
    contains word (idOf base name).lowercase =
      (contains word base.lowercase || contains word name.lowercase) := by
  rw [Bool.eq_iff_iff, Bool.or_eq_true]
  simp only [contains_iff]
  rw [← h.infix_map_unfinal_iff, map_unfinal_lowercase_idOf, infix_append_cons_iff h.noDot,
    h.infix_map_unfinal_iff, h.infix_map_unfinal_iff]

/-- A word ends an id if it ends the name of the section. -/
theorem isSuffixOf_lowercase_idOf {word : Text} (h : IsKeyword word) (base name : Text) :
    word.isSuffixOf (idOf base name).lowercase = word.isSuffixOf name.lowercase := by
  rw [Bool.eq_iff_iff, List.isSuffixOf_iff_suffix, List.isSuffixOf_iff_suffix,
    ← h.suffix_map_unfinal_iff, map_unfinal_lowercase_idOf, suffix_append_cons_iff h.noDot,
    h.suffix_map_unfinal_iff]

end Effect

namespace Stage

variable {ε : Type}

/-- The abbreviations that tell a stage, all of them together. -/
def abbreviations : Stage → List Text
  | vertex => ["vert".toList]
  | fragment => ["frag".toList]
  | geometry => ["geom".toList]
  | tesselationEvaluation => ["tess".toList, "eval".toList]
  | tesselationControl => ["tess".toList, "control".toList]
  | compute => ["comp".toList]

/-- The abbreviations that come before those of a stage. One of them leads to another stage. -/
def rivals : Stage → List Text
  | vertex => []
  | fragment => ["vert".toList]
  | geometry => ["vert".toList, "frag".toList]
  | tesselationEvaluation => ["vert".toList, "frag".toList, "geom".toList]
  | tesselationControl => ["vert".toList, "frag".toList, "geom".toList, "eval".toList]
  | compute => ["vert".toList, "frag".toList, "geom".toList, "tess".toList]

theorem ofAbbreviation?_eq_some_iff {id : Text} {stage : Stage} :
    ofAbbreviation? id = some stage ↔
      (∀ word ∈ stage.abbreviations, contains word id = true) ∧
        ∀ word ∈ stage.rivals, contains word id = false := by
  unfold ofAbbreviation?
  cases stage <;>
    simp only [abbreviations, rivals, List.forall_mem_cons, List.not_mem_nil, false_imp_iff,
      forall_const, and_true]
  -- what counts is which words occur, so the words themselves are forgotten
  all_goals
    generalize contains "vert".toList id = vert
    generalize contains "frag".toList id = frag
    generalize contains "geom".toList id = geom
    generalize contains "tess".toList id = tess
    generalize contains "eval".toList id = eval
    generalize contains "control".toList id = control
    generalize contains "comp".toList id = comp
    grind

theorem isKeyword_ending (stage : Stage) : IsKeyword stage.ending := by
  cases stage <;> decide

theorem isKeyword_abbreviation (stage : Stage) : ∀ word ∈ stage.abbreviations, IsKeyword word := by
  cases stage <;> decide

theorem isKeyword_rival (stage : Stage) : ∀ word ∈ stage.rivals, IsKeyword word := by
  cases stage <;> decide

/-- The end of an id is the end of the name of the section. -/
theorem ofEnding?_idOf (base name : Text) :
    ofEnding? (Effect.idOf base name).lowercase = ofEnding? name.lowercase := by
  unfold ofEnding?
  congr 1
  funext stage
  exact Effect.isSuffixOf_lowercase_idOf (isKeyword_ending stage) base name

/-- A stage that an abbreviation in the name of a section tells is that of the section, unless the
name of the file tells another one before. -/
theorem ofAbbreviation?_idOf_eq_some_iff {base name : Text} {stage : Stage}
    (h : ofAbbreviation? name.lowercase = some stage) :
    ofAbbreviation? (Effect.idOf base name).lowercase = some stage ↔
      ∀ word ∈ stage.rivals, contains word base.lowercase = false := by
  obtain ⟨hMet, hFree⟩ := ofAbbreviation?_eq_some_iff.mp h
  rw [ofAbbreviation?_eq_some_iff]
  constructor
  · rintro ⟨-, hRivals⟩ word hWord
    have hNowhere := hRivals word hWord
    rw [Effect.contains_lowercase_idOf (isKeyword_rival stage word hWord), Bool.or_eq_false_iff]
      at hNowhere
    exact hNowhere.1
  · intro hBase
    constructor
    · intro word hWord
      rw [Effect.contains_lowercase_idOf (isKeyword_abbreviation stage word hWord), hMet word hWord,
        Bool.or_true]
    · intro word hWord
      rw [Effect.contains_lowercase_idOf (isKeyword_rival stage word hWord), hBase word hWord,
        hFree word hWord, Bool.or_false]

/-- An id is taken without a record exactly for a stage that it tells. -/
theorem ofId_eq_pure_iff {id : Text} {stage : Stage} :
    (ofId id : Traced ε Stage) = pure stage ↔ ofId? id = some stage := by
  unfold ofId
  cases ofId? id with
  | none =>
      refine ⟨fun h => ?_, fun h => nomatch h⟩
      cases congrArg Traced.events h
  | some told =>
      refine ⟨fun h => ?_, fun h => ?_⟩
      · cases congrArg Traced.outcome h
        rfl
      · cases h
        rfl

/-- A section of a file whose name tells a stage. If the end of the name tells it, it is the stage
of the section whatever the name of the file is. If an abbreviation in the name tells it, it is the
stage of the section exactly if the name of the file has none of the abbreviations that come
before. -/
theorem stage_of_section (base name : Text) (stage : Stage)
    (h : (ofId name : Traced ε Stage) = pure stage) :
    (ofEnding? name.lowercase = some stage →
      (ofId (Effect.idOf base name) : Traced ε Stage) = pure stage) ∧
    (ofEnding? name.lowercase = none →
      ((ofId (Effect.idOf base name) : Traced ε Stage) = pure stage ↔
        ∀ word ∈ stage.rivals, contains word base.lowercase = false)) := by
  simp only [ofId_eq_pure_iff, ofId?, ofEnding?_idOf] at h ⊢
  constructor
  · intro hEnding
    rw [hEnding, Option.some_or]
  · intro hEnding
    rw [hEnding, Option.none_or] at h ⊢
    exact ofAbbreviation?_idOf_eq_some_iff h

/-- In a file for a vertical blur, the section for fragments is taken for a vertex shader, and there
is no record of it. -/
theorem base_tells_before_section :
    '.' ∉ "Vertical".toList ∧
    (ofId "FragMain".toList : Traced Fault Stage) = pure fragment ∧
    (ofId (Effect.idOf "Vertical".toList "FragMain".toList) : Traced Fault Stage) =
      pure vertex := by
  refine ⟨by decide, ?_, ?_⟩
  · rw [ofId_eq_pure_iff]
    decide +kernel
  · rw [ofId_eq_pure_iff]
    decide +kernel

/-- An ending is not affected by the name of the file, and an abbreviation only by one that comes
before it. -/
theorem stage_of_section_terrain :
    (ofId (Effect.idOf "Vertical".toList "Fragment".toList) : Traced Fault Stage) = pure fragment ∧
    (ofId (Effect.idOf "Terrain".toList "TessEval".toList) : Traced Fault Stage) =
      pure tesselationEvaluation ∧
    (ofId (Effect.idOf "Geometry".toList "TessEval".toList) : Traced Fault Stage) ≠
      pure tesselationEvaluation := by
  have hFragment : (ofId "Fragment".toList : Traced Fault Stage) = pure fragment :=
    ofId_eq_pure_iff.mpr (by decide +kernel)
  have hEval : (ofId "TessEval".toList : Traced Fault Stage) = pure tesselationEvaluation :=
    ofId_eq_pure_iff.mpr (by decide +kernel)
  have hNoEnding : ofEnding? (lowercase "TessEval".toList) = none := by decide +kernel
  refine ⟨(stage_of_section _ _ _ hFragment).1 (by decide +kernel),
    ((stage_of_section _ _ _ hEval).2 hNoEnding).mpr (by decide +kernel), fun h => ?_⟩
  exact absurd (((stage_of_section _ _ _ hEval).2 hNoEnding).mp h) (by decide +kernel)

end Stage

end ShaderLibrary
