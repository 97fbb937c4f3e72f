import ShaderLibrary.Proofs.Cache

/-! Requests alone. While files, macros and the catalog stay as they are, the cache is
not to be seen in the answers, and neither is the order of the requests. -/
namespace ShaderLibrary

namespace Cache

variable {env : Environment} {c : Cache} {v : Value} {asked others : List Value} {id text : Text}

/-- Requests one after the other: their answers, and the cache after all of them. -/
def getAll (c : Cache) (env : Environment) : List Value → List (Except Fault Text) × Cache
  | [] => ([], c)
  | v :: rest =>
    let (run, next) := c.get env v
    (run.outcome :: (next.getAll env rest).1, (next.getAll env rest).2)

/-- The answer to a request without a cache. Only texts are ids. -/
def answerTo (env : Environment) : Value → Except Fault Text
  | .text id => uncached env id
  | v => .error (.invalidId v)

theorem answerTo_of_not_text (h : ∀ id, v ≠ .text id) : answerTo env v = .error (.invalidId v) := by
  cases v with
  | text id => exact absurd rfl (h id)
  | nothing | truth _ | integer _ _ | number _ | list _ | record _ => rfl

/-- The request is for an id in the same file. -/
def AsksFor (asked : List Value) (base : Text) : Prop :=
  ∃ id, .text id ∈ asked ∧ baseOf id = base

/-- The cache holds what the files assemble that have been asked for, and no more. -/
def Mirrors (c : Cache) (env : Environment) (asked : List Value) : Prop :=
  ∀ id text, c.get? id = some text ↔ AsksFor asked (baseOf id) ∧ uncached env id = .ok text

theorem asksFor_cons_text_iff {base : Text} :
    AsksFor (.text id :: asked) base ↔ baseOf id = base ∨ AsksFor asked base := by
  simp only [AsksFor, List.mem_cons, Value.text.injEq]
  constructor
  · rintro ⟨other, rfl | hMem, hBase⟩
    · exact Or.inl hBase
    · exact Or.inr ⟨other, hMem, hBase⟩
  · rintro (hBase | ⟨other, hMem, hBase⟩)
    · exact ⟨id, Or.inl rfl, hBase⟩
    · exact ⟨other, Or.inr hMem, hBase⟩

theorem asksFor_cons_iff_of_not_text {base : Text} (h : ∀ id, v ≠ .text id) :
    AsksFor (v :: asked) base ↔ AsksFor asked base := by
  have hMem : ∀ id, .text id ∈ v :: asked ↔ .text id ∈ asked := by
    intro id
    rw [List.mem_cons, or_iff_right (Ne.symm (h id))]
  simp only [AsksFor, hMem]

theorem mirrors_empty (env : Environment) : Mirrors {} env [] := by
  intro id text
  constructor
  · intro h
    cases h
  · rintro ⟨⟨other, hMem, -⟩, -⟩
    cases hMem

/-- Another request for a file that has been asked for adds nothing. -/
theorem Mirrors.again (h : c.Mirrors env asked) (hAsked : AsksFor asked (baseOf id)) :
    c.Mirrors env (.text id :: asked) := by
  intro other text
  rw [h other text, asksFor_cons_text_iff]
  constructor
  · rintro ⟨hOther, hAnswer⟩
    exact ⟨Or.inr hOther, hAnswer⟩
  · rintro ⟨hBase | hOther, hAnswer⟩
    · rw [hBase] at hAsked
      exact ⟨hAsked, hAnswer⟩
    · exact ⟨hOther, hAnswer⟩

/-- With what one more file assembles, the cache mirrors a request for that file too. -/
theorem Mirrors.insertAll (h : c.Mirrors env asked) (id : Text) :
    (c.insertAll (sectionsIn env id)).Mirrors env (.text id :: asked) := by
  intro other text
  rw [get?_insertAll, asksFor_cons_text_iff]
  cases hOld : c.get? other with
  | some old =>
      obtain ⟨hAsked, hAnswer⟩ := (h other old).mp hOld
      -- an old text and a new one for the same id are both the answer for it
      rw [Option.some_or, hAnswer]
      constructor
      · intro hSame
        cases hSame
        exact ⟨Or.inr hAsked, rfl⟩
      · rintro ⟨-, hSame⟩
        cases hSame
        rfl
  | none =>
      rw [Option.none_or, lookup_sectionsIn_eq_some_iff]
      constructor
      · rintro ⟨hBase, hAnswer⟩
        exact ⟨Or.inl hBase.symm, hAnswer⟩
      · rintro ⟨hBase | hAsked, hAnswer⟩
        · exact ⟨hBase.symm, hAnswer⟩
        · have hKept : c.get? other = some text := (h other text).mpr ⟨hAsked, hAnswer⟩
          rw [hOld] at hKept
          cases hKept

/-- A request is answered as without a cache, and the cache mirrors it too. -/
theorem Mirrors.get (h : c.Mirrors env asked) (v : Value) :
    (c.get env v).1.outcome = answerTo env v ∧ (c.get env v).2.Mirrors env (v :: asked) := by
  by_cases hText : ∃ id, v = .text id
  · obtain ⟨id, rfl⟩ := hText
    cases hKept : c.get? id with
    | some text =>
        obtain ⟨hAsked, hAnswer⟩ := (h id text).mp hKept
        rw [get_of_kept hKept]
        exact ⟨hAnswer.symm, h.again hAsked⟩
    | none =>
        rw [get_of_missing hKept]
        exact ⟨rfl, h.insertAll id⟩
  · have hOther : ∀ id, v ≠ .text id := not_exists.mp hText
    rw [get_of_not_text hOther, answerTo_of_not_text hOther]
    refine ⟨rfl, fun id text => ?_⟩
    rw [asksFor_cons_iff_of_not_text hOther]
    exact h id text

theorem Mirrors.getAll (h : c.Mirrors env asked) (values : List Value) :
    (c.getAll env values).1 = values.map (answerTo env) ∧
      (c.getAll env values).2.Mirrors env (values.reverse ++ asked) := by
  induction values generalizing c asked with
  | nil => exact ⟨rfl, h⟩
  | cons v rest ih =>
      -- what is left to do starts from a cache that mirrors one more request
      obtain ⟨hAnswer, hNext⟩ := h.get v
      obtain ⟨hAnswers, hLast⟩ := ih hNext
      constructor
      · rw [List.map_cons, ← hAnswers, ← hAnswer]
        rfl
      · rw [List.reverse_cons, List.append_assoc]
        exact hLast

/-- From an empty cache, requests are answered as without a cache, each for itself. At
the end the cache holds all that the files assemble which have been asked for. In
another order the same requests get the same answers and leave the same entries. -/
theorem getAll_transparent (env : Environment) (asked : List Value) :
    (getAll {} env asked).1 = asked.map (answerTo env) ∧
    (getAll {} env asked).2.Mirrors env asked ∧
    ∀ others, asked.Perm others →
      (asked.zip (getAll {} env asked).1).Perm (others.zip (getAll {} env others).1) ∧
      (getAll {} env asked).2.texts = (getAll {} env others).2.texts := by
  have hAnswers : ∀ values, (getAll {} env values).1 = values.map (answerTo env) :=
    fun values => ((mirrors_empty env).getAll values).1
  have hMirrors : ∀ values, (getAll {} env values).2.Mirrors env values := by
    intro values id text
    have hReversed : AsksFor (values.reverse ++ []) (baseOf id) ↔ AsksFor values (baseOf id) := by
      simp only [AsksFor, List.append_nil, List.mem_reverse]
    rw [((mirrors_empty env).getAll values).2 id text, hReversed]
  refine ⟨hAnswers asked, hMirrors asked, fun others hPerm => ⟨?_, ?_⟩⟩
  · rw [hAnswers, hAnswers, ← List.map_prod_left_eq_zip, ← List.map_prod_left_eq_zip]
    exact hPerm.map _
  · apply Dictionary.ext_get?
    intro id
    have hAsked : AsksFor asked (baseOf id) ↔ AsksFor others (baseOf id) := by
      simp only [AsksFor, hPerm.mem_iff]
    have hSame : ∀ text, (getAll {} env asked).2.get? id = some text ↔
        (getAll {} env others).2.get? id = some text := by
      intro text
      rw [hMirrors asked id text, hMirrors others id text, hAsked]
    exact Option.ext hSame

/-- Requests for ids that are found, circular, not in their file and without a file. -/
def snakeRequests : List Value :=
  [.text "X.C".toList, .text "X.V".toList, .nothing, .text "X.F".toList, .text "Y.V".toList,
    .text "X.V".toList]

theorem getAll_transparent_snake : snakeRequests.Perm snakeRequests.reverse ∧
    (getAll {} snake snakeRequests).1 = snakeRequests.map (answerTo snake) ∧
    answerTo snake (.text "X.V".toList) =
      .ok (Text.terminateLines ["#line 1".toList, "vertex".toList]) ∧
    answerTo snake (.text "X.C".toList) =
      .error (.problem (.circularInclude ["X.glsl".toList, "X.glsl".toList])) ∧
    (getAll {} snake snakeRequests).2.texts = (getAll {} snake snakeRequests.reverse).2.texts := by
  have hPerm : snakeRequests.Perm snakeRequests.reverse := snakeRequests.reverse_perm.symm
  obtain ⟨hAnswers, -, hOrder⟩ := getAll_transparent snake snakeRequests
  refine ⟨hPerm, hAnswers, ?_, ?_, (hOrder _ hPerm).2⟩
  · rw [answerTo, uncached, fileOf_snake]
    rfl
  · have hFile : fileOf snake "X.C".toList = fileOf snake "X.V".toList := fileOf_congr rfl
    rw [answerTo, uncached, hFile, fileOf_snake]
    rfl

end Cache

end ShaderLibrary
