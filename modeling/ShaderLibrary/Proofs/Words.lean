import Mathlib.Data.List.Basic
import ShaderLibrary.Text.Blank

/-! Words, trimmed texts and quoted names. Blanks only separate words, so it does not matter how many
of them there are, and what stands around a trimmed text or outside of the quotes is not seen. -/
namespace ShaderLibrary.Text

variable {s t before after name : Text} {c : Char}

/-- The text is made of blanks. -/
def AllBlank (t : Text) : Prop := ∀ c ∈ t, isBlank c = true

/-- The text is one word, without blanks at its ends or inside. -/
def IsWord (t : Text) : Prop := t ≠ [] ∧ ∀ c ∈ t, isBlank c = false

instance (t : Text) : Decidable (AllBlank t) :=
  decidable_of_iff (t.all isBlank = true) List.all_eq_true

instance (t : Text) : Decidable (IsWord t) :=
  decidable_of_iff (t.isEmpty = false ∧ t.all (!isBlank ·) = true) (by simp [IsWord])

/-- A text between separators has no separator in it. -/
theorem eq_false_of_mem_splitOnP {p : Char → Bool} {part : Text} (hPart : part ∈ t.splitOnP p)
    (hMem : c ∈ part) : p c = false := by
  induction t generalizing part with
  | nil =>
      rw [List.splitOnP_nil, List.mem_singleton] at hPart
      subst hPart
      cases hMem
  | cons d rest ih =>
      rw [List.splitOnP_cons_eq_if_modifyHead] at hPart
      split at hPart
      · rcases List.mem_cons.mp hPart with rfl | hPart
        · cases hMem
        · exact ih hPart hMem
      · next hChar =>
          obtain ⟨first, others, hParts⟩ := List.exists_cons_of_ne_nil (List.splitOnP_ne_nil p rest)
          rw [hParts] at ih hPart
          rcases List.mem_cons.mp hPart with rfl | hPart
          · rcases List.mem_cons.mp hMem with rfl | hMem
            · exact Bool.eq_false_iff.mpr hChar
            · exact ih List.mem_cons_self hMem
          · exact ih (List.mem_cons_of_mem _ hPart) hMem

theorem words_eq_singleton_iff : t.words = [t] ↔ t.IsWord := by
  constructor
  · intro h
    have hWord : t ∈ t.words := by
      rw [h]
      exact List.mem_singleton_self t
    obtain ⟨hPart, hNe⟩ := List.mem_filter.mp hWord
    exact ⟨of_decide_eq_true hNe, fun c => eq_false_of_mem_splitOnP hPart⟩
  · rintro ⟨hNe, hWord⟩
    rw [words, List.splitOnP_eq_singleton hWord]
    simp [hNe]

/-- There is no blank in a word. -/
theorem notMem_of_words (hBlank : isBlank c = true) (h : t.words = [t]) : c ∉ t := by
  intro hMem
  rw [(words_eq_singleton_iff.mp h).2 c hMem] at hBlank
  cases hBlank

theorem newline_notMem_of_words (h : t.words = [t]) : '\n' ∉ t := notMem_of_words (by decide) h

/-- A blank separates the words in front of it from those behind it. -/
theorem words_append_cons (s t : Text) (h : isBlank c = true) :
    (s ++ c :: t).words = s.words ++ t.words := by
  rw [words, List.splitOnP_append_cons s t h, List.filter_append]
  rfl

theorem words_blank_append (h : s.AllBlank) (t : Text) : (s ++ t).words = t.words := by
  induction s with
  | nil => rfl
  | cons c rest ih =>
      obtain ⟨hFirst, hRest⟩ := List.forall_mem_cons.mp h
      rw [List.cons_append, ← List.nil_append (c :: (rest ++ t)), words_append_cons _ _ hFirst, ih hRest]
      rfl

theorem words_append_blank (s : Text) (h : t.AllBlank) : (s ++ t).words = s.words := by
  cases t with
  | nil => rw [List.append_nil]
  | cons c rest =>
      obtain ⟨hFirst, hRest⟩ := List.forall_mem_cons.mp h
      have hNone : words rest = [] := by
        rw [← List.append_nil rest, words_blank_append hRest]
        rfl
      rw [words_append_cons s rest hFirst, hNone, List.append_nil]

/-- Neither the first nor the last character is blank. -/
def Trimmed (t : Text) : Prop :=
  (∀ c ∈ t.head?, isBlank c = false) ∧ ∀ c ∈ t.getLast?, isBlank c = false

theorem dropWhile_isBlank_of_head (h : ∀ c ∈ t.head?, isBlank c = false) :
    t.dropWhile isBlank = t := by
  cases t with
  | nil => rfl
  | cons c rest => simp [h c rfl]

/-- Blanks around a text are trimmed off, and nothing of the text is. -/
theorem trim_append (hBefore : before.AllBlank) (h : t.Trimmed) (hAfter : after.AllBlank) :
    trim (before ++ t ++ after) = t := by
  obtain ⟨hFirst, hLast⟩ := h
  rw [trim, List.append_assoc, List.dropWhile_append_of_pos hBefore]
  cases t with
  | nil =>
      have hNone : after.dropWhile isBlank = [] := by
        rw [← List.append_nil after, List.dropWhile_append_of_pos hAfter]
        rfl
      rw [List.nil_append, hNone]
      rfl
  | cons c rest =>
      have hHead : (c :: rest ++ after).dropWhile isBlank = c :: rest ++ after :=
        dropWhile_isBlank_of_head hFirst
      have hBack : ∀ c ∈ after.reverse, isBlank c = true :=
        fun c hMem => hAfter c (List.mem_reverse.mp hMem)
      have hTail : (c :: rest).reverse.dropWhile isBlank = (c :: rest).reverse := by
        apply dropWhile_isBlank_of_head
        rw [List.head?_reverse]
        exact hLast
      rw [hHead, List.reverse_append, List.dropWhile_append_of_pos hBack, hTail, List.reverse_reverse]

theorem cut_of_notMem (h : c ∉ before) (after : Text) :
    cut c (before ++ c :: after) = (before, after) := by
  have hBefore : ∀ d ∈ before, (d != c) = true :=
    fun d hMem => bne_iff_ne.mpr fun hSame => h (hSame ▸ hMem)
  rw [cut, List.takeWhile_append_of_pos hBefore, List.dropWhile_append_of_pos hBefore]
  simp

/-- Where the character does not occur, there is nothing behind it. -/
theorem cut_eq_self_of_notMem (h : c ∉ t) : cut c t = (t, []) := by
  have hAll : ∀ d ∈ t, (d != c) = true :=
    fun d hMem => bne_iff_ne.mpr fun hSame => h (hSame ▸ hMem)
  rw [cut, ← List.append_nil t, List.takeWhile_append_of_pos hAll, List.dropWhile_append_of_pos hAll]
  simp

/-- What stands between the first and the last quote may hold quotes itself. -/
theorem betweenQuotes?_append (hBefore : doubleQuote ∉ before) (name : Text)
    (hAfter : doubleQuote ∉ after) :
    betweenQuotes? (before ++ doubleQuote :: (name ++ doubleQuote :: after)) = some name := by
  have hBack : ∀ d ∈ after.reverse, (d != doubleQuote) = true :=
    fun d hMem => bne_iff_ne.mpr fun hSame => hAfter (hSame ▸ List.mem_reverse.mp hMem)
  have hReverse : (name ++ doubleQuote :: after).reverse =
      after.reverse ++ doubleQuote :: name.reverse := by simp
  rw [betweenQuotes?, cut_of_notMem hBefore]
  simp only [hReverse, List.dropWhile_append_of_pos hBack]
  simp

theorem betweenQuotes?_of_notMem (h : doubleQuote ∉ t) : betweenQuotes? t = none := by
  rw [betweenQuotes?, cut_eq_self_of_notMem h]
  simp

end ShaderLibrary.Text
