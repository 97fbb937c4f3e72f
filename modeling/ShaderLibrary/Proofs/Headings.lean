import ShaderLibrary.Section
import ShaderLibrary.Proofs.Lines

/-! Headings of effect files. The cut of a file at its headings is said without the
function that makes it: the blocks put one after the other are the file again, and only
their first lines are headings. -/
namespace ShaderLibrary

namespace Section

/-- A heading in a file, with the lines below it up to the next one. -/
structure Block where
  heading : Text
  lines : List Text

namespace Block

/-- The lines of the block as they stand in the file. -/
def source (b : Block) : List Text := b.heading :: b.lines

/-- The section of the block, named by what follows the marker. -/
def part (b : Block) : Section := ⟨Text.trim (b.heading.drop marker.length), b.lines⟩

end Block

variable {lines rest opening before : List Text} {blocks others : List Block} {line : Text}

/-- The lines are `opening` and then the blocks, and the headings of the blocks are
the only lines that start with the marker. -/
structure CutsInto (lines opening : List Text) (blocks : List Block) : Prop where
  joined : opening ++ blocks.flatMap Block.source = lines
  marked : ∀ b ∈ blocks, marker <+: b.heading
  unmarked : ∀ line ∈ opening ++ blocks.flatMap Block.lines, ¬ marker <+: line

/-- The sections of a file that is cut like this. What opens it is left out, unless
there is nothing else. -/
def ofBlocks (opening : List Text) : List Block → List Section
  | [] => [⟨unnamed, opening⟩]
  | blocks => blocks.map Block.part

theorem cutsInto_nil_iff : CutsInto [] opening blocks ↔ opening = [] ∧ blocks = [] := by
  constructor
  · rintro ⟨hJoined, -, -⟩
    obtain ⟨hOpening, hBlocks⟩ := List.append_eq_nil_iff.mp hJoined
    refine ⟨hOpening, List.eq_nil_iff_forall_not_mem.mpr fun b hb => ?_⟩
    exact List.cons_ne_nil _ _ (List.flatMap_eq_nil_iff.mp hBlocks b hb)
  · rintro ⟨rfl, rfl⟩
    exact ⟨rfl, by simp, by simp⟩

/-- A heading starts a block, to which the lines before the next heading belong. -/
theorem cutsInto_cons_iff : CutsInto (line :: rest) opening blocks ↔
    (marker <+: line ∧ opening = [] ∧
      ∃ inner later, blocks = ⟨line, inner⟩ :: later ∧ CutsInto rest inner later) ∨
    (¬ marker <+: line ∧ ∃ before, opening = line :: before ∧ CutsInto rest before blocks) := by
  constructor
  · rintro ⟨hJoined, hMarked, hUnmarked⟩
    cases opening with
    | nil =>
        cases blocks with
        | nil => cases hJoined
        | cons b later =>
            obtain ⟨hLine, hRest⟩ := List.cons.inj hJoined
            subst hLine
            refine Or.inl ⟨hMarked b List.mem_cons_self, rfl, b.lines, later, rfl, hRest, ?_, ?_⟩
            · exact fun c hc => hMarked c (List.mem_cons_of_mem _ hc)
            · exact fun other hOther => hUnmarked other (by simpa using hOther)
    | cons first before =>
        obtain ⟨hLine, hRest⟩ := List.cons.inj hJoined
        subst hLine
        refine Or.inr ⟨hUnmarked first List.mem_cons_self, before, rfl, hRest, hMarked, ?_⟩
        exact fun other hOther => hUnmarked other (List.mem_cons_of_mem _ hOther)
  · rintro (⟨hLine, rfl, inner, later, rfl, hRest⟩ | ⟨hLine, before, rfl, hRest⟩)
    · refine ⟨?_, ?_, ?_⟩
      · simpa [Block.source] using hRest.joined
      · intro b hb
        rcases List.mem_cons.mp hb with rfl | hb
        · exact hLine
        · exact hRest.marked b hb
      · exact fun other hOther => hRest.unmarked other (by simpa using hOther)
    · refine ⟨?_, hRest.marked, ?_⟩
      · simpa using hRest.joined
      · intro other hOther
        rcases List.mem_cons.mp hOther with rfl | hOther
        · exact hLine
        · exact hRest.unmarked other hOther

theorem exists_cutsInto (lines : List Text) : ∃ opening blocks, CutsInto lines opening blocks := by
  induction lines with
  | nil => exact ⟨[], [], cutsInto_nil_iff.mpr ⟨rfl, rfl⟩⟩
  | cons line rest ih =>
      obtain ⟨opening, blocks, hRest⟩ := ih
      by_cases hLine : marker <+: line
      · exact ⟨[], _, cutsInto_cons_iff.mpr (Or.inl ⟨hLine, rfl, opening, blocks, rfl, hRest⟩)⟩
      · exact ⟨_, blocks, cutsInto_cons_iff.mpr (Or.inr ⟨hLine, opening, rfl, hRest⟩)⟩

theorem CutsInto.unique (h : CutsInto lines opening blocks) (h' : CutsInto lines before others) :
    opening = before ∧ blocks = others := by
  induction lines generalizing opening blocks before others with
  | nil =>
      obtain ⟨rfl, rfl⟩ := cutsInto_nil_iff.mp h
      obtain ⟨rfl, rfl⟩ := cutsInto_nil_iff.mp h'
      exact ⟨rfl, rfl⟩
  | cons line rest ih =>
      rcases cutsInto_cons_iff.mp h with
        ⟨hLine, rfl, inner, later, rfl, hRest⟩ | ⟨hLine, first, rfl, hRest⟩
      · rcases cutsInto_cons_iff.mp h' with
          ⟨-, rfl, inner', later', rfl, hRest'⟩ | ⟨hLine', -⟩
        · obtain ⟨rfl, rfl⟩ := ih hRest hRest'
          exact ⟨rfl, rfl⟩
        · exact absurd hLine hLine'
      · rcases cutsInto_cons_iff.mp h' with ⟨hLine', -⟩ | ⟨-, first', rfl, hRest'⟩
        · exact absurd hLine' hLine
        · obtain ⟨rfl, rfl⟩ := ih hRest hRest'
          exact ⟨rfl, rfl⟩

theorem nameOn?_of_prefix (h : marker <+: line) :
    nameOn? line = some (Text.trim (line.drop marker.length)) := by
  rw [nameOn?, if_pos (List.isPrefixOf_iff_prefix.mpr h)]

theorem nameOn?_of_not_prefix (h : ¬ marker <+: line) : nameOn? line = none := by
  rw [nameOn?, if_neg (mt List.isPrefixOf_iff_prefix.mp h)]

theorem CutsInto.cut_eq (h : CutsInto lines opening blocks) :
    cut lines = (opening, blocks.map Block.part) := by
  induction lines generalizing opening blocks with
  | nil =>
      obtain ⟨rfl, rfl⟩ := cutsInto_nil_iff.mp h
      rfl
  | cons line rest ih =>
      rcases cutsInto_cons_iff.mp h with
        ⟨hLine, rfl, inner, later, rfl, hRest⟩ | ⟨hLine, before, rfl, hRest⟩
      · simp only [cut, ih hRest, nameOn?_of_prefix hLine]
        rfl
      · simp only [cut, ih hRest, nameOn?_of_not_prefix hLine]

theorem CutsInto.ofLines_eq (h : CutsInto lines opening blocks) :
    ofLines lines = ofBlocks opening blocks := by
  rw [ofLines, h.cut_eq]
  cases blocks with
  | nil => rfl
  | cons b later => rfl

theorem CutsInto.heading_iff (h : CutsInto lines opening blocks) :
    (line ∈ lines ∧ marker <+: line) ↔ ∃ b ∈ blocks, b.heading = line := by
  constructor
  · rintro ⟨hMem, hMarker⟩
    rw [← h.joined, List.mem_append, List.mem_flatMap] at hMem
    rcases hMem with hOpening | ⟨b, hb, hLine⟩
    · exact absurd hMarker (h.unmarked line (List.mem_append_left _ hOpening))
    · rcases List.mem_cons.mp hLine with hHeading | hInner
      · exact ⟨b, hb, hHeading.symm⟩
      · have hMem : line ∈ blocks.flatMap Block.lines := List.mem_flatMap.mpr ⟨b, hb, hInner⟩
        exact absurd hMarker (h.unmarked line (List.mem_append_right _ hMem))
  · rintro ⟨b, hb, rfl⟩
    rw [← h.joined]
    have hMem : b.heading ∈ blocks.flatMap Block.source :=
      List.mem_flatMap.mpr ⟨b, hb, List.mem_cons_self⟩
    exact ⟨List.mem_append_right _ hMem, h.marked b hb⟩

/-- A heading of the file gives the name, or the file has no heading and the name is
that of its only section. -/
def NamedIn (source name : Text) : Prop :=
  (∃ line ∈ source.lines, marker <+: line ∧ Text.trim (line.drop marker.length) = name) ∨
    ((∀ line ∈ source.lines, ¬ marker <+: line) ∧ name = unnamed)

theorem namedIn_iff {source name : Text} :
    NamedIn source name ↔ ∃ part ∈ ofText source, part.name = name := by
  obtain ⟨opening, blocks, hCut⟩ := exists_cutsInto source.lines
  rw [ofText, hCut.ofLines_eq]
  have hHeading : (∃ line ∈ source.lines, marker <+: line ∧
      Text.trim (line.drop marker.length) = name) ↔ ∃ b ∈ blocks, b.part.name = name := by
    constructor
    · rintro ⟨line, hMem, hMarker, hName⟩
      obtain ⟨b, hb, rfl⟩ := hCut.heading_iff.mp ⟨hMem, hMarker⟩
      exact ⟨b, hb, hName⟩
    · rintro ⟨b, hb, hName⟩
      obtain ⟨hMem, hMarker⟩ := hCut.heading_iff.mpr ⟨b, hb, rfl⟩
      exact ⟨b.heading, hMem, hMarker, hName⟩
  rw [NamedIn, hHeading]
  cases blocks with
  | nil =>
      have hNone : ∀ line ∈ source.lines, ¬ marker <+: line := by
        intro line hMem hMarker
        obtain ⟨b, hb, -⟩ := hCut.heading_iff.mp ⟨hMem, hMarker⟩
        cases hb
      rw [and_iff_right hNone]
      simp [ofBlocks, eq_comm]
  | cons first later =>
      have hSome : ¬ ∀ line ∈ source.lines, ¬ marker <+: line := by
        intro hNone
        obtain ⟨hMem, hMarker⟩ := hCut.heading_iff.mpr ⟨first, List.mem_cons_self, rfl⟩
        exact hNone _ hMem hMarker
      have hParts : ofBlocks opening (first :: later) = (first :: later).map Block.part := rfl
      rw [or_iff_left (not_and_of_not_left _ hSome), hParts]
      constructor
      · rintro ⟨b, hb, hName⟩
        exact ⟨b.part, List.mem_map_of_mem hb, hName⟩
      · rintro ⟨part, hPart, hName⟩
        obtain ⟨b, hb, rfl⟩ := List.mem_map.mp hPart
        exact ⟨b, hb, hName⟩

/-- A file whose only section is `part`. -/
def OnlyIn (part : Section) (source : Text) : Prop :=
  ∃ opening blocks, CutsInto source.lines opening blocks ∧ ofBlocks opening blocks = [part]

theorem OnlyIn.ofText_eq {part : Section} {source : Text} (h : part.OnlyIn source) :
    ofText source = [part] := by
  obtain ⟨opening, blocks, hCut, hParts⟩ := h
  rw [ofText, hCut.ofLines_eq, hParts]

/-- Every section of a file can be put into a file of its own. -/
theorem exists_onlyIn {source : Text} {part : Section} (hPart : part ∈ ofText source) :
    ∃ own, part.OnlyIn own := by
  obtain ⟨opening, blocks, hCut⟩ := exists_cutsInto source.lines
  rw [ofText, hCut.ofLines_eq] at hPart
  cases blocks with
  | nil =>
      rw [List.mem_singleton.mp hPart]
      exact ⟨source, opening, [], hCut, rfl⟩
  | cons first later =>
      obtain ⟨b, hb, rfl⟩ := List.mem_map.mp hPart
      have hClean : ∀ line ∈ b.source, '\n' ∉ line := by
        intro line hLine
        have hMem : line ∈ source.lines := by
          rw [← hCut.joined]
          exact List.mem_append_right _ (List.mem_flatMap.mpr ⟨b, hb, hLine⟩)
        exact Text.newline_notMem_of_mem_lines hMem
      obtain ⟨own, hOwn⟩ := Text.exists_lines_eq hClean
      refine ⟨own, [], [b], ⟨?_, ?_, ?_⟩, rfl⟩
      · simpa using hOwn.symm
      · intro c hc
        rw [List.mem_singleton.mp hc]
        exact hCut.marked b hb
      · intro line hLine
        have hMem : line ∈ b.lines := by simpa using hLine
        exact hCut.unmarked line (List.mem_append_right _ (List.mem_flatMap.mpr ⟨b, hb, hMem⟩))

end Section

end ShaderLibrary
