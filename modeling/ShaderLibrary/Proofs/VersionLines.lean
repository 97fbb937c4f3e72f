import ShaderLibrary.Library
import ShaderLibrary.Proofs.Cache
import ShaderLibrary.Proofs.Hoisting
import ShaderLibrary.Proofs.LineNumbers
import ShaderLibrary.Proofs.Macros

/-! Version lines. Those of the sources come first in an assembled text, each of them once.
The macros are put in as they are: a version line that they carry stays where it is, and
then it decides whether the whole text still has its version lines first. -/
namespace ShaderLibrary

variable {env : Environment} {lines : List Text} {line : Text} {visits : List Visit} {number : Int}

/-- All version lines come before all other lines, and no two of them are equal. -/
def VersionsFirst (lines : List Text) : Prop :=
  (lines.Pairwise fun a b => isVersionLine b = true → isVersionLine a = true) ∧
    (lines.filter isVersionLine).Nodup

instance (lines : List Text) : Decidable (VersionsFirst lines) := inferInstanceAs (Decidable (_ ∧ _))

theorem versionsFirst_of_none (h : ∀ line ∈ lines, isVersionLine line = false) :
    VersionsFirst lines := by
  have hFilter : lines.filter isVersionLine = [] := by
    refine List.filter_eq_nil_iff.mpr fun line hLine => ?_
    rw [h line hLine]
    exact Bool.false_ne_true
  refine ⟨List.pairwise_of_forall_mem_list fun _ _ b hb hVersion => ?_, ?_⟩
  · rw [h b hb] at hVersion
    cases hVersion
  · rw [hFilter]
    exact List.nodup_nil

theorem versionsFirst_of_all (h : ∀ line ∈ lines, isVersionLine line = true)
    (hNodup : lines.Nodup) : VersionsFirst lines :=
  ⟨List.pairwise_of_forall_mem_list fun a ha _ _ _ => h a ha, hNodup.filter _⟩

/-- A version line may stand below other lines if these are other version lines. -/
theorem versionsFirst_append_iff {above below : List Text} :
    VersionsFirst (above ++ below) ↔ VersionsFirst above ∧ VersionsFirst below ∧
      ∀ line ∈ below, isVersionLine line = true →
        (∀ other ∈ above, isVersionLine other = true) ∧ line ∉ above := by
  simp only [VersionsFirst, List.pairwise_append, List.filter_append, List.nodup_append]
  constructor
  · rintro ⟨⟨hAbove, hBelow, hOrder⟩, hAboveOnce, hBelowOnce, hOther⟩
    refine ⟨⟨hAbove, hAboveOnce⟩, ⟨hBelow, hBelowOnce⟩, fun line hLine hVersion => ?_⟩
    refine ⟨fun other hOther => hOrder other hOther line hLine hVersion, fun hMem => ?_⟩
    exact hOther line (List.mem_filter.mpr ⟨hMem, hVersion⟩) line
      (List.mem_filter.mpr ⟨hLine, hVersion⟩) rfl
  · rintro ⟨⟨hAbove, hAboveOnce⟩, ⟨hBelow, hBelowOnce⟩, hLines⟩
    refine ⟨⟨hAbove, hBelow, fun other hOther line hLine hVersion =>
      (hLines line hLine hVersion).1 other hOther⟩, hAboveOnce, hBelowOnce, ?_⟩
    rintro line hMem _ hLine rfl
    obtain ⟨hLine, hVersion⟩ := List.mem_filter.mp hLine
    exact (hLines line hLine hVersion).2 (List.mem_filter.mp hMem).1

/-- The lines for the top are put in order, so that the version lines come first. -/
theorem Preamble.versionsFirst_inOrder (p : Preamble) : VersionsFirst p.inOrder := by
  have hRest : ∀ line ∈ p.lines.filter (!isVersionLine ·), isVersionLine line = false :=
    fun line hLine => by simpa using (List.mem_filter.mp hLine).2
  refine versionsFirst_append_iff.mpr ⟨?_, versionsFirst_of_none hRest, fun line hLine hVersion => ?_⟩
  · exact versionsFirst_of_all (fun line hLine => (List.mem_filter.mp hLine).2) (p.distinct.filter _)
  · rw [hRest line hLine] at hVersion
    cases hVersion

/-- If no line has a newline in it, no line that occurs in them or below them has. -/
theorem Environment.Occurs.newline_notMem (h : env.Occurs lines line)
    (hClean : ∀ other ∈ lines, '\n' ∉ other) : '\n' ∉ line := by
  rcases h with hMem | ⟨q, content, -, -, hMem⟩
  · exact hClean line hMem
  · exact Text.newline_notMem_of_mem_lines hMem

/-- Only the plain lines of a source are written as they are. -/
theorem isVersionLine_of_plain (h : LineKind.of line = .plain) : isVersionLine line = false :=
  (LineKind.of_eq_plain_iff.mp h).2.1

namespace Effect

variable {origin : Option Text} {x : Effect} {base source id text body : Text} {part : Section}

theorem newline_notMem_inOrder (hLaid : LaidOut env base source id text part visits body)
    (hLine : line ∈ (gathered visits).inOrder) : '\n' ∉ line := by
  have hLifted : line ∈ visits.filterMap Visit.lifted? := by
    rw [(gathered visits).perm_inOrder.mem_iff, gathered, Preamble.lines_addAll_empty,
      List.mem_eraseDups] at hLine
    exact hLine
  have hOccurs := (hLaid.tour.mem_source_iff.mp (Visit.mem_filterMap_lifted?_iff.mp hLifted)).2.2
  have hPart : part ∈ Section.ofText source := List.mem_of_find?_eq_some hLaid.decides
  exact hOccurs.newline_notMem fun other hOther =>
    Text.newline_notMem_of_mem_lines (Section.mem_lines_of_mem_ofText hPart hOther)

/-- An assembled text line by line: the lines for the top, the macros, the body, and the
empty line after the last newline. -/
theorem LaidOut.splitOn_rows (hLaid : LaidOut env base source id text part visits body) :
    text.splitOn '\n' = (gathered visits).inOrder ++ Text.pieces env.macros.block ++
      (body.splitOn '\n' ++ [[]]) := by
  have hTop : top env visits =
      Text.terminateLines ((gathered visits).inOrder ++ Text.pieces env.macros.block) := by
    rw [top, ← Text.terminateLines_pieces]
    exact List.flatMap_append.symm
  have hClean : ∀ line ∈ (gathered visits).inOrder ++ Text.pieces env.macros.block,
      '\n' ∉ line := by
    intro line hLine
    rcases List.mem_append.mp hLine with hLine | hLine
    · exact newline_notMem_inOrder hLaid hLine
    · exact Text.newline_notMem_of_mem_pieces hLine
  have hEnd : (body ++ ['\n']).splitOn '\n' = body.splitOn '\n' ++ [[]] := by
    rw [List.splitOn_append_cons_self]
    rfl
  rw [hLaid.text_eq, hTop, List.append_assoc, Text.splitOn_terminateLines_append hClean, hEnd]

/-- In the body of an assembled text no version line is left. -/
theorem isVersionLine_of_mem_body (hLaid : LaidOut env base source id text part visits body)
    (hBody : body.splitOn '\n' = lineMarker 1 :: visits.flatMap Visit.written)
    (hLine : line ∈ body.splitOn '\n') : isVersionLine line = false := by
  rw [hBody] at hLine
  rcases List.mem_cons.mp hLine with rfl | hLine
  · exact isVersionLine_of_plain (kind_lineMarker 1)
  · exact isVersionLine_of_plain (hLaid.tour.kind_of_mem_written hLine)

/-- In an assembled text the version lines of the sources stand first, each once. All other
version lines are carried by the macros, which are put in as they are below the lines for
the top. So the text has its version lines first if the macros carry none. If they do, it
has them first just if the macros by themselves have, and nothing stands above them but
other version lines. -/
theorem version_lines_first (hMacros : env.macros.Reachable)
    (hDone : (ofText env base source origin).outcome = .ok x) (hMem : (id, text) ∈ x.sections) :
    ∃ part visits body below, LaidOut env base source id text part visits body ∧
      text.splitOn '\n' = (gathered visits).inOrder ++ Text.pieces env.macros.block ++ below ∧
      VersionsFirst (gathered visits).inOrder ∧
      (∀ line ∈ Text.pieces env.macros.block, isVersionLine line = true →
        line ∈ env.macros.carriedLines) ∧
      (∀ line ∈ below, isVersionLine line = false) ∧
      ((∀ line ∈ env.macros.carriedLines, isVersionLine line = false) →
        VersionsFirst (text.splitOn '\n')) ∧
      (VersionsFirst (text.splitOn '\n') ↔ VersionsFirst (Text.pieces env.macros.block) ∧
        ∀ line ∈ Text.pieces env.macros.block, isVersionLine line = true →
          (∀ other ∈ (gathered visits).inOrder, isVersionLine other = true) ∧
            line ∉ (gathered visits).inOrder) := by
  obtain ⟨part, visits, body, hLaid, hBody⟩ := exists_laidOut hDone hMem
  have hCarried : ∀ line ∈ Text.pieces env.macros.block, isVersionLine line = true →
      line ∈ env.macros.carriedLines := fun line hLine =>
    hMacros.mem_carriedLines (Text.mem_splitOn_of_mem_pieces hLine)
  have hBelow : ∀ line ∈ body.splitOn '\n' ++ [[]], isVersionLine line = false := by
    intro line hLine
    rcases List.mem_append.mp hLine with hLine | hLine
    · exact isVersionLine_of_mem_body hLaid hBody hLine
    · rw [List.mem_singleton.mp hLine]
      rfl
  have hIff : VersionsFirst (text.splitOn '\n') ↔ VersionsFirst (Text.pieces env.macros.block) ∧
      ∀ line ∈ Text.pieces env.macros.block, isVersionLine line = true →
        (∀ other ∈ (gathered visits).inOrder, isVersionLine other = true) ∧
          line ∉ (gathered visits).inOrder := by
    rw [hLaid.splitOn_rows, versionsFirst_append_iff, versionsFirst_append_iff]
    constructor
    · exact fun h => h.1.2
    · refine fun h => ⟨⟨(gathered visits).versionsFirst_inOrder, h⟩,
        versionsFirst_of_none hBelow, fun line hLine hVersion => ?_⟩
      rw [hBelow line hLine] at hVersion
      cases hVersion
  refine ⟨part, visits, body, _, hLaid, hLaid.splitOn_rows,
    (gathered visits).versionsFirst_inOrder, hCarried, hBelow, fun hNone => ?_, hIff⟩
  have hBlock : ∀ line ∈ Text.pieces env.macros.block, isVersionLine line = false := by
    intro line hLine
    refine Bool.eq_false_iff.mpr fun hVersion => ?_
    rw [hNone line (hCarried line hLine hVersion)] at hVersion
    cases hVersion
  refine hIff.mpr ⟨versionsFirst_of_none hBlock, fun line hLine hVersion => ?_⟩
  rw [hBlock line hLine] at hVersion
  cases hVersion

/-- The files of the sample, with a definition and a global block of one line. -/
def shadowed : Environment :=
  { Environment.sample with macros := {
      bindings := (∅ : Dictionary Text).insert "SHADOW".toList "1".toList
      globalBlock := "#define PI 3".toList } }

/-- The text of a file that includes the light below a line of its own. -/
def shadowedText : Text :=
  Text.terminateLines ["#version 330".toList, "#extension all".toList, "#define SHADOW 1".toList,
    "#define PI 3".toList, "#line 1".toList, "main".toList, "#line 1".toList, "#line 2".toList,
    "#line 1".toList, "noise".toList, "#line 3".toList, "#line 3".toList, "light".toList,
    "#line 3".toList]

theorem version_lines_first_shadowed : shadowed.macros.Reachable ∧
    (ofText shadowed "X".toList "main\n#include \"Light\"\n".toList none).outcome = .ok {
      base := "X".toList
      sections := [("X.glsl".toList, shadowedText)] } ∧
    VersionsFirst (shadowedText.splitOn '\n') := by
  have hMacros : shadowed.macros.Reachable := by
    have hDefined : (({} : Macros).define (.text "SHADOW".toList) (.text "1".toList)) = .ok
        { bindings := (∅ : Dictionary Text).insert "SHADOW".toList "1".toList } := rfl
    exact .load (.define .empty hDefined) "#define PI 3".toList
  have hDone : (ofText shadowed "X".toList "main\n#include \"Light\"\n".toList none).outcome = .ok {
      base := "X".toList
      sections := [("X.glsl".toList, shadowedText)] } := by
    have hSections : Section.ofText "main\n#include \"Light\"\n".toList =
        [⟨Section.unnamed, ["main".toList, "#include \"Light\"".toList]⟩] := rfl
    rw [ofText, hSections]
    simp only [assembleAll, assemble, Environment.expandLines_eq_expandWithin]
    rfl
  obtain ⟨part, visits, body, below, -, -, -, -, -, hNone, -⟩ :=
    version_lines_first hMacros hDone List.mem_cons_self
  exact ⟨hMacros, hDone, hNone (by decide)⟩

/-- A file with a version line, beside a global block that has one too. -/
def versionedGlobals : Memory where
  files := ⟨[("shaders/GlobalDefines.glsl".toList,
      some (Environment.asciiBytes "#define PI 3\n#version 330\n".toList)),
    ("shaders/X.glsl".toList, some (Environment.asciiBytes "#version 330\nmain\n".toList))], by decide⟩

/-- The library of these files. -/
def versionedLibrary : Library where
  root := "shaders".toList
  catalog := { paths := ⟨[
    ("GlobalDefines.glsl".toList, "shaders/GlobalDefines.glsl".toList),
    ("X.glsl".toList, "shaders/X.glsl".toList)], by decide⟩ }
  macros := { globalBlock := "#define PI 3\n#version 330\n".toList }

/-- A version line in the global block is not lifted. In the text that the cache takes from
the file it comes below another line, and for the second time. -/
theorem version_line_in_global_block :
    (Library.load versionedGlobals.store "shaders".toList [] false).outcome = .ok versionedLibrary ∧
    versionedLibrary.macros.Reachable ∧ ∃ text,
      (versionedLibrary.get versionedGlobals.store (.text "X.glsl".toList)).2.cache.get?
        "X.glsl".toList = some text ∧
      text = "#version 330\n#define PI 3\n#version 330\n#line 1\n#line 2\nmain\n".toList ∧
      ¬ VersionsFirst (text.splitOn '\n') := by
  refine ⟨rfl, .load .empty _, _, ?_, rfl, by decide⟩
  have hMissing : versionedLibrary.cache.get? "X.glsl".toList = none := rfl
  have hDone : (ofText (versionedLibrary.environment versionedGlobals.store) "X".toList
      "#version 330\nmain\n".toList (some "shaders/X.glsl".toList)).outcome = .ok {
        base := "X".toList
        sections := [("X.glsl".toList,
          "#version 330\n#define PI 3\n#version 330\n#line 1\n#line 2\nmain\n".toList)] } := by
    have hSections : Section.ofText "#version 330\nmain\n".toList =
        [⟨Section.unnamed, ["#version 330".toList, "main".toList]⟩] := rfl
    rw [ofText, hSections]
    simp only [assembleAll, assemble, Environment.expandLines_eq_expandWithin]
    rfl
  have hCache : (versionedLibrary.get versionedGlobals.store (.text "X.glsl".toList)).2.cache =
      (versionedLibrary.cache.get (versionedLibrary.environment versionedGlobals.store)
        (.text "X.glsl".toList)).2 := rfl
  rw [hCache, Cache.get?_get_eq_some_iff hMissing, Cache.uncached_eq_ok_iff]
  exact ⟨hMissing, rfl, _, Cache.fileOf_eq_ok_iff.mpr ⟨_, _, rfl, rfl, hDone⟩, rfl⟩

end Effect

end ShaderLibrary
