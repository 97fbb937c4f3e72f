import ShaderLibrary.Proofs.Sections
import ShaderLibrary.Store.Memory

/-! Expansion to a bounded depth. Files in progress are not opened again, so no
expansion is deeper than the catalog is long, and the bounded one is the same. Its
recursion is on the depth and on the lines, so it can be evaluated. -/
namespace ShaderLibrary

namespace Environment

variable {env : Environment}

/-- The entries for lines that start with line `number`, if those of each line come
from `expand`. -/
def expandEach (expand : Int → Text → Traced Interrupt (List Text)) (number : Int) :
    List Text → Traced Interrupt (List Text)
  | [] => pure []
  | line :: rest => do
    let entries ← expand number line
    let others ← expandEach expand (number + 1) rest
    pure (entries ++ others)

/-- The entries for lines, as far as files are nested less than `depth` deep. -/
def expandWithin (env : Environment) :
    Nat → List Text → Int → List Text → Traced Interrupt (List Text)
  | 0, _, _, _ => pure []
  | depth + 1, chain, number, lines =>
    expandEach (env.entriesWith chain fun path _ _ lines =>
      expandWithin env depth (chain ++ [path]) 1 lines) number lines

theorem expandWithin_eq_expandLines {depth : Nat} {chain : List Text}
    (hDepth : env.unopened chain < depth) (number : Int) (lines : List Text) :
    env.expandWithin depth chain number lines = env.expandLines chain number lines := by
  induction depth generalizing chain number lines with
  | zero => omega
  | succ depth ihDepth =>
      rw [expandWithin]
      induction lines generalizing number with
      | nil => rw [expandLines, expandEach]
      | cons line rest ih =>
          rw [expandLines, expandEach, ih]
          congr 3
          funext path listed new lines
          have hFewer : env.unopened (chain ++ [path]) < env.unopened chain :=
            countP_notMem_append_lt listed new
          exact ihDepth (by omega) 1 lines

/-- One more than the number of files is deep enough for all lines. -/
theorem expandLines_eq_expandWithin :
    env.expandLines = env.expandWithin (env.catalog.files.length + 1) := by
  funext chain number lines
  have hBound : env.unopened chain ≤ env.catalog.files.length := List.countP_le_length
  exact (expandWithin_eq_expandLines (by omega) number lines).symm

/-- The environment of files in memory that are known by their paths. -/
def ofMemory (macros : Macros) (m : Memory) : Environment where
  macros := macros
  catalog := { paths := ⟨m.files.keys.map fun path => (path, path), by
    simpa [Dictionary.keys, Function.comp_def] using m.files.ascending⟩ }
  store := m.store

/-- The bytes of a text of ASCII characters. -/
def asciiBytes (t : Text) : List UInt8 := t.map fun c => c.toNat.toUInt8

/-- A small library: a light that includes noise, and files that are empty or locked. -/
def sample : Environment :=
  ofMemory { globalBlock := "global".toList } { files := ⟨[
    ("Light".toList, some (asciiBytes (Text.terminateLines
      ["#version 330".toList, "#include \"Noise\"".toList, "light".toList]))),
    ("Locked".toList, none),
    ("Noise".toList, some (asciiBytes (Text.joinLines ["noise".toList, "#extension all".toList]))),
    ("Void".toList, some [])], by decide⟩ }

end Environment

namespace Effect

open Environment

/-- The vertex lines of an effect that asks for noise twice and for a locked file. -/
def sampleLines : List Text :=
  ["#include \"Light\"".toList, "#include \"Locked\"".toList, "#include \"Noise\"".toList,
    "vertex".toList]

/-- The text of an effect with two sections. -/
def sampleSource : Text :=
  Text.terminateLines ("-- V".toList :: sampleLines ++
    ["-- F".toList, "fragment".toList, "#include \"Void\"".toList])

/-- The body of the vertex section. -/
def sampleBody : List Text :=
  ["#line 1".toList, "#line 1".toList, "#line 2".toList, "#line 1".toList, "noise".toList,
    "#line 3".toList, "#line 3".toList, "light".toList, "#line 2".toList, [], "#line 3".toList,
    "#line 1".toList, "noise".toList, "#line 3".toList, "#line 4".toList, "vertex".toList]

/-- The assembled vertex section. -/
def sampleText : Text :=
  Text.terminateLines (["#version 330".toList, "#extension all".toList, "global".toList] ++ sampleBody)

theorem outcome_ofText_sample :
    (ofText sample "X".toList sampleSource (some "X.glsl".toList)).outcome = .ok {
      base := "X".toList
      sections := [("X.V".toList, sampleText), ("X.F".toList, Text.terminateLines
        ["global".toList, "#line 1".toList, "fragment".toList, "#line 1".toList, "#line 3".toList])]
      problems := [.unresolvedInclude "Locked".toList "Locked".toList] } := by
  have hSections : Section.ofText sampleSource = [⟨"V".toList, sampleLines⟩,
      ⟨"F".toList, ["fragment".toList, "#include \"Void\"".toList]⟩] := rfl
  rw [ofText, hSections]
  simp only [assembleAll, assemble, expandLines_eq_expandWithin]
  rfl

/-- The stops at the lines of the noise. -/
def noiseVisits : List Visit := [.kept 1 "noise".toList, .lifted 2 "#extension all".toList]

/-- The stops at the lines of the light, which includes the noise. -/
def lightVisits : List Visit :=
  .lifted 1 "#version 330".toList ::
    (.entered :: noiseVisits ++ .left 2 :: [.kept 3 "light".toList])

/-- The stops at the lines of the vertex section. -/
def sampleVisits : List Visit :=
  .entered :: lightVisits ++ .left 1 ::
    .missed 2 (.unresolvedInclude "Locked".toList "Locked".toList) ::
    (.entered :: noiseVisits ++ .left 3 :: [.kept 4 "vertex".toList])

theorem tour_noise : sample.Tour 1 ["noise".toList, "#extension all".toList] noiseVisits :=
  .kept rfl (.lifted rfl (.done 3))

theorem tour_light :
    sample.Tour 1 ["#version 330".toList, "#include \"Noise\"".toList, "light".toList] lightVisits :=
  .lifted rfl (.included rfl rfl tour_noise (.kept rfl (.done 4)))

theorem tour_sample : sample.Tour 1 sampleLines sampleVisits := by
  have hAfter : sample.Tour 3 ["#include \"Noise\"".toList, "vertex".toList]
      (.entered :: noiseVisits ++ .left 3 :: [.kept 4 "vertex".toList]) :=
    .included rfl rfl tour_noise (.kept rfl (.done 5))
  exact .included rfl rfl tour_light (.missed rfl rfl hAfter)

theorem deciding?_sample :
    deciding? "X".toList sampleSource "X.V".toList = some ⟨"V".toList, sampleLines⟩ := rfl

theorem LaidOut.eq_sample {part : Section} {visits : List Visit} {text body : Text}
    (h : LaidOut sample "X".toList sampleSource "X.V".toList text part visits body) :
    part = ⟨"V".toList, sampleLines⟩ ∧ visits = sampleVisits := by
  have hPart := h.decides
  rw [deciding?_sample] at hPart
  cases hPart
  exact ⟨rfl, h.tour.unique tour_sample⟩

end Effect

end ShaderLibrary
