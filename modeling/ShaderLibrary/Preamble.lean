import ShaderLibrary.Directive

/-!
The preamble: the version and extension lines of a unit, which are lifted out of the files where
they stand. A line that occurs more than once is kept once.
-/

namespace ShaderLibrary

/-- Lines for the top of a unit, in the order in which they were first met. -/
@[ext] structure Preamble where
  lines : List Text
  distinct : lines.Nodup
deriving DecidableEq

namespace Preamble

def empty : Preamble := ⟨[], .nil⟩

instance : EmptyCollection Preamble := ⟨empty⟩

theorem nodup_append_singleton {lines : List Text} {line : Text} (distinct : lines.Nodup)
    (new : line ∉ lines) : (lines ++ [line]).Nodup := by
  refine List.nodup_append.mpr ⟨distinct, by simp, fun a ha b hb same => ?_⟩
  exact new (List.mem_singleton.mp hb ▸ same ▸ ha)

/-- The preamble with one more line, unless it is there already. -/
def add (p : Preamble) (line : Text) : Preamble :=
  if known : line ∈ p.lines then p
  else ⟨p.lines ++ [line], nodup_append_singleton p.distinct known⟩

def addAll (p : Preamble) (lines : List Text) : Preamble := lines.foldl add p

/-- The text at the top of the unit: version lines come first, and otherwise the order stays. -/
def render (p : Preamble) : Text :=
  Text.terminateLines (p.lines.filter isVersionLine ++ p.lines.filter (!isVersionLine ·))

end Preamble

end ShaderLibrary
