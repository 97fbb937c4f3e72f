import ShaderLibrary.Text.Basic

/-!
Problems of shader sources. All of them are mistakes in the files or in a request, so a program
that meets one can still go on with the text it has.
-/

namespace ShaderLibrary

/-- What is wrong with a source or with a request for one. -/
inductive Problem where
  /-- No file of this bare name is in the catalog. -/
  | unknownFile (name : Text)
  /-- The file of this id is there, but has no such section. -/
  | unknownSection (id : Text)
  /-- An include that leads nowhere: the line that asks for it, or the path it leads to. -/
  | unresolvedInclude (subject reason : Text)
  /-- An include by a macro that is not defined. The line is empty if it is not known. -/
  | undefinedMacro (key line : Text)
  /-- A file that is included while it is being expanded, at the end of the files in progress. -/
  | circularInclude (chain : List Text)
deriving DecidableEq, Repr

namespace Problem

/-- The paths of a chain of includes, from the first file on. -/
def showChain (chain : List Text) : Text := " -> ".toList.intercalate chain

def message : Problem → Text
  | unknownFile name => "Unknown shader file name '".toList ++ name ++ "'.".toList
  | unknownSection id => "Could not find the shader '".toList ++ id ++ "'.".toList
  | unresolvedInclude subject reason =>
    "Cannot resolve include directive: ".toList ++ subject ++
      (if reason = [] then [] else " (".toList ++ reason ++ ")".toList)
  | undefinedMacro key line =>
    "Include refers to undefined key '".toList ++ key ++ "': ".toList ++ line
  | circularInclude chain => "Circular include: ".toList ++ showChain chain

end Problem

end ShaderLibrary
