import ShaderLibrary.Directive

/-!
The environment of an expansion: all that it may consult. Nothing in it changes while sources are
assembled.
-/

namespace ShaderLibrary

structure Environment where
  macros : Macros
  catalog : Catalog
  store : Store

namespace Environment

/-- The file that an include line leads to. If its name leads nowhere, the problem is that of the
line. -/
def target (env : Environment) (line : Text) :
    Traced Problem { path : Text // path ∈ env.catalog.files } := do
  let name ← headerName env.macros line
  (env.catalog.resolve name).mapError fun problem => .unresolvedInclude line problem.message

end Environment

end ShaderLibrary
