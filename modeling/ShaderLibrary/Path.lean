import ShaderLibrary.Text.Basic

/-!
Paths as texts, with slashes between the names of folders. A store gives a path its meaning; here
paths are only put together and taken apart.
-/

namespace ShaderLibrary.Path

/-- The path of `name` below `base`. A base that ends in a slash gets no second one. -/
def join (base name : Text) : Text :=
  if base = [] ∨ base.getLast? = some '/' then base ++ name else base ++ '/' :: name

def baseName (path : Text) : Text := (path.reverse.takeWhile (· != '/')).reverse

def trim (path : Text) : Text := (path.reverse.dropWhile (· == '/')).reverse

/-- The part before the last slash, without the slashes at its end unless there is nothing else. -/
def folderPart (path : Text) : Text :=
  let folder := (path.reverse.dropWhile (· != '/')).reverse
  if trim folder = [] then folder else trim folder

/-- The beginnings of a path that end with a name, from the shortest on, if the path is `before` and
then these names. -/
def beginnings (before : Text) : List Text → List Text
  | [] => []
  | name :: rest =>
    let here := before ++ name
    if name = [] then beginnings (here ++ ['/']) rest else here :: beginnings (here ++ ['/']) rest

/-- The paths of the folders on the way to a path, from the nearest on. -/
def above (path : Text) : List Text := (beginnings [] (path.splitOn '/')).dropLast.reverse

def isAbsolute (path : Text) : Bool := path.head? == some '/'

/-- The names on the path. Empty names and the name of a folder for itself mean no step. -/
def names (path : Text) : List Text :=
  (path.splitOn '/').filter fun name => name != [] && name != ['.']

/-- The name by which every folder knows the one that it lies in. -/
def parent : Text := ['.', '.']

/-- One step further from the folder at `place`. There is nothing above the root. -/
def step (place : List Text) (name : Text) : List Text :=
  if name = parent then place.dropLast else place ++ [name]

/-- The slashes at the start of a normal form. Two slashes, which may mean another root, are kept,
and any other number stands for one. -/
def rootMark (path : Text) : Text :=
  if (path.takeWhile (· == '/')).length = 2 then ['/', '/'] else ['/']

/-- The normal form of a path that starts at the root: no empty names, and no steps up. -/
def normal (path : Text) : Text :=
  rootMark path ++ ['/'].intercalate ((names path).foldl step [])

/-- The normal form of a path, which starts at the folder `working` unless it starts at the root. -/
def absolute (working path : Text) : Text :=
  normal (if isAbsolute path then path else join working path)

end ShaderLibrary.Path
