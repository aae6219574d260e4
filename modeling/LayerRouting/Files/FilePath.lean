import LayerRouting.Text.Basic

/-!
# Paths of files

A path is a text of steps with slashes between them. Two texts are the same path if they
agree in their components: a slash more or a dot in between makes no difference, a dot at
the beginning and two dots anywhere do.
-/

namespace LayerRouting

namespace FilePath

/-- Whether a path starts at the root. -/
def isRooted (path : String) : Bool :=
  path.toList.head? == some '/'

/-- The steps of a path: all that stands between slashes. -/
def steps (path : String) : List String :=
  ((Text.parts '/' path.toList).map String.ofList).filter (· ≠ "")

/-- The steps that lead to what a path names. A slash at its end asks for a directory,
like a dot. -/
def stepsInto (path : String) : List String :=
  if path.toList.getLast? = some '/' then steps path ++ ["."] else steps path

/-- The names in a path: its steps without those that stay. -/
def names (path : String) : List String :=
  (steps path).filter (· ≠ ".")

/-- The components of a path: the root as a slash, or a dot if the path starts with one,
and the names. -/
def components (path : String) : List String :=
  if isRooted path then "/" :: names path
  else if (steps path).head? = some "." then "." :: names path
  else names path

/-- Whether two texts are the same path. -/
def Same (path other : String) : Prop :=
  components path = components other

instance (path other : String) : Decidable (Same path other) :=
  inferInstanceAs (Decidable (components path = components other))

/-- A path below a directory. -/
def join (directory path : String) : String :=
  if directory = "" ∨ directory.toList.getLast? = some '/' then directory ++ path
  else directory ++ "/" ++ path

/-- The paths at which directories are made for a path, from the outermost: those that lead
to it name by name, and the path itself as it is written. -/
def makingOrder (path : String) : List String :=
  let beginning := if isRooted path then "/" else ""
  let above := (List.range (names path).length).map fun count =>
    beginning ++ String.intercalate "/" ((names path).take count)
  above.filter (· ≠ "") ++ [path]

end FilePath

end LayerRouting
