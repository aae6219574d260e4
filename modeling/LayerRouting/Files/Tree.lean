import LayerRouting.Json.Basic
import LayerRouting.Text.Content

/-!
# Trees of files

Directories with named entries and files with contents. A place in a tree is given by the
names that lead to it from the root. Putting and erasing concern one place and leave the
others as they are.
-/

namespace LayerRouting

/-- A file or a directory with all that is in it. -/
inductive FileTree where
  | file (content : Content)
  | directory (entries : List (String × FileTree))
  deriving Repr

/-- The names that lead from the root to a place. -/
abbrev Location := List String

namespace FileTree

/-- What is at a place. -/
def find? (tree : FileTree) : Location -> Option FileTree
  | [] => some tree
  | name :: rest =>
      match tree with
      | .directory entries => (Entries.get? name entries).bind fun inner => inner.find? rest
      | .file _ => none

/-- The tree with something put at a place, and directories made on the way to it. -/
def put (tree : FileTree) (location : Location) (value : FileTree) : FileTree :=
  match location with
  | [] => value
  | name :: rest =>
      let entries :=
        match tree with
        | .directory entries => entries
        | .file _ => []
      let inner := (Entries.get? name entries).getD (.directory [])
      .directory (Entries.insert name (inner.put rest value) entries)

/-- The tree without what is at a place; the root cannot be taken away. -/
def erase (tree : FileTree) (location : Location) : FileTree :=
  match location, tree with
  | [name], .directory entries => .directory (Entries.erase name entries)
  | name :: rest, .directory entries =>
      match Entries.get? name entries with
      | some inner => .directory (Entries.insert name (inner.erase rest) entries)
      | none => tree
  | _, _ => tree

end FileTree

end LayerRouting
