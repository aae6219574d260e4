import LayerRouting.Store.Basic
import LayerRouting.Text.Content

/-!
# The directory of a store

What a store of files asks of its directory, and the plainest such directory, which knows
what stands at its own path and which entries it has. A file is written as a whole, and
renaming puts a file in place of another in one step; no file is put in place of a
directory.
-/

namespace LayerRouting

/-- What a store of files asks of its directory. Files are meant by their names in it. -/
class StoreDirectory (δ : Type) where
  /-- Makes the directory, unless it is there. A part of the way to it may be made even
  if the rest cannot be. -/
  create : δ -> Except FileFault Unit × δ
  /-- The contents of a file. -/
  read : δ -> String -> Except FileFault Content
  /-- Writes a file, which is made if it is not there. -/
  write : δ -> String -> Content -> Except FileFault δ
  /-- Lets a file take the place of another name. -/
  rename : δ -> String -> String -> Except FileFault δ
  /-- Removes a file. -/
  remove : δ -> String -> δ

/-- An entry of a directory. -/
inductive DirectoryEntry where
  | file (content : Content)
  | directory
  deriving DecidableEq, Repr

/-- What stands at a store's path. -/
inductive Directory where
  /-- Nothing is there yet. -/
  | missing
  /-- It cannot be used, for instance because a file is there. -/
  | blocked (fault : FileFault)
  /-- A directory with entries by name. -/
  | holding (entries : List (String × DirectoryEntry))
  deriving DecidableEq, Repr

namespace Directory

/-- The entry of a name. -/
def entry? (directory : Directory) (name : String) : Option DirectoryEntry :=
  match directory with
  | .holding entries => Entries.get? name entries
  | _ => none

/-- The names of the entries. -/
def names : Directory -> List String
  | .holding entries => Entries.keys entries
  | _ => []

/-- The directory after making it, if it can be made. -/
def create : Directory -> Except FileFault Unit × Directory
  | .missing => (.ok (), .holding [])
  | .blocked fault => (.error fault, .blocked fault)
  | .holding entries => (.ok (), .holding entries)

/-- The contents of a file. -/
def read (directory : Directory) (name : String) : Except FileFault Content :=
  match directory with
  | .missing => .error .missing
  | .blocked fault => .error fault
  | .holding entries =>
      match Entries.get? name entries with
      | none => .error .missing
      | some .directory => .error .isADirectory
      | some (.file content) => .ok content

/-- The directory after writing a file, which is made if it is not there. -/
def write (directory : Directory) (name : String) (content : Content) :
    Except FileFault Directory :=
  match directory with
  | .missing => .error .missing
  | .blocked fault => .error fault
  | .holding entries =>
      match Entries.get? name entries with
      | some .directory => .error .isADirectory
      | _ => .ok (.holding (Entries.insert name (.file content) entries))

/-- The directory after making a directory in it. -/
def makeDirectory (directory : Directory) (name : String) : Directory :=
  match directory with
  | .holding entries =>
      match Entries.get? name entries with
      | none => .holding (Entries.insert name .directory entries)
      | some _ => directory
  | _ => directory

/-- The directory after removing a file. -/
def remove (directory : Directory) (name : String) : Directory :=
  match directory with
  | .holding entries => .holding (Entries.erase name entries)
  | _ => directory

/-- The directory after a file has taken the place of another name. -/
def rename (directory : Directory) (name target : String) : Except FileFault Directory :=
  match directory with
  | .missing => .error .missing
  | .blocked fault => .error fault
  | .holding entries =>
      match Entries.get? name entries, Entries.get? target entries with
      | none, _ => .error .missing
      | some _, some .directory => .error .isADirectory
      | some moved, _ =>
          .ok (.holding (Entries.insert target moved (Entries.erase name entries)))

instance : StoreDirectory Directory where
  create := create
  read := read
  write := write
  rename := rename
  remove := remove

end Directory

end LayerRouting
