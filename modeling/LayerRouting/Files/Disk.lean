import LayerRouting.Files.FilePath
import LayerRouting.Files.Tree
import LayerRouting.Settings.Effective
import LayerRouting.Store.Directory

/-!
# The files that a run sees

A tree of files with a working directory in it. A path leads from the working directory,
or from the root if it starts with a slash, step by step through directories that are
there: a dot stays, two dots lead to the directory above. A step through something that
is no directory, a name that is not there and a name that is too long are told apart.
-/

namespace LayerRouting

/-- A file tree and the place of the working directory. -/
structure Disk where
  root : FileTree
  working : Location
  deriving Repr

namespace Disk

/-! ## Limits of paths -/

/-- The greatest number of bytes of a name. -/
def longestName : Nat := 255

/-- The greatest number of bytes of a path. -/
def longestPath : Nat := 4095

/-- What keeps a path from being followed at all. -/
def pathFault? (path : String) : Option FileFault :=
  if path = "" then some .missing
  else if '\x00' ∈ path.toList then some .nullCharacter
  else if longestPath < path.utf8ByteSize then some .tooLong
  else none

/-! ## Following a path -/

/-- Follows steps from a place in a tree. The directories above it are known, the nearest
first, each with the name by which it was left. -/
def follow (above : List (String × FileTree)) (here : FileTree) :
    List String -> Except FileFault (Location × FileTree)
  | [] => .ok ((above.map Prod.fst).reverse, here)
  | step :: rest =>
      match here with
      | .file _ => .error .notADirectory
      | .directory entries =>
          if step = "." then follow above here rest
          else if step = ".." then
            match above with
            | [] => follow [] here rest
            | (_, outer) :: further => follow further outer rest
          else if longestName < step.utf8ByteSize then .error .tooLong
          else
            match Entries.get? step entries with
            | none => .error .missing
            | some inner => follow ((step, here) :: above) inner rest

/-- Follows steps from the root, or from the working directory. -/
def followFrom (disk : Disk) (rooted : Bool) (path : List String) :
    Except FileFault (Location × FileTree) :=
  follow [] disk.root (if rooted then path else disk.working ++ path)

/-- What a path names. -/
def find (disk : Disk) (path : String) : Except FileFault FileTree :=
  match pathFault? path with
  | some fault => .error fault
  | none => (disk.followFrom (FilePath.isRooted path) (FilePath.stepsInto path)).map Prod.snd

/-- The place that a path names, of which the last step need not be there. Dots at the end
name nothing new. -/
def place (disk : Disk) (path : String) : Except FileFault Location :=
  match pathFault? path, (FilePath.steps path).getLast? with
  | some fault, _ => .error fault
  | none, none => .error .missing
  | none, some name =>
      match disk.followFrom (FilePath.isRooted path) (FilePath.steps path).dropLast with
      | .error fault => .error fault
      | .ok (_, .file _) => .error .notADirectory
      | .ok (location, .directory _) =>
          if name = "." ∨ name = ".." then .error .missing
          else if longestName < name.utf8ByteSize then .error .tooLong
          else .ok (location ++ [name])

/-! ## Files -/

/-- What stands at the path of a configuration file. -/
def configFile (disk : Disk) (path : String) : ConfigFile :=
  match disk.find path with
  | .ok (.file content) => .file content
  | .ok (.directory _) => .directory
  | .error _ => .missing

/-- The contents of a file. -/
def read (disk : Disk) (path : String) : Except FileFault Content :=
  match disk.find path with
  | .ok (.file content) => .ok content
  | .ok (.directory _) => .error .isADirectory
  | .error fault => .error fault

/-- The disk after writing a file, which is made if it is not there. -/
def write (disk : Disk) (path : String) (content : Content) : Except FileFault Disk :=
  match disk.place path with
  | .error fault => .error fault
  | .ok location =>
      match disk.root.find? location with
      | some (.directory _) => .error .isADirectory
      | _ => .ok { disk with root := disk.root.put location (.file content) }

/-- The disk after a file has taken the place of another path. -/
def rename (disk : Disk) (path target : String) : Except FileFault Disk := do
  let location ← disk.place path
  let destination ← disk.place target
  match disk.root.find? location, disk.root.find? destination with
  | none, _ => .error .missing
  | some _, some (.directory _) => .error .isADirectory
  | some moved, _ =>
      .ok { disk with root := (disk.root.erase location).put destination moved }

/-- The disk after removing a file. -/
def remove (disk : Disk) (path : String) : Disk :=
  match disk.place path with
  | .error _ => disk
  | .ok location =>
      match disk.root.find? location with
      | some (.file _) => { disk with root := disk.root.erase location }
      | _ => disk

/-! ## Directories -/

/-- The disk with a directory at a path, which is made in a directory that is there. -/
def makeDirectory (disk : Disk) (path : String) : Except FileFault Disk :=
  match disk.find path with
  | .ok (.directory _) => .ok disk
  | .ok (.file _) => .error .notADirectory
  | .error .missing =>
      (disk.place path).map fun location =>
        { disk with root := disk.root.put location (.directory []) }
  | .error fault => .error fault

/-- Makes directories one after the other, up to the first that cannot be made. -/
def makeInOrder (disk : Disk) : List String -> Except FileFault Unit × Disk
  | [] => (.ok (), disk)
  | path :: rest =>
      match disk.makeDirectory path with
      | .error fault => (.error fault, disk)
      | .ok made => made.makeInOrder rest

/-- Makes the directory of a path and those on the way to it. -/
def makeDirectories (disk : Disk) (path : String) : Except FileFault Unit × Disk :=
  match pathFault? path with
  | some fault => (.error fault, disk)
  | none => disk.makeInOrder (FilePath.makingOrder path)

end Disk

/-! ## The directory of a store -/

/-- A directory on a disk, which need not be there. -/
structure Folder where
  disk : Disk
  path : String
  deriving Repr

namespace Folder

/-- The folder on another disk. -/
def onDisk (folder : Folder) (disk : Disk) : Folder :=
  { folder with disk }

/-- The path of a file in a folder. -/
def filePath (folder : Folder) (name : String) : String :=
  FilePath.join folder.path name

instance : StoreDirectory Folder where
  create folder :=
    let (result, disk) := folder.disk.makeDirectories folder.path
    (result, folder.onDisk disk)
  read folder name := folder.disk.read (folder.filePath name)
  write folder name content :=
    (folder.disk.write (folder.filePath name) content).map folder.onDisk
  rename folder name target :=
    (folder.disk.rename (folder.filePath name) (folder.filePath target)).map folder.onDisk
  remove folder name := folder.onDisk (folder.disk.remove (folder.filePath name))

end Folder

end LayerRouting
