import LayerRouting.CommandLine.Program
import Std.Time.DateTime.Timestamp

/-!
# The command-line tool

The outer layer of the program. It reads what stands at the paths that a command line
concerns, runs the command line on that, and writes the owner's document back if the run
has changed it. A document's new contents are written to the temporary file first.
-/

namespace LayerRouting

namespace Tool

/-- The present moment. -/
def currentTime : IO Timestamp := do
  let now ← Std.Time.Timestamp.now
  let nanos : Int := now.toNanosecondsSinceUnixEpoch.val
  return { seconds := nanos.fdiv Timestamp.nanosPerSecond
           nanos := (nanos.fmod Timestamp.nanosPerSecond).toNat }

/-- Ids for new ops: they count on from the time in milliseconds, followed by eighty
random bits. -/
def freshIds (now : Timestamp) : IO IdSupply := do
  let noise ← IO.getRandomBytes 10
  let random := ofDigitsIn 256 (noise.toList.map UInt8.toNat)
  let milliseconds := now.seconds.toNat * 1000 + now.nanos / 1000000
  return { next := (milliseconds <<< 80) + random }

/-- What a run knows of the machine. -/
def currentSurroundings : IO Surroundings := do
  let now ← currentTime
  return { now, home := ← IO.getEnv "HOME", supply := ← freshIds now }

/-- The contents of a file. A fault without a path comes from reading a directory. -/
def readFile (path : String) : IO (Except FileFault Content) := do
  if let some fault := Disk.pathFault? path then
    return .error fault
  try
    let bytes ← IO.FS.readBinFile path
    return .ok (Content.ofBytes bytes)
  catch
    | .noFileOrDirectory .. => return .error .missing
    | .invalidArgument (some _) .. => return .error .tooLong
    | .inappropriateType none .. => return .error .isADirectory
    | .inappropriateType (some _) .. => return .error .notADirectory
    | fault => return .error (.other fault.toString)

/-- What stands at the path of a configuration file. -/
def configFile (path : String) : IO ConfigFile := do
  match ← readFile path with
  | .ok content => return .file content
  | .error .isADirectory => return .directory
  | .error (.other description) => throw (IO.userError description)
  | .error _ => return .missing

/-- The entry of a name in a directory. -/
def directoryEntry (path name : String) : IO (List (String × DirectoryEntry)) := do
  match ← readFile (FilePath.join path name) with
  | .ok content => return [(name, .file content)]
  | .error .isADirectory => return [(name, .directory)]
  | .error (.other description) => throw (IO.userError description)
  | .error _ => return []

/-- What stands at the path of a store, as far as the entries of some names go. -/
def storeDirectory (path : String) (names : List String) : IO Directory := do
  match ← readFile path with
  | .error .isADirectory =>
      let entries ← names.mapM (directoryEntry path)
      return .holding entries.flatten
  | .error .missing => return .missing
  | .error fault => return .blocked fault
  | .ok _ => return .blocked .notADirectory

/-- The names that a run on an owner's document may read or write. -/
def namesOf (owner : Option String) : List String :=
  match owner with
  | none => []
  | some owner =>
      if (OwnerId.fault? owner).isSome then []
      else [OwnerId.documentName owner, OwnerId.temporaryName owner]

/-- Makes the directories that lead to a store's documents. -/
def makeDirectories (path : String) : IO Unit := do
  for place in FilePath.makingOrder path do
    try
      IO.FS.createDir place
    catch fault =>
      match ← storeDirectory place [] with
      | .holding _ => pure ()
      | _ => throw fault

/-- Makes a store's directory as it is after a run. -/
def saveDirectory (path owner : String) (before after : Directory) : IO Unit := do
  let document := OwnerId.documentName owner
  let temporary := OwnerId.temporaryName owner
  if before = .missing ∧ after ≠ .missing then
    makeDirectories path
  if after.entry? document ≠ before.entry? document then
    if let some (.file content) := after.entry? document then
      let temporaryPath := FilePath.join path temporary
      IO.FS.writeBinFile temporaryPath ⟨content.toBytes.toArray⟩
      IO.FS.rename temporaryPath (FilePath.join path document)
  else if after.entry? temporary ≠ before.entry? temporary then
    IO.FS.removeFile (FilePath.join path temporary)

/-- Runs a command line on the files of the machine. -/
def run (line : List String) : IO RunResult := do
  match Arguments.parse? line with
  | none => return Program.usageResult
  | some arguments =>
      let surroundings ← currentSurroundings
      let host ←
        match Program.hostConfig? surroundings with
        | some path => configFile path
        | none => pure .missing
      let project ← configFile (Program.projectConfig arguments.options)
      match Program.loadSettings surroundings arguments.options host project with
      | .error error => return Program.settingsResult error
      | .ok effective =>
          let path := effective.settings.storeDirectory
          let input ←
            match Program.inputPath? arguments.command with
            | some path => readFile path
            | none => pure (.ok [])
          let owner := arguments.command.owner?
          let before ← storeDirectory path (namesOf owner)
          let (result, after) :=
            Program.runCommand surroundings arguments effective before input
          if let some owner := owner then
            saveDirectory path owner before after
          return result

/-- Prints the result of a run and gives its exit code. -/
def report (result : RunResult) : IO UInt32 := do
  IO.print result.standardOutput
  IO.eprint result.standardError
  return result.code.toUInt32

end Tool

end LayerRouting

/-- The tool: a command line that cannot be carried out on the machine ends with code 3. -/
def main (line : List String) : IO UInt32 := do
  try
    LayerRouting.Tool.report (← LayerRouting.Tool.run line)
  catch fault =>
    IO.eprintln ("Error: IO error: " ++ fault.toString)
    return 3
