import LayerRouting.CommandLine.Arguments
import LayerRouting.CommandLine.Report
import LayerRouting.Files.Disk
import LayerRouting.Json.Parser
import LayerRouting.Store.File

/-!
# The program

What a command line does: its arguments and the configuration files give the settings,
and the command runs on the store's directory with the one file that it may read. The
result is what is printed, the exit code and the directory afterwards.
-/

namespace LayerRouting

/-- Why a command failed. -/
inductive CommandError where
  | activation (error : ActivationError)
  | store (error : StoreError)
  | unreadableInput (path : String) (fault : FileFault)
  | malformedInput (path : String)
  | defaultsNoObject (path : String)
  /-- So many groups have more than one active route set. -/
  | conflicts (count : Nat)
  deriving DecidableEq, Repr

namespace CommandError

/-- The exit code of an error: 1 if the request cannot be met, 2 if the input is at fault
and 3 if the store is. -/
def exitCode : CommandError -> Nat
  | .activation (.refused _) => 1
  | .activation (.persistence _) => 3
  | .activation (.lock _) => 3
  | .store (.notFound _) => 1
  | .store _ => 3
  | .unreadableInput _ _ => 2
  | .malformedInput _ => 2
  | .defaultsNoObject _ => 2
  | .conflicts _ => 1

/-- The text of an error. -/
def message : CommandError -> String
  | .activation error => error.message
  | .store error => error.message
  | .unreadableInput path fault => path ++ ": " ++ fault.message
  | .malformedInput path => path ++ ": the file does not read as what is asked for"
  | .defaultsNoObject path => path ++ ": route-set defaults must be a JSON object keyed by id"
  | .conflicts count =>
      naturalText count ++ " exclusivity group(s) have more than one active route set"

end CommandError

/-- The result of a run. -/
structure RunResult where
  code : Nat
  standardOutput : String
  standardError : String
  deriving DecidableEq, Repr

/-- What a run knows of its surroundings. -/
structure Surroundings where
  now : Timestamp
  /-- The home directory, if there is one. -/
  home : Option String
  /-- The ids for new ops. -/
  supply : IdSupply
  deriving DecidableEq, Repr

namespace Program

variable {δ : Type} [StoreDirectory δ]

/-- The path of the host's configuration file below the home directory. -/
def hostConfigPath : String := ".config/studio-routing/config.toml"

/-- The path of the project's configuration file, unless another one is named. -/
def projectConfigPath : String := "studio-routing.toml"

/-- The path of the host's configuration file. -/
def hostConfig? (surroundings : Surroundings) : Option String :=
  surroundings.home.map fun home => FilePath.join home hostConfigPath

/-- The path of the project's configuration file. -/
def projectConfig (options : GlobalOptions) : String :=
  options.configPath.getD projectConfigPath

/-- The settings that options ask for. -/
def optionSettings (options : GlobalOptions) : Json :=
  .object (Json.optionalEntry "store" (fun value => .object [("dir", .string value)])
      options.storeDirectory
    ++ Json.optionalEntry "lock" (fun value => .object [("timeout_ms", Json.ofNat value)])
      options.lockTimeout
    ++ Json.optionalEntry "log" (fun value => .object [("filter", .string value)])
      options.logFilter)

/-- The settings of a run from the files at the paths of the configuration. A project file
that is named must exist. -/
def loadSettings (surroundings : Surroundings) (options : GlobalOptions)
    (host project : ConfigFile) : Except SettingsError EffectiveSettings :=
  let path := projectConfig options
  if options.configPath.isSome ∧ project = .missing then .error (.notFound path)
  else
    let hostLayer := (hostConfig? surroundings).map fun place => (place, host)
    EffectiveSettings.load surroundings.now hostLayer (some (path, project))
      (some (optionSettings options))

/-- The file that a command reads. -/
def inputPath? : Command -> Option String
  | .init _ path => some path
  | .routes _ path => path
  | _ => none

/-- The tree of an input file. -/
def inputTree (path : String) (input : Except FileFault Content) : Except CommandError Json :=
  match input with
  | .error fault => .error (.unreadableInput path fault)
  | .ok content =>
      match Json.parse? content with
      | some tree => .ok tree
      | none => .error (.malformedInput path)

/-- The table of mappings of an input file. -/
def inputTable (path : String) (input : Except FileFault Content) :
    Except CommandError MappingTable := do
  let tree ← inputTree path input
  match MappingTable.ofJson? tree with
  | some table => .ok table
  | none => .error (.malformedInput path)

/-- The defaults of an input file, which are an object, and the number of its entries. -/
def inputDefaults (path : String) (input : Except FileFault Content) :
    Except CommandError (Json × Nat) := do
  match ← inputTree path input with
  | .object entries => .ok (.object entries, entries.length)
  | _ => .error (.defaultsNoObject path)

/-- What a command does on a store: a report or an error, either of which may come with
the other. -/
structure Execution where
  report : Option Report
  error : Option CommandError

namespace Execution

/-- A command that ends with a report. -/
def ofReport (report : Report) : Execution := ⟨some report, none⟩

/-- A command that ends with an error. -/
def ofError (error : CommandError) : Execution := ⟨none, some error⟩

/-- A command that ends with either. -/
def ofResult : Except CommandError Report -> Execution
  | .ok report => ofReport report
  | .error error => ofError error

/-- What is printed, and the exit code. -/
def finish (json : Bool) (execution : Execution) : RunResult where
  code := (execution.error.map CommandError.exitCode).getD 0
  standardOutput := (execution.report.map (Report.printed json)).getD ""
  standardError := (execution.error.map fun error => "Error: " ++ error.message ++ "\n").getD ""

end Execution

/-- The route sets of an owner. -/
def routeSets (controller : Controller (FileStore δ)) (owner : String) :
    Except CommandError RouteSets :=
  (controller.routeSets owner).mapError .activation

/-- Runs a command on a store; `input` is what its input file holds. -/
def execute (effective : EffectiveSettings) (controller : Controller (FileStore δ))
    (input : Except FileFault Content) : Command -> Execution × Controller (FileStore δ)
  | .init owner path =>
      match inputDefaults path input with
      | .error error => (.ofError error, controller)
      | .ok (defaults, count) =>
          match controller.store.init owner defaults with
          | (.ok _, store) => (.ofReport (.ofInit owner count), { controller with store })
          | (.error error, store) => (.ofError (.store error), { controller with store })
  | .show owner all =>
      (.ofResult ((routeSets controller owner).map (.ofRouteSets all)), controller)
  | .routes owner none =>
      (.ofResult ((routeSets controller owner).map fun sets =>
        .ofRoutes (ActiveRoutes.ofRouteSets sets)), controller)
  | .routes owner (some path) =>
      let report := do
        let sets ← routeSets controller owner
        let table ← inputTable path input
        .ok (.ofMappings (table.apply (ActiveRoutes.ofRouteSets sets)))
      (.ofResult report, controller)
  | .activate owner routeSet =>
      let (result, after) := controller.switch owner routeSet true
      (.ofResult ((result.map .ofActivation).mapError .activation), after)
  | .deactivate owner routeSet =>
      let (result, after) := controller.switch owner routeSet false
      (.ofResult ((result.map .ofDeactivation).mapError .activation), after)
  | .reset owner =>
      let (result, after) := controller.reset owner
      (.ofResult ((result.map (.ofReset owner)).mapError .activation), after)
  | .check owner =>
      match routeSets controller owner with
      | .error error => (.ofError error, controller)
      | .ok sets =>
          let conflicts := sets.conflicts
          let error := if conflicts = [] then none else some (.conflicts conflicts.length)
          (⟨some (.ofConflicts conflicts), error⟩, controller)
  | .pools owner pool players =>
      (.ofResult ((routeSets controller owner).map fun sets =>
        .ofPlayers (enabledPlayers pool (players.map PlayerId.ofText) sets.poolStatuses)),
        controller)
  | .config => (.ofReport (.ofSettings effective), controller)

/-- The result of a run whose arguments are no command line. -/
def usageResult : RunResult where
  code := 2
  standardOutput := ""
  standardError := "error: the arguments are no command line\n"

/-- The result of a run whose settings cannot be loaded. -/
def settingsResult (error : SettingsError) : RunResult where
  code := 2
  standardOutput := ""
  standardError := "Error loading config: " ++ error.message ++ "\n"

/-- Runs a command with its settings on the directory of the store. -/
def runCommand (surroundings : Surroundings) (arguments : Arguments)
    (effective : EffectiveSettings) (directory : δ) (input : Except FileFault Content) :
    RunResult × δ :=
  let store : FileStore δ := { directory, now := surroundings.now }
  let controller := Controller.ofStore store effective.settings.lockTiming surroundings.supply
  let (execution, after) := execute effective controller input arguments.command
  (execution.finish arguments.options.json, after.store.directory)

/-- Runs a command line on a disk. -/
def run (surroundings : Surroundings) (disk : Disk) (line : List String) : RunResult × Disk :=
  match Arguments.parse? line with
  | none => (usageResult, disk)
  | some arguments =>
      let host := ((hostConfig? surroundings).map disk.configFile).getD .missing
      let project := disk.configFile (projectConfig arguments.options)
      match loadSettings surroundings arguments.options host project with
      | .error error => (settingsResult error, disk)
      | .ok effective =>
          let folder : Folder := { disk, path := effective.settings.storeDirectory }
          let input := ((inputPath? arguments.command).map disk.read).getD (.ok [])
          let (result, after) := runCommand surroundings arguments effective folder input
          (result, after.disk)

end Program

end LayerRouting
