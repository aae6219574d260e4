import LayerRouting.Text.Basic

/-!
# Command-line arguments

A command line names one command with its arguments. Options that concern all commands
may stand before the command or among its arguments; the latter win. An option's value
follows it as the next argument, which does not start with a dash, or after an equals
sign. After two dashes all arguments are taken as they are.
-/

namespace LayerRouting

/-- What a command line asks for. -/
inductive Command where
  /-- Start an owner's document from a file of defaults. -/
  | init (owner defaultsPath : String)
  /-- List route sets; hidden ones only with `all`. -/
  | «show» (owner : String) (all : Bool)
  /-- List the active routes, or route the mappings of a file. -/
  | routes (owner : String) (mappingsPath : Option String)
  | activate (owner routeSet : String)
  | deactivate (owner routeSet : String)
  | reset (owner : String)
  /-- Report groups with more than one active route set. -/
  | check (owner : String)
  /-- Keep the players of a pool that no route set disables. -/
  | pools (owner pool : String) (players : List String)
  /-- List the settings and their sources. -/
  | config
  deriving DecidableEq, Repr

/-- The owner that a command concerns. -/
def Command.owner? : Command -> Option String
  | .init owner _ => some owner
  | .show owner _ => some owner
  | .routes owner _ => some owner
  | .activate owner _ => some owner
  | .deactivate owner _ => some owner
  | .reset owner => some owner
  | .check owner => some owner
  | .pools owner _ _ => some owner
  | .config => none

/-- The options that concern all commands. -/
structure GlobalOptions where
  configPath : Option String
  storeDirectory : Option String
  lockTimeout : Option Nat
  logFilter : Option String
  json : Bool
  deriving DecidableEq, Repr

namespace GlobalOptions

/-- No options. -/
def none : GlobalOptions where
  configPath := Option.none
  storeDirectory := Option.none
  lockTimeout := Option.none
  logFilter := Option.none
  json := false

/-- Options before the command overridden by those after it. -/
def override (before after : GlobalOptions) : GlobalOptions where
  configPath := after.configPath.or before.configPath
  storeDirectory := after.storeDirectory.or before.storeDirectory
  lockTimeout := after.lockTimeout.or before.lockTimeout
  logFilter := after.logFilter.or before.logFilter
  json := after.json || before.json

end GlobalOptions

/-- A command line. -/
structure Arguments where
  options : GlobalOptions
  command : Command
  deriving DecidableEq, Repr

namespace Arguments

/-! ## Scanning -/

/-- An option by its name. -/
inductive OptionName where
  | config
  | storeDirectory
  | lockTimeout
  | logFilter
  | json
  | all
  | mappings
  deriving DecidableEq, Repr

namespace OptionName

/-- Whether the option takes a value. -/
def takesValue : OptionName -> Bool
  | .json | .all => false
  | _ => true

/-- The option of a name that follows two dashes. -/
def ofLong? : String -> Option OptionName
  | "config" => some .config
  | "store-dir" => some .storeDirectory
  | "lock-timeout-ms" => some .lockTimeout
  | "log-filter" => some .logFilter
  | "json" => some .json
  | "all" => some .all
  | "mappings" => some .mappings
  | _ => Option.none

end OptionName

/-- What the arguments of one level are: options with their values, and the others. -/
structure Scanned where
  options : List (OptionName × String)
  operands : List String
  deriving DecidableEq, Repr

namespace Scanned

/-- Nothing scanned yet. -/
def empty : Scanned := ⟨[], []⟩

/-- The scan with an option before the rest; an option is given once. -/
def withOption? (name : OptionName) (value : String) (rest : Scanned) : Option Scanned :=
  if rest.options.any fun option => option.1 = name then none
  else some { rest with options := (name, value) :: rest.options }

/-- The scan with an operand before the rest. -/
def withOperand (operand : String) (rest : Scanned) : Scanned :=
  { rest with operands := operand :: rest.operands }

/-- The value of an option. -/
def value? (scanned : Scanned) (name : OptionName) : Option String :=
  (scanned.options.find? fun option => option.1 = name).map Prod.snd

/-- Whether an option is given. -/
def has (scanned : Scanned) (name : OptionName) : Bool :=
  scanned.options.any fun option => option.1 = name

end Scanned

/-- What one argument is by its form. -/
inductive Shape where
  /-- Two dashes alone. -/
  | terminator
  /-- An option, with the value that is part of the argument. -/
  | option (name : OptionName) (value : Option String)
  | operand (text : String)
  | unknownOption
  deriving DecidableEq, Repr

/-- The part before the first equals sign, and the part after it if there is one. -/
def splitEquals : List Char -> List Char × Option (List Char)
  | [] => ([], none)
  | '=' :: rest => ([], some rest)
  | char :: rest =>
      let (name, value) := splitEquals rest
      (char :: name, value)

/-- What an argument is; a dash alone is an operand. -/
def shapeOf (argument : String) : Shape :=
  match argument.toList with
  | ['-', '-'] => .terminator
  | '-' :: '-' :: long =>
      let (name, value) := splitEquals long
      match OptionName.ofLong? (String.ofList name) with
      | some option => .option option (value.map String.ofList)
      | none => .unknownOption
  | ['-'] => .operand argument
  | '-' :: 'c' :: attached =>
      match attached with
      | [] => .option .config none
      | '=' :: value => .option .config (some (String.ofList value))
      | value => .option .config (some (String.ofList value))
  | '-' :: _ => .unknownOption
  | _ => .operand argument

/-- Whether an argument can be the value of the option before it. -/
def canBeValue (argument : String) : Bool :=
  match argument.toList with
  | '-' :: _ :: _ => false
  | _ => true

/-- Scans the arguments of a command, in which only some options are known. -/
def scanAll? (known : OptionName -> Bool) (arguments : List String) : Option Scanned :=
  match arguments with
  | [] => some Scanned.empty
  | argument :: rest =>
      match shapeOf argument with
      | .terminator => some { Scanned.empty with operands := rest }
      | .unknownOption => none
      | .operand text => (scanAll? known rest).map (Scanned.withOperand text)
      | .option name attached =>
          if !known name then none
          else if !name.takesValue then
            if attached.isSome then none
            else (scanAll? known rest).bind (Scanned.withOption? name "")
          else
            match attached, rest with
            | some value, rest => (scanAll? known rest).bind (Scanned.withOption? name value)
            | none, value :: rest =>
                if canBeValue value then (scanAll? known rest).bind (Scanned.withOption? name value)
                else none
            | none, [] => none

/-- Whether an option concerns all commands. -/
def isGlobal : OptionName -> Bool
  | .all | .mappings => false
  | _ => true

/-- What stands before the arguments of a command: options and the command's name. -/
structure Head where
  scanned : Scanned
  command : String
  arguments : List String
  deriving DecidableEq, Repr

/-- The head with an option before the rest. -/
def Head.withOption? (name : OptionName) (value : String) (head : Head) : Option Head :=
  (head.scanned.withOption? name value).map fun scanned => { head with scanned }

/-- Scans the options before the command, up to its name. -/
def scanHead? (arguments : List String) : Option Head :=
  match arguments with
  | [] => none
  | argument :: rest =>
      match shapeOf argument with
      | .terminator => none
      | .unknownOption => none
      | .operand text => some ⟨Scanned.empty, text, rest⟩
      | .option name attached =>
          if !isGlobal name then none
          else if !name.takesValue then
            if attached.isSome then none
            else (scanHead? rest).bind (Head.withOption? name "")
          else
            match attached, rest with
            | some value, rest => (scanHead? rest).bind (Head.withOption? name value)
            | none, value :: rest =>
                if canBeValue value then (scanHead? rest).bind (Head.withOption? name value)
                else none
            | none, [] => none

/-! ## Values -/

/-- A path, which is not empty. -/
def path? (value : String) : Option String :=
  if value = "" then none else some value

/-- The value of an option that may be absent, read as something. -/
def readOption? {α : Type} (read? : String -> Option α) : Option String -> Option (Option α)
  | none => some none
  | some value => (read? value).map some

/-- The first number that is too large for an option. -/
def numberLimit : Nat := 0x10000000000000000

/-- The options that concern all commands, of one level. -/
def globals? (scanned : Scanned) : Option GlobalOptions := do
  let configPath ← readOption? path? (scanned.value? .config)
  let storeDirectory ← readOption? path? (scanned.value? .storeDirectory)
  let lockTimeout ←
    readOption? (fun value => Text.unsigned? numberLimit value.toList) (scanned.value? .lockTimeout)
  some { configPath, storeDirectory, lockTimeout, logFilter := scanned.value? .logFilter,
         json := scanned.has .json }

/-- The options that a command knows besides the global ones. -/
def ownOptions : String -> List OptionName
  | "show" => [.all]
  | "routes" => [.mappings]
  | _ => []

/-- The command of a name with its scanned arguments. -/
def command? (name : String) (scanned : Scanned) : Option Command :=
  match name, scanned.operands with
  | "init", [owner, defaults] => (path? defaults).map (.init owner)
  | "show", [owner] => some (.show owner (scanned.has .all))
  | "routes", [owner] =>
      (readOption? path? (scanned.value? .mappings)).map (.routes owner)
  | "activate", [owner, routeSet] => some (.activate owner routeSet)
  | "deactivate", [owner, routeSet] => some (.deactivate owner routeSet)
  | "reset", [owner] => some (.reset owner)
  | "check", [owner] => some (.check owner)
  | "pools", owner :: pool :: players => some (.pools owner pool players)
  | "config", [] => some .config
  | _, _ => none

/-- The command line of a list of arguments. -/
def parse? (arguments : List String) : Option Arguments := do
  let head ← scanHead? arguments
  let known (option : OptionName) : Bool := isGlobal option || option ∈ ownOptions head.command
  let tail ← scanAll? known head.arguments
  let before ← globals? head.scanned
  let after ← globals? tail
  let command ← command? head.command tail
  some { options := before.override after, command }

end Arguments

end LayerRouting
