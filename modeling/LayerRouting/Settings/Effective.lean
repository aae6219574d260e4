import LayerRouting.Digest.Sha256
import LayerRouting.Settings.Basic
import LayerRouting.Settings.Merge
import LayerRouting.Store.Basic
import LayerRouting.Text.Content
import LayerRouting.Time.Timestamp
import LayerRouting.Toml.Parser

/-!
# Effective settings

The settings that result from all layers, with a record of each layer that contributed:
the built-in settings, the host's file, the project's file and the command line, from the
weakest to the strongest. A file that does not exist contributes nothing; a file that
does is recorded with the digest of its bytes.
-/

namespace LayerRouting

/-- Where a layer of settings comes from. -/
inductive SettingsOrigin where
  | builtin
  | host
  | project
  | commandLine
  deriving DecidableEq, Repr

/-- A layer that contributed to the settings. -/
structure SettingsSource where
  origin : SettingsOrigin
  /-- The path of the layer's file. -/
  path : Option String
  /-- The digest of the file's bytes. -/
  digest : Option String
  deriving DecidableEq, Repr

/-- What stands at the path of a configuration file. -/
inductive ConfigFile where
  | missing
  | directory
  | file (content : Content)
  deriving DecidableEq, Repr

/-- Why settings could not be loaded. -/
inductive SettingsError where
  /-- A file that was asked for does not exist. -/
  | notFound (path : String)
  | unreadable (path : String) (fault : FileFault)
  /-- A file is no TOML text. -/
  | malformed (path : String)
  /-- The layers together do not read as settings. -/
  | mistyped
  | invalid (fault : SettingsFault)
  deriving DecidableEq, Repr

/-- Settings with their sources. -/
structure EffectiveSettings where
  loadedAt : Timestamp
  settings : Settings
  /-- The layers that contributed, from the weakest to the strongest. -/
  sources : List SettingsSource
  deriving DecidableEq, Repr

namespace SettingsOrigin

/-- The word for an origin in a tree. -/
def name : SettingsOrigin -> String
  | .builtin => "builtin"
  | .host => "host"
  | .project => "project"
  | .commandLine => "cli"

/-- The word for an origin in a listing. -/
def title : SettingsOrigin -> String
  | .builtin => "Builtin"
  | .host => "Host"
  | .project => "Project"
  | .commandLine => "Cli"

end SettingsOrigin

namespace SettingsError

/-- The text of an error. -/
def message : SettingsError -> String
  | .notFound path => "IO error: " ++ path ++ ": config file not found"
  | .unreadable path fault => "IO error: " ++ path ++ ": " ++ fault.message
  | .malformed path => "Parse error: " ++ path ++ ": not a TOML text"
  | .mistyped => "Parse error: invalid settings"
  | .invalid fault => "Validation error: " ++ fault.message

end SettingsError

/-- A layer: its source and its tree. -/
abbrev SettingsLayer := SettingsSource × Json

namespace SettingsLayer

/-- The layer of a file, if there is one. -/
def ofFile (origin : SettingsOrigin) (path : String) :
    ConfigFile -> Except SettingsError (Option SettingsLayer)
  | .missing => .ok none
  | .directory => .error (.unreadable path .isADirectory)
  | .file content =>
      match content.chars?.bind Toml.parse? with
      | none => .error (.malformed path)
      | some tree =>
          let digest := Sha256.hexDigest content.toBytes
          .ok (some ({ origin, path := some path, digest := some digest }, tree))

/-- The layer of a file at a path, if a path is given. -/
def ofPath (origin : SettingsOrigin) :
    Option (String × ConfigFile) -> Except SettingsError (Option SettingsLayer)
  | none => .ok none
  | some (path, file) => ofFile origin path file

/-- The layer of the built-in settings. -/
def builtin : SettingsLayer :=
  ({ origin := .builtin, path := none, digest := none }, Settings.builtin.toJson)

/-- The layer of the command line, if it holds anything. -/
def ofCommandLine : Option Json -> Option SettingsLayer
  | some (.object (entry :: rest)) =>
      some ({ origin := .commandLine, path := none, digest := none }, .object (entry :: rest))
  | _ => none

end SettingsLayer

namespace EffectiveSettings

/-- The settings of layers from the weakest to the strongest. -/
def ofLayers (loadedAt : Timestamp) (layers : List SettingsLayer) :
    Except SettingsError EffectiveSettings :=
  match Settings.ofJson? (Json.mergeLayers (layers.map Prod.snd)) with
  | none => .error .mistyped
  | some settings =>
      match settings.fault? with
      | some fault => .error (.invalid fault)
      | none => .ok { loadedAt, settings, sources := layers.map Prod.fst }

/-- The settings of the host's file, the project's file and the command line. -/
def load (loadedAt : Timestamp) (host project : Option (String × ConfigFile))
    (commandLine : Option Json) : Except SettingsError EffectiveSettings := do
  let hostLayer ← SettingsLayer.ofPath .host host
  let projectLayer ← SettingsLayer.ofPath .project project
  ofLayers loadedAt (SettingsLayer.builtin ::
    (hostLayer.toList ++ projectLayer.toList
      ++ (SettingsLayer.ofCommandLine commandLine).toList))

/-- A source as a tree. -/
def sourceToJson (source : SettingsSource) : Json :=
  .object (("origin", .string source.origin.name)
    :: (Json.optionalEntry "path" .string source.path
      ++ Json.optionalEntry "digest" .string source.digest))

/-- Effective settings as a tree. -/
def toJson (effective : EffectiveSettings) : Json :=
  .object [("loaded_at", .string effective.loadedAt.text),
    ("settings", effective.settings.toJson),
    ("sources", Json.ofList sourceToJson effective.sources)]

end EffectiveSettings

end LayerRouting
