import AppTopology.Config.Location
import AppTopology.Json.Json5
import AppTopology.Registry

namespace AppTopology

structure Config where
  name : String
  brokers : List String
  defaultBroker : Option String := none
  declarations : String
  dryRun : Bool := false
  describe : Option (List String) := none
  deriving DecidableEq, Repr

namespace Config

open Json

def readName? (json : Json) : Option String := do
  (← json.closedRecord? ["name"] 1).required "name" text?

def readBrokers? (json : Json) : Option (List String × Option String) := do
  let record ← json.closedRecord? ["available", "default"] 1
  return (← record.required "available" names?, ← record.field "default" none (nullable? text?))

def readDeclarations? (json : Json) : Option (String × Bool) := do
  let record ← json.closedRecord? ["file_path", "dry_run"] 1
  return (← record.required "file_path" text?, ← record.field "dry_run" false bool?)

def readScopes? (json : Json) : Option (List String) := do
  (← json.closedRecord? ["scopes"] 1).required "scopes" names?

def ofJson? (json : Json) : Option Config := do
  let record ← json.closedRecord? ["control_plane", "brokers", "declarations", "describe"] 3
  let name ← record.required "control_plane" readName?
  let (brokers, defaultBroker) ← record.required "brokers" readBrokers?
  let (declarations, dryRun) ← record.required "declarations" readDeclarations?
  let describe ← record.field "describe" none (nullable? readScopes?)
  return { name, brokers, defaultBroker, declarations, dryRun, describe }

def toJson (config : Config) : Json :=
  object [("control_plane", object [("name", text config.name)]),
    ("brokers", object [("available", Json.ofNames config.brokers),
      ("default", Json.ofOption text config.defaultBroker)]),
    ("declarations", object [("file_path", text config.declarations),
      ("dry_run", bool config.dryRun)]),
    ("describe", Json.ofOption (fun scopes => object [("scopes", Json.ofNames scopes)])
      config.describe)]

def parse? (s : String) : Option Config := Json5.parse? s >>= ofJson?

def registry (config : Config) : Except TopologyError Registry :=
  Registry.build config.brokers config.defaultBroker

def declarationsAt (config : Config) (path : String) : String :=
  Location.beside path config.declarations

end Config

end AppTopology
