import AppTopology.Change.Text
import AppTopology.Config
import AppTopology.Json.Layout
import AppTopology.Store.Apply
import AppTopology.Text.Literal

namespace AppTopology.CommandLine

structure Options where
  config : String
  dryRun : Bool := false
  deriving DecidableEq, Repr

def attached? (argument : String) : Option String :=
  match argument.toList with
  | '-' :: '-' :: 'c' :: 'o' :: 'n' :: 'f' :: 'i' :: 'g' :: '=' :: value =>
    some (String.ofList value)
  | '-' :: 'c' :: '=' :: value => some (String.ofList value)
  | '-' :: 'c' :: c :: value => some (String.ofList (c :: value))
  | _ => none

def isValue (argument : String) : Bool :=
  match argument.toList with
  | '-' :: _ :: _ => false
  | _ => true

def parseWith (config : Option String) (dryRun : Bool) : List String → Option Options
  | [] => config.map fun config => { config, dryRun }
  | ["--"] => config.map fun config => { config, dryRun }
  | "--dry-run" :: rest => if dryRun then none else parseWith config true rest
  | "--config" :: value :: rest | "-c" :: value :: rest =>
    if config.isSome ∨ value = "" ∨ !isValue value then none
    else parseWith (some value) dryRun rest
  | argument :: rest =>
    match attached? argument with
    | none => none
    | some value =>
      if config.isSome ∨ value = "" then none else parseWith (some value) dryRun rest

def Options.parse? (arguments : List String) : Option Options := parseWith none false arguments

inductive Failure where
  | usage
  | unreadableConfig (path : String)
  | unreadableDeclarations (path : String)
  | malformed (path : String)
  | refused (error : TopologyError)

namespace Failure

def code : Failure → UInt8
  | usage => 2
  | _ => 1

def message : Failure → String
  | usage => "Usage: app-topology --config FILE [--dry-run]"
  | unreadableConfig path => "Error: Unable to read config file " ++ path
  | unreadableDeclarations path => "Error: Unable to read declarations " ++ path
  | malformed path => "Error: Unable to understand " ++ path
  | refused error => "Error: " ++ error.report

end Failure

structure Report where
  output : String := ""
  failure : Option Failure := none

def appliedText (applied : Applied) : String :=
  let path := match Scope.append applied.scope applied.name with
    | .ok path => path
    | .error _ => applied.name
  s!"{applied.kind.noun} {path} {applied.action}\n" ++ applied.log.render

def describe (store : Store) : List String → Report
  | [] => {}
  | scope :: rest =>
    match (store.getApp false scope).result with
    | .error error => { failure := some (.refused error) }
    | .ok app =>
      let report := describe store rest
      { report with output := app.toJson.layout 0 ++ "\n" ++ report.output }

def execute (store : Store) (components : List Component) (dryRun : Bool)
    (scopes : List String) : Report :=
  let outcome := store.apply components { dryRun }
  match outcome.result with
  | .error error => { failure := some (.refused error) }
  | .ok applied =>
    let report := describe outcome.store scopes
    { report with output := String.join (applied.map appliedText) ++ report.output }

def run {m : Type → Type} [Monad m] (readFile : String → m (Option String)) (supply : Supply)
    (arguments : List String) : m Report := do
  let some options := Options.parse? arguments | return { failure := some .usage }
  let some text ← readFile options.config
    | return { failure := some (.unreadableConfig options.config) }
  let some config := Config.parse? text | return { failure := some (.malformed options.config) }
  match config.registry with
  | .error error => return { failure := some (.refused error) }
  | .ok registry =>
    let path := config.declarationsAt options.config
    let some text ← readFile path | return { failure := some (.unreadableDeclarations path) }
    let some components := Json.Json5.parseValid? text >>= Component.listOfJson?
      | return { failure := some (.malformed path) }
    return execute (Store.empty registry supply) components (options.dryRun || config.dryRun)
      (config.describe.getD [])

def hexDigits (width n : Nat) : String :=
  let digits := Nat.toDigits 16 n
  String.ofList (List.replicate (width - digits.length) '0' ++ digits)

def uuidText (n : Nat) : String :=
  let field (offset bits : Nat) : Nat := n / Nat.pow 2 offset % Nat.pow 2 bits
  "-".intercalate [hexDigits 8 (field 90 32), hexDigits 4 (field 74 16),
    hexDigits 4 (0x4000 + field 62 12), hexDigits 4 (0x8000 + field 48 14),
    hexDigits 12 (field 0 48)]

theorem uuidText_ne_empty (n : Nat) : uuidText n ≠ "" := by simp [uuidText]

def randomSupply (seed : Nat) : Supply :=
  { mint := fun n => uuidText ((seed + n) * 0x9e3779b97f4a7c15f39cc0605cedc83 % Nat.pow 2 122)
    mint_ne_empty := fun _ => uuidText_ne_empty _ }

end AppTopology.CommandLine
