import AppTopology.Kind
import AppTopology.Scope

namespace AppTopology

inductive ErrorKind where
  | notFound
  | alreadyExists
  | invalidName
  | invalidApp
  | invalidChannel
  | invalidType
  | invalidAlias
  | badRequest
  | invalidArgs
  | internal
  | cancelled
  deriving DecidableEq, Repr

inductive TopologyError where
  | missing (kind : Kind) (path : String)
  | missingBroker (broker : String)
  | taken (kind : Kind) (path : String)
  | takenBroker (broker : String)
  | badName (name : String)
  /-- A text that is no scope was to be joined or split. -/
  | badScope (scope : String)
  | namedRoot (name : String)
  | misfiled (name key parent : String)
  | renamedApp (scope name : String)
  | blankImage (path : String)
  | danglingBoundary (path : String) (direction : Direction) (name : String)
  | untypedChannel (path : String)
  | danglingType (path typeName : String)
  | blankSchema (path : String)
  | untargetedAlias (path : String)
  | danglingTarget (path target : String)
  /-- A caller gave a text that is no scope. -/
  | malformedScope (scope : String)
  | inUse (kind : Kind) (path : String) (users : List String)
  | unbrokered (path : String)
  | rootDeletion
  | lostApp (scope : String)
  | lostBoundary (scope name : String)
  | cancelled
  deriving DecidableEq, Repr

namespace ErrorKind

def code : ErrorKind → String
  | notFound => "not_found"
  | alreadyExists => "already_exists"
  | invalidName => "invalid_name"
  | invalidApp => "invalid_app"
  | invalidChannel => "invalid_channel"
  | invalidType => "invalid_type"
  | invalidAlias => "invalid_alias"
  | badRequest => "bad_request"
  | invalidArgs => "invalid_args"
  | internal => "internal"
  | cancelled => "cancelled"

def title : ErrorKind → String
  | notFound => "NotFound"
  | alreadyExists => "AlreadyExists"
  | invalidName => "InvalidName"
  | invalidApp => "InvalidApp"
  | invalidChannel => "InvalidChannel"
  | invalidType => "InvalidType"
  | invalidAlias => "InvalidAlias"
  | badRequest => "BadRequest"
  | invalidArgs => "InvalidArgs"
  | internal => "Internal"
  | cancelled => "Cancelled"

def phrase : ErrorKind → String
  | notFound => "not found"
  | alreadyExists => "already exists"
  | invalidName => "invalid name"
  | invalidApp => "invalid app"
  | invalidChannel => "invalid channel"
  | invalidType => "invalid type"
  | invalidAlias => "invalid alias"
  | badRequest => "bad request"
  | invalidArgs => "invalid arguments"
  | internal => "internal error"
  | cancelled => "operation cancelled while waiting for the topology lock"

def isValidation : ErrorKind → Bool
  | invalidName | invalidApp | invalidChannel | invalidType | invalidAlias => true
  | _ => false

end ErrorKind

namespace TopologyError

def kind : TopologyError → ErrorKind
  | missing .. | missingBroker _ => .notFound
  | taken .. | takenBroker _ => .alreadyExists
  | badName _ | badScope _ | namedRoot _ | misfiled .. | renamedApp .. => .invalidName
  | blankImage _ | danglingBoundary .. => .invalidApp
  | untypedChannel _ | danglingType .. => .invalidChannel
  | blankSchema _ => .invalidType
  | untargetedAlias _ | danglingTarget .. => .invalidAlias
  | malformedScope _ | inUse .. | unbrokered _ => .badRequest
  | rootDeletion => .invalidArgs
  | lostApp _ | lostBoundary .. => .internal
  | cancelled => .cancelled

def message : TopologyError → String
  | missing .app path => s!"app '{Scope.display path}' does not exist"
  | missing kind path => s!"{kind.noun} '{path}' does not exist"
  | missingBroker broker => s!"broker '{broker}' is not installed"
  | taken kind path => s!"{kind.noun} '{path}' already exists"
  | takenBroker broker => s!"broker '{broker}' is already installed"
  | badName name =>
    s!"'{name}' must match [A-Za-z0-9][A-Za-z0-9_-]* and be at most {Scope.nameLimit} characters"
  | badScope scope => s!"invalid scope: '{scope}'"
  | namedRoot name => s!"the root app cannot be named ('{name}')"
  | misfiled name key parent =>
    s!"name '{name}' does not match its key '{key}' in scope '{parent}'"
  | renamedApp scope name => s!"app '{scope}' cannot be renamed to '{name}'"
  | blankImage path => s!"app '{path}' declares a node without an image"
  | danglingBoundary path direction name =>
    s!"app '{path}': {direction.field} '{name}' does not resolve to a channel or alias"
  | untypedChannel path => s!"channel '{path}' does not declare a type"
  | danglingType path typeName => s!"channel '{path}': type '{typeName}' does not resolve"
  | blankSchema path => s!"type '{path}' has an empty schema"
  | untargetedAlias path => s!"alias '{path}' has no target"
  | danglingTarget path target =>
    s!"alias '{path}': target '{target}' does not resolve to a channel"
  | malformedScope scope => s!"malformed scope '{scope}'"
  | inUse kind path users =>
    s!"{kind.noun} '{path}' is still used by " ++ ", ".intercalate (users.map Scope.display)
  | unbrokered path => s!"channel '{path}' has no selected broker"
  | rootDeletion => "the root app cannot be deleted"
  | lostApp scope => s!"staged tree lost app '{Scope.display scope}'"
  | lostBoundary scope name => s!"committed boundary '{name}' of app '{scope}' does not resolve"
  | cancelled => "cancelled"

def isValidation (error : TopologyError) : Bool := error.kind.isValidation

def display (error : TopologyError) : String :=
  match error with
  | cancelled => error.kind.phrase
  | _ => s!"{error.kind.phrase}: {error.message}"

end TopologyError

end AppTopology
