import AppTopology.Component

namespace AppTopology

inductive Verb where
  | create
  | update
  | delete
  deriving DecidableEq, Repr

def Verb.word : Verb → String
  | create => "create"
  | update => "update"
  | delete => "delete"

inductive Access where
  | read
  | write
  deriving DecidableEq, Repr

def Access.word : Access → String
  | read => "read"
  | write => "write"

structure Request where
  kind : Kind
  verb : Verb
  scope : String
  name : String
  dryRun : Bool

inductive Event where
  | mutationRequested (request : Request)
  | mutationSucceeded (request : Request) (changes : Nat)
  | mutationRejected (request : Request) (error : TopologyError)
  | waitCancelled (access : Access)
  | stagedDiscarded (changes : Nat)
  | treeCommitted (changes assigned : Nat)
  | identityAssigned (reference uuid : String)
  | brokerInstalled (broker : String) (version : Nat)
  | defaultChanged (broker : String)
  | brokerSelected (channel broker : String)
  | defaultSelected (broker : Option String)
  | brokerLookupFailed (scope channel : String) (error : TopologyError)
  | brokerUnset (scope channel : String)
  | componentStarted (kind : Kind) (scope name : String) (dryRun : Bool)
  | componentApplied (kind : Kind) (scope name : String) (changes : Nat)
  | componentRejected (kind : Kind) (scope name : String) (error : TopologyError)

namespace Event

open Json

inductive Level where
  | debug
  | info
  | warn

def Level.word : Level → String
  | debug => "DEBUG"
  | info => "INFO"
  | warn => "WARN"

def level : Event → Level
  | mutationSucceeded .. | brokerInstalled .. | defaultChanged _ | componentApplied .. => .info
  | mutationRejected .. | waitCancelled _ | brokerLookupFailed .. | brokerUnset .. |
    componentRejected .. => .warn
  | _ => .debug

def name : Event → String
  | mutationRequested request => s!"{request.kind.noun}_{request.verb.word}_start"
  | mutationSucceeded request _ => s!"{request.kind.noun}_{request.verb.word}_ok"
  | mutationRejected request _ => s!"{request.kind.noun}_{request.verb.word}_failed"
  | waitCancelled _ => "lock_wait_cancelled"
  | stagedDiscarded _ => "dry_run_discarded"
  | treeCommitted .. => "tree_committed"
  | identityAssigned .. => "uuid_assigned"
  | brokerInstalled .. => "broker_registered"
  | defaultChanged _ => "broker_default_set"
  | brokerSelected .. => "broker_selected"
  | defaultSelected _ => "broker_fallback_default"
  | brokerLookupFailed .. | brokerUnset .. => "broker_resolve_failed"
  | componentStarted .. => "apply_component_start"
  | componentApplied .. => "apply_component_ok"
  | componentRejected .. => "apply_component_failed"

def source : Event → String
  | mutationRequested _ | mutationSucceeded .. | mutationRejected .. | waitCancelled _ |
    stagedDiscarded _ | treeCommitted .. => "topology_store"
  | identityAssigned .. => "staging"
  | brokerInstalled .. | defaultChanged _ | brokerSelected .. | defaultSelected _ =>
    "broker_registry"
  | brokerLookupFailed .. | brokerUnset .. => "broker_resolution"
  | componentStarted .. | componentApplied .. | componentRejected .. => "apply"

def message : Event → String
  | mutationRequested _ => "mutation requested"
  | mutationSucceeded .. => "mutation succeeded"
  | mutationRejected .. => "mutation rejected"
  | waitCancelled _ => "gave up waiting for the topology lock"
  | stagedDiscarded _ => "staged tree discarded"
  | treeCommitted .. => "staged tree committed"
  | identityAssigned .. => "identity assigned"
  | brokerInstalled .. => "broker installed"
  | defaultChanged _ => "default broker changed"
  | brokerSelected .. => "broker selected for channel"
  | defaultSelected _ => "no prioritized broker installed, using default"
  | brokerLookupFailed .. => "channel lookup failed"
  | brokerUnset .. => "channel has no selected broker"
  | componentStarted .. => "applying component"
  | componentApplied .. => "component applied"
  | componentRejected .. => "component rejected, stopping batch"

def scopeField (scope : String) : String × Json := ("scope", text (Scope.display scope))

def errorField (error : TopologyError) : String × Json := ("err", text error.display)

def requestFields (request : Request) : List (String × Json) :=
  [scopeField request.scope, ("name", text request.name), ("dry_run", bool request.dryRun)]

def fields : Event → List (String × Json)
  | mutationRequested request => requestFields request
  | mutationSucceeded request changes => requestFields request ++ [("changes", integer changes)]
  | mutationRejected request error => requestFields request ++ [errorField error]
  | waitCancelled access => [("mode", text access.word)]
  | stagedDiscarded changes => [("reason", text "dry_run"), ("changes", integer changes)]
  | treeCommitted changes assigned =>
    [("changes", integer changes), ("assigned", integer assigned)]
  | identityAssigned reference uuid => [("reference", text reference), ("uuid", text uuid)]
  | brokerInstalled broker version =>
    [("broker", text broker), ("snapshot_version", integer version)]
  | defaultChanged broker => [("broker", text broker)]
  | brokerSelected channel broker => [("name", text channel), ("broker", text broker)]
  | defaultSelected broker =>
    [("reason", text "no_priority_match"), ("broker", text (Scope.displayOption broker))]
  | brokerLookupFailed scope channel error =>
    [scopeField scope, ("name", text channel), errorField error]
  | brokerUnset scope channel => [scopeField scope, ("name", text channel)]
  | componentStarted kind scope name dryRun =>
    [("kind", text kind.noun), scopeField scope, ("name", text name), ("dry_run", bool dryRun)]
  | componentApplied kind scope name changes =>
    [("kind", text kind.noun), scopeField scope, ("name", text name),
      ("changes", integer changes)]
  | componentRejected kind scope name error =>
    [("kind", text kind.noun), scopeField scope, ("name", text name), errorField error]

def toJson (event : Event) : Json :=
  object ([("level", text event.level.word), ("event", text event.name),
    ("component", text event.source), ("message", text event.message)] ++ event.fields)

end Event

end AppTopology
