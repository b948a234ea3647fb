import AppTopology.Staging.Connection
import AppTopology.Store.Mutation

/-!
A mutation is staged, checked and compared; only then, and only if it is not a dry run, the staged
tree is committed, with identities for what is new and with connections rebuilt.
-/

namespace AppTopology

structure Store where
  tree : App
  registry : Registry
  supply : Supply

structure Outcome (α : Type) where
  result : Except TopologyError α
  store : Store
  events : List Event

namespace Outcome

variable {α β : Type}

def andThen (outcome : Outcome α) (next : α → Store → Outcome β) : Outcome β :=
  match outcome.result with
  | .error error => ⟨.error error, outcome.store, outcome.events⟩
  | .ok value =>
    let after := next value outcome.store
    { after with events := outcome.events ++ after.events }

def announce (event : Event) (outcome : Outcome α) : Outcome α :=
  { outcome with events := event :: outcome.events }

def conclude (outcome : Outcome α) (succeeded : α → Event) (failed : TopologyError → Event) :
    Outcome α :=
  let event := match outcome.result with
    | .ok value => succeeded value
    | .error error => failed error
  { outcome with events := outcome.events ++ [event] }

end Outcome

structure Mode where
  dryRun : Bool := false
  cancelled : Bool := false

namespace Store

variable {α : Type}

def commit (store : Store) (staged : App) : Store :=
  let (tree, supply) := store.supply.identify staged
  { store with tree := tree.connect, supply }

def commitEvents (store : Store) (staged : App) : List Event :=
  (store.supply.issues staged).map fun (reference, uuid) => .identityAssigned reference uuid

def empty (registry : Registry) (supply : Supply) : Store :=
  (⟨{}, registry, supply⟩ : Store).commit {}

def emptyEvents (supply : Supply) : List Event :=
  (⟨{}, {}, supply⟩ : Store).commitEvents {}

def checkRoot (root : App) : Except TopologyError App := do
  let root ← root.normalize
  root.validate
  return root

def restore (root : App) (registry : Registry) (supply : Supply) : Except TopologyError Store := do
  return (⟨{}, registry, supply⟩ : Store).commit (← checkRoot root)

def restoreEvents (root : App) (supply : Supply) : List Event :=
  match checkRoot root with
  | .ok root => (⟨{}, {}, supply⟩ : Store).commitEvents root
  | .error _ => []

def attempt (store : Store) (mutation : Mutation) (dryRun : Bool) : Outcome Changelog :=
  match (mutation.route store.registry).edit store.tree with
  | .error error => ⟨.error error, store, []⟩
  | .ok staged =>
    let routed := mutation.routeEvents store.registry
    match store.tree.settle staged mutation.target with
    | .error error => ⟨.error error, store, routed⟩
    | .ok (staged, log) =>
      if dryRun then ⟨.ok log, store, routed ++ [.stagedDiscarded log.length]⟩
      else
        let identified := store.commitEvents staged
        ⟨.ok log, store.commit staged,
          routed ++ identified ++ [.treeCommitted log.length identified.length]⟩

def mutate (store : Store) (mutation : Mutation) (mode : Mode) : Outcome Changelog :=
  let request := mutation.request mode.dryRun
  let outcome :=
    if mode.cancelled then ⟨.error .cancelled, store, [.waitCancelled .write]⟩
    else store.attempt mutation mode.dryRun
  (outcome.announce (.mutationRequested request)).conclude
    (fun log => .mutationSucceeded request log.length) (.mutationRejected request)

def read (store : Store) (cancelled : Bool) (scope : String)
    (query : App → Except TopologyError α) : Outcome α :=
  match Scope.checkRequest scope with
  | .error error => ⟨.error error, store, []⟩
  | .ok () =>
    if cancelled then ⟨.error .cancelled, store, [.waitCancelled .read]⟩
    else ⟨query store.tree, store, []⟩

def getApp (store : Store) (cancelled : Bool) (scope : String) : Outcome App :=
  store.read cancelled scope (·.require scope)

def getLeaf (α : Type) [Leaf α] (store : Store) (cancelled : Bool) (scope name : String) :
    Outcome α :=
  store.read cancelled scope (·.requireLeaf α scope name)

def resolveBoundary (store : Store) (cancelled : Bool) (scope : String) :
    Outcome (Dict String) :=
  store.read cancelled scope fun root => do
    let app ← root.require scope
    let entries ← app.own.boundary.entries.mapM fun (_, name) =>
      match root.resolveBoundary scope name with
      | some path => .ok (name, path)
      | none => .error (.lostBoundary scope name)
    return Dict.ofList entries

def resolveBroker (store : Store) (cancelled : Bool) (scope name : String) : Outcome String :=
  let found := store.getLeaf Channel cancelled scope name
  match found.result with
  | .error error =>
    ⟨.error error, store, found.events ++ [.brokerLookupFailed scope name error]⟩
  | .ok channel =>
    if channel.selectedBroker = "" then
      ⟨.error (.unbrokered channel.info.reference), store,
        found.events ++ [.brokerUnset scope name]⟩
    else ⟨.ok channel.selectedBroker, store, found.events⟩

def register (store : Store) (broker : String) : Outcome Unit :=
  match store.registry.register broker with
  | .error error => ⟨.error error, store, []⟩
  | .ok registry => ⟨.ok (), { store with registry }, [.brokerInstalled broker registry.version]⟩

def setDefault (store : Store) (broker : String) : Outcome Unit :=
  match store.registry.setDefault broker with
  | .error error => ⟨.error error, store, []⟩
  | .ok registry => ⟨.ok (), { store with registry }, [.defaultChanged broker]⟩

end Store

end AppTopology
