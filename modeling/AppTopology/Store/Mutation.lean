import AppTopology.Registry
import AppTopology.Staging.Identity
import AppTopology.Staging.Normalize
import AppTopology.Change.Diff
import AppTopology.Validation

namespace AppTopology

inductive Target where
  | channelType (scope name : String)
  | channel (scope name : String)
  | app (path : String)
  | channelAlias (scope name : String)
  deriving DecidableEq, Repr

namespace Target

def kind : Target → Kind
  | channelType .. => .channelType
  | channel .. => .channel
  | app _ => .app
  | channelAlias .. => .channelAlias

def path : Target → String
  | channelType scope name | channel scope name | channelAlias scope name => Scope.child scope name
  | app path => path

def leafChanges (α : Type) [Leaf α] (scope name : String) (old new : App) :
    Except TopologyError Changelog := do
  let path ← Scope.append scope name
  let leaf (root : App) : Option α := (root.find? scope).bind fun app => app.own.leaf? α name
  return Diff.leaf false path (leaf old) (leaf new)

def changes (old new : App) : Target → Except TopologyError Changelog
  | channelType scope name => leafChanges ChannelType scope name old new
  | channel scope name => leafChanges Channel scope name old new
  | app path => Diff.trees (old.find? path) (new.find? path)
  | channelAlias scope name => leafChanges ChannelAlias scope name old new

end Target

/-- Entities are created in a scope under their own names; an app is updated at its own path, other
entities in their scope. -/
inductive Mutation where
  | create (scope : String) (component : Component)
  | update (scope : String) (component : Component)
  | delete (target : Target)

namespace App

variable {α : Type} [Leaf α]

def require (root : App) (scope : String) : Except TopologyError App :=
  match root.find? scope with
  | some app => .ok app
  | none => .error (.missing .app scope)

def requireLeaf (α : Type) [Leaf α] (root : App) (scope name : String) :
    Except TopologyError α := do
  let app ← root.require scope
  match app.own.leaf? α name with
  | some leaf => return leaf
  | none => throw (.missing (Leaf.kind α) (Scope.child scope name))

def stage (root : App) (scope : String) (edit : App → App) : Except TopologyError App :=
  match root.modify? scope edit with
  | some root => .ok root
  | none => .error (.lostApp scope)

def createApp (root : App) (scope : String) (app : App) : Except TopologyError App := do
  Scope.checkRequest scope
  let parent ← root.require scope
  let name := app.info.name
  if (parent.child? name).isSome then throw (.taken .app (Scope.child scope name))
  Scope.checkName name
  root.stage scope (·.putChild name (app.succeed none))

/-- The name may be left out of a new version of an app, but not be another. -/
def updateApp (root : App) (scope : String) (app : App) : Except TopologyError App := do
  Scope.checkRequest scope
  let existing ← root.require scope
  let expected := Scope.leaf scope
  if app.info.name ≠ "" ∧ app.info.name ≠ expected then
    throw (.renamedApp scope app.info.name)
  let app := app.withInfo { app.info with name := expected }
  root.stage scope fun _ => app.succeed (some existing)

def deleteApp (root : App) (path : String) : Except TopologyError App := do
  Scope.checkRequest path
  if path = "" then throw .rootDeletion
  let _ ← root.require path
  root.stage (Scope.parent path) (·.dropChild (Scope.leaf path))

def createLeaf (root : App) (scope : String) (leaf : α) : Except TopologyError App := do
  Scope.checkRequest scope
  let parent ← root.require scope
  let name := (Leaf.info leaf).name
  if (parent.own.leaf? α name).isSome then
    throw (.taken (Leaf.kind α) (Scope.child scope name))
  Scope.checkName name
  let fresh := Leaf.withInfo (Leaf.detached leaf) ((Leaf.info leaf).succeed none)
  root.stage scope (·.putLeaf name fresh)

def updateLeaf (root : App) (scope : String) (leaf : α) : Except TopologyError App := do
  Scope.checkRequest scope
  let name := (Leaf.info leaf).name
  Scope.checkName name
  let existing ← root.requireLeaf α scope name
  let next := Leaf.withInfo leaf ((Leaf.info leaf).succeed (some (Leaf.info existing)))
  root.stage scope (·.putLeaf name next)

def deleteLeaf (α : Type) [Leaf α] (root : App) (scope name : String) :
    Except TopologyError App := do
  Scope.checkRequest scope
  let existing ← root.requireLeaf α scope name
  if Leaf.users existing ≠ [] then
    throw (.inUse (Leaf.kind α) (Scope.child scope name) (Leaf.users existing))
  root.stage scope (·.dropLeaf α name)

def settle (committed staged : App) (target : Target) :
    Except TopologyError (App × Changelog) := do
  let staged ← staged.normalize
  staged.validate
  let log ← target.changes committed staged
  return (staged, log)

end App

namespace Mutation

def target : Mutation → Target
  | create scope component =>
    let name := component.info.name
    match component with
    | .channelType _ => .channelType scope name
    | .channel _ => .channel scope name
    | .app _ => .app (Scope.child scope name)
    | .channelAlias _ => .channelAlias scope name
  | update scope component =>
    let name := component.info.name
    match component with
    | .channelType _ => .channelType scope name
    | .channel _ => .channel scope name
    | .app _ => .app scope
    | .channelAlias _ => .channelAlias scope name
  | delete target => target

def request (dryRun : Bool) : Mutation → Request
  | create scope component => ⟨component.kind, .create, scope, component.info.name, dryRun⟩
  | update scope component => ⟨component.kind, .update, scope, component.info.name, dryRun⟩
  | delete target =>
    let (scope, name) := match target with
      | .channelType scope name | .channel scope name | .channelAlias scope name => (scope, name)
      | .app path => (path, Scope.leaf path)
    ⟨target.kind, .delete, scope, name, dryRun⟩

def route (registry : Registry) : Mutation → Mutation
  | create scope component => create scope (registry.routeComponent component)
  | update scope component => update scope (registry.routeComponent component)
  | delete target => delete target

def routeEvents (registry : Registry) : Mutation → List Event
  | create _ component | update _ component => registry.componentEvents component
  | delete _ => []

def edit (root : App) : Mutation → Except TopologyError App
  | create scope (.channelType declared) => root.createLeaf scope declared
  | create scope (.channel channel) => root.createLeaf scope channel
  | create scope (.app app) => root.createApp scope app
  | create scope (.channelAlias declared) => root.createLeaf scope declared
  | update scope (.channelType declared) => root.updateLeaf scope declared
  | update scope (.channel channel) => root.updateLeaf scope channel
  | update scope (.app app) => root.updateApp scope app
  | update scope (.channelAlias declared) => root.updateLeaf scope declared
  | delete (.channelType scope name) => root.deleteLeaf ChannelType scope name
  | delete (.channel scope name) => root.deleteLeaf Channel scope name
  | delete (.app path) => root.deleteApp path
  | delete (.channelAlias scope name) => root.deleteLeaf ChannelAlias scope name

end Mutation

end AppTopology
