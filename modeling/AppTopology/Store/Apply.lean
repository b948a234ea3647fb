import AppTopology.Store

namespace AppTopology

structure Applied where
  kind : Kind
  scope : String
  name : String
  existed : Bool
  log : Changelog

def Applied.action (applied : Applied) : String :=
  if applied.existed then "updated" else "created"

namespace Store

variable {α : Type}

def found (outcome : Outcome α) : Outcome Bool :=
  { outcome with
    result := match outcome.result with
      | .ok _ => .ok true
      | .error error => if error.kind = .notFound then .ok false else .error error }

def createOrUpdate (lookup : Outcome α) (component : Component) (updateScope : String)
    (mode : Mode) : Outcome (Bool × Changelog) :=
  (found lookup).andThen fun existed store =>
    let mutation :=
      if existed then Mutation.update updateScope component
      else .create component.info.parent component
    (store.mutate mutation mode).andThen fun log store => ⟨.ok (existed, log), store, []⟩

def put (store : Store) (component : Component) (mode : Mode) : Outcome (Bool × Changelog) :=
  let scope := component.info.parent
  let name := component.info.name
  match component with
  | .channelType _ =>
    createOrUpdate (store.getLeaf ChannelType mode.cancelled scope name) component scope mode
  | .channel _ =>
    createOrUpdate (store.getLeaf Channel mode.cancelled scope name) component scope mode
  | .channelAlias _ =>
    createOrUpdate (store.getLeaf ChannelAlias mode.cancelled scope name) component scope mode
  | .app _ =>
    match Scope.append scope name with
    | .error error => ⟨.error error, store, []⟩
    | .ok path => createOrUpdate (store.getApp mode.cancelled path) component path mode

def applyOne (store : Store) (component : Component) (mode : Mode) : Outcome Applied :=
  let scope := component.info.parent
  let name := component.info.name
  let outcome := (store.put component mode).andThen fun (existed, log) store =>
    ⟨.ok { kind := component.kind, scope, name, existed, log }, store, []⟩
  (outcome.announce (.componentStarted component.kind scope name mode.dryRun)).conclude
    (fun applied => .componentApplied component.kind scope name applied.log.length)
    (.componentRejected component.kind scope name)

def applyInOrder (store : Store) (mode : Mode) : List Component → Outcome (List Applied)
  | [] => ⟨.ok [], store, []⟩
  | component :: rest =>
    (store.applyOne component mode).andThen fun applied store =>
      (store.applyInOrder mode rest).andThen fun others store =>
        ⟨.ok (applied :: others), store, []⟩

def apply (store : Store) (components : List Component) (mode : Mode) : Outcome (List Applied) :=
  store.applyInOrder mode (Component.ordered components)

end Store

end AppTopology
