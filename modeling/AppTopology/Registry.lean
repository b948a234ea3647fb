import AppTopology.Event

namespace AppTopology

theorem noDefault_mem : ∀ broker ∈ (none : Option String), broker ∈ ([] : List String) := nofun

theorem noDefault_isSome : ([] : List String) ≠ [] → (none : Option String).isSome :=
  fun h => absurd rfl h

structure Registry where
  available : List String := []
  defaultBroker : Option String := none
  version : Nat := 0
  nodup : available.Nodup := by exact List.nodup_nil
  default_mem : ∀ broker ∈ defaultBroker, broker ∈ available := by exact noDefault_mem
  default_isSome : available ≠ [] → defaultBroker.isSome := by exact noDefault_isSome
  deriving DecidableEq, Repr

namespace Registry

instance : Inhabited Registry := ⟨{}⟩

def isEmpty (registry : Registry) : Bool := registry.available.isEmpty

def register (registry : Registry) (broker : String) : Except TopologyError Registry :=
  if h : broker ∈ registry.available then .error (.takenBroker broker)
  else .ok {
    available := registry.available ++ [broker]
    defaultBroker := some (registry.defaultBroker.getD broker)
    version := registry.version + 1
    nodup := by simp [List.nodup_append, registry.nodup]; grind
    default_mem := by
      have := registry.default_mem
      cases hd : registry.defaultBroker <;> simp_all
    default_isSome := fun _ => rfl }

def setDefault (registry : Registry) (broker : String) : Except TopologyError Registry :=
  if h : broker ∈ registry.available then
    .ok { registry with
      defaultBroker := some broker
      version := registry.version + 1
      default_mem := by simpa using h
      default_isSome := by simp }
  else .error (.missingBroker broker)

def build (brokers : List String) (defaultBroker : Option String) :
    Except TopologyError Registry := do
  let registry ← brokers.foldlM register {}
  match defaultBroker with
  | none => return registry
  | some broker => registry.setDefault broker

def buildEvents (brokers : List String) (defaultBroker : Option String) : List Event :=
  brokers.zipIdx.map (fun (broker, n) => .brokerInstalled broker (n + 1)) ++
    (defaultBroker.map Event.defaultChanged).toList

def select (registry : Registry) (priority : List String) : Option String :=
  match priority.find? (· ∈ registry.available) with
  | some broker => some broker
  | none => registry.defaultBroker

def selectEvents (registry : Registry) (priority : List String) : List Event :=
  if priority = [] ∨ priority.any (· ∈ registry.available) then []
  else [.defaultSelected registry.defaultBroker]

def route (registry : Registry) (channel : Channel) : Channel :=
  match registry.select channel.brokerPriority with
  | some broker => { channel with selectedBroker := broker }
  | none => channel

def routeEvents (registry : Registry) (channel : Channel) : List Event :=
  registry.selectEvents channel.brokerPriority ++
    ((registry.select channel.brokerPriority).map
      (Event.brokerSelected channel.info.name)).toList

mutual

def routeBelow (registry : Registry) : App → App
  | ⟨own, ⟨children⟩⟩ =>
    ⟨{ own with channels := own.channels.mapWithKey fun _ => registry.route },
      ⟨registry.routeAll children⟩⟩

def routeAll (registry : Registry) : List (String × App) → List (String × App)
  | [] => []
  | (key, app) :: rest => (key, registry.routeBelow app) :: registry.routeAll rest

end

mutual

def eventsBelow (registry : Registry) : App → List Event
  | ⟨own, ⟨children⟩⟩ =>
    own.channels.values.flatMap registry.routeEvents ++ registry.eventsAll children

def eventsAll (registry : Registry) : List (String × App) → List Event
  | [] => []
  | (_, app) :: rest => registry.eventsBelow app ++ registry.eventsAll rest

end

def routeApp (registry : Registry) (app : App) : App :=
  if registry.isEmpty then app else registry.routeBelow app

def routeComponent (registry : Registry) : Component → Component
  | .channel channel => .channel (registry.route channel)
  | .app app => .app (registry.routeApp app)
  | component => component

def componentEvents (registry : Registry) : Component → List Event
  | .channel channel => registry.routeEvents channel
  | .app app => if registry.isEmpty then [] else registry.eventsBelow app
  | _ => []

end Registry

end AppTopology
