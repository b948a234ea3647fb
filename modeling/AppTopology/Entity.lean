import AppTopology.Dict
import AppTopology.NameSet
import AppTopology.Scope.Checked

/-!
Fields starting with `connected`, and the fields of `Metadata` other than name and annotations, are
kept by the store.
-/

namespace AppTopology

structure Metadata where
  name : String := ""
  parent : String := ""
  reference : String := ""
  annotations : Dict String := {}
  uuid : String := ""
  deriving DecidableEq, Repr, Inhabited

structure Channel where
  info : Metadata := {}
  typeName : String := ""
  selectedBroker : String := ""
  brokerPriority : List String := []
  connectedApps : List String := []
  connectedAliases : List String := []
  deriving DecidableEq, Repr, Inhabited

structure ChannelType where
  info : Metadata := {}
  schema : String := ""
  connectedChannels : List String := []
  deriving DecidableEq, Repr, Inhabited

structure ChannelAlias where
  info : Metadata := {}
  target : String := ""
  deriving DecidableEq, Repr, Inhabited

structure Boundary where
  inputs : NameSet := {}
  outputs : NameSet := {}
  deriving DecidableEq, Repr, Inhabited

structure Node where
  image : String := ""
  replicas : UInt32 := 0
  environment : Dict String := {}
  deriving DecidableEq, Repr, Inhabited

structure App.Own where
  info : Metadata := {}
  channels : Dict Channel := {}
  types : Dict ChannelType := {}
  aliases : Dict ChannelAlias := {}
  boundary : Boundary := {}
  node : Option Node := none
  deriving DecidableEq, Repr, Inhabited

structure App where
  own : App.Own := {}
  apps : Dict App := {}

namespace Metadata

def path (info : Metadata) : Except TopologyError String := Scope.append info.parent info.name

def hasIdentity (info : Metadata) : Bool := info.uuid ≠ ""

end Metadata

namespace Boundary

def names (b : Boundary) : Direction → NameSet
  | .input => b.inputs
  | .output => b.outputs

def entries (b : Boundary) : List (Direction × String) :=
  b.inputs.names.map (.input, ·) ++ b.outputs.names.map (.output, ·)

def isEmpty (b : Boundary) : Bool := b.entries.isEmpty

end Boundary

namespace App

instance : Inhabited App := ⟨{}⟩

def info (app : App) : Metadata := app.own.info

def withInfo (app : App) (info : Metadata) : App := { app with own := { app.own with info } }

mutual

def size : App → Nat
  | ⟨_, ⟨children⟩⟩ => sizeAll children + 1

def sizeAll : List (String × App) → Nat
  | [] => 0
  | (_, app) :: rest => app.size + sizeAll rest

end

mutual

def decideEq : (a b : App) → Decidable (a = b)
  | ⟨own, ⟨children⟩⟩, ⟨own', ⟨children'⟩⟩ =>
    match (inferInstance : Decidable (own = own')), decideEqAll children children' with
    | isTrue h, isTrue h' => isTrue (by rw [h, h'])
    | isFalse h, _ => isFalse fun e => h (App.mk.inj e).1
    | _, isFalse h => isFalse fun e => h (Dict.mk.inj (App.mk.inj e).2)

def decideEqAll : (a b : List (String × App)) → Decidable (a = b)
  | [], [] => isTrue rfl
  | [], _ :: _ => isFalse nofun
  | _ :: _, [] => isFalse nofun
  | (key, app) :: rest, (key', app') :: rest' =>
    match (inferInstance : Decidable (key = key')), decideEq app app', decideEqAll rest rest' with
    | isTrue h, isTrue h', isTrue h'' => isTrue (by rw [h, h', h''])
    | isFalse h, _, _ => isFalse fun e => h (Prod.mk.inj (List.cons.inj e).1).1
    | _, isFalse h, _ => isFalse fun e => h (Prod.mk.inj (List.cons.inj e).1).2
    | _, _, isFalse h => isFalse fun e => h (List.cons.inj e).2

end

instance : DecidableEq App := decideEq

end App

end AppTopology
