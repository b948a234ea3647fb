import AppTopology.Resolution
import AppTopology.Text.Blank

/-!
The first violation is reported: an app's own, then those of its child apps, channels, types and
aliases.
-/

namespace AppTopology

namespace App

def validateOwn (root : App) (path : String) (own : App.Own) : Except TopologyError Unit := do
  if path ≠ "" then Scope.checkName own.info.name
  if own.node.any fun node => Text.isBlank node.image then throw (.blankImage path)
  own.boundary.entries.forM fun (direction, name) =>
    if (root.resolveBoundary path name).isNone then throw (.danglingBoundary path direction name)
    else return

def validateChannel (root : App) (scope name : String) (channel : Channel) :
    Except TopologyError Unit := do
  Scope.checkName name
  let path := Scope.child scope name
  if channel.typeName = "" then throw (.untypedChannel path)
  if (root.resolveType scope channel.typeName).isNone then
    throw (.danglingType path channel.typeName)

def validateType (scope name : String) (channelType : ChannelType) :
    Except TopologyError Unit := do
  Scope.checkName name
  if Text.isBlank channelType.schema then throw (.blankSchema (Scope.child scope name))

def validateAlias (root : App) (scope name : String) (declared : ChannelAlias) :
    Except TopologyError Unit := do
  Scope.checkName name
  let path := Scope.child scope name
  if declared.target = "" then throw (.untargetedAlias path)
  if (root.resolveTarget scope declared.target).isNone then
    throw (.danglingTarget path declared.target)

mutual

def validateAt (root : App) (path : String) : App → Except TopologyError Unit
  | ⟨own, ⟨children⟩⟩ => do
    validateOwn root path own
    validateAll root path children
    own.channels.entries.forM fun (name, channel) => validateChannel root path name channel
    own.types.entries.forM fun (name, channelType) => validateType path name channelType
    own.aliases.entries.forM fun (name, declared) => validateAlias root path name declared

def validateAll (root : App) (path : String) : List (String × App) → Except TopologyError Unit
  | [] => return
  | (name, app) :: rest => do
    validateAt root (Scope.child path name) app
    validateAll root path rest

end

def validate (root : App) : Except TopologyError Unit := validateAt root "" root

end App

end AppTopology
