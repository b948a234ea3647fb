import AppTopology.Resolution

namespace AppTopology

structure Links where
  apps : List (String × String) := []
  aliases : List (String × String) := []
  channels : List (String × String) := []

namespace Links

def ofBoundary (root : App) (path : String) (app : App) : List (String × String) :=
  app.own.boundary.entries.filterMap fun (_, name) =>
    (root.resolveBoundary path name).map (·, path)

def ofAliases (root : App) (path : String) (app : App) : List (String × String) :=
  app.own.aliases.entries.filterMap fun (name, declared) =>
    (root.resolveTarget path declared.target).map (·, Scope.child path name)

def ofChannels (root : App) (path : String) (app : App) : List (String × String) :=
  app.own.channels.entries.filterMap fun (name, channel) =>
    (root.resolveType path channel.typeName).map (·, Scope.child path name)

def ofTree (root : App) : Links :=
  let apps := root.withPaths ""
  { apps := apps.flatMap fun (path, app) => ofBoundary root path app
    aliases := apps.flatMap fun (path, app) => ofAliases root path app
    channels := apps.flatMap fun (path, app) => ofChannels root path app }

end Links

def usersAt (links : List (String × String)) (place : List String) (name : String) :
    List String :=
  links.filterMap fun (target, user) =>
    if Scope.locate? target = some (place, name) then some user else none

def Channel.connect (links : Links) (place : List String) (name : String) (channel : Channel) :
    Channel :=
  { channel with
    connectedApps := (NameSet.ofList (usersAt links.apps place name)).names
    connectedAliases := (usersAt links.aliases place name).mergeSort }

def ChannelType.connect (links : Links) (place : List String) (name : String)
    (channelType : ChannelType) : ChannelType :=
  { channelType with connectedChannels := (usersAt links.channels place name).mergeSort }

namespace App

mutual

def connectAt (links : Links) (place : List String) : App → App
  | ⟨own, ⟨children⟩⟩ =>
    ⟨{ own with
        channels := own.channels.mapWithKey (Channel.connect links place)
        types := own.types.mapWithKey (ChannelType.connect links place) },
      ⟨connectAll links place children⟩⟩

def connectAll (links : Links) (place : List String) :
    List (String × App) → List (String × App)
  | [] => []
  | (key, app) :: rest => (key, app.connectAt links (place ++ [key])) :: connectAll links place rest

end

def connect (root : App) : App := root.connectAt (Links.ofTree root) []

end App

end AppTopology
