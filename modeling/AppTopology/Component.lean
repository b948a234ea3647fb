import AppTopology.Entity.Codec

namespace AppTopology

inductive Component where
  | channelType (declared : ChannelType)
  | channel (declared : Channel)
  | app (declared : App)
  | channelAlias (declared : ChannelAlias)

namespace Component

def kind : Component → Kind
  | channelType _ => .channelType
  | channel _ => .channel
  | app _ => .app
  | channelAlias _ => .channelAlias

def info : Component → Metadata
  | channelType declared => declared.info
  | channel declared => declared.info
  | app declared => declared.info
  | channelAlias declared => declared.info

/-- Aliases come last; of the others, those in outer scopes first, then by kind. -/
def before (a b : Component) : Bool :=
  let key (c : Component) : Nat × Nat × Nat :=
    (if c.kind = .channelAlias then 1 else 0, Scope.depth c.info.parent, c.kind.rank)
  let (aliasA, depthA, rankA) := key a
  let (aliasB, depthB, rankB) := key b
  aliasA < aliasB || aliasA = aliasB && (depthA < depthB || depthA = depthB && rankA ≤ rankB)

def ordered (components : List Component) : List Component := components.mergeSort before

def toJson (component : Component) : Json :=
  let json := match component with
    | channelType declared => declared.toJson
    | channel declared => declared.toJson
    | app declared => declared.toJson
    | channelAlias declared => declared.toJson
  json.tag "kind" component.kind.noun

def ofJson? (json : Json) : Option Component := do
  let (noun, json) ← json.tagged? "kind"
  match ← Kind.ofNoun? noun with
  | .channelType => channelType <$> ChannelType.ofJson? json
  | .channel => channel <$> Channel.ofJson? json
  | .app => app <$> App.ofJson? json
  | .channelAlias => channelAlias <$> ChannelAlias.ofJson? json

def listToJson (components : List Component) : Json := Json.ofList toJson components

def listOfJson? : Json → Option (List Component) := Json.list? ofJson?

end Component

end AppTopology
