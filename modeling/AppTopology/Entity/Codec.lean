import AppTopology.Entity.Tree
import AppTopology.Json

namespace AppTopology

open Json

namespace NameSet

def toJson (names : NameSet) : Json := Json.ofNames names.names

def ofJson? (json : Json) : Option NameSet := ofList <$> json.names?

end NameSet

namespace Metadata

def toJson (info : Metadata) : Json :=
  object [("name", text info.name), ("parent", text info.parent),
    ("reference", text info.reference), ("annotations", Json.ofDict text info.annotations),
    ("uuid", text info.uuid)]

def ofJson? (json : Json) : Option Metadata := do
  let record ← json.record? ["name", "parent", "reference", "annotations", "uuid"] 0
  return {
    name := ← record.field "name" "" text?
    parent := ← record.field "parent" "" text?
    reference := ← record.field "reference" "" text?
    annotations := ← record.field "annotations" {} (dict? text?)
    uuid := ← record.field "uuid" "" text? }

end Metadata

namespace Channel

def toJson (channel : Channel) : Json :=
  object [("meta", channel.info.toJson),
    ("spec", object [("type", text channel.typeName),
      ("selected_broker", text channel.selectedBroker),
      ("broker_priority_list", Json.ofNames channel.brokerPriority)]),
    ("connected_apps", Json.ofNames channel.connectedApps),
    ("connected_aliases", Json.ofNames channel.connectedAliases)]

def readSpec? (channel : Channel) (json : Json) : Option Channel := do
  let record ← json.record? ["type", "selected_broker", "broker_priority_list"] 0
  return { channel with
    typeName := ← record.field "type" "" text?
    selectedBroker := ← record.field "selected_broker" "" text?
    brokerPriority := ← record.field "broker_priority_list" [] names? }

def ofJson? (json : Json) : Option Channel := do
  let record ← json.record? ["meta", "spec", "connected_apps", "connected_aliases"] 0
  let info ← record.field "meta" {} Metadata.ofJson?
  let connectedApps ← record.field "connected_apps" [] names?
  let connectedAliases ← record.field "connected_aliases" [] names?
  let channel : Channel := { info, connectedApps, connectedAliases }
  record.field "spec" channel channel.readSpec?

end Channel

namespace ChannelType

def toJson (channelType : ChannelType) : Json :=
  object [("meta", channelType.info.toJson), ("schema", text channelType.schema),
    ("connected_channels", Json.ofNames channelType.connectedChannels)]

def ofJson? (json : Json) : Option ChannelType := do
  let record ← json.record? ["meta", "schema", "connected_channels"] 0
  return {
    info := ← record.field "meta" {} Metadata.ofJson?
    schema := ← record.field "schema" "" text?
    connectedChannels := ← record.field "connected_channels" [] names? }

end ChannelType

namespace ChannelAlias

def toJson (declared : ChannelAlias) : Json :=
  object [("meta", declared.info.toJson), ("target", text declared.target)]

def ofJson? (json : Json) : Option ChannelAlias := do
  let record ← json.record? ["meta", "target"] 0
  return {
    info := ← record.field "meta" {} Metadata.ofJson?
    target := ← record.field "target" "" text? }

end ChannelAlias

namespace Boundary

def toJson (boundary : Boundary) : Json :=
  object [("input", boundary.inputs.toJson), ("output", boundary.outputs.toJson)]

def ofJson? (json : Json) : Option Boundary := do
  let record ← json.record? ["input", "output"] 0
  return {
    inputs := ← record.field "input" {} NameSet.ofJson?
    outputs := ← record.field "output" {} NameSet.ofJson? }

end Boundary

namespace Node

def toJson (node : Node) : Json :=
  object [("image", text node.image), ("replicas", integer node.replicas.toNat),
    ("environment", Json.ofDict text node.environment)]

def ofJson? (json : Json) : Option Node := do
  let record ← json.record? ["image", "replicas", "environment"] 0
  return {
    image := ← record.field "image" "" text?
    replicas := ← record.field "replicas" 0 uint32?
    environment := ← record.field "environment" {} (dict? text?) }

end Node

namespace App

def Own.members (own : App.Own) : List (String × Json) :=
  [("channels", Json.ofDict Channel.toJson own.channels),
    ("types", Json.ofDict ChannelType.toJson own.types),
    ("aliases", Json.ofDict ChannelAlias.toJson own.aliases),
    ("boundary", own.boundary.toJson)] ++
  (own.node.map fun node => ("node", node.toJson)).toList

mutual

def toJson : App → Json
  | ⟨own, ⟨children⟩⟩ =>
    object [("meta", own.info.toJson),
      ("spec", object (("apps", object (toJsonAll children)) :: own.members))]

def toJsonAll : List (String × App) → List (String × Json)
  | [] => []
  | (key, app) :: rest => (key, app.toJson) :: toJsonAll rest

end

def read? : Nat → Json → Option App
  | 0, _ => none
  | fuel + 1, json => do
    let record ← json.record? ["meta", "spec"] 0
    let info ← record.field "meta" {} Metadata.ofJson?
    record.field "spec" { own := { info } } fun spec => do
      let record ← spec.record? ["apps", "channels", "types", "aliases", "boundary", "node"] 0
      return {
        apps := ← record.field "apps" {} (dict? (read? fuel))
        own := {
          info
          channels := ← record.field "channels" {} (dict? Channel.ofJson?)
          types := ← record.field "types" {} (dict? ChannelType.ofJson?)
          aliases := ← record.field "aliases" {} (dict? ChannelAlias.ofJson?)
          boundary := ← record.field "boundary" {} Boundary.ofJson?
          node := ← record.field "node" none (nullable? Node.ofJson?) } }

def ofJson? (json : Json) : Option App := read? (json.height + 1) json

end App

end AppTopology
