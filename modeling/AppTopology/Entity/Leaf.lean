import AppTopology.Entity

namespace AppTopology

class Leaf (α : Type) where
  kind : Kind
  info : α → Metadata
  withInfo : α → Metadata → α
  fields : α → List (String × String)
  /-- The paths of what keeps the entity from being deleted. -/
  users : α → List String
  detached : α → α
  shelf : App.Own → Dict α
  withShelf : App.Own → Dict α → App.Own

instance : Leaf Channel where
  kind := .channel
  info := Channel.info
  withInfo channel info := { channel with info }
  fields channel :=
    [("Spec.Type", channel.typeName), ("Spec.SelectedBroker", channel.selectedBroker),
      ("Spec.BrokerPriorityList", ",".intercalate channel.brokerPriority)]
  users := Channel.connectedApps
  detached channel := { channel with connectedApps := [], connectedAliases := [] }
  shelf := App.Own.channels
  withShelf own channels := { own with channels }

instance : Leaf ChannelType where
  kind := .channelType
  info := ChannelType.info
  withInfo channelType info := { channelType with info }
  fields channelType := [("Schema", channelType.schema)]
  users := ChannelType.connectedChannels
  detached channelType := { channelType with connectedChannels := [] }
  shelf := App.Own.types
  withShelf own types := { own with types }

instance : Leaf ChannelAlias where
  kind := .channelAlias
  info := ChannelAlias.info
  withInfo declared info := { declared with info }
  fields declared := [("Target", declared.target)]
  users _ := []
  detached declared := declared
  shelf := App.Own.aliases
  withShelf own aliases := { own with aliases }

namespace App.Own

variable {α : Type} [Leaf α]

def leaf? (α : Type) [Leaf α] (own : App.Own) (name : String) : Option α :=
  (Leaf.shelf own).get? name

def putLeaf (own : App.Own) (name : String) (leaf : α) : App.Own :=
  Leaf.withShelf own ((Leaf.shelf own).insert name leaf)

def dropLeaf (α : Type) [Leaf α] (own : App.Own) (name : String) : App.Own :=
  Leaf.withShelf own ((Leaf.shelf own : Dict α).erase name)

end App.Own

end AppTopology
