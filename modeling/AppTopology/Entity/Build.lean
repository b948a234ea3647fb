import AppTopology.Entity.Tree

namespace AppTopology

namespace Channel

def named (name typeName : String) : Channel := { info := { name }, typeName }

def withPriority (channel : Channel) (brokers : List String) : Channel :=
  { channel with brokerPriority := brokers }

def withBroker (channel : Channel) (broker : String) : Channel :=
  { channel with selectedBroker := broker }

end Channel

def ChannelType.named (name schema : String) : ChannelType := { info := { name }, schema }

def ChannelAlias.named (name target : String) : ChannelAlias := { info := { name }, target }

def Node.withVariable (node : Node) (name value : String) : Node :=
  { node with environment := node.environment.insert name value }

namespace App

variable {α : Type} [Leaf α]

def named (name : String) : App := { own := { info := { name } } }

def withApp (app child : App) : App := app.putChild child.info.name child

def withLeaf (app : App) (leaf : α) : App := app.putLeaf (Leaf.info leaf).name leaf

def withBoundary (app : App) (boundary : Boundary) : App :=
  { app with own := { app.own with boundary } }

def withInput (app : App) (name : String) : App :=
  let boundary := app.own.boundary
  app.withBoundary { boundary with inputs := boundary.inputs.insert name }

def withOutput (app : App) (name : String) : App :=
  let boundary := app.own.boundary
  app.withBoundary { boundary with outputs := boundary.outputs.insert name }

def withAnnotation (app : App) (name value : String) : App :=
  app.withInfo { app.info with annotations := app.info.annotations.insert name value }

def withNode (app : App) (node : Node) : App :=
  { app with own := { app.own with node := some node } }

end App

end AppTopology
