namespace AppTopology

/-- The kinds of entities, each listed after those that it may refer to. -/
inductive Kind where
  | channelType
  | channel
  | app
  | channelAlias
  deriving DecidableEq, Repr, Inhabited

namespace Kind

def noun : Kind → String
  | channelType => "type"
  | channel => "channel"
  | app => "app"
  | channelAlias => "alias"

def ofNoun? : String → Option Kind
  | "type" => some channelType
  | "channel" => some channel
  | "app" => some app
  | "alias" => some channelAlias
  | _ => none

def title : Kind → String
  | channelType => "Type"
  | channel => "Channel"
  | app => "App"
  | channelAlias => "Alias"

def rank : Kind → Nat
  | channelType => 0
  | channel => 1
  | app => 2
  | channelAlias => 3

end Kind

inductive Direction where
  | input
  | output
  deriving DecidableEq, Repr, Inhabited

namespace Direction

def noun : Direction → String
  | input => "input"
  | output => "output"

def ofNoun? : String → Option Direction
  | "input" => some input
  | "output" => some output
  | _ => none

def field : Direction → String
  | input => "Spec.Boundary.Input"
  | output => "Spec.Boundary.Output"

theorem ofNoun?_noun (direction : Direction) : ofNoun? direction.noun = some direction := by
  cases direction <;> rfl

end Direction

end AppTopology
