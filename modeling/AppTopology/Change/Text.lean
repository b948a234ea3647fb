import AppTopology.Change
import AppTopology.Scope

namespace AppTopology

def ChangeKind.column : Nat := 16

def ChangeKind.padded (kind : ChangeKind) : String :=
  kind.name ++ String.ofList (List.replicate (column - kind.name.length) ' ')

def ChangeDetails.line : ChangeDetails → String
  | none => ""
  | field name before after =>
    let show? (value : Option String) := value.getD "<none>"
    " " ++ name ++ ": " ++ show? before ++ " -> " ++ show? after
  | boundary direction added removed =>
    let list (names : List String) := "[" ++ ", ".intercalate names ++ "]"
    " " ++ direction.field ++ ": +" ++ list added ++ " -" ++ list removed

def Change.line (change : Change) : String :=
  change.kind.padded ++ " " ++ Scope.display change.path ++ change.details.line

def Changelog.render (log : Changelog) : String :=
  if log.isEmpty then "no changes\n" else String.join (log.map fun change => change.line ++ "\n")

end AppTopology
