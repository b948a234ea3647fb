import AppTopology.Entity.Tree

/-!
The nearest app around a scope that declares a name decides what it means. On a boundary a channel
goes before an alias of its name, and an alias that leads nowhere hides what lies further out.
-/

namespace AppTopology.App

def resolveType (root : App) (scope name : String) : Option String :=
  (Scope.enclosing scope).findSome? fun outer =>
    (root.find? outer).bind fun app =>
      if app.own.types.contains name then some (Scope.child outer name) else none

def resolveChannel (root : App) (scope name : String) : Option String :=
  (Scope.enclosing scope).findSome? fun outer =>
    (root.find? outer).bind fun app =>
      if app.own.channels.contains name then some (Scope.child outer name) else none

/-- Where an alias in a scope leads: a dotted target is a path, a bare one a visible channel. -/
def resolveTarget (root : App) (scope target : String) : Option String :=
  if '.' ∈ target.toList then
    (root.leafAt? Channel target).map fun _ => target
  else if Scope.isName target then root.resolveChannel scope target
  else none

def resolveBoundaryIn (root : App) (name : String) : List String → Option String
  | [] => none
  | scope :: outer =>
    match root.find? scope with
    | none => resolveBoundaryIn root name outer
    | some app =>
      if app.own.channels.contains name then some (Scope.child scope name)
      else match app.own.aliases.get? name with
        | some declared => root.resolveTarget scope declared.target
        | none => resolveBoundaryIn root name outer

def resolveBoundary (root : App) (scope name : String) : Option String :=
  root.resolveBoundaryIn name (Scope.enclosing scope)

end AppTopology.App
