import AppTopology.Entity.Tree

/-!
A name that was left out is filled in from the key; one that differs from its key is refused.
-/

namespace AppTopology

def Metadata.adopt (info : Metadata) (key scope : String) : Except TopologyError Metadata :=
  if info.name = "" ∨ info.name = key then
    .ok { info with name := key, parent := scope, reference := Scope.child scope key }
  else .error (.misfiled info.name key scope)

namespace App

def adoptShelf {α : Type} [Leaf α] (scope : String) (shelf : Dict α) :
    Except TopologyError (Dict α) := do
  let entries ← shelf.entries.mapM fun (key, leaf) => do
    let info ← (Leaf.info leaf).adopt key scope
    return (key, Leaf.withInfo leaf info)
  return ⟨entries⟩

def adoptLeaves (scope : String) (own : App.Own) : Except TopologyError App.Own := do
  let channels ← adoptShelf scope own.channels
  let types ← adoptShelf scope own.types
  let aliases ← adoptShelf scope own.aliases
  return { own with channels, types, aliases }

mutual

def adoptBelow (path : String) : App → Except TopologyError App
  | ⟨own, ⟨children⟩⟩ => do
    let children ← adoptChildren path children
    let own ← adoptLeaves path own
    return ⟨own, ⟨children⟩⟩

def adoptChildren (path : String) :
    List (String × App) → Except TopologyError (List (String × App))
  | [] => return []
  | (key, app) :: rest => do
    let info ← app.info.adopt key path
    let app ← app.adoptBelow (Scope.child path key)
    return (key, app.withInfo info) :: (← adoptChildren path rest)

end

def normalize (root : App) : Except TopologyError App := do
  if root.info.name ≠ "" then throw (.namedRoot root.info.name)
  (root.withInfo { root.info with parent := "", reference := "" }).adoptBelow ""

end App

end AppTopology
