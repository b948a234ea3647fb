import AppTopology.Entity.Leaf

/-!
A place is the list of names that leads to an app from the root; texts are turned into places by
`Scope.names`, so a text with empty parts still leads somewhere.
-/

namespace AppTopology.App

variable {α : Type} [Leaf α]

def child? (app : App) (name : String) : Option App := app.apps.get? name

theorem size_lt_sizeAll {children : List (String × App)} {name : String} {child : App}
    (h : children.lookup name = some child) : child.size < sizeAll children + 1 := by
  induction children with
  | nil => simp at h
  | cons entry rest ih =>
    obtain ⟨key, app⟩ := entry
    rw [Dict.lookup_entry] at h
    rw [sizeAll]
    split at h
    · injection h with h
      subst h
      omega
    · have := ih h
      omega

theorem size_child_lt {app child : App} {name : String} (h : app.child? name = some child) :
    child.size < app.size := by
  obtain ⟨own, ⟨children⟩⟩ := app
  exact size_lt_sizeAll h

def at? : App → List String → Option App
  | app, [] => some app
  | app, name :: place => (app.child? name).bind (·.at? place)

def modifyAt? (f : App → App) : App → List String → Option App
  | app, [] => some (f app)
  | app, name :: place => do
    let child ← (← app.child? name).modifyAt? f place
    return { app with apps := app.apps.insert name child }

def find? (root : App) (scope : String) : Option App := root.at? (Scope.names scope)

def modify? (root : App) (scope : String) (f : App → App) : Option App :=
  root.modifyAt? f (Scope.names scope)

def leafAt? (α : Type) [Leaf α] (root : App) (path : String) : Option α := do
  let (place, name) ← Scope.locate? path
  let app ← root.at? place
  app.own.leaf? α name

def putChild (app : App) (name : String) (child : App) : App :=
  { app with apps := app.apps.insert name child }

def dropChild (app : App) (name : String) : App :=
  { app with apps := app.apps.erase name }

def putLeaf (app : App) (name : String) (leaf : α) : App :=
  { app with own := app.own.putLeaf name leaf }

def dropLeaf (α : Type) [Leaf α] (app : App) (name : String) : App :=
  { app with own := app.own.dropLeaf α name }

mutual

def withPaths (path : String) : App → List (String × App)
  | ⟨own, ⟨children⟩⟩ => (path, ⟨own, ⟨children⟩⟩) :: withPathsAll path children

def withPathsAll (path : String) : List (String × App) → List (String × App)
  | [] => []
  | (key, app) :: rest => app.withPaths (Scope.child path key) ++ withPathsAll path rest

end

end AppTopology.App
