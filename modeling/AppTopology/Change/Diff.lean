import AppTopology.Change
import AppTopology.Entity.Tree

/-!
Two apps are compared field by field, then along the union of their keys. The identity of what is
compared first does not count; below it a different identity is a change.
-/

namespace AppTopology.Diff

variable {α : Type} [Leaf α]

def fieldChange (kind : ChangeKind) (path field : String) (before after : Option String) :
    Changelog :=
  if before = after then [] else [⟨kind, path, .field field before after⟩]

def entryChanges (kind : ChangeKind) (path : String) (label : String → String)
    (old new : Dict String) : Changelog :=
  (Dict.keyUnion old new).flatMap fun key =>
    fieldChange kind path (label key) (old.get? key) (new.get? key)

def identityChange (identity : Bool) (kind : ChangeKind) (path : String) (old new : Metadata) :
    Changelog :=
  if identity then fieldChange kind path "Meta.UUID" (some old.uuid) (some new.uuid) else []

def annotationChanges (kind : ChangeKind) (path : String) (old new : Metadata) : Changelog :=
  entryChanges kind path (fun key => s!"Meta.Annotations[{key}]") old.annotations new.annotations

def nodeChanges (path : String) (old new : Option Node) : Changelog :=
  let environment (node : Option Node) := (node.map Node.environment).getD {}
  let image (node : Option Node) := node.map Node.image
  let replicas (node : Option Node) := node.map fun node => toString node.replicas
  fieldChange .nodeUpdated path "Spec.Node.Image" (image old) (image new) ++
  fieldChange .nodeUpdated path "Spec.Node.Replicas" (replicas old) (replicas new) ++
  entryChanges .nodeUpdated path (fun key => s!"Spec.Node.Environment[{key}]")
    (environment old) (environment new)

def boundaryChange (path : String) (old new : Boundary) (direction : Direction) : Changelog :=
  let added := (new.names direction).without (old.names direction)
  let removed := (old.names direction).without (new.names direction)
  if added = [] ∧ removed = [] then []
  else [⟨.boundaryChanged, path, .boundary direction added removed⟩]

def leaf (identity : Bool) (path : String) (old new : Option α) : Changelog :=
  match old, new with
  | none, none => []
  | none, some _ => [⟨.created (Leaf.kind α), path, .none⟩]
  | some _, none => [⟨.deleted (Leaf.kind α), path, .none⟩]
  | some old, some new =>
    let kind := ChangeKind.updated (Leaf.kind α)
    identityChange identity kind path (Leaf.info old) (Leaf.info new) ++
    annotationChanges kind path (Leaf.info old) (Leaf.info new) ++
    ((Leaf.fields old).zip (Leaf.fields new)).flatMap fun (before, after) =>
      fieldChange kind path before.1 (some before.2) (some after.2)

def own (identity : Bool) (path : String) (old new : Option App) : Changelog :=
  match old, new with
  | none, none => []
  | none, some _ => [⟨.created .app, path, .none⟩]
  | some _, none => [⟨.deleted .app, path, .none⟩]
  | some old, some new =>
    identityChange identity (.updated .app) path old.info new.info ++
    annotationChanges (.updated .app) path old.info new.info ++
    nodeChanges path old.own.node new.own.node ++
    boundaryChange path old.own.boundary new.own.boundary .input ++
    boundaryChange path old.own.boundary new.own.boundary .output

def children (app : Option App) : Dict App := (app.map App.apps).getD {}

def shelf (α : Type) [Leaf α] (app : Option App) : Dict α :=
  (app.map fun app => Leaf.shelf app.own).getD {}

def leaves (α : Type) [Leaf α] (path : String) (old new : Option App) :
    Except TopologyError Changelog := do
  let logs ← (Dict.keyUnion (shelf α old) (shelf α new)).mapM fun name => do
    let path ← Scope.append path name
    return leaf true path ((shelf α old).get? name) ((shelf α new).get? name)
  return logs.flatten

def size (app : Option App) : Nat := (app.map App.size).getD 0

theorem size_child_le (app : Option App) (name : String) :
    size ((children app).get? name) ≤ size app := by
  cases app with
  | none => simp [children, size]
  | some app =>
    cases h : app.apps.get? name with
    | none => simp [children, size, h]
    | some child =>
      have := App.size_child_lt h
      simp [children, size, h]
      omega

theorem size_child_lt (app : Option App) (name : String)
    (h : ((children app).get? name).isSome) : size ((children app).get? name) < size app := by
  cases app with
  | none => simp [children] at h
  | some app =>
    obtain ⟨child, hchild⟩ := Option.isSome_iff_exists.mp h
    have : app.child? name = some child := hchild
    have := App.size_child_lt this
    simp only [hchild]
    simpa [size] using this

def subtree (identity : Bool) (path : String) (old new : Option App) :
    Except TopologyError Changelog := do
  let logs ← (Dict.keyUnion (children old) (children new)).attach.mapM fun ⟨name, _mem⟩ => do
    let path ← Scope.append path name
    subtree true path ((children old).get? name) ((children new).get? name)
  let channels ← leaves Channel path old new
  let types ← leaves ChannelType path old new
  let aliases ← leaves ChannelAlias path old new
  return own identity path old new ++ logs.flatten ++ channels ++ types ++ aliases
termination_by size old + size new
decreasing_by
  have h1 := size_child_le old name
  have h2 := size_child_le new name
  rcases Dict.mem_keyUnion.mp _mem with h | h
  · have := size_child_lt old name h
    omega
  · have := size_child_lt new name h
    omega

theorem subtree_eq (identity : Bool) (path : String) (old new : Option App) :
    subtree identity path old new = do
      let logs ← (Dict.keyUnion (children old) (children new)).mapM fun name => do
        let path ← Scope.append path name
        subtree true path ((children old).get? name) ((children new).get? name)
      let channels ← leaves Channel path old new
      let types ← leaves ChannelType path old new
      let aliases ← leaves ChannelAlias path old new
      return own identity path old new ++ logs.flatten ++ channels ++ types ++ aliases := by
  rw [subtree]
  simp

/-- The records that lead from one tree to the other; paths start at the later tree's, if there is
one. -/
def trees (old new : Option App) : Except TopologyError Changelog :=
  match old, new with
  | none, none => return []
  | _, some app | some app, none => do subtree false (← app.info.path) old new

end AppTopology.Diff
