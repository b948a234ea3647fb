import AppTopology.Fixture
import AppTopology.Proofs.Comparison

namespace AppTopology

namespace Changelog

variable {α : Type}

@[simp] theorem inverse_inverse (log : Changelog) : log.inverse.inverse = log := by
  simp [inverse, Function.comp_def]

@[simp] theorem inverse_nil : inverse [] = [] := rfl

theorem inverse_append (log log' : Changelog) :
    (log ++ log' : Changelog).inverse = log.inverse ++ log'.inverse := List.map_append

theorem inverse_flatten (logs : List Changelog) :
    inverse logs.flatten = (logs.map inverse).flatten := List.map_flatten

theorem inverse_flatMap (keys : List α) (records : α → Changelog) :
    inverse (keys.flatMap records) = keys.flatMap fun key => (records key).inverse :=
  List.map_flatMap

end Changelog

namespace Diff

variable {α : Type} [Leaf α] {kind : ChangeKind} {identity : Bool} {path : String}

theorem fieldChange_swap (hkind : kind.inverse = kind) (path field : String)
    (before after : Option String) :
    fieldChange kind path field after before =
      (fieldChange kind path field before after).inverse := by
  unfold fieldChange
  by_cases h : before = after
  · rw [if_pos h, if_pos h.symm, Changelog.inverse_nil]
  · rw [if_neg h, if_neg (Ne.symm h)]
    simp [Changelog.inverse, Change.inverse, ChangeDetails.inverse, hkind]

theorem entryChanges_swap (hkind : kind.inverse = kind) (path : String) (label : String → String)
    (old new : Dict String) :
    entryChanges kind path label new old = (entryChanges kind path label old new).inverse := by
  unfold entryChanges
  rw [Dict.keyUnion_comm, Changelog.inverse_flatMap]
  congr 1
  funext key
  exact fieldChange_swap hkind path _ _ _

theorem identityChange_swap (hkind : kind.inverse = kind) (identity : Bool) (path : String)
    (old new : Metadata) :
    identityChange identity kind path new old =
      (identityChange identity kind path old new).inverse := by
  unfold identityChange
  cases identity with
  | false => rfl
  | true => exact fieldChange_swap hkind path _ _ _

theorem nodeChanges_swap (path : String) (old new : Option Node) :
    nodeChanges path new old = (nodeChanges path old new).inverse := by
  have hkind : ChangeKind.nodeUpdated.inverse = .nodeUpdated := rfl
  simp only [nodeChanges, Changelog.inverse_append, ← fieldChange_swap hkind,
    ← entryChanges_swap hkind]

theorem boundaryChange_swap (path : String) (old new : Boundary) (direction : Direction) :
    boundaryChange path new old direction = (boundaryChange path old new direction).inverse := by
  simp only [boundaryChange, and_comm]
  split
  · rfl
  · rfl

theorem own_swap (identity : Bool) (path : String) (old new : Option App) :
    own identity path new old = (own identity path old new).inverse := by
  cases old with
  | none => cases new <;> rfl
  | some old =>
    cases new with
    | none => rfl
    | some new =>
      have hkind : (ChangeKind.updated .app).inverse = .updated .app := rfl
      simp only [own, Changelog.inverse_append, ← identityChange_swap hkind, annotationChanges,
        ← entryChanges_swap hkind, ← nodeChanges_swap, ← boundaryChange_swap]

theorem declaredChanges_swap (hkind : kind.inverse = kind) (path : String)
    {old new : List (String × String)} (hlabels : old.map Prod.fst = new.map Prod.fst) :
    ((new.zip old).flatMap fun (before, after) =>
        fieldChange kind path before.1 (some before.2) (some after.2)) =
      Changelog.inverse ((old.zip new).flatMap fun (before, after) =>
        fieldChange kind path before.1 (some before.2) (some after.2)) := by
  induction old generalizing new with
  | nil => cases new <;> rfl
  | cons field old ih =>
    cases new with
    | nil => rfl
    | cons field' new =>
      simp only [List.map_cons, List.cons.injEq] at hlabels
      simp only [List.zip_cons_cons, List.flatMap_cons, Changelog.inverse_append, ih hlabels.2,
        ← fieldChange_swap hkind, hlabels.1]

theorem leaf_swap [LawfulLeaf α] (identity : Bool) (path : String) (old new : Option α) :
    leaf identity path new old = (leaf identity path old new).inverse := by
  cases old with
  | none => cases new <;> rfl
  | some old =>
    cases new with
    | none => rfl
    | some new =>
      have hkind : (ChangeKind.updated (Leaf.kind α)).inverse = .updated (Leaf.kind α) := rfl
      simp only [leaf, Changelog.inverse_append, ← identityChange_swap hkind, annotationChanges,
        ← entryChanges_swap hkind, ← declaredChanges_swap hkind path (labels_eq old new)]

theorem leaves_swap [LawfulLeaf α] (path : String) (old new : Option App) :
    leaves α path new old = (leaves α path old new).map Changelog.inverse := by
  have hleaf : ∀ name ∈ Dict.keyUnion (shelf α old) (shelf α new), (do
        let path ← Scope.append path name
        return leaf true path ((shelf α new).get? name) ((shelf α old).get? name)) =
      Except.map Changelog.inverse (do
        let path ← Scope.append path name
        return leaf true path ((shelf α old).get? name) ((shelf α new).get? name)) := by
    intro name _
    simp only [leaf_swap true _ ((shelf α old).get? name)]
    cases Scope.append path name <;> rfl
  unfold leaves
  rw [Dict.keyUnion_comm, Check.mapM_congr hleaf, Check.mapM_map]
  cases List.mapM (m := Except TopologyError) _ _ with
  | error e => rfl
  | ok logs => exact congrArg Except.ok (Changelog.inverse_flatten logs).symm

theorem subtree_swap (identity : Bool) (path : String) (old new : Option App) :
    subtree identity path new old = (subtree identity path old new).map Changelog.inverse := by
  induction old, new using subtree_induction generalizing identity path with
  | step old new ih =>
    have hchild : ∀ key ∈ Dict.keyUnion (children old) (children new), (do
          let path ← Scope.append path key
          subtree true path ((children new).get? key) ((children old).get? key)) =
        Except.map Changelog.inverse (do
          let path ← Scope.append path key
          subtree true path ((children old).get? key) ((children new).get? key)) := by
      intro key hkey
      simp only [ih key (Dict.mem_keyUnion.mp hkey)]
      cases Scope.append path key <;> rfl
    rw [subtree_eq, subtree_eq, Dict.keyUnion_comm (children new), Check.mapM_congr hchild,
      Check.mapM_map, leaves_swap path old, leaves_swap path old, leaves_swap path old,
      own_swap identity path old]
    -- The first comparison that fails, if any, is the same on both sides.
    cases List.mapM (m := Except TopologyError) _ _ with
    | error e => rfl
    | ok logs =>
      cases leaves Channel path old new with
      | error e => rfl
      | ok channels =>
        cases leaves ChannelType path old new with
        | error e => rfl
        | ok types =>
          cases leaves ChannelAlias path old new with
          | error e => rfl
          | ok aliases =>
            have hrecords := Changelog.inverse_flatten logs
            change Except.ok _ = Except.ok _
            simp only [Changelog.inverse_append, hrecords]

theorem trees_swap (old new : App) :
    (old.info.path = new.info.path →
      trees (some new) (some old) = (trees (some old) (some new)).map Changelog.inverse) ∧
    trees (some old) none = (trees none (some old)).map Changelog.inverse ∧
    ∀ log : Changelog, log.inverse.inverse = log := by
  have hswap (path : Except TopologyError String) (before after : Option App) : (do
        subtree false (← path) after before) =
      Except.map Changelog.inverse (do subtree false (← path) before after) := by
    cases path with
    | error e => rfl
    | ok path => exact subtree_swap false path before after
  refine ⟨?_, hswap old.info.path none (some old), Changelog.inverse_inverse⟩
  intro hpath
  simp only [trees, hpath]
  exact hswap new.info.path (some old) (some new)

theorem trees_swap_billing :
    let old := Fixture.billing
    let new := (Fixture.billing.dropChild "printer").withInput "invoices"
    old.info.path = new.info.path ∧
      trees (some old) (some new) =
        .ok [⟨.boundaryChanged, "billing", .boundary .input ["invoices"] []⟩,
          ⟨.deleted .app, "billing.printer", .none⟩] ∧
      trees (some new) (some old) =
        .ok [⟨.boundaryChanged, "billing", .boundary .input [] ["invoices"]⟩,
          ⟨.created .app, "billing.printer", .none⟩] := by
  intro old new
  have hpath : old.info.path = new.info.path := rfl
  have hlog : trees (some old) (some new) =
      .ok [⟨.boundaryChanged, "billing", .boundary .input ["invoices"] []⟩,
        ⟨.deleted .app, "billing.printer", .none⟩] := by decide +kernel
  refine ⟨hpath, hlog, ?_⟩
  rw [(trees_swap old new).1 hpath, hlog]
  rfl

end Diff

end AppTopology
