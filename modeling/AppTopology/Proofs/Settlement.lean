import AppTopology.Proofs.Comparison
import AppTopology.Proofs.Detached

namespace AppTopology

variable {α : Type} [Leaf α] [LawfulLeaf α]

def Metadata.unplaced (info : Metadata) : Metadata := { info with parent := "", reference := "" }

def Leaf.unplaced (leaf : α) : α := Leaf.withInfo (Leaf.detached leaf) (Leaf.info leaf).unplaced

namespace App

variable {app other : App} {f g : App → App} {place : List String}

def Own.unplaced (own : App.Own) : App.Own :=
  { own with
    info := own.info.unplaced
    channels := own.channels.mapWithKey fun _ => Leaf.unplaced
    types := own.types.mapWithKey fun _ => Leaf.unplaced
    aliases := own.aliases.mapWithKey fun _ => Leaf.unplaced }

def unplaced (app : App) : App := app.mapOwn fun _ => Own.unplaced

theorem unplaced_mk (own : App.Own) (apps : Dict App) :
    unplaced ⟨own, apps⟩ = ⟨own.unplaced, apps.mapWithKey fun _ => unplaced⟩ :=
  mapOwn_mk _ own apps

theorem own_unplaced (app : App) : app.unplaced.own = app.own.unplaced := own_mapOwn _ app

theorem detached_withInfo (app : App) (info : Metadata) :
    (app.withInfo info).detached = app.detached.withInfo info := by
  obtain ⟨own, apps⟩ := app
  rw [detached_mk, withInfo, detached_mk]
  rfl

theorem adoptShelf_unplaced (scope : String) (shelf : Dict α) :
    adoptShelf scope (shelf.mapWithKey fun _ => Leaf.unplaced) =
      (Dict.mapWithKey fun _ => Leaf.detached) <$> adoptShelf scope shelf := by
  unfold adoptShelf Dict.mapWithKey
  dsimp only
  rw [mapM_map_eq_map (g := fun entry => (entry.1, Leaf.detached entry.2))]
  · simp only [map_eq_pure_bind, bind_assoc, pure_bind]
  · rintro ⟨name, leaf⟩ -
    have hadopt : (Leaf.info (Leaf.unplaced leaf)).adopt name scope =
        (Leaf.info leaf).adopt name scope := by
      rw [Leaf.unplaced, LawfulLeaf.info_withInfo]
      rfl
    dsimp only
    rw [hadopt]
    simp only [Leaf.unplaced, LawfulLeaf.withInfo_withInfo, LawfulLeaf.detached_withInfo,
      map_eq_pure_bind, bind_assoc, pure_bind]

theorem adoptLeaves_unplaced (scope : String) (own : App.Own) :
    adoptLeaves scope own.unplaced =
      (fun next => { next.detached with info := own.info.unplaced }) <$> adoptLeaves scope own := by
  have haliases (shelf : Dict ChannelAlias) : (shelf.mapWithKey fun _ => Leaf.detached) = shelf :=
    shelf.mapWithKey_id
  simp only [adoptLeaves, Own.unplaced, adoptShelf_unplaced, haliases, map_eq_pure_bind, bind_assoc,
    pure_bind]
  rfl

theorem adoptBelow_unplaced (app : App) (path : String) :
    app.unplaced.adoptBelow path =
      (fun next => next.detached.withInfo app.info.unplaced) <$> app.adoptBelow path := by
  induction app using App.induction generalizing path with
  | node own apps ih =>
    obtain ⟨children⟩ := apps
    have hchildren : adoptChildren path
        (children.map fun entry => (entry.1, entry.2.unplaced)) =
          List.map (fun entry => (entry.1, entry.2.detached)) <$> adoptChildren path children := by
      rw [adoptChildren_eq, adoptChildren_eq]
      apply mapM_map_eq_map
      rintro ⟨key, child⟩ hmem
      have hadopt : child.unplaced.info.adopt key path = child.info.adopt key path := by
        rw [info, own_unplaced]
        rfl
      simp only [hadopt, ih key child hmem, map_eq_pure_bind, bind_assoc, pure_bind,
        detached_withInfo]
      rfl
    have hmk : unplaced ⟨own, ⟨children⟩⟩ =
        ⟨own.unplaced, ⟨children.map fun entry => (entry.1, entry.2.unplaced)⟩⟩ := unplaced_mk _ _
    rw [hmk, adoptBelow, adoptBelow, hchildren, adoptLeaves_unplaced]
    simp only [map_eq_pure_bind, bind_assoc, pure_bind, detached_mk]
    rfl

theorem normalize_unplaced (root : App) :
    root.unplaced.normalize = detached <$> root.normalize := by
  have hinfo : root.unplaced.info = root.info.unplaced := by
    rw [info, own_unplaced]
    rfl
  have hname : root.unplaced.info.name = root.info.name := by rw [hinfo]; rfl
  unfold normalize
  rw [hname]
  split
  · rfl
  · rw [hinfo, adoptBelow_withInfo, adoptBelow_withInfo, adoptBelow_unplaced]
    simp only [map_eq_pure_bind, bind_assoc, pure_bind, detached_withInfo]
    rfl

theorem uuid?_detached (app : App) (p : Position) : app.detached.uuid? p = app.uuid? p := by
  rw [uuid?, uuid?, info?_eq, info?_eq, entity?_detached, Option.map_map, Option.map_map,
    Option.map_map]
  congr 1
  funext entity
  cases entity <;> rfl

theorem alike_detached (old : Option App) (new : App) :
    Diff.Alike old (some new.detached) (some new) := by
  constructor
  · rw [Option.map_some, Option.map_some, declared_detached]
  · intro p u u' _ hu hu'
    rw [Option.bind_some] at hu hu'
    rw [uuid?_detached, hu', Option.some.injEq] at hu
    exact hu.symm

theorem leafChanges_detached (α : Type) [Leaf α] [LawfulLeaf α] (scope name : String)
    (old new : App) :
    Target.leafChanges α scope name old new.detached = Target.leafChanges α scope name old new := by
  have halike := (alike_detached (some old) new).at? (Scope.names scope)
  unfold Target.leafChanges
  refine bind_congr fun path => congrArg pure ?_
  have hleaf := halike.leaf (α := α) false path name
  rw [Diff.get?_shelf, Diff.get?_shelf, Diff.get?_shelf] at hleaf
  exact hleaf

theorem trees_detached (old new : Option App) :
    Diff.trees old (new.map detached) = Diff.trees old new := by
  cases new with
  | none => rfl
  | some new =>
    have hpath : new.detached.info.path = new.info.path := by
      rw [info, own_detached]
      rfl
    rw [Option.map_some, Diff.trees, Diff.trees, hpath]
    exact bind_congr fun path => Diff.subtree_congr (alike_detached old new) false path

theorem changes_detached (target : Target) (old new : App) :
    target.changes old new.detached = target.changes old new := by
  cases target with
  | channelType scope name => exact leafChanges_detached ChannelType scope name old new
  | channel scope name => exact leafChanges_detached Channel scope name old new
  | app path =>
    change Diff.trees (old.find? path) (new.detached.find? path) = _
    rw [find?, find?, at?_detached]
    exact trees_detached _ _
  | channelAlias scope name => exact leafChanges_detached ChannelAlias scope name old new

theorem settle_unplaced (tree staged : App) (target : Target) :
    tree.settle staged.unplaced target =
      (fun settled => (settled.1.detached, settled.2)) <$> tree.settle staged target := by
  unfold settle
  rw [normalize_unplaced]
  simp only [map_eq_pure_bind, bind_assoc, pure_bind, validate_detached, changes_detached]

theorem unidentifiedAll_eq (children : List (String × App)) :
    unidentifiedAll children = children.flatMap fun entry => entry.2.unidentified := by
  induction children with
  | nil => rfl
  | cons entry rest ih => rw [unidentifiedAll, ih, List.flatMap_cons]

theorem unidentified_detached (app : App) : app.detached.unidentified = app.unidentified := by
  induction app using App.induction with
  | node own apps ih =>
    obtain ⟨children⟩ := apps
    have hshelf {α : Type} [Leaf α] [LawfulLeaf α] (shelf : Dict α) :
        unidentifiedShelf (shelf.mapWithKey fun _ => Leaf.detached) = unidentifiedShelf shelf := by
      simp only [unidentifiedShelf, Dict.values, Dict.mapWithKey, List.map_map, List.flatMap_map,
        Function.comp_apply, Leaf.info_detached]
    have hmk : detached ⟨own, ⟨children⟩⟩ =
        ⟨own.detached, ⟨children.map fun entry => (entry.1, entry.2.detached)⟩⟩ := detached_mk _ _
    have hbelow : (children.flatMap fun entry => entry.2.detached.unidentified) =
        children.flatMap fun entry => entry.2.unidentified :=
      List.flatMap_congr fun entry hmem => ih entry.1 entry.2 hmem
    rw [hmk, unidentified, unidentified, unidentifiedAll_eq, unidentifiedAll_eq, List.flatMap_map,
      hbelow, Own.detached, hshelf, hshelf]

end App

theorem Store.commitEvents_detached (store : Store) (staged : App) :
    store.commitEvents staged.detached = store.commitEvents staged := by
  rw [commitEvents, Supply.issues, App.unidentified_detached]
  rfl

end AppTopology
