import AppTopology.Proofs.Connection
import AppTopology.Proofs.Entity

namespace AppTopology

variable {α : Type}

namespace App

variable {app other root : App}

def Own.detached (own : App.Own) : App.Own :=
  { own with
    channels := own.channels.mapWithKey fun _ => Leaf.detached
    types := own.types.mapWithKey fun _ => Leaf.detached }

def detached (app : App) : App := app.mapOwn fun _ => Own.detached

theorem detached_mk (own : App.Own) (apps : Dict App) :
    detached ⟨own, apps⟩ = ⟨own.detached, apps.mapWithKey fun _ => detached⟩ :=
  mapOwn_mk _ own apps

theorem at?_detached (app : App) (place : List String) :
    app.detached.at? place = (app.at? place).map detached := at?_mapOwn _ app place

theorem own_detached (app : App) : app.detached.own = app.own.detached := own_mapOwn _ app

theorem Own.entity?_detached (own : App.Own) (item : Item) :
    own.detached.entity? item = (own.entity? item).map Entity.detached := by
  cases item <;> simp [entity?, detached, Function.comp_def, Entity.detached]
  rfl

theorem entity?_detached (app : App) (p : Position) :
    app.detached.entity? p = (app.entity? p).map Entity.detached := by
  rw [entity?, entity?, at?_detached]
  cases app.at? p.place with
  | none => rfl
  | some other =>
    rw [Option.map_some, Option.bind_some, own_detached, Own.entity?_detached]
    rfl

theorem Ordered.detached (h : app.Ordered) : app.detached.Ordered := by
  apply h.mapOwn
  rintro place own ⟨hinfo, hchannels, htypes, hrest⟩
  exact ⟨hinfo, hchannels.mapWithKey fun _ _ => rfl, htypes.mapWithKey fun _ _ => rfl, hrest⟩

theorem detached_eq (happ : app.Ordered) (hother : other.Ordered)
    (h : ∀ p, (app.entity? p).map Entity.detached = (other.entity? p).map Entity.detached) :
    app.detached = other.detached := by
  apply ext_entity? happ.detached hother.detached
  intro p
  rw [entity?_detached, entity?_detached, h]

theorem Own.declared_detached (own : App.Own) : own.detached.declared = own.declared := by
  simp only [declared, detached, Dict.declared, Dict.mapWithKey_mapWithKey]
  rfl

theorem Own.outline_detached (own : App.Own) : own.detached.outline = own.outline := by
  simp only [outline, detached, Dict.mapWithKey_mapWithKey]
  rfl

theorem declared_detached (app : App) : app.detached.declared = app.declared :=
  declared_mapOwn (fun _ => Own.declared_detached) app

theorem Own.detached_connected (links : Links) (place : List String) (own : App.Own) :
    (own.connected links place).detached = own.detached := by
  simp only [detached, connected, Dict.mapWithKey_mapWithKey]
  rfl

theorem Own.connected_detached (links : Links) (place : List String) (own : App.Own) :
    own.detached.connected links place = own.connected links place := by
  simp only [detached, connected, Dict.mapWithKey_mapWithKey]
  rfl

theorem detached_connected (links : Links) (app : App) :
    (app.mapOwn (Own.connected links)).detached = app.detached := by
  simp only [detached, mapOwn_mapOwn, Own.detached_connected]

theorem connect_detached (app : App) : app.detached.connect = app.connect := by
  rw [connect_eq, detached, Links.ofTree_mapOwn fun _ => Own.outline_detached, connect_eq,
    mapOwn_mapOwn]
  simp only [Own.connected_detached]

theorem mapM_map_eq_map {m : Type → Type} [Monad m] [LawfulMonad m] {β : Type} {xs : List α}
    {step : α → m β} {f : α → α} {g : β → β} (h : ∀ x ∈ xs, step (f x) = g <$> step x) :
    (xs.map f).mapM step = List.map g <$> xs.mapM step := by
  induction xs with
  | nil => simp only [List.map_nil, List.mapM_nil, map_pure]
  | cons x xs ih =>
    simp only [List.mem_cons, forall_eq_or_imp] at h
    rw [List.map_cons, List.mapM_cons, List.mapM_cons, h.1, ih h.2]
    simp only [map_eq_pure_bind, bind_assoc, pure_bind, List.map_cons]

theorem identifyShelf_detached [Leaf α] [LawfulLeaf α] (mint : Nat → String) (shelf : Dict α) :
    identifyShelf mint (shelf.mapWithKey fun _ => Leaf.detached) =
      (Dict.mapWithKey fun _ => Leaf.detached) <$> identifyShelf mint shelf := by
  unfold identifyShelf Dict.mapWithKey
  dsimp only
  rw [mapM_map_eq_map (g := fun entry => (entry.1, Leaf.detached entry.2))]
  · simp only [map_eq_pure_bind, bind_assoc, pure_bind]
  · rintro ⟨name, leaf⟩ -
    simp only [Leaf.info_detached, LawfulLeaf.detached_withInfo, map_eq_pure_bind, bind_assoc,
      pure_bind]

theorem identify_detached (mint : Nat → String) (app : App) :
    app.detached.identify mint = detached <$> app.identify mint := by
  induction app using App.induction with
  | node own apps ih =>
    obtain ⟨children⟩ := apps
    have hchildren : identifyAll mint (children.map fun entry => (entry.1, entry.2.detached)) =
        List.map (fun entry => (entry.1, entry.2.detached)) <$> identifyAll mint children := by
      rw [identifyAll_eq, identifyAll_eq]
      apply mapM_map_eq_map
      rintro ⟨key, child⟩ hmem
      rw [ih key child hmem]
      simp only [map_eq_pure_bind, bind_assoc, pure_bind]
    have hmk : detached ⟨own, ⟨children⟩⟩ =
        ⟨own.detached, ⟨children.map fun entry => (entry.1, entry.2.detached)⟩⟩ := detached_mk _ _
    rw [hmk, Own.detached, identify, identify, hchildren]
    simp only [identifyShelf_detached, map_eq_pure_bind, bind_assoc, pure_bind, detached_mk]
    rfl

theorem validate_detached (root : App) : root.detached.validate = root.validate :=
  validate_mapOwn (fun _ => Own.outline_detached) (fun _ _ => rfl) root

end App

namespace Store

theorem commit_detached (store : Store) (staged : App) :
    store.commit staged.detached = store.commit staged := by
  have hidentify : store.supply.identify staged.detached =
      ((store.supply.identify staged).1.detached, (store.supply.identify staged).2) := by
    unfold Supply.identify
    rw [App.identify_detached]
    rfl
  unfold commit
  rw [hidentify]
  dsimp only
  rw [App.connect_detached]

end Store

end AppTopology
