import AppTopology.Proofs.Frame

namespace AppTopology

def Position.after (place : List String) (p : Position) : Position :=
  ⟨p.place.drop place.length, p.item⟩

/-- What is given of an entity: what is declared of it, and its name, which may be left out. -/
def Entity.given (p : Position) (entity : Entity) : Entity × String :=
  (entity.declared, if entity.info.name = "" then p.name else entity.info.name)

theorem Entity.given_mapInfo {f : Metadata → Metadata} {entity : Entity}
    (h : (f entity.info).annotations = entity.info.annotations)
    (hname : (f entity.info).name = entity.info.name) (p : Position) :
    (entity.mapInfo f).given p = entity.given p := by
  rw [given, given, declared_mapInfo h, info_mapInfo, hname]

theorem Entity.fitsAt_iff {entity : Entity} {p : Position} :
    entity.info.FitsAt p ↔ (entity.given p).2 = p.name := by
  unfold given Metadata.FitsAt
  by_cases h : entity.info.name = "" <;> simp [h]

def Component.entity? : Component → Position → Option Entity
  | .channelType declared, _ => some (.channelType declared)
  | .channel declared, _ => some (.channel declared)
  | .app declared, p => declared.entity? p
  | .channelAlias declared, _ => some (.channelAlias declared)

def Target.place : Target → List String
  | channelType scope _ | channel scope _ | channelAlias scope _ => Scope.names scope
  | app path => Scope.names path

namespace Target

variable {target : Target} {p : Position}

def item : Target → Item
  | channelType _ name => .channelType name
  | channel _ name => .channel name
  | app _ => .app
  | channelAlias _ name => .channelAlias name

def position (target : Target) : Position := ⟨target.place, target.item⟩

theorem covers_iff : target.Covers p ↔
    p = target.position ∨ target.item = .app ∧ target.place <+: p.place := by
  cases target with
  | app path =>
    constructor
    · exact fun hp => .inr ⟨rfl, hp⟩
    · rintro (rfl | ⟨-, hp⟩)
      · exact List.prefix_refl _
      · exact hp
  | channelType | channel | channelAlias => simp [Covers, position, place, item]

end Target

def Mutation.submitted (mutation : Mutation) (p : Position) : Option Entity :=
  match mutation with
  | create _ component | update _ component => component.entity? (p.after mutation.target.place)
  | delete _ => none

namespace Registry

variable {registry : Registry}

def routeEntity (registry : Registry) : Entity → Entity
  | .channel channel => .channel (registry.route channel)
  | entity => entity

theorem info_routeEntity (registry : Registry) (entity : Entity) :
    (registry.routeEntity entity).info = entity.info := by
  cases entity with
  | channel channel => exact registry.info_route channel
  | app | channelType | channelAlias => rfl

theorem route_of_isEmpty (h : registry.isEmpty) (channel : Channel) :
    registry.route channel = channel := by
  have havailable : registry.available = [] := List.isEmpty_iff.mp h
  have hdefault : registry.defaultBroker = none := by
    rw [Option.eq_none_iff_forall_ne_some]
    intro broker hbroker
    have hmem := registry.default_mem broker hbroker
    rw [havailable] at hmem
    exact absurd hmem List.not_mem_nil
  have hfind : channel.brokerPriority.find? (· ∈ registry.available) = none := by
    simp [havailable]
  rw [route, select, hfind, hdefault]

theorem entity?_routeApp (registry : Registry) (app : App) (p : Position) :
    (registry.routeApp app).entity? p = (app.entity? p).map registry.routeEntity := by
  unfold routeApp
  split
  · next h =>
    have hroute : registry.routeEntity = id := by
      funext entity
      cases entity with
      | channel channel => exact congrArg Entity.channel (route_of_isEmpty h channel)
      | app | channelType | channelAlias => rfl
    rw [hroute, Option.map_id]
    rfl
  · rw [routeBelow_eq, App.entity?, App.entity?, App.at?_mapOwn]
    cases app.at? p.place with
    | none => rfl
    | some other =>
      rw [Option.map_some, Option.bind_some, App.own_mapOwn, Option.bind_some]
      cases p.item with
      | app => rfl
      | channel name => simp [App.Own.entity?, Function.comp_def, routeEntity]
      | channelType name => simp [App.Own.entity?, Function.comp_def, routeEntity]
      | channelAlias name => simp [App.Own.entity?, Function.comp_def, routeEntity]

theorem entity?_routeComponent (registry : Registry) (component : Component) (p : Position) :
    (registry.routeComponent component).entity? p =
      (component.entity? p).map registry.routeEntity := by
  cases component with
  | app app => exact registry.entity?_routeApp app p
  | channelType | channel | channelAlias => rfl

end Registry

theorem Mutation.submitted_route (registry : Registry) (mutation : Mutation) (p : Position) :
    (mutation.route registry).submitted p =
      (mutation.submitted p).map registry.routeEntity := by
  have htarget := mutation.target_route registry
  cases mutation with
  | create scope component | update scope component =>
    have hplace := congrArg Target.place htarget
    simp only [route] at hplace
    simp only [route, submitted, hplace, Registry.entity?_routeComponent]
  | delete target => rfl

theorem Embeds.given_eq {α : Type} [Leaf α] {embed : α → Entity} {leaf next : α}
    (h : Embeds α embed) (hdeclared : Leaf.declared next = Leaf.declared leaf)
    (hname : (Leaf.info next).name = (Leaf.info leaf).name) (p : Position) :
    (embed next).given p = (embed leaf).given p := by
  rw [Entity.given, Entity.given, h.declared, h.declared, h.info, h.info, hdeclared, hname]

namespace App

variable {α : Type} [Leaf α] [LawfulLeaf α] {embed : α → Entity} {leaf : α}
variable {root next app : App} {edit : App → App} {scope path name : String} {p : Position}

theorem entity?_modify? (hmodify : root.modify? scope edit = some next)
    (happ : root.find? scope = some app) (rest : List String) (item : Item) :
    next.entity? ⟨Scope.names scope ++ rest, item⟩ = (edit app).entity? ⟨rest, item⟩ := by
  rw [entity?_append, at?_modifyAt? hmodify happ, Option.bind_some]

theorem entity?_putLeaf (h : Embeds α embed) (app : App) (name : String) (leaf : α) (p : Position) :
    (app.putLeaf name leaf).entity? p =
      if p = ⟨[], .ofKind (Leaf.kind α) name⟩ then some (embed leaf) else app.entity? p := by
  split
  · next hp =>
    rw [hp, entity?_own, h.entity?, putLeaf, Own.leaf?_putLeaf, if_pos rfl, Option.map_some]
  · next hp =>
    refine entity?_withShelf (fun name' hne => ?_) hp
    rw [Dict.get?_insert, if_neg hne]
    rfl

theorem entity?_dropLeaf (α : Type) [Leaf α] [LawfulLeaf α] (app : App) (name : String)
    (p : Position) : (app.dropLeaf α name).entity? p =
      if p = ⟨[], .ofKind (Leaf.kind α) name⟩ then none else app.entity? p := by
  obtain ⟨embed, h⟩ := exists_embeds α
  split
  · next hp =>
    rw [hp, entity?_own, h.entity?, dropLeaf, Own.leaf?_dropLeaf, if_pos rfl, Option.map_none]
  · next hp =>
    refine entity?_withShelf (α := α) (fun name' hne => ?_) hp
    rw [Dict.get?_erase, if_neg hne]
    rfl

theorem entity?_putChild_inside (app child : App) (name : String) (p : Position) :
    (app.putChild name child).entity? (p.inside name) = child.entity? p := by
  rw [entity?_inside, child?_putChild, if_pos rfl, Option.bind_some]

theorem entity?_putChild (app child : App) (name : String) (p : Position) :
    (app.putChild name child).entity? p =
      if [name] <+: p.place then child.entity? (p.after [name]) else app.entity? p := by
  split
  · next hp =>
    obtain ⟨place, item⟩ := p
    obtain ⟨rest, rfl⟩ := hp
    exact app.entity?_putChild_inside child name ⟨rest, item⟩
  · next hp => exact entity?_of_child? rfl (fun key hne => by rw [child?_putChild, if_neg hne]) hp

theorem entity?_dropChild_inside (app : App) (name : String) (p : Position) :
    (app.dropChild name).entity? (p.inside name) = none := by
  rw [entity?_inside, child?_dropChild, if_pos rfl, Option.bind_none]

theorem entity?_dropChild (app : App) (name : String) (p : Position) :
    (app.dropChild name).entity? p = if [name] <+: p.place then none else app.entity? p := by
  split
  · next hp =>
    obtain ⟨place, item⟩ := p
    obtain ⟨rest, rfl⟩ := hp
    exact app.entity?_dropChild_inside name ⟨rest, item⟩
  · next hp => exact entity?_of_child? rfl (fun key hne => by rw [child?_dropChild, if_neg hne]) hp

theorem given_of_putLeaf {fresh : α} (h : Embeds α embed) (hparent : root.find? scope = some app)
    (hmodify : root.modify? scope (·.putLeaf name fresh) = some next)
    (hdeclared : Leaf.declared fresh = Leaf.declared leaf)
    (hname : (Leaf.info fresh).name = (Leaf.info leaf).name)
    (hp : (Target.ofKind (Leaf.kind α) scope name).Covers p) :
    (next.entity? p).map (Entity.given p) = some ((embed leaf).given p) := by
  rw [Target.covers_ofKind] at hp
  have hfound := entity?_modify? hmodify hparent [] (.ofKind (Leaf.kind α) name)
  rw [List.append_nil, ← hp, entity?_putLeaf h, if_pos rfl] at hfound
  rw [hfound, Option.map_some, Option.some.injEq]
  exact h.given_eq hdeclared hname p

theorem given_of_createLeaf (h : Embeds α embed) (hedit : root.createLeaf scope leaf = .ok next)
    (hp : (Target.ofKind (Leaf.kind α) scope (Leaf.info leaf).name).Covers p) :
    (next.entity? p).map (Entity.given p) = some ((embed leaf).given p) := by
  obtain ⟨-, -, parent, hparent, -, hmodify⟩ := createLeaf_eq_ok.mp hedit
  refine given_of_putLeaf h hparent hmodify ?_ ?_ hp
  · rw [Leaf.declared_withInfo (by rw [Leaf.info_detached]; rfl), Leaf.declared_detached]
  · rw [LawfulLeaf.info_withInfo]
    rfl

theorem given_of_updateLeaf (h : Embeds α embed) (hedit : root.updateLeaf scope leaf = .ok next)
    (hp : (Target.ofKind (Leaf.kind α) scope (Leaf.info leaf).name).Covers p) :
    (next.entity? p).map (Entity.given p) = some ((embed leaf).given p) := by
  obtain ⟨-, -, parent, old, hparent, -, hmodify⟩ := updateLeaf_eq_ok.mp hedit
  refine given_of_putLeaf h hparent hmodify ?_ ?_ hp
  · exact Leaf.declared_withInfo rfl
  · rw [LawfulLeaf.info_withInfo]
    rfl

theorem entity?_of_deleteLeaf (hedit : root.deleteLeaf α scope name = .ok next)
    (hp : (Target.ofKind (Leaf.kind α) scope name).Covers p) : next.entity? p = none := by
  obtain ⟨-, parent, old, hparent, -, -, hmodify⟩ := deleteLeaf_eq_ok.mp hedit
  rw [Target.covers_ofKind] at hp
  have hfound := entity?_modify? hmodify hparent [] (.ofKind (Leaf.kind α) name)
  rw [List.append_nil, ← hp, entity?_dropLeaf, if_pos rfl] at hfound
  exact hfound

theorem given_succeed (app : App) (before : Option App) (p q : Position) :
    ((app.succeed before).entity? q).map (Entity.given p) =
      (app.entity? q).map (Entity.given p) := by
  rw [succeed_eq, entity?_mapInfo, Option.map_map]
  congr 1
  funext entity
  exact Entity.given_mapInfo rfl rfl p

theorem given_of_createApp (hedit : root.createApp scope app = .ok next)
    (hp : (Target.app (Scope.child scope app.info.name)).Covers p) :
    (next.entity? p).map (Entity.given p) =
      (app.entity? (p.after (Scope.names (Scope.child scope app.info.name)))).map
        (Entity.given p) := by
  obtain ⟨hscope, hname, parent, hparent, -, hmodify⟩ := createApp_eq_ok.mp hedit
  obtain ⟨place, item⟩ := p
  obtain ⟨rest, rfl⟩ := hp
  have hfound := entity?_modify? hmodify hparent (app.info.name :: rest) item
  rw [Position.after, List.drop_left]
  rw [Scope.names_child hscope hname, List.append_assoc, List.singleton_append, hfound]
  exact (congrArg (Option.map _) (entity?_putChild_inside _ _ _ ⟨rest, item⟩)).trans
    (given_succeed _ _ _ _)

theorem entity?_withInfo (app : App) (info : Metadata) (p : Position) :
    (app.withInfo info).entity? p =
      if p = .root then some (.app info app.own.boundary app.own.node) else app.entity? p := by
  obtain ⟨place, item⟩ := p
  cases place with
  | nil => cases item <;> rfl
  | cons key place => rfl

theorem given_of_updateApp (hedit : root.updateApp path app = .ok next)
    (hp : (Target.app path).Covers p) :
    (next.entity? p).map (Entity.given p) =
      (app.entity? (p.after (Scope.names path))).map (Entity.given p) := by
  obtain ⟨hpath, hname, old, hold, hmodify⟩ := updateApp_eq_ok.mp hedit
  obtain ⟨place, item⟩ := p
  obtain ⟨rest, rfl⟩ := hp
  rw [entity?_modify? hmodify hold rest item, given_succeed, entity?_withInfo, Position.after,
    List.drop_left]
  by_cases hroot : (⟨rest, item⟩ : Position) = .root
  · -- Only here the name of a candidate is written; it may have been left out.
    obtain ⟨rfl, rfl⟩ := Position.mk.inj hroot
    have hlast : (⟨Scope.names path ++ [], .app⟩ : Position).name = Scope.leaf path := by
      rw [List.append_nil]
      exact Scope.getLastD_names hpath
    rw [if_pos hroot]
    simp only [Option.map_some, entity?_own, Own.entity?, Entity.given, Entity.info, hlast,
      Option.some.injEq, Prod.mk.injEq, ite_self]
    refine ⟨rfl, ?_⟩
    change Scope.leaf path = if app.info.name = "" then Scope.leaf path else app.info.name
    split
    · rfl
    · next hne => exact (hname.resolve_left hne).symm
  · rw [if_neg hroot]

theorem entity?_of_createLeaf (hedit : root.createLeaf scope leaf = .ok next)
    (hp : (Target.ofKind (Leaf.kind α) scope (Leaf.info leaf).name).Covers p) :
    root.entity? p = none := by
  obtain ⟨-, -, parent, hparent, hleaf, -⟩ := createLeaf_eq_ok.mp hedit
  obtain ⟨embed, hembeds⟩ := exists_embeds α
  have happ : root.at? (Scope.names scope) = some parent := hparent
  rw [Target.covers_ofKind] at hp
  rw [hp, entity?, happ, Option.bind_some, hembeds.entity?, hleaf, Option.map_none]

theorem entity?_of_createApp (hedit : root.createApp scope app = .ok next)
    (hp : (Target.app (Scope.child scope app.info.name)).Covers p) : root.entity? p = none := by
  obtain ⟨hscope, hname, parent, hparent, hchild, -⟩ := createApp_eq_ok.mp hedit
  obtain ⟨place, item⟩ := p
  obtain ⟨rest, rfl⟩ := hp
  rw [entity?_append, Scope.names_child hscope hname, at?_concat hparent, hchild, Option.bind_none]

theorem entity?_of_deleteApp (hedit : root.deleteApp path = .ok next)
    (hp : (Target.app path).Covers p) : next.entity? p = none := by
  obtain ⟨scope, name, parent, -, hscope, hname, rfl, hparent, -, hmodify⟩ := exists_dropChild hedit
  obtain ⟨place, item⟩ := p
  obtain ⟨rest, rfl⟩ := hp
  rw [Scope.names_child hscope hname, List.append_assoc, List.singleton_append]
  exact (entity?_modify? hmodify hparent (name :: rest) item).trans
    (parent.entity?_dropChild_inside name ⟨rest, item⟩)

end App

theorem Mutation.given_of_edit {mutation : Mutation} {root next : App} {p : Position}
    (hedit : mutation.edit root = .ok next) (hp : mutation.target.Covers p) :
    (next.entity? p).map (Entity.given p) = (mutation.submitted p).map (Entity.given p) := by
  cases mutation with
  | create scope component =>
    cases component with
    | channelType declared => exact App.given_of_createLeaf embeds_channelType hedit hp
    | channel channel => exact App.given_of_createLeaf embeds_channel hedit hp
    | app app => exact App.given_of_createApp hedit hp
    | channelAlias declared => exact App.given_of_createLeaf embeds_channelAlias hedit hp
  | update scope component =>
    cases component with
    | channelType declared => exact App.given_of_updateLeaf embeds_channelType hedit hp
    | channel channel => exact App.given_of_updateLeaf embeds_channel hedit hp
    | app app => exact App.given_of_updateApp hedit hp
    | channelAlias declared => exact App.given_of_updateLeaf embeds_channelAlias hedit hp
  | delete target =>
    rw [submitted, Option.map_none, Option.map_eq_none_iff]
    cases target with
    | channelType scope name => exact App.entity?_of_deleteLeaf (α := ChannelType) hedit hp
    | channel scope name => exact App.entity?_of_deleteLeaf (α := Channel) hedit hp
    | app path => exact App.entity?_of_deleteApp hedit hp
    | channelAlias scope name => exact App.entity?_of_deleteLeaf (α := ChannelAlias) hedit hp

theorem Mutation.absent_of_create {registry : Registry} {root next : App} {component : Component}
    {scope : String} {p : Position}
    (hedit : ((create scope component).route registry).edit root = .ok next)
    (hp : (create scope component).target.Covers p) : root.entity? p = none := by
  rw [← target_route registry] at hp
  cases component with
  | channelType declared => exact App.entity?_of_createLeaf (α := ChannelType) hedit hp
  | channel channel => exact App.entity?_of_createLeaf (α := Channel) hedit hp
  | app app => exact App.entity?_of_createApp hedit hp
  | channelAlias declared => exact App.entity?_of_createLeaf (α := ChannelAlias) hedit hp

def Mutation.Fits (mutation : Mutation) : Prop :=
  ∀ p entity, mutation.target.Covers p → mutation.submitted p = some entity → entity.info.FitsAt p

theorem Mutation.fits_iff {mutation : Mutation} {registry : Registry} {root next : App}
    (hmutation : mutation.Ordered) (hroot : root.Checked)
    (hedit : (mutation.route registry).edit root = .ok next) :
    mutation.Fits ↔ ∀ p info, next.info? p = some info → info.FitsAt p := by
  have hgiven {p : Position} (hp : mutation.target.Covers p) :
      (next.entity? p).map (Entity.given p) =
        (mutation.submitted p).map fun entity => (registry.routeEntity entity).given p := by
    have hgiven := given_of_edit hedit (by rwa [target_route])
    rwa [submitted_route, Option.map_map] at hgiven
  constructor
  · intro hfits p info hinfo
    by_cases hp : mutation.target.Covers p
    · -- Neither routing nor what is carried over has changed the name that was given.
      rw [App.info?_eq, Option.map_eq_some_iff] at hinfo
      obtain ⟨entity, hentity, rfl⟩ := hinfo
      have hgiven := hgiven hp
      rw [hentity, Option.map_some, eq_comm, Option.map_eq_some_iff] at hgiven
      obtain ⟨submitted, hsubmitted, hgiven⟩ := hgiven
      have hfit := hfits p submitted hp hsubmitted
      rwa [← registry.info_routeEntity, Entity.fitsAt_iff, hgiven, ← Entity.fitsAt_iff] at hfit
    · have hedited := edited_of_route hmutation hedit
      rw [App.info?_eq, hedited.entity?_eq hp, ← App.info?_eq] at hinfo
      rw [← hroot.info_eq hinfo]
      exact .inr rfl
  · intro hfits p submitted hp hsubmitted
    have hgiven := hgiven hp
    rw [hsubmitted, Option.map_some, Option.map_eq_some_iff] at hgiven
    obtain ⟨entity, hentity, hgiven⟩ := hgiven
    have hfit : entity.info.FitsAt p := hfits p _ (by rw [App.info?_eq, hentity]; rfl)
    rwa [Entity.fitsAt_iff, hgiven, ← Entity.fitsAt_iff, registry.info_routeEntity] at hfit

end AppTopology
