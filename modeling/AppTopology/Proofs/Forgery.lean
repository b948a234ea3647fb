import AppTopology.Fixture
import AppTopology.Proofs.Settlement
import AppTopology.Proofs.Submission

namespace AppTopology

variable {α : Type} [Leaf α] [LawfulLeaf α]

/-- The metadata without what only the store decides. -/
def Metadata.offered (info : Metadata) : Metadata :=
  { info with uuid := "", parent := "", reference := "" }

def Leaf.offered (leaf : α) : α := Leaf.withInfo (Leaf.detached leaf) (Leaf.info leaf).offered

def Channel.offered (registry : Registry) (channel : Channel) : Channel :=
  { Leaf.offered channel with
    selectedBroker := if registry.isEmpty then channel.selectedBroker else "" }

def App.Own.offered (registry : Registry) (own : App.Own) : App.Own :=
  { own with
    info := own.info.offered
    channels := own.channels.mapWithKey fun _ => Channel.offered registry
    types := own.types.mapWithKey fun _ => Leaf.offered
    aliases := own.aliases.mapWithKey fun _ => Leaf.offered }

def App.offered (registry : Registry) (app : App) : App := app.mapOwn fun _ => Own.offered registry

def Component.offered (registry : Registry) : Component → Component
  | channelType declared => channelType (Leaf.offered declared)
  | channel declared => channel (declared.offered registry)
  | app declared => app (declared.offered registry)
  | channelAlias declared => channelAlias (Leaf.offered declared)

def Mutation.offered (registry : Registry) : Mutation → Mutation
  | create scope component => create scope (component.offered registry)
  | update scope component => update scope (component.offered registry)
  | delete target => delete target

namespace Registry

variable {registry : Registry}

theorem isEmpty_of_select {priority : List String} (h : registry.select priority = none) :
    registry.isEmpty := by
  unfold select at h
  split at h
  · exact nomatch h
  · by_contra hne
    have hsome := registry.default_isSome fun heq => hne (List.isEmpty_iff.mpr heq)
    rw [h] at hsome
    exact nomatch hsome

theorem offered_route (registry : Registry) (channel : Channel) :
    Leaf.offered (registry.route (channel.offered registry)) =
      Leaf.offered (registry.route channel) := by
  have hpriority : (channel.offered registry).brokerPriority = channel.brokerPriority := rfl
  unfold route
  rw [hpriority]
  cases hselect : registry.select channel.brokerPriority with
  | some broker => rfl
  | none =>
    have hkept : (channel.offered registry).selectedBroker = channel.selectedBroker :=
      if_pos (isEmpty_of_select hselect)
    exact congrArg (fun selectedBroker => { Leaf.offered channel with selectedBroker }) hkept

theorem routeApp_eq (registry : Registry) (app : App) :
    registry.routeApp app = app.mapOwn fun _ own =>
      { own with channels := own.channels.mapWithKey fun _ => registry.route } := by
  unfold routeApp
  split
  · next h =>
    have hroute : registry.route = id := funext (route_of_isEmpty h)
    have hown (own : App.Own) :
        { own with channels := own.channels.mapWithKey fun _ => registry.route } = own := by
      rw [hroute]
      exact congrArg (fun channels => { own with channels }) own.channels.mapWithKey_id
    simp only [hown, App.mapOwn_id]
  · exact registry.routeBelow_eq app

theorem routeApp_withInfo (registry : Registry) (app : App) (info : Metadata) :
    registry.routeApp (app.withInfo info) = (registry.routeApp app).withInfo info := by
  obtain ⟨own, apps⟩ := app
  rw [routeApp_eq, routeApp_eq, App.withInfo, App.mapOwn_mk, App.mapOwn_mk]
  rfl

theorem eventsAll_eq (registry : Registry) (children : List (String × App)) :
    registry.eventsAll children = children.flatMap fun entry => registry.eventsBelow entry.2 := by
  induction children with
  | nil => rfl
  | cons entry rest ih => rw [eventsAll, ih, List.flatMap_cons]

theorem eventsBelow_offered (registry : Registry) (app : App) :
    registry.eventsBelow (app.offered registry) = registry.eventsBelow app := by
  induction app using App.induction with
  | node own apps ih =>
    obtain ⟨children⟩ := apps
    have hmk : App.offered registry ⟨own, ⟨children⟩⟩ = ⟨own.offered registry,
        ⟨children.map fun entry => (entry.1, entry.2.offered registry)⟩⟩ := App.mapOwn_mk _ _ _
    have hbelow : (children.flatMap fun entry => registry.eventsBelow (entry.2.offered registry)) =
        children.flatMap fun entry => registry.eventsBelow entry.2 :=
      List.flatMap_congr fun entry hmem => ih entry.1 entry.2 hmem
    rw [hmk, eventsBelow, eventsBelow, eventsAll_eq, eventsAll_eq, List.flatMap_map, hbelow]
    simp only [App.Own.offered, Dict.values, Dict.mapWithKey, List.map_map, List.flatMap_map]
    rfl

theorem componentEvents_offered (registry : Registry) (component : Component) :
    registry.componentEvents (component.offered registry) = registry.componentEvents component := by
  cases component with
  | app app => simp only [Component.offered, componentEvents, eventsBelow_offered]
  | channelType | channel | channelAlias => rfl

end Registry

theorem Leaf.offered_offered (leaf : α) :
    Leaf.offered (Leaf.offered leaf) = Leaf.offered leaf := by
  apply LawfulLeaf.elim (α := α) fun β _ =>
    ∀ leaf : β, Leaf.offered (Leaf.offered leaf) = Leaf.offered leaf
  all_goals exact fun _ => rfl

theorem Leaf.unplaced_detached (leaf : α) (info : Metadata) :
    Leaf.unplaced (Leaf.withInfo (Leaf.detached leaf) info) =
      Leaf.unplaced (Leaf.withInfo leaf info) := by
  revert leaf
  apply LawfulLeaf.elim (α := α) fun β _ => ∀ leaf : β,
    Leaf.unplaced (Leaf.withInfo (Leaf.detached leaf) info) =
      Leaf.unplaced (Leaf.withInfo leaf info)
  all_goals exact fun _ => rfl

theorem Leaf.unplaced_succeed (leaf : α) (before : Option Metadata) :
    Leaf.unplaced (Leaf.withInfo leaf ((Leaf.info leaf).succeed before)) =
      Leaf.withInfo (Leaf.offered leaf) ((Leaf.info (Leaf.offered leaf)).succeed before) := by
  simp only [unplaced, offered, LawfulLeaf.info_withInfo, LawfulLeaf.detached_withInfo,
    LawfulLeaf.withInfo_withInfo]
  rfl

namespace App

variable {app other root : App} {leaf leaf' : α} {scope : String} {f g : App → App}
variable {place : List String}

theorem offered_withInfo (registry : Registry) (app : App) (info : Metadata) :
    (app.withInfo info).offered registry = (app.offered registry).withInfo info.offered := by
  obtain ⟨own, apps⟩ := app
  rw [offered, offered, withInfo, mapOwn_mk, mapOwn_mk]
  rfl

theorem info_offered (registry : Registry) (app : App) :
    (app.offered registry).info = app.info.offered := by
  rw [offered, info, own_mapOwn]
  rfl

theorem unplaced_succeed_routeApp (registry : Registry) (before : Option App) (app : App) :
    ((registry.routeApp (app.offered registry)).succeed before).unplaced =
      ((registry.routeApp app).succeed before).unplaced := by
  simp only [Registry.routeApp_eq, succeed_eq, mapInfo, unplaced, offered, mapOwn_mapOwn]
  congr 1
  funext place own
  simp only [Own.mapInfo, Own.mapShelf, Own.unplaced, Own.offered, Dict.mapWithKey_mapWithKey,
    Leaf.unplaced_succeed, Leaf.offered_offered, Registry.offered_route]
  rfl

theorem unplaced_putChild (app child : App) (key : String) :
    (app.putChild key child).unplaced = app.unplaced.putChild key child.unplaced := by
  obtain ⟨own, apps⟩ := app
  rw [putChild, unplaced_mk, unplaced_mk, putChild, Dict.mapWithKey_insert]

theorem unplaced_putLeaf (app : App) (name : String) (leaf : α) :
    (app.putLeaf name leaf).unplaced = app.unplaced.putLeaf name (Leaf.unplaced leaf) := by
  obtain ⟨own, apps⟩ := app
  have hown :
      (own.putLeaf name leaf).unplaced = own.unplaced.putLeaf name (Leaf.unplaced leaf) := by
    revert leaf
    apply LawfulLeaf.elim (α := α) fun β _ => ∀ leaf : β,
      (own.putLeaf name leaf).unplaced = own.unplaced.putLeaf name (Leaf.unplaced leaf)
    all_goals
      intro leaf
      simp only [Own.putLeaf, Own.unplaced, Leaf.withShelf, Leaf.shelf, Dict.mapWithKey_insert]
  rw [putLeaf, unplaced_mk, unplaced_mk, putLeaf, hown]

theorem modifyAt?_unplaced (h : ∀ other, (f other).unplaced = (g other).unplaced) :
    (app.modifyAt? f place).map unplaced = (app.modifyAt? g place).map unplaced := by
  induction place generalizing app with
  | nil => exact congrArg some (h app)
  | cons key place ih =>
    rw [modifyAt?, modifyAt?]
    cases app.child? key with
    | none => rfl
    | some child =>
      have hbelow : (child.modifyAt? f place).map unplaced =
          (child.modifyAt? g place).map unplaced := ih
      have hput (next : Option App) : (next.bind fun next => some (app.putChild key next)).map
          unplaced = (next.map unplaced).map (app.unplaced.putChild key) := by
        cases next with
        | none => rfl
        | some next => exact congrArg some (app.unplaced_putChild next key)
      exact (hput _).trans ((congrArg _ hbelow).trans (hput _).symm)

theorem stage_unplaced (h : ∀ other, (f other).unplaced = (g other).unplaced) (root : App)
    (scope : String) : unplaced <$> root.stage scope f = unplaced <$> root.stage scope g := by
  have hmodify : (root.modify? scope f).map unplaced = (root.modify? scope g).map unplaced :=
    modifyAt?_unplaced h
  unfold stage
  cases hf : root.modify? scope f with
  | none =>
    rw [hf, Option.map_none, eq_comm, Option.map_eq_none_iff] at hmodify
    rw [hmodify]
  | some next =>
    rw [hf, Option.map_some, eq_comm, Option.map_eq_some_iff] at hmodify
    obtain ⟨next', hg, hnext⟩ := hmodify
    rw [hg]
    exact congrArg Except.ok hnext.symm

theorem name_eq_of_offered (h : Leaf.offered leaf = Leaf.offered leaf') :
    (Leaf.info leaf).name = (Leaf.info leaf').name := by
  have hinfo := congrArg (fun leaf => (Leaf.info leaf).name) h
  simp only [Leaf.offered, LawfulLeaf.info_withInfo] at hinfo
  exact hinfo

theorem createLeaf_unplaced (h : Leaf.offered leaf = Leaf.offered leaf') (root : App)
    (scope : String) :
    unplaced <$> root.createLeaf scope leaf = unplaced <$> root.createLeaf scope leaf' := by
  have hput (name : String) (app : App) :
      (app.putLeaf name (Leaf.withInfo (Leaf.detached leaf)
        ((Leaf.info leaf).succeed none))).unplaced =
      (app.putLeaf name (Leaf.withInfo (Leaf.detached leaf')
        ((Leaf.info leaf').succeed none))).unplaced := by
    rw [unplaced_putLeaf, unplaced_putLeaf, Leaf.unplaced_detached, Leaf.unplaced_detached,
      Leaf.unplaced_succeed, Leaf.unplaced_succeed, h]
  unfold createLeaf
  simp only [name_eq_of_offered h, map_bind, apply_ite (unplaced <$> ·),
    stage_unplaced (hput _) root scope]

theorem updateLeaf_unplaced (h : Leaf.offered leaf = Leaf.offered leaf') (root : App)
    (scope : String) :
    unplaced <$> root.updateLeaf scope leaf = unplaced <$> root.updateLeaf scope leaf' := by
  have hput (name : String) (before : Option Metadata) (app : App) :
      (app.putLeaf name (Leaf.withInfo leaf ((Leaf.info leaf).succeed before))).unplaced =
        (app.putLeaf name (Leaf.withInfo leaf' ((Leaf.info leaf').succeed before))).unplaced := by
    rw [unplaced_putLeaf, unplaced_putLeaf, Leaf.unplaced_succeed, Leaf.unplaced_succeed, h]
  unfold updateLeaf
  simp only [name_eq_of_offered h, map_bind, stage_unplaced (hput _ _) root scope]

theorem name_routeApp_offered (registry : Registry) (app : App) :
    (registry.routeApp (app.offered registry)).info.name = (registry.routeApp app).info.name := by
  rw [Registry.info_routeApp, Registry.info_routeApp, info_offered]
  rfl

theorem createApp_unplaced (registry : Registry) (app root : App) (scope : String) :
    unplaced <$> root.createApp scope (registry.routeApp (app.offered registry)) =
      unplaced <$> root.createApp scope (registry.routeApp app) := by
  have hput (name : String) (parent : App) :
      (parent.putChild name
        ((registry.routeApp (app.offered registry)).succeed none)).unplaced =
      (parent.putChild name ((registry.routeApp app).succeed none)).unplaced := by
    rw [unplaced_putChild, unplaced_putChild, unplaced_succeed_routeApp]
  unfold createApp
  simp only [name_routeApp_offered, map_bind, apply_ite (unplaced <$> ·),
    stage_unplaced (hput _) root scope]

theorem updateApp_unplaced (registry : Registry) (app root : App) (path : String) :
    unplaced <$> root.updateApp path (registry.routeApp (app.offered registry)) =
      unplaced <$> root.updateApp path (registry.routeApp app) := by
  have hreplace (existing : Option App) (_ : App) :
      (((registry.routeApp (app.offered registry)).withInfo
        { (registry.routeApp (app.offered registry)).info with
          name := Scope.leaf path }).succeed existing).unplaced =
      (((registry.routeApp app).withInfo
        { (registry.routeApp app).info with
          name := Scope.leaf path }).succeed existing).unplaced := by
    -- The name is set after the routing and the erasure, and is touched by neither.
    let named := app.withInfo { app.info with name := Scope.leaf path }
    have hnamed : named.offered registry = (app.offered registry).withInfo
        { (app.offered registry).info with name := Scope.leaf path } := by
      rw [offered_withInfo, info_offered]
      rfl
    rw [Registry.info_routeApp, Registry.info_routeApp, ← Registry.routeApp_withInfo,
      ← Registry.routeApp_withInfo, ← hnamed]
    exact unplaced_succeed_routeApp registry existing named
  unfold updateApp
  simp only [name_routeApp_offered, map_bind, apply_ite (unplaced <$> ·),
    stage_unplaced (hreplace _) root path]

end App

theorem Mutation.edit_offered (registry : Registry) (mutation : Mutation) (root : App) :
    App.unplaced <$> ((mutation.offered registry).route registry).edit root =
      App.unplaced <$> (mutation.route registry).edit root := by
  cases mutation with
  | create scope component =>
    cases component with
    | channelType declared =>
      exact App.createLeaf_unplaced (Leaf.offered_offered declared) root scope
    | channel channel => exact App.createLeaf_unplaced (registry.offered_route channel) root scope
    | app app => exact App.createApp_unplaced registry app root scope
    | channelAlias declared =>
      exact App.createLeaf_unplaced (Leaf.offered_offered declared) root scope
  | update scope component =>
    cases component with
    | channelType declared =>
      exact App.updateLeaf_unplaced (Leaf.offered_offered declared) root scope
    | channel channel => exact App.updateLeaf_unplaced (registry.offered_route channel) root scope
    | app app => exact App.updateApp_unplaced registry app root scope
    | channelAlias declared =>
      exact App.updateLeaf_unplaced (Leaf.offered_offered declared) root scope
  | delete target => rfl

theorem Component.name_offered (registry : Registry) (component : Component) :
    (component.offered registry).info.name = component.info.name := by
  cases component with
  | app app =>
    have hname := congrArg Metadata.name (app.info_offered registry)
    exact hname
  | channelType | channel | channelAlias => rfl

theorem Component.kind_offered (registry : Registry) (component : Component) :
    (component.offered registry).kind = component.kind := by
  cases component <;> rfl

namespace Mutation

variable {mutation mutation' : Mutation}

theorem target_offered (registry : Registry) (mutation : Mutation) :
    (mutation.offered registry).target = mutation.target := by
  cases mutation with
  | create scope component =>
    rw [offered, target_create, target_create, Component.kind_offered, Component.name_offered]
  | update scope component =>
    rw [offered, target_update, target_update, Component.kind_offered, Component.name_offered]
  | delete target => rfl

theorem request_offered (registry : Registry) (mutation : Mutation) (dryRun : Bool) :
    (mutation.offered registry).request dryRun = mutation.request dryRun := by
  cases mutation with
  | create scope component | update scope component =>
    rw [offered, request, request, Component.kind_offered, Component.name_offered]
  | delete target => rfl

theorem routeEvents_offered (registry : Registry) (mutation : Mutation) :
    (mutation.offered registry).routeEvents registry = mutation.routeEvents registry := by
  cases mutation with
  | create scope component | update scope component =>
    exact registry.componentEvents_offered component
  | delete target => rfl

end Mutation

namespace Store

variable {store : Store} {mutation mutation' : Mutation}

theorem attempt_offered (store : Store) (mutation : Mutation) (dryRun : Bool) :
    store.attempt (mutation.offered store.registry) dryRun = store.attempt mutation dryRun := by
  have hedit := mutation.edit_offered store.registry store.tree
  unfold attempt
  rw [mutation.routeEvents_offered, mutation.target_offered]
  obtain ⟨error, hleft, hright⟩ | ⟨edited, edited', hleft, hright, hsame⟩ := Check.map_eq_map hedit
  · rw [hleft, hright]
  · -- The edited trees may differ in places and connections, the settled ones in connections only.
    have hsettle : (fun settled => (settled.1.detached, settled.2)) <$>
          store.tree.settle edited mutation.target =
        (fun settled => (settled.1.detached, settled.2)) <$>
          store.tree.settle edited' mutation.target := by
      rw [← App.settle_unplaced, hsame, App.settle_unplaced]
    rw [hleft, hright]
    obtain ⟨error, hleft, hright⟩ | ⟨⟨staged, log⟩, ⟨staged', log'⟩, hleft, hright, hsame⟩ :=
      Check.map_eq_map hsettle
    · simp only [hleft, hright]
    · obtain ⟨hdetached, hlog⟩ := Prod.mk.inj hsame
      have hcommit : store.commit staged = store.commit staged' := by
        rw [← commit_detached, hdetached, commit_detached]
      have hevents : store.commitEvents staged = store.commitEvents staged' := by
        rw [← commitEvents_detached, hdetached, commitEvents_detached]
      have hlog : log = log' := hlog
      simp only [hleft, hright, hlog, hcommit, hevents]

theorem mutate_offered (store : Store) (mutation : Mutation) (mode : Mode) :
    store.mutate (mutation.offered store.registry) mode = store.mutate mutation mode := by
  unfold mutate
  rw [attempt_offered, Mutation.request_offered]

theorem forgery_ignored (mode : Mode)
    (hoffered : mutation.offered store.registry = mutation'.offered store.registry) :
    store.mutate mutation mode = store.mutate mutation' mode := by
  rw [← mutate_offered, hoffered, mutate_offered]

theorem forgery_ignored_billing :
    let store := (Fixture.seededStore .unary).1
    let forged := (Fixture.billing.withInfo
        { Fixture.billing.info with uuid := "u", parent := "printer" }).withLeaf
      { Fixture.invoices with selectedBroker := "other", connectedApps := ["billing"] }
    forged ≠ Fixture.billing ∧
      (store.mutate (.create "" (.app forged)) {}).result =
        .ok [⟨.created .app, "billing", .none⟩, ⟨.created .app, "billing.printer", .none⟩,
          ⟨.created .channel, "billing.invoices", .none⟩,
          ⟨.created .channelType, "billing.Invoice", .none⟩] ∧
      store.mutate (.create "" (.app forged)) {} =
        store.mutate (.create "" (.app Fixture.billing)) {} := by
  intro store forged
  have hoffered : forged.offered store.registry = Fixture.billing.offered store.registry := by
    decide +kernel
  refine ⟨by decide +kernel, by decide +kernel, forgery_ignored {} ?_⟩
  exact congrArg (fun app => Mutation.create "" (.app app)) hoffered

end Store

end AppTopology
