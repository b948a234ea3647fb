import AppTopology.Proofs.Position
import AppTopology.Store.History

namespace AppTopology

namespace Registry

variable {registry : Registry} {app : App} {component : Component}

theorem info_route (registry : Registry) (channel : Channel) :
    (registry.route channel).info = channel.info := by
  unfold route
  split <;> rfl

theorem typeName_route (registry : Registry) (channel : Channel) :
    (registry.route channel).typeName = channel.typeName := by
  unfold route
  split <;> rfl

theorem routeAll_eq (registry : Registry) (children : List (String × App)) :
    registry.routeAll children =
      children.map fun entry => (entry.1, registry.routeBelow entry.2) := by
  induction children with
  | nil => rfl
  | cons entry rest ih => rw [routeAll, ih, List.map_cons]

theorem routeBelow_eq (registry : Registry) (app : App) :
    registry.routeBelow app = app.mapOwn fun _ own =>
      { own with channels := own.channels.mapWithKey fun _ => registry.route } := by
  induction app using App.induction with
  | node own apps ih =>
    obtain ⟨children⟩ := apps
    rw [routeBelow, routeAll_eq, App.mapOwn_mk, Dict.mapWithKey]
    congr 2
    apply List.map_congr_left
    rintro ⟨key, child⟩ hmem
    rw [ih key child hmem]

theorem info_routeApp (registry : Registry) (app : App) :
    (registry.routeApp app).info = app.info := by
  unfold routeApp
  split
  · rfl
  · rw [routeBelow_eq, App.info, App.own_mapOwn]
    rfl

theorem ordered_routeApp (registry : Registry) (happ : app.Ordered) :
    (registry.routeApp app).Ordered := by
  unfold routeApp
  split
  · exact happ
  · rw [routeBelow_eq]
    apply happ.mapOwn
    rintro place own ⟨hinfo, hchannels, hrest⟩
    refine ⟨hinfo, hchannels.mapWithKey ?_, hrest⟩
    intro name channel
    exact congrArg Metadata.annotations (registry.info_route channel)

theorem kind_routeComponent (registry : Registry) (component : Component) :
    (registry.routeComponent component).kind = component.kind := by
  cases component <;> rfl

theorem info_routeComponent (registry : Registry) (component : Component) :
    (registry.routeComponent component).info = component.info := by
  cases component with
  | channelType declared => rfl
  | channel channel => exact registry.info_route channel
  | app app => exact registry.info_routeApp app
  | channelAlias declared => rfl

theorem ordered_routeComponent (registry : Registry) (h : component.Ordered) :
    (registry.routeComponent component).Ordered := by
  cases component with
  | channelType declared => exact h
  | channel channel =>
    change (registry.route channel).info.Ordered
    rw [info_route]
    exact h
  | app app => exact registry.ordered_routeApp h
  | channelAlias declared => exact h

end Registry

def Target.ofKind : Kind → String → String → Target
  | .channelType, scope, name => .channelType scope name
  | .channel, scope, name => .channel scope name
  | .app, scope, name => .app (Scope.child scope name)
  | .channelAlias, scope, name => .channelAlias scope name

namespace Mutation

variable {mutation : Mutation}

theorem target_create (scope : String) (component : Component) :
    (create scope component).target = .ofKind component.kind scope component.info.name := by
  cases component <;> rfl

theorem target_update (scope : String) (component : Component) :
    (update scope component).target =
      if component.kind = .app then .app scope
      else .ofKind component.kind scope component.info.name := by
  cases component <;> rfl

theorem target_route (registry : Registry) (mutation : Mutation) :
    (mutation.route registry).target = mutation.target := by
  cases mutation with
  | create scope component =>
    rw [route, target_create, target_create, Registry.kind_routeComponent,
      Registry.info_routeComponent]
  | update scope component =>
    rw [route, target_update, target_update, Registry.kind_routeComponent,
      Registry.info_routeComponent]
  | delete target => rfl

theorem ordered_route (registry : Registry) (h : mutation.Ordered) :
    (mutation.route registry).Ordered := by
  cases mutation with
  | create scope component => exact registry.ordered_routeComponent h
  | update scope component => exact registry.ordered_routeComponent h
  | delete target => exact h

end Mutation

end AppTopology
