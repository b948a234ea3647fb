import AppTopology.Proofs.Effect

/-!
A component lies over what was there before it. A batch is such layers one upon the other, and the
last layer over a position decides what is there.
-/

namespace AppTopology

abbrev Contents := Position → Option Entity

def App.contents (app : App) : Contents := fun p => (app.entity? p).map Entity.declared

theorem App.contents_eq_declared (app : App) : app.contents = app.declared.entity? := by
  funext p
  rw [App.contents, App.entity?_declared]

theorem App.declared_eq_of_contents {app other : App} (happ : app.Ordered) (hother : other.Ordered)
    (h : app.contents = other.contents) : app.declared = other.declared := by
  rw [App.contents_eq_declared, App.contents_eq_declared] at h
  exact App.ext_entity? happ.declared hother.declared (congrFun h)

theorem App.isSome_contents (app : App) (p : Position) :
    (app.contents p).isSome = (app.entity? p).isSome := Option.isSome_map

theorem App.isSome_at? (root : App) (place : List String) :
    (root.at? place).isSome = (root.contents ⟨place, .app⟩).isSome := by
  rw [App.isSome_contents, App.entity?]
  cases root.at? place <;> rfl

theorem App.isSome_find? (root : App) (path : String) :
    (root.find? path).isSome = (root.contents ⟨Scope.names path, .app⟩).isSome :=
  root.isSome_at? (Scope.names path)

namespace Component

variable {registry : Registry} {component : Component} {components done rest : List Component}
variable {contents contents' : Contents} {p : Position}

def site (component : Component) : Target :=
  .ofKind component.kind component.info.parent component.info.name

theorem covers_position (component : Component) :
    component.site.Covers component.site.position :=
  Target.covers_iff.mpr (.inl rfl)

def content (registry : Registry) (component : Component) (p : Position) : Option Entity :=
  (component.entity? (p.after component.site.place)).map fun entity =>
    (registry.routeEntity entity).declared

def lay (registry : Registry) (contents : Contents) (component : Component) : Contents := fun p =>
  if component.site.Covers p then component.content registry p else contents p

def overlay (registry : Registry) (contents : Contents) (components : List Component) : Contents :=
  components.foldl (lay registry) contents

theorem overlay_append (registry : Registry) (contents : Contents) (done rest : List Component) :
    overlay registry contents (done ++ rest) = overlay registry (overlay registry contents done) rest :=
  List.foldl_append

theorem overlay_concat (registry : Registry) (contents : Contents) (done : List Component)
    (component : Component) : overlay registry contents (done ++ [component]) =
      lay registry (overlay registry contents done) component := by
  rw [overlay_append]
  rfl

theorem overlay_of_not_covers (h : ∀ component ∈ components, ¬ component.site.Covers p) :
    overlay registry contents components p = contents p := by
  induction components generalizing contents with
  | nil => rfl
  | cons component components ih =>
    simp only [List.mem_cons, forall_eq_or_imp] at h
    refine (ih h.2).trans ?_
    rw [lay, if_neg h.1]

theorem overlay_of_last (hp : component.site.Covers p)
    (hlater : ∀ later ∈ rest, ¬ later.site.Covers p) :
    overlay registry contents (done ++ component :: rest) p = component.content registry p := by
  rw [List.append_cons, overlay_append, overlay_of_not_covers hlater, overlay_concat, lay,
    if_pos hp]

theorem exists_last (h : ∃ component ∈ components, component.site.Covers p) :
    ∃ done component rest, components = done ++ component :: rest ∧ component.site.Covers p ∧
      ∀ later ∈ rest, ¬ later.site.Covers p := by
  -- The last component comes first in the induction, since it is what is asked for.
  induction components using List.reverseRecOn with
  | nil =>
    obtain ⟨_, hmem, -⟩ := h
    exact absurd hmem List.not_mem_nil
  | append_singleton components last ih =>
    by_cases hlast : last.site.Covers p
    · exact ⟨components, last, [], rfl, hlast, fun _ hmem => absurd hmem List.not_mem_nil⟩
    · obtain ⟨component, hmem, hp⟩ := h
      rcases List.mem_append.mp hmem with hmem | hmem
      · obtain ⟨done, component, rest, rfl, hp, hlater⟩ := ih ⟨component, hmem, hp⟩
        refine ⟨done, component, rest ++ [last], by simp, hp, fun later hmem => ?_⟩
        rcases List.mem_append.mp hmem with hmem | hmem
        · exact hlater later hmem
        · rwa [List.mem_singleton.mp hmem]
      · rw [List.mem_singleton.mp hmem] at hp
        exact absurd hp hlast

theorem overlay_of_covers (h : ∃ component ∈ components, component.site.Covers p) :
    overlay registry contents components p = overlay registry contents' components p := by
  obtain ⟨done, component, rest, rfl, hp, hlater⟩ := exists_last h
  rw [overlay_of_last hp hlater, overlay_of_last hp hlater]

theorem overlay_overlay (registry : Registry) (contents : Contents) (components : List Component) :
    overlay registry (overlay registry contents components) components =
      overlay registry contents components := by
  funext p
  by_cases h : ∃ component ∈ components, component.site.Covers p
  · exact overlay_of_covers h
  · exact overlay_of_not_covers fun component hmem hp => h ⟨component, hmem, hp⟩

theorem site_app {component : Component} (h : component.kind = .app) :
    component.site = .app (Scope.child component.info.parent component.info.name) := by
  rw [site, h]
  rfl

theorem site_of_ne_app (h : component.kind ≠ .app) : component.site.position =
    ⟨Scope.names component.info.parent, .ofKind component.kind component.info.name⟩ := by
  cases component with
  | app => exact absurd rfl h
  | channelType | channel | channelAlias => rfl

theorem covers_of_ne_app (h : component.kind ≠ .app) :
    component.site.Covers p ↔ p = component.site.position := by
  cases component with
  | app => exact absurd rfl h
  | channelType | channel | channelAlias => rfl

theorem isSome_content (h : component.kind ≠ .app) : (component.content registry p).isSome := by
  cases component with
  | app => exact absurd rfl h
  | channelType | channel | channelAlias => rfl

theorem isSome_overlay (h : (contents p).isSome)
    (hleaf : ∀ component ∈ components, component.site.Covers p → component.kind ≠ .app) :
    (overlay registry contents components p).isSome := by
  induction components generalizing contents with
  | nil => exact h
  | cons component components ih =>
    simp only [List.mem_cons, forall_eq_or_imp] at hleaf
    refine ih ?_ hleaf.2
    rw [lay]
    split
    · next hp =>
      -- A leaf puts itself there; only an app could have left the position empty.
      exact isSome_content (hleaf.1 hp)
    · exact h

end Component

end AppTopology
