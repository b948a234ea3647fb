import AppTopology.Proofs.Batch
import AppTopology.Proofs.Commutation
import AppTopology.Proofs.Deletion
import AppTopology.Proofs.Severance

namespace AppTopology

theorem App.contents_congr {app other : App} (h : app.declared = other.declared) :
    app.contents = other.contents := by
  rw [App.contents_eq_declared, h, App.contents_eq_declared]

namespace Component

variable {registry : Registry} {component : Component} {root next : App} {existed : Bool}
variable {p : Position}

def mutation (component : Component) (existed : Bool) : Mutation :=
  if existed then
    .update (if component.kind = .app then
      Scope.child component.info.parent component.info.name else component.info.parent) component
  else .create component.info.parent component

def isIn (component : Component) (root : App) : Bool :=
  (root.entity? component.site.position).isSome

theorem ordered_mutation (h : component.Ordered) (existed : Bool) :
    (component.mutation existed).Ordered := by
  unfold mutation
  split <;> exact h

theorem target_mutation (component : Component) (existed : Bool) :
    (component.mutation existed).target = component.site := by
  unfold mutation
  split
  · rw [Mutation.target_update]
    cases component <;> rfl
  · rw [Mutation.target_create, site]

theorem submitted_mutation (component : Component) (existed : Bool) (p : Position) :
    (component.mutation existed).submitted p = component.entity? (p.after component.site.place) := by
  rw [← component.target_mutation existed]
  unfold mutation
  split <;> rfl

section

variable (hcomponent : component.Ordered)
variable (hedit : ((component.mutation existed).route registry).edit root = .ok next)

include hcomponent hedit

theorem edited_of_edit : Edited root component.site next := by
  have hedited := Mutation.edited_of_route (ordered_mutation hcomponent existed) hedit
  rwa [target_mutation] at hedited

omit hcomponent in
theorem given_of_edit (hp : component.site.Covers p) : (next.entity? p).map (Entity.given p) =
    (component.entity? (p.after component.site.place)).map fun entity =>
      (registry.routeEntity entity).given p := by
  have hgiven := Mutation.given_of_edit hedit (by rwa [Mutation.target_route, target_mutation])
  rw [Mutation.submitted_route, submitted_mutation, Option.map_map] at hgiven
  exact hgiven

theorem contents_of_edit : next.contents = lay registry root.contents component := by
  funext p
  rw [lay]
  split
  · next hp =>
    have hgiven := congrArg (Option.map Prod.fst) (given_of_edit hedit hp)
    rw [Option.map_map, Option.map_map] at hgiven
    exact hgiven
  · next hp =>
    rw [App.contents, (edited_of_edit hcomponent hedit).entity?_eq hp]
    rfl

end

def Fits (component : Component) : Prop :=
  ∀ p entity, component.site.Covers p →
    component.entity? (p.after component.site.place) = some entity → entity.info.FitsAt p

theorem fits_iff (hcomponent : component.Ordered) (hroot : root.Checked)
    (hedit : ((component.mutation existed).route registry).edit root = .ok next) :
    component.Fits ↔ ∀ p info, next.info? p = some info → info.FitsAt p := by
  rw [← Mutation.fits_iff (ordered_mutation hcomponent existed) hroot hedit]
  simp only [Fits, Mutation.Fits, target_mutation, submitted_mutation]

end Component

namespace App

section

variable {α : Type} [Leaf α] {root parent : App} {scope : String} {leaf : α} {info : Metadata}

theorem exists_updateLeaf (hinfo : Leaf.info leaf = info) (hscope : Scope.isScope scope)
    (hname : Scope.isName info.name) (hleaf : (root.leafIn? α scope info.name).isSome) :
    ∃ next, root.updateLeaf scope leaf = .ok next := by
  subst hinfo
  obtain ⟨old, hleaf⟩ := Option.isSome_iff_exists.mp hleaf
  obtain ⟨parent, hparent, hold⟩ := Option.bind_eq_some_iff.mp hleaf
  obtain ⟨next, hmodify⟩ := exists_modifyAt? hparent (·.putLeaf (Leaf.info leaf).name
    (Leaf.withInfo leaf ((Leaf.info leaf).succeed (some (Leaf.info old)))))
  exact ⟨next, updateLeaf_eq_ok.mpr ⟨hscope, hname, parent, old, hparent, hold, hmodify⟩⟩

theorem exists_createLeaf (hinfo : Leaf.info leaf = info) (hscope : Scope.isScope scope)
    (hname : Scope.isName info.name) (hparent : root.find? scope = some parent)
    (hnone : root.leafIn? α scope info.name = none) :
    ∃ next, root.createLeaf scope leaf = .ok next := by
  subst hinfo
  obtain ⟨next, hmodify⟩ := exists_modifyAt? hparent (·.putLeaf (Leaf.info leaf).name
    (Leaf.withInfo (Leaf.detached leaf) ((Leaf.info leaf).succeed none)))
  rw [leafIn?, hparent, Option.bind_some] at hnone
  exact ⟨next, createLeaf_eq_ok.mpr ⟨hscope, hname, parent, hparent, hnone, hmodify⟩⟩

theorem exists_putLeaf {existed : Bool} (hinfo : Leaf.info leaf = info)
    (hscope : Scope.isScope scope) (hname : Scope.isName info.name)
    (hparent : root.find? scope = some parent)
    (hexisted : existed = (root.leafIn? α scope info.name).isSome) :
    ∃ next, (if existed then root.updateLeaf scope leaf else root.createLeaf scope leaf) =
      .ok next := by
  subst hexisted
  split
  · next hleaf => exact exists_updateLeaf hinfo hscope hname hleaf
  · next hnone =>
    exact exists_createLeaf hinfo hscope hname hparent (Option.not_isSome_iff_eq_none.mp hnone)

end

variable {root parent app : App} {scope : String} {info : Metadata}

theorem exists_createApp (hscope : Scope.isScope scope) (hname : Scope.isName app.info.name)
    (hparent : root.find? scope = some parent) (hnone : parent.child? app.info.name = none) :
    ∃ next, root.createApp scope app = .ok next := by
  obtain ⟨next, hmodify⟩ := exists_modifyAt? hparent (·.putChild app.info.name (app.succeed none))
  exact ⟨next, createApp_eq_ok.mpr ⟨hscope, hname, parent, hparent, hnone, hmodify⟩⟩

theorem exists_putApp {existed : Bool} (hinfo : app.info = info) (hscope : Scope.isScope scope)
    (hname : Scope.isName info.name) (hparent : root.find? scope = some parent)
    (hexisted : existed = (root.find? (Scope.child scope info.name)).isSome) :
    ∃ next, (if existed then root.updateApp (Scope.child scope info.name) app
      else root.createApp scope app) = .ok next := by
  subst hinfo hexisted
  split
  · next hold =>
    obtain ⟨old, hold⟩ := Option.isSome_iff_exists.mp hold
    exact exists_updateApp (Scope.isScope_child hscope hname) hold
      (Scope.leaf_child hscope hname).symm
  · next hnone =>
    rw [find?_child hscope hname, hparent, Option.bind_some,
      Option.not_isSome_iff_eq_none] at hnone
    exact exists_createApp hscope hname hparent hnone

end App

theorem Component.exists_edit {component : Component} {root : App} (registry : Registry)
    (hscope : Scope.isScope component.info.parent) (hname : Scope.isName component.info.name)
    (hparent : (root.contents ⟨Scope.names component.info.parent, .app⟩).isSome) :
    ∃ next, ((component.mutation (component.isIn root)).route registry).edit root = .ok next := by
  rw [← App.isSome_find?] at hparent
  obtain ⟨parent, hparent⟩ := Option.isSome_iff_exists.mp hparent
  have hedit (existed : Bool) : ((component.mutation existed).route registry).edit root =
      if existed then ((component.mutation true).route registry).edit root
      else ((component.mutation false).route registry).edit root := by cases existed <;> rfl
  rw [hedit]
  cases component with
  -- What the lookups ask for is there exactly where the position of the component is taken.
  | channelType declared =>
    have hin := root.isSome_leafIn? (α := ChannelType) declared.info.parent declared.info.name
    exact App.exists_putLeaf rfl hscope hname hparent hin.symm
  | channel channel =>
    have hinfo := registry.info_route channel
    have hin := root.isSome_leafIn? (α := Channel) channel.info.parent channel.info.name
    exact App.exists_putLeaf hinfo hscope hname hparent hin.symm
  | app app =>
    have hinfo := registry.info_routeApp app
    have hin := (root.isSome_find? (Scope.child app.info.parent app.info.name)).trans
      (root.isSome_contents _)
    exact App.exists_putApp hinfo hscope hname hparent hin.symm
  | channelAlias declared =>
    have hin := root.isSome_leafIn? (α := ChannelAlias) declared.info.parent declared.info.name
    exact App.exists_putLeaf rfl hscope hname hparent hin.symm

namespace Store

variable {α : Type} {store : Store} {component : Component} {mode : Mode} {lookup : Outcome α}
variable {scope name : String} {cancelled existed : Bool} {mutation : Mutation}

theorem found_read {query : App → Except TopologyError α} (hscope : Scope.isScope scope)
    (hquery : (∃ value, query store.tree = .ok value ∧ existed = true) ∨
      ∃ error, query store.tree = .error error ∧ error.kind = .notFound ∧ existed = false) :
    (found (store.read cancelled scope query)).result =
      if cancelled then .error .cancelled else .ok existed := by
  unfold found read Scope.checkRequest
  rw [if_pos hscope]
  cases cancelled with
  | true => rfl
  | false =>
    obtain ⟨value, hvalue, rfl⟩ | ⟨error, herror, hkind, rfl⟩ := hquery
    · simp [hvalue]
    · simp [herror, hkind]

theorem found_getApp (hscope : Scope.isScope scope) :
    (found (store.getApp cancelled scope)).result = if cancelled then .error .cancelled
      else .ok (store.tree.entity? ⟨Scope.names scope, .app⟩).isSome := by
  rw [← App.isSome_contents, ← App.isSome_find?]
  apply found_read hscope
  unfold App.require
  cases store.tree.find? scope with
  | none => exact .inr ⟨_, rfl, rfl, rfl⟩
  | some app => exact .inl ⟨app, rfl, rfl⟩

theorem found_getLeaf (α : Type) [Leaf α] [LawfulLeaf α] (hscope : Scope.isScope scope) :
    (found (store.getLeaf α cancelled scope name)).result = if cancelled then .error .cancelled
      else .ok (store.tree.entity? ⟨Scope.names scope, .ofKind (Leaf.kind α) name⟩).isSome := by
  rw [← App.isSome_leafIn?, App.leafIn?]
  apply found_read hscope
  unfold App.requireLeaf App.require
  cases store.tree.find? scope with
  | none => exact .inr ⟨_, rfl, rfl, rfl⟩
  | some app =>
    simp only [bind, Except.bind, Option.bind_some]
    cases app.own.leaf? α name with
    | none => exact .inr ⟨_, rfl, rfl, rfl⟩
    | some leaf => exact .inl ⟨leaf, rfl, rfl⟩

theorem createOrUpdate_eq (hlookup : lookup.store = store)
    (hfound : (found lookup).result =
      if mode.cancelled then .error .cancelled else .ok existed)
    (hmutation : (if existed then Mutation.update scope component
      else .create component.info.parent component) = mutation) :
    (createOrUpdate lookup component scope mode).result =
        (store.mutate mutation mode).result.map (existed, ·) ∧
      (createOrUpdate lookup component scope mode).store = (store.mutate mutation mode).store := by
  subst hlookup
  have hsame : (found lookup).store = lookup.store := rfl
  unfold createOrUpdate
  cases hcancelled : mode.cancelled with
  | true =>
    -- The lookup is cancelled first, and the mutation would be cancelled as well.
    have hrefused : (lookup.store.mutate mutation mode).result = .error .cancelled ∧
        (lookup.store.mutate mutation mode).store = lookup.store := by
      unfold mutate Outcome.conclude Outcome.announce
      rw [hcancelled]
      exact ⟨rfl, rfl⟩
    rw [hcancelled, if_pos rfl] at hfound
    rw [Outcome.result_andThen_error hfound, Outcome.store_andThen_error hfound, hrefused.1,
      hrefused.2]
    exact ⟨rfl, rfl⟩
  | false =>
    rw [hcancelled, if_neg Bool.false_ne_true] at hfound
    rw [Outcome.result_andThen_ok hfound, Outcome.store_andThen_ok hfound, hsame]
    dsimp only
    rw [hmutation]
    cases hresult : (lookup.store.mutate mutation mode).result with
    | error error =>
      exact ⟨Outcome.result_andThen_error hresult, Outcome.store_andThen_error hresult⟩
    | ok log => exact ⟨Outcome.result_andThen_ok hresult, Outcome.store_andThen_ok hresult⟩

theorem put_eq (hscope : Scope.isScope component.info.parent)
    (hname : Scope.isName component.info.name) :
    let existed := component.isIn store.tree
    let outcome := store.mutate (component.mutation existed) mode
    (store.put component mode).result = outcome.result.map (existed, ·) ∧
      (store.put component mode).store = outcome.store := by
  intro existed outcome
  cases component with
  | channelType declared =>
    exact createOrUpdate_eq (store.read_store _ _ _) (found_getLeaf ChannelType hscope) rfl
  | channel channel =>
    exact createOrUpdate_eq (store.read_store _ _ _) (found_getLeaf Channel hscope) rfl
  | channelAlias declared =>
    exact createOrUpdate_eq (store.read_store _ _ _) (found_getLeaf ChannelAlias hscope) rfl
  | app app =>
    have hpath := Scope.isScope_child hscope hname
    have hput : store.put (.app app) mode = createOrUpdate
        (store.getApp mode.cancelled (Scope.child app.info.parent app.info.name)) (.app app)
        (Scope.child app.info.parent app.info.name) mode := by
      unfold put
      dsimp only
      rw [Scope.Admits.append (.inl hname) hscope]
      rfl
    rw [hput]
    exact createOrUpdate_eq (store.read_store _ _ _) (found_getApp hpath) rfl

theorem applyOne_eq (mode : Mode) (hscope : Scope.isScope component.info.parent)
    (hname : Scope.isName component.info.name) :
    let existed := component.isIn store.tree
    let outcome := store.mutate (component.mutation existed) mode
    (store.applyOne component mode).result = outcome.result.map (.about component existed) ∧
      (store.applyOne component mode).store = outcome.store := by
  intro existed outcome
  obtain ⟨hresult, hafter⟩ := store.put_eq hscope hname
  unfold applyOne Outcome.conclude Outcome.announce
  dsimp only
  rw [← hafter]
  cases houtcome : outcome.result with
  | error error =>
    have herror : (store.put component mode).result = .error error := by rw [hresult, houtcome]; rfl
    exact ⟨Outcome.result_andThen_error herror, Outcome.store_andThen_error herror⟩
  | ok log =>
    have hok : (store.put component mode).result = .ok (existed, log) := by
      rw [hresult, houtcome]
      rfl
    exact ⟨Outcome.result_andThen_ok hok, Outcome.store_andThen_ok hok⟩

structure Put (before after : Store) (component : Component) : Prop where
  inScope : Scope.isScope component.info.parent
  parent : (before.tree.contents ⟨Scope.names component.info.parent, .app⟩).isSome
  fits : component.Fits
  contents : after.tree.contents =
    Component.lay before.registry before.tree.contents component
  registry : after.registry = before.registry
  reachable : Reachable after

end Store

theorem Component.site_ne_root {component : Component} (hname : Scope.isName component.info.name) :
    component.site ≠ .app "" := by
  cases component with
  | app app =>
    intro heq
    exact Scope.isName_ne_empty hname (Scope.child_eq_empty.mp (Target.app.inj heq)).2
  | channelType | channel | channelAlias => nofun

theorem Component.owner_site {component : Component} (hscope : Scope.isScope component.info.parent)
    (hname : Scope.isName component.info.name) :
    component.site.owner = component.info.parent := by
  cases component with
  | app app => exact Scope.parent_child hscope hname
  | channelType | channel | channelAlias => rfl

namespace Store

variable {store : Store} {component : Component} {mode : Mode} {applied : Applied}

theorem Reachable.put (h : Reachable store) (hcomponent : component.Ordered)
    (hname : Scope.isName component.info.name) (hmode : mode.dryRun = false)
    (hresult : (store.applyOne component mode).result = .ok applied) :
    Put store (store.applyOne component mode).store component ∧ mode.cancelled = false := by
  have hstore := h.committed
  -- A lookup outside every scope would have been an error.
  have hscope : Scope.isScope component.info.parent := by
    obtain ⟨_, _, _, -, hmade⟩ := exists_made hresult
    obtain ⟨path, hpath, -⟩ := hmade.path
    exact (Scope.append_eq_ok.mp hpath).1
  obtain ⟨happlied, hafter⟩ := store.applyOne_eq mode hscope hname
  have hmutation := Component.ordered_mutation hcomponent (component.isIn store.tree)
  cases houtcome : (store.mutate (component.mutation (component.isIn store.tree)) mode).result with
  | error error =>
    rw [happlied, houtcome] at hresult
    exact nomatch hresult
  | ok log =>
    obtain ⟨hcancelled, edited, hstaged, hcommit⟩ :=
      exists_commit hstore.ordered hmutation hmode houtcome
    have hedited := Component.edited_of_edit hcomponent hstaged.edit
    have hordered := hedited.ordered hstore.ordered
    obtain ⟨parent, hparent⟩ := hedited.exists_owner (Component.site_ne_root hname)
    rw [Component.owner_site hscope hname] at hparent
    rw [hafter]
    refine ⟨⟨hscope, ?_, ?_, ?_, registry_mutate _ _ _, h.mutated hmutation mode⟩, hcancelled⟩
    · rw [← App.isSome_find?, hparent]
      rfl
    · exact (Component.fits_iff hcomponent hstore.toChecked hstaged.edit).mpr hstaged.fits
    · rw [hcommit, ← Component.contents_of_edit hcomponent hstaged.edit]
      apply App.contents_congr
      rw [store.declared_commit hordered.filed, App.declared_filed]

theorem Reachable.put_or_invalid (h : Reachable store) (hcomponent : component.Ordered)
    (hname : Scope.isName component.info.name) (hcancelled : mode.cancelled = false)
    (hscope : Scope.isScope component.info.parent)
    (hparent : (store.tree.contents ⟨Scope.names component.info.parent, .app⟩).isSome)
    (hfits : component.Fits) :
    ∃ edited, ((component.mutation (component.isIn store.tree)).route store.registry).edit
        store.tree = .ok edited ∧
      ((∃ applied, (store.applyOne component mode).result = .ok applied) ∨
        ∃ error, edited.filed.validate = .error error ∧
          (store.applyOne component mode).result = .error error ∧
          (store.applyOne component mode).store = store) := by
  have hstore := h.committed
  obtain ⟨edited, hedit⟩ := Component.exists_edit store.registry hscope hname hparent
  refine ⟨edited, hedit, ?_⟩
  obtain ⟨happlied, hafter⟩ := store.applyOne_eq mode hscope hname
  have hmutation := Component.ordered_mutation hcomponent (component.isIn store.tree)
  obtain ⟨-, ⟨log, hlog⟩, -⟩ | ⟨error, hinvalid, herror⟩ := edit_cases hstore.toChecked hmutation
    hcancelled hedit ((Component.fits_iff hcomponent hstore.toChecked hedit).mp hfits)
  · exact .inl ⟨_, by rw [happlied, hlog]; rfl⟩
  · exact .inr ⟨error, hinvalid, by rw [happlied, herror]; rfl,
      hafter.trans (store_of_refused herror)⟩

end Store

end AppTopology
