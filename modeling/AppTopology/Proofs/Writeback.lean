import AppTopology.Proofs.Putting
import AppTopology.Proofs.Restoration

namespace AppTopology

def Registry.reselect (registry : Registry) (channel : Channel) : Option String :=
  (registry.select channel.brokerPriority).filter (· ≠ channel.selectedBroker)

namespace App

def Own.rerouted (registry : Registry) (target : Target) (place : List String) (own : App.Own) :
    App.Own :=
  { own with
    channels := own.channels.mapWithKey fun name channel =>
      if target.Covers ⟨place, .channel name⟩ then registry.route channel else channel }

/-- The tree with brokers chosen again inside a target; all else stays as it is. -/
def rerouted (registry : Registry) (target : Target) (tree : App) : App :=
  tree.mapOwn (Own.rerouted registry target)

end App

namespace Registry

variable {registry : Registry} {channel : Channel}

theorem reselect_of_isEmpty (h : registry.isEmpty) (channel : Channel) :
    registry.reselect channel = none := by
  have hroute := route_of_isEmpty h channel
  unfold route at hroute
  unfold reselect
  cases hselect : registry.select channel.brokerPriority with
  | none => rfl
  | some broker =>
    rw [hselect] at hroute
    have hbroker : broker = channel.selectedBroker := congrArg Channel.selectedBroker hroute
    simp [hbroker]

theorem route_eq (registry : Registry) (channel : Channel) : registry.route channel =
    match registry.reselect channel with
    | some broker => { channel with selectedBroker := broker }
    | none => channel := by
  unfold route reselect
  cases registry.select channel.brokerPriority with
  | none => rfl
  | some broker =>
    by_cases hbroker : broker = channel.selectedBroker
    · subst hbroker
      rw [Option.filter_some_neg (by simp)]
    · rw [Option.filter_some_pos (by simpa using hbroker)]

theorem connect_route (registry : Registry) (links : Links) (place : List String) (name : String)
    (channel : Channel) : (registry.route channel).connect links place name =
      registry.route (channel.connect links place name) := by
  unfold route Channel.connect
  dsimp only
  split <;> rfl

end Registry

namespace App

variable {tree : App} {registry : Registry} {target : Target} {p : Position}

theorem Own.outline_rerouted (registry : Registry) (target : Target) (place : List String)
    (own : App.Own) : (own.rerouted registry target place).outline = own.outline := by
  simp only [outline, rerouted, Dict.mapWithKey_mapWithKey, apply_ite Channel.typeName,
    registry.typeName_route, ite_self]

theorem Own.connected_rerouted (links : Links) (place : List String) (own : App.Own) :
    (own.rerouted registry target place).connected links place =
      (own.connected links place).rerouted registry target place := by
  simp only [connected, rerouted, Dict.mapWithKey_mapWithKey]
  congr 2
  funext name channel
  split
  · exact registry.connect_route links place name channel
  · rfl

theorem Own.entity?_rerouted (place : List String) (own : App.Own) (item : Item) :
    (own.rerouted registry target place).entity? item =
      if target.Covers ⟨place, item⟩ then (own.entity? item).map registry.routeEntity
      else own.entity? item := by
  cases item with
  | channel name =>
    simp only [entity?, rerouted, Dict.get?_mapWithKey, Option.map_map]
    split
    · rfl
    · rfl
  | app | channelType name | channelAlias name =>
    simp [entity?, rerouted, Registry.routeEntity, Function.comp_def]

theorem entity?_rerouted (registry : Registry) (target : Target) (tree : App) (p : Position) :
    (tree.rerouted registry target).entity? p =
      if target.Covers p then (tree.entity? p).map registry.routeEntity else tree.entity? p := by
  obtain ⟨place, item⟩ := p
  rw [entity?, entity?, rerouted, at?_mapOwn]
  cases tree.at? place with
  | none => simp
  | some other =>
    rw [Option.map_some, Option.bind_some, own_mapOwn, List.append_nil]
    exact Own.entity?_rerouted place other.own item

theorem info?_rerouted (tree : App) (p : Position) :
    (tree.rerouted registry target).info? p = tree.info? p := by
  rw [info?_eq, info?_eq, entity?_rerouted]
  split
  · simp [Function.comp_def, registry.info_routeEntity]
  · rfl

theorem Ordered.rerouted (h : tree.Ordered) (registry : Registry) (target : Target) :
    (tree.rerouted registry target).Ordered := by
  apply h.mapOwn
  rintro place own ⟨hinfo, hchannels, hrest⟩
  refine ⟨hinfo, hchannels.mapWithKey ?_, hrest⟩
  intro name channel
  split
  · exact congrArg Metadata.annotations (registry.info_route channel)
  · rfl

theorem Carries.rerouted (tree : App) : tree.Carries (tree.rerouted registry target) := by
  intro p info hinfo
  rw [info?_rerouted] at hinfo
  exact Carries.refl tree p info hinfo

theorem Committed.rerouted (h : tree.Committed) (registry : Registry) (target : Target) :
    (tree.rerouted registry target).Committed := by
  have hordered := h.ordered.rerouted registry target
  refine ⟨⟨hordered, ?_, ?_⟩, ?_⟩
  · rw [filed_eq_self_iff hordered]
    intro p info hinfo
    rw [info?_rerouted] at hinfo
    exact h.info_eq hinfo
  · rw [App.rerouted, validate_mapOwn (Own.outline_rerouted registry target) fun _ _ => rfl,
      h.valid]
  · intro p info hinfo
    rw [info?_rerouted] at hinfo
    exact h.identified p info hinfo

theorem connect_rerouted (hconnect : tree.connect = tree) :
    (tree.rerouted registry target).connect = tree.rerouted registry target := by
  have hlinks := Links.ofTree_mapOwn (Own.outline_rerouted registry target) tree
  rw [connect_eq, rerouted, hlinks, mapOwn_mapOwn]
  simp only [Own.connected_rerouted]
  rw [← mapOwn_mapOwn, ← connect_eq, hconnect]

end App

namespace Diff

variable {identity : Bool} {path : String}

theorem entity_self (identity : Bool) (path : String) (side : Option Entity) :
    entity identity path side side = [] := by
  cases side with
  | none => rfl
  | some e => exact (entity_eq_nil_iff rfl).mpr ⟨fun _ _ => rfl, fun _ => rfl⟩

theorem entity_rebrokered (identity : Bool) (path : String) (channel : Channel) (broker : String) :
    entity identity path (some (.channel channel))
        (some (.channel { channel with selectedBroker := broker })) =
      fieldChange (.updated .channel) path "Spec.SelectedBroker" (some channel.selectedBroker)
        (some broker) := by
  rw [entity_leaf _ _ ⟨rfl, rfl⟩ ⟨rfl, rfl⟩]
  simp only [Entity.info, Entity.kind, identityChange_self, annotationChanges, entryChanges_self,
    Kind.fields, List.flatMap_cons, List.flatMap_nil, fieldRecord, Entity.text?, fieldChange_self,
    List.nil_append, List.append_nil]
  rfl

end Diff

namespace Store

variable {store : Store} {scope : String} {component : Component} {mode : Mode} {p : Position}
variable {target : Target} {edited : App} {log : Changelog}

def rebrokering (store : Store) (p : Position) : Option Change :=
  match store.tree.entity? p with
  | some (.channel channel) =>
    (store.registry.reselect channel).map fun broker => ⟨.updated .channel, p.path "",
      .field "Spec.SelectedBroker" (some channel.selectedBroker) (some broker)⟩
  | _ => none

theorem rebrokering_of_isEmpty (h : store.registry.isEmpty) (p : Position) :
    store.rebrokering p = none := by
  unfold rebrokering
  split
  · rw [Registry.reselect_of_isEmpty h, Option.map_none]
  · rfl

theorem entity_routeEntity (store : Store) (identity : Bool) (p : Position) :
    Diff.entity identity (p.path "") (store.tree.entity? p)
        ((store.tree.entity? p).map store.registry.routeEntity) =
      (store.rebrokering p).toList := by
  unfold rebrokering
  cases store.tree.entity? p with
  | none => rfl
  | some entity =>
    cases entity with
    | channel channel =>
      rw [Option.map_some, Registry.routeEntity, Registry.route_eq]
      dsimp only
      cases hselect : store.registry.reselect channel with
      | none => exact Diff.entity_self _ _ _
      | some broker =>
        have hne : broker ≠ channel.selectedBroker := by
          simpa using (Option.filter_eq_some_iff.mp hselect).2
        exact (Diff.entity_rebrokered _ _ _ _).trans
          (if_neg fun h => hne (Option.some.inj h).symm)
    | app | channelType | channelAlias => exact Diff.entity_self _ _ _

theorem recordsAt_rerouted (store : Store) (target : Target) (p : Position) :
    Diff.recordsAt false "" (some store.tree)
        (some (store.tree.rerouted store.registry target)) p =
      if target.Covers p then (store.rebrokering p).toList else [] := by
  rw [Diff.recordsAt, Option.bind_some, Option.bind_some, App.entity?_rerouted]
  split
  · exact store.entity_routeEntity _ p
  · exact Diff.entity_self _ _ _

def Reads (store : Store) (scope : String) : Component → Prop
  | .channelType declared =>
    ∃ name, (store.getLeaf ChannelType false scope name).result = .ok declared
  | .channel channel => ∃ name, (store.getLeaf Channel false scope name).result = .ok channel
  | .app app => (store.getApp false scope).result = .ok app
  | .channelAlias declared =>
    ∃ name, (store.getLeaf ChannelAlias false scope name).result = .ok declared

structure Resubmits (store : Store) (mutation : Mutation) : Prop where
  ordered : mutation.Ordered
  edits : ∃ edited, (mutation.route store.registry).edit store.tree = .ok edited
  submitted : ∀ p, mutation.target.Covers p → mutation.submitted p = store.tree.entity? p

section

variable {α : Type} [Leaf α] [LawfulLeaf α] {embed : α → Entity} {leaf next : α} {name : String}

theorem resubmits_leaf (hstore : store.tree.Checked) (hembeds : Embeds α embed)
    (hleaf : (store.getLeaf α false scope name).result = .ok leaf)
    (hnext : Leaf.info next = Leaf.info leaf) :
    (Leaf.info leaf).Ordered ∧ (∃ edited, store.tree.updateLeaf scope next = .ok edited) ∧
      ∀ p, (Target.ofKind (Leaf.kind α) scope (Leaf.info leaf).name).Covers p →
        some (embed leaf) = store.tree.entity? p := by
  obtain ⟨hscope, parent, hparent, hleaf⟩ := getLeaf_eq_ok.mp hleaf
  have hname : (Leaf.info leaf).name = name := (hstore.info_leaf hparent hleaf).1
  have hfound : store.tree.leafIn? α scope name = some leaf :=
    Option.bind_eq_some_iff.mpr ⟨parent, hparent, hleaf⟩
  rw [hname]
  refine ⟨(hstore.ordered.at? hparent).own.leaf? hleaf, ?_, ?_⟩
  · have hisName := (hstore.valid_at hscope hparent).isName_leaf hleaf
    rw [← hname] at hisName hfound
    exact App.exists_updateLeaf hnext hscope hisName (by rw [hfound]; rfl)
  · intro p hp
    rw [Target.covers_ofKind.mp hp, App.entity?_eq_leafIn? hembeds, hfound, Option.map_some]

end

theorem Reads.resubmits (h : store.Reads scope component) (hstore : store.tree.Checked) :
    store.Resubmits (.update scope component) := by
  cases component with
  | channelType declared =>
    obtain ⟨name, hleaf⟩ := h
    obtain ⟨hordered, hedit, hfound⟩ := resubmits_leaf hstore embeds_channelType hleaf rfl
    exact ⟨hordered, hedit, hfound⟩
  | channel channel =>
    obtain ⟨name, hleaf⟩ := h
    obtain ⟨hordered, hedit, hfound⟩ :=
      resubmits_leaf hstore embeds_channel hleaf (store.registry.info_route channel)
    exact ⟨hordered, hedit, hfound⟩
  | channelAlias declared =>
    obtain ⟨name, hleaf⟩ := h
    obtain ⟨hordered, hedit, hfound⟩ := resubmits_leaf hstore embeds_channelAlias hleaf rfl
    exact ⟨hordered, hedit, hfound⟩
  | app app =>
    obtain ⟨hscope, happ⟩ := getApp_eq_ok.mp h
    refine ⟨hstore.ordered.at? happ, App.exists_updateApp hscope happ ?_, ?_⟩
    · rw [Registry.info_routeApp, hstore.name_of_find? hscope happ]
    · intro p hp
      obtain ⟨q, rfl⟩ := Position.exists_below hp
      have hfound := store.tree.entity?_append (Scope.names scope) q.place q.item
      rw [← App.find?, happ] at hfound
      rw [Mutation.submitted_update_app]
      exact hfound.symm

variable {mutation : Mutation}

theorem Resubmits.giveSame (h : store.Resubmits mutation)
    (hedit : (mutation.route store.registry).edit store.tree = .ok edited) :
    (store.tree.rerouted store.registry mutation.target).GiveSame edited := by
  intro p
  rw [App.entity?_rerouted]
  split
  · next hp =>
    have hgiven := Mutation.given_of_edit hedit (by rwa [Mutation.target_route])
    rw [hgiven, Mutation.submitted_route, h.submitted p hp]
  · next hp => rw [(edited_of_edit h.ordered hedit).entity?_eq hp]

theorem Resubmits.exists_staged (h : store.Resubmits mutation) (hstore : store.tree.Committed)
    (hconnect : store.tree.connect = store.tree) :
    let tree := store.tree.rerouted store.registry mutation.target
    ∃ edited log, Staged store mutation edited log ∧
      Diff.subtree false "" (some store.tree) (some tree) = .ok log ∧
      store.commit edited.filed = { store with tree } := by
  intro tree
  have htree : tree.Committed := hstore.rerouted _ _
  obtain ⟨edited, hedit⟩ := h.edits
  have hedited := edited_of_edit h.ordered hedit
  have hordered := hedited.ordered hstore.ordered
  have hsame := h.giveSame hedit
  have hcarries : store.tree.Carries tree := .rerouted _
  have hdetached : tree.detached = edited.filed.detached := by
    rw [← hsame.detached_filed htree.ordered hordered hcarries hedited.carries, htree.filed]
  have hvalid : edited.filed.validate = .ok () := by
    rw [← App.validate_detached, ← hdetached, App.validate_detached, htree.valid]
  have hchecked : edited.filed.Checked := ⟨hordered.filed, edited.filed_filed, hvalid⟩
  obtain ⟨log, hlog⟩ := hedited.exists_changes hstore.toChecked hchecked
  refine ⟨edited, log, ⟨hedit, hsame.fits ?_, hvalid, hlog⟩, ?_, ?_⟩
  · intro p info hinfo
    rw [← htree.info_eq hinfo]
    exact .inr rfl
  · rw [Diff.subtree_congr (hsame.alike htree.ordered hordered hcarries hedited.carries)]
    exact subtree_of_edited hstore.toChecked hchecked hedited hlog
  · have hstable := htree.stable (App.connect_rerouted hconnect)
    rw [← commit_detached, ← hdetached, commit_detached, hstable.commit]

theorem map_routeEntity_of_rebrokering (h : store.rebrokering p = none) :
    (store.tree.entity? p).map store.registry.routeEntity = store.tree.entity? p := by
  unfold rebrokering at h
  cases hentity : store.tree.entity? p with
  | none => rfl
  | some entity =>
    cases entity with
    | channel channel =>
      rw [hentity] at h
      have hnone : store.registry.reselect channel = none := Option.map_eq_none_iff.mp h
      rw [Option.map_some, Registry.routeEntity, Registry.route_eq, hnone]
    | app | channelType | channelAlias => rfl

theorem rerouted_eq_self (hstore : store.tree.Ordered)
    (h : ∀ p, target.Covers p → store.rebrokering p = none) :
    store.tree.rerouted store.registry target = store.tree := by
  apply App.ext_entity? (hstore.rerouted _ _) hstore
  intro p
  rw [App.entity?_rerouted]
  split
  · next hp => exact map_routeEntity_of_rebrokering (h p hp)
  · rfl

theorem exists_rebrokerings (hstore : store.tree.Committed)
    (hlog : Diff.subtree false "" (some store.tree)
      (some (store.tree.rerouted store.registry target)) = .ok log) :
    ∃ positions : List Position, positions.Pairwise Position.Before ∧
      (∀ p, p ∈ positions ↔ target.Covers p ∧ (store.rebrokering p).isSome) ∧
        log = positions.filterMap store.rebrokering := by
  have htree := hstore.rerouted store.registry target
  obtain ⟨positions, hlisting, hsubtree⟩ := Diff.subtree_listed Scope.isScope_empty
    (fun app happ => Option.some.inj happ ▸ hstore.named)
    (fun app happ => Option.some.inj happ ▸ htree.named) false
  have hstands {p : Position} (hp : (store.rebrokering p).isSome) :
      (store.tree.entity? p).isSome := by
    unfold rebrokering at hp
    cases hentity : store.tree.entity? p with
    | none =>
      rw [hentity] at hp
      exact nomatch hp
    | some entity => rfl
  refine ⟨positions.filter fun p => target.Covers p ∧ (store.rebrokering p).isSome,
    hlisting.sorted.filter _, ?_, ?_⟩
  · intro p
    rw [List.mem_filter, decide_eq_true_iff, and_iff_right_iff_imp]
    exact fun hp => hlisting.covers p (.inl (hstands hp.2))
  · rw [hlog, Except.ok.injEq] at hsubtree
    rw [hsubtree]
    clear hlisting hsubtree
    induction positions with
    | nil => rfl
    | cons p positions ih =>
      rw [List.flatMap_cons, ih, recordsAt_rerouted, List.filter_cons]
      cases hrecord : store.rebrokering p <;> by_cases hp : target.Covers p <;> simp [*]

/-- A record of each channel inside the target that would get another broker now, and these brokers
in the tree. -/
structure WrittenBack (before : Store) (target : Target) (mode : Mode)
    (outcome : Outcome Changelog) : Prop where
  records : ∃ positions : List Position, positions.Pairwise Position.Before ∧
    (∀ p, p ∈ positions ↔ target.Covers p ∧ (before.rebrokering p).isSome) ∧
      outcome.result = .ok (positions.filterMap before.rebrokering)
  tree : outcome.store = if mode.dryRun then before else
    { before with tree := before.tree.rerouted before.registry target }
  rest : (∀ p, target.Covers p → before.rebrokering p = none) →
    outcome.result = .ok [] ∧ outcome.store = before
  unbrokered : before.registry.isEmpty → outcome.result = .ok [] ∧ outcome.store = before

theorem Reachable.writes_back (h : Reachable store) (hreads : store.Reads scope component)
    (hmode : mode.cancelled = false) :
    WrittenBack store (Mutation.update scope component).target mode
      (store.mutate (.update scope component) mode) := by
  have hstore := h.committed
  have hresubmits := hreads.resubmits hstore.toChecked
  obtain ⟨edited, log, hstaged, hlog, hcommit⟩ := hresubmits.exists_staged hstore h.connected
  obtain ⟨hresult, hafter⟩ := mutate_of_staged hstore.ordered hresubmits.ordered hstaged hmode
  rw [hcommit] at hafter
  obtain ⟨positions, hsorted, hmem, rfl⟩ := exists_rebrokerings hstore hlog
  have hrest (hnone : ∀ p, (Mutation.update scope component).target.Covers p →
      store.rebrokering p = none) :
      (store.mutate (.update scope component) mode).result = .ok [] ∧
        (store.mutate (.update scope component) mode).store = store := by
    have hempty : positions = [] := by
      refine List.eq_nil_iff_forall_not_mem.mpr fun p hp => ?_
      obtain ⟨hcovers, hsome⟩ := (hmem p).mp hp
      rw [hnone p hcovers] at hsome
      exact nomatch hsome
    rw [hresult, hafter, hempty, rerouted_eq_self hstore.ordered hnone, ite_self]
    exact ⟨rfl, rfl⟩
  exact ⟨⟨positions, hsorted, hmem, hresult⟩, hafter, hrest,
    fun hempty => hrest fun p _ => rebrokering_of_isEmpty hempty p⟩

theorem writes_back_billing :
    let store := ((Fixture.billingStore .unary).1.setDefault "kafka").store
    ∃ app, (store.getApp false "billing").result = .ok app ∧
      let outcome := store.mutate (.update "billing" (.app app)) {}
      outcome.result = .ok [⟨.updated .channel, "billing.invoices",
          .field "Spec.SelectedBroker" (some "memory") (some "kafka")⟩] ∧
        WrittenBack store (.app "billing") {} outcome := by
  intro store
  have hcall : Call.Ordered (.setDefault "kafka") := trivial
  have hstore : Reachable store := .after (reachable_billing .unary) hcall
  have hresult : (store.getApp false "billing").result.toOption.map (fun app =>
      (store.mutate (.update "billing" (.app app)) {}).result) =
        some (.ok [⟨.updated .channel, "billing.invoices",
          .field "Spec.SelectedBroker" (some "memory") (some "kafka")⟩]) := by decide +kernel
  cases hread : (store.getApp false "billing").result with
  | error error =>
    rw [hread] at hresult
    exact nomatch hresult
  | ok app =>
    rw [hread] at hresult
    have hreads : store.Reads "billing" (.app app) := hread
    exact ⟨app, rfl, Option.some.inj hresult, hstore.writes_back hreads rfl⟩

end Store

end AppTopology
