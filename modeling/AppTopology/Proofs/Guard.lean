import AppTopology.Fixture
import AppTopology.Proofs.Bindings
import AppTopology.Proofs.Connection
import AppTopology.Proofs.Deletion

namespace AppTopology

theorem Item.ofKind_inj (α : Type) [Leaf α] [LawfulLeaf α] {name name' : String}
    (h : Item.ofKind (Leaf.kind α) name = .ofKind (Leaf.kind α) name') : name = name' := by
  revert h
  apply LawfulLeaf.elim (α := α) fun β _ =>
    Item.ofKind (Leaf.kind β) name = .ofKind (Leaf.kind β) name' → name = name'
  · exact Item.channel.inj
  · exact Item.channelType.inj
  · exact Item.channelAlias.inj

namespace App

variable {α : Type} [Leaf α] [LawfulLeaf α] {root tree next app : App} {target : Target}
variable {scope name outer name' text : String} {leaf : α} {lost : String → Prop}

def Bound (root : App) (path : String) : Prop :=
  ∃ place app direction name, root.at? place = some app ∧
    (direction, name) ∈ app.own.boundary.entries ∧
    root.resolveBoundary (Scope.under "" place) name = some path

def Typed (root : App) (path : String) : Prop :=
  ∃ place app name channel, root.at? place = some app ∧
    app.own.channels.get? name = some channel ∧
    root.resolveType (Scope.under "" place) channel.typeName = some path

theorem exists_location (h : root.Checked) (hscope : Scope.isScope scope)
    (hleaf : root.leafIn? α scope name = some leaf) :
    ∃ app, root.at? (Scope.names scope) = some app ∧ app.own.leaf? α name = some leaf ∧
      ∀ path, Scope.locate? path = some (Scope.names scope, name) ↔
        path = Scope.child scope name := by
  obtain ⟨app, happ, hget⟩ := Option.bind_eq_some_iff.mp hleaf
  refine ⟨app, happ, hget, ?_⟩
  intro path
  have hplace := Scope.isPath_names hscope
  rw [Scope.locate?_eq_some hplace ((h.valid_at hscope happ).isName_leaf hget),
    ← Scope.child_join hplace, Scope.join_names hscope]

theorem Checked.connectedApps_ne_nil_iff {channel : Channel} (h : root.Checked)
    (hconnect : root.connect = root) (hscope : Scope.isScope scope)
    (hchannel : root.leafIn? Channel scope name = some channel) :
    channel.connectedApps ≠ [] ↔ root.Bound (Scope.child scope name) := by
  obtain ⟨app, happ, hget, hlocate⟩ := exists_location h hscope hchannel
  obtain ⟨channel', rfl⟩ := exists_connect hconnect happ hget rfl
  have hmem (user : String) :
      user ∈ (channel'.connect (Links.ofTree root) (Scope.names scope) name).connectedApps ↔
        ∃ place app direction bound, root.at? place = some app ∧ user = Scope.under "" place ∧
          (direction, bound) ∈ app.own.boundary.entries ∧
          root.resolveBoundary user bound = some (Scope.child scope name) := by
    simp only [Channel.connect, NameSet.mem_ofList, mem_usersAt, Links.mem_apps_ofTree h.ordered,
      hlocate, exists_eq_right]
  constructor
  · intro hne
    obtain ⟨user, huser⟩ := List.exists_mem_of_ne_nil _ hne
    obtain ⟨place, app', direction, bound, happ', rfl, hbound, hresolve⟩ := (hmem user).mp huser
    exact ⟨place, app', direction, bound, happ', hbound, hresolve⟩
  · rintro ⟨place, app', direction, bound, happ', hbound, hresolve⟩
    exact List.ne_nil_of_mem
      ((hmem _).mpr ⟨place, app', direction, bound, happ', rfl, hbound, hresolve⟩)

theorem Checked.connectedChannels_ne_nil_iff {channelType : ChannelType} (h : root.Checked)
    (hconnect : root.connect = root) (hscope : Scope.isScope scope)
    (htype : root.leafIn? ChannelType scope name = some channelType) :
    channelType.connectedChannels ≠ [] ↔ root.Typed (Scope.child scope name) := by
  obtain ⟨app, happ, hget, hlocate⟩ := exists_location h hscope htype
  obtain ⟨channelType', rfl⟩ := exists_connect hconnect happ hget rfl
  have hmem (user : String) : user ∈ (channelType'.connect (Links.ofTree root) (Scope.names scope)
      name).connectedChannels ↔
        ∃ place app name' channel, root.at? place = some app ∧
          app.own.channels.get? name' = some channel ∧
          user = Scope.child (Scope.under "" place) name' ∧
          root.resolveType (Scope.under "" place) channel.typeName =
            some (Scope.child scope name) := by
    simp only [ChannelType.connect, List.mem_mergeSort, mem_usersAt, hlocate, exists_eq_right]
    exact Links.mem_ofLeaves_under h.ordered fun path (channel : Channel) =>
      root.resolveType path channel.typeName
  constructor
  · intro hne
    obtain ⟨user, huser⟩ := List.exists_mem_of_ne_nil _ hne
    obtain ⟨place, app', name', channel, happ', hget', -, hresolve⟩ := (hmem user).mp huser
    exact ⟨place, app', name', channel, happ', hget', hresolve⟩
  · rintro ⟨place, app', name', channel, happ', hget', hresolve⟩
    exact List.ne_nil_of_mem
      ((hmem _).mpr ⟨place, app', name', channel, happ', hget', rfl, hresolve⟩)

namespace Without

theorem leafIn?_eq (h : tree.Without next target)
    (hp : ¬ target.Covers ⟨Scope.names outer, .ofKind (Leaf.kind α) name⟩) :
    (next.leafIn? α outer name).map Leaf.declared =
      (tree.leafIn? α outer name).map Leaf.declared :=
  declared_leafIn? (congrArg _ (h.entity?_eq hp))

theorem pathIn?_kept (h : tree.Without next (.ofKind (Leaf.kind α) scope name))
    (hscope : Scope.isScope scope) (hleaf : (tree.leafIn? α scope name).isSome)
    (houter : Scope.isScope outer) :
    Kept (· = Scope.child scope name) (tree.pathIn? α name' outer)
      (next.pathIn? α name' outer) := by
  by_cases hp : (Target.ofKind (Leaf.kind α) scope name).Covers
      ⟨Scope.names outer, .ofKind (Leaf.kind α) name'⟩
  · rw [Target.covers_ofKind] at hp
    obtain ⟨hplace, hitem⟩ := Position.mk.inj hp
    have hsame : outer = scope := by
      rw [← Scope.join_names houter, hplace, Scope.join_names hscope]
    rw [hsame, Item.ofKind_inj α hitem, pathIn?, if_pos hleaf]
    exact .of_lost rfl rfl
  · exact .of_eq (pathIn?_congr (h.leafIn?_eq hp))

theorem resolveTarget_kept
    (h : ∀ outer name, Scope.isScope outer →
      Kept lost (tree.pathIn? Channel name outer) (next.pathIn? Channel name outer))
    (hdot : '.' ∈ text.toList) (scope : String) :
    Kept lost (tree.resolveTarget scope text) (next.resolveTarget scope text) := by
  rw [resolveTarget_dotted hdot, resolveTarget_dotted hdot]
  split
  · next htext =>
    have hne : text ≠ "" := by
      rintro rfl
      simp at hdot
    exact h _ _ (Scope.isScope_parent htext hne)
  · exact .of_eq rfl

theorem keepsChannels (h : tree.Without next target)
    (halias : ∀ place name, ¬ target.Covers ⟨place, .channelAlias name⟩)
    (hchannel : ∀ outer name, Scope.isScope outer →
      Kept lost (tree.pathIn? Channel name outer) (next.pathIn? Channel name outer))
    (scope : String) : tree.KeepsChannels lost next scope := by
  constructor
  · exact fun outer name houter => hchannel outer name (Scope.isInner_iff.mp houter).1
  · intro outer name _
    exact target_congr (h.leafIn?_eq (halias _ name))
  · exact fun outer name declared _ _ hdot => resolveTarget_kept hchannel hdot outer

end Without

theorem Own.Valid.of_entity? {own own' : App.Own} {root' : App} {path : String}
    (h : own.Valid root path)
    (hentity : ∀ item entity, own'.entity? item = some entity → own.entity? item = some entity)
    (hboundary : ∀ name, root'.resolveBoundary path name = root.resolveBoundary path name)
    (htype : ∀ name channel, own.channels.get? name = some channel →
      root'.resolveType path channel.typeName = root.resolveType path channel.typeName)
    (htarget : ∀ target, root'.resolveTarget path target = root.resolveTarget path target) :
    own'.Valid root' path := by
  have happ := hentity .app _ rfl
  simp only [entity?, Option.some.injEq, Entity.app.injEq] at happ
  obtain ⟨hinfo, hbound, hnode⟩ := happ
  have hchannel {name : String} {channel : Channel}
      (hget : own'.channels.get? name = some channel) : own.channels.get? name = some channel :=
    Option.map_injective (fun _ _ => Entity.channel.inj)
      (hentity (.channel name) (.channel channel) (congrArg (Option.map Entity.channel) hget))
  have hchannelType {name : String} {channelType : ChannelType}
      (hget : own'.types.get? name = some channelType) : own.types.get? name = some channelType :=
    Option.map_injective (fun _ _ => Entity.channelType.inj)
      (hentity (.channelType name) (.channelType channelType)
        (congrArg (Option.map Entity.channelType) hget))
  have halias {name : String} {declared : ChannelAlias}
      (hget : own'.aliases.get? name = some declared) : own.aliases.get? name = some declared :=
    Option.map_injective (fun _ _ => Entity.channelAlias.inj)
      (hentity (.channelAlias name) (.channelAlias declared)
        (congrArg (Option.map Entity.channelAlias) hget))
  constructor
  · rw [← hinfo]
    exact h.name
  · rw [← hnode]
    exact h.node
  · intro direction name hmem
    rw [← hbound] at hmem
    rw [hboundary]
    exact h.boundary direction name hmem
  · intro name channel hget
    rw [htype name channel (hchannel hget)]
    exact h.channel name channel (hchannel hget)
  · exact fun name channelType hget => h.channelType name channelType (hchannelType hget)
  · intro name declared hget
    rw [htarget]
    exact h.channelAlias name declared (halias hget)

theorem Without.exists_at? {place : List String} (h : tree.Without next target)
    (happ : next.at? place = some app) : ∃ before, tree.at? place = some before ∧
      ∀ item entity, app.own.entity? item = some entity →
        before.own.entity? item = some entity := by
  have hentity (item : Item) (entity : Entity) (hitem : app.own.entity? item = some entity) :
      tree.entity? ⟨place, item⟩ = some entity := by
    apply h.entity?_of_some
    rw [entity?, happ]
    exact hitem
  obtain ⟨before, hbefore, -⟩ := Option.bind_eq_some_iff.mp (hentity .app _ rfl)
  refine ⟨before, hbefore, ?_⟩
  intro item entity hitem
  have hfound := hentity item entity hitem
  rwa [entity?, hbefore] at hfound

section

variable {place : List String}

theorem Without.resolveType_eq (h : tree.Without next (.channelType scope name))
    (htree : tree.Checked) (hscope : Scope.isScope scope)
    (htype : (tree.leafIn? ChannelType scope name).isSome)
    (hunused : ¬ tree.Typed (Scope.child scope name)) {channel : Channel}
    (happ : tree.at? place = some app) (hchannel : app.own.channels.get? name' = some channel) :
    next.resolveType (Scope.under "" place) channel.typeName =
      tree.resolveType (Scope.under "" place) channel.typeName := by
  have hkept : Kept (· = Scope.child scope name)
      (tree.resolveType (Scope.under "" place) channel.typeName)
      (next.resolveType (Scope.under "" place) channel.typeName) :=
    resolveLeaf_kept (α := ChannelType) (htree.isScope_under happ) fun outer houter =>
      h.pathIn?_kept hscope htype (Scope.isInner_iff.mp houter).1
  apply hkept
  rintro _ hpath rfl
  exact hunused ⟨place, app, name', channel, happ, hchannel, hpath⟩

theorem Without.resolveBoundary_eq (h : tree.Without next (.channel scope name))
    (htree : tree.Checked) (hscope : Scope.isScope scope)
    (hchannel : (tree.leafIn? Channel scope name).isSome)
    (hunbound : ¬ tree.Bound (Scope.child scope name)) {direction : Direction}
    (happ : tree.at? place = some app) (hbound : (direction, name') ∈ app.own.boundary.entries) :
    next.resolveBoundary (Scope.under "" place) name' =
      tree.resolveBoundary (Scope.under "" place) name' := by
  have hkeeps := h.keepsChannels (fun _ _ hp => nomatch (Position.mk.inj hp).2)
    (fun _ _ houter => h.pathIn?_kept hscope hchannel houter) (Scope.under "" place)
  apply hkeeps.resolveBoundary (htree.isScope_under happ)
  rintro _ hpath rfl
  exact hunbound ⟨place, app, direction, name', happ, hbound, hpath⟩

theorem Without.validate (h : tree.Without next (.channelType scope name)) (htree : tree.Checked)
    (hnext : next.Ordered) (hscope : Scope.isScope scope)
    (htype : (tree.leafIn? ChannelType scope name).isSome)
    (hunused : ¬ tree.Typed (Scope.child scope name)) : next.validate = .ok () := by
  have hchannel (outer name : String) (_ : Scope.isScope outer) :
      Kept (fun _ => False) (tree.pathIn? Channel name outer) (next.pathIn? Channel name outer) :=
    .of_eq (pathIn?_congr (h.leafIn?_eq fun hp => nomatch (Position.mk.inj hp).2))
  have hkeeps := h.keepsChannels (fun _ _ hp => nomatch (Position.mk.inj hp).2) hchannel
  rw [validate_eq_ok hnext]
  intro place app happ
  obtain ⟨before, hbefore, hentity⟩ := h.exists_at? happ
  have hplace := htree.isScope_under hbefore
  apply (htree.valid_under hbefore).of_entity? hentity
  · exact fun name => ((hkeeps _).resolveBoundary hplace).eq_of_nothing_lost
  · exact fun name' channel hget =>
      h.resolveType_eq htree hscope htype hunused hbefore hget
  · intro target
    apply Kept.eq_of_nothing_lost
    exact (hkeeps _).resolveTarget hplace fun hdot => resolveTarget_kept hchannel hdot _

end

end App

def Outcome.IsBadRequest {α : Type} (outcome : Outcome α) : Prop :=
  ∃ error, outcome.result = .error error ∧ error.kind = .badRequest

theorem Outcome.not_isBadRequest_of_ok {α : Type} {outcome : Outcome α} {value : α}
    (h : outcome.result = .ok value) : ¬ outcome.IsBadRequest := by
  rintro ⟨error, herror, -⟩
  rw [h] at herror
  exact nomatch herror

namespace Store

variable {α : Type} [Leaf α] [LawfulLeaf α] {store : Store} {mode : Mode} {scope name : String}
variable {target : Target} {next : App} {leaf : α}

/-- Refused exactly if a name on a boundary leads to the channel; else every such name leads where
it led. -/
structure ChannelGuarded (before : Store) (deleted : Outcome Changelog) (path : String) : Prop where
  refused_iff : deleted.IsBadRequest ↔ before.tree.Bound path
  kept : ∀ log, deleted.result = .ok log → ∀ place app direction name,
    before.tree.at? place = some app → (direction, name) ∈ app.own.boundary.entries →
      deleted.store.tree.resolveBoundary (Scope.under "" place) name =
        before.tree.resolveBoundary (Scope.under "" place) name

/-- Refused exactly if a channel has the type; else every channel keeps the type that it had. -/
structure TypeGuarded (before : Store) (deleted : Outcome Changelog) (path : String) : Prop where
  refused : before.tree.Typed path → deleted.IsBadRequest
  succeeds : ¬ before.tree.Typed path → ∃ log, deleted.result = .ok log
  kept : ∀ log, deleted.result = .ok log → ∀ place app name channel,
    before.tree.at? place = some app → app.own.channels.get? name = some channel →
      deleted.store.tree.resolveType (Scope.under "" place) channel.typeName =
        before.tree.resolveType (Scope.under "" place) channel.typeName

omit [LawfulLeaf α] in
theorem leafIn?_of_getLeaf (h : (store.getLeaf α false scope name).result = .ok leaf) :
    Scope.isScope scope ∧ store.tree.leafIn? α scope name = some leaf := by
  obtain ⟨hscope, app, happ, hleaf⟩ := getLeaf_eq_ok.mp h
  exact ⟨hscope, Option.bind_eq_some_iff.mpr ⟨app, happ, hleaf⟩⟩

theorem not_isBadRequest_of_edit (hstore : store.tree.Checked) (hmode : mode.cancelled = false)
    (hedit : (Mutation.delete target).edit store.tree = .ok next) :
    ¬ (store.mutate (.delete target) mode).IsBadRequest := by
  rintro ⟨error, hresult, hkind⟩
  obtain ⟨-, ⟨log, hlog⟩, -⟩ | ⟨error', hvalid, hresult'⟩ := delete_cases hstore hmode hedit
  · rw [hresult] at hlog
    exact nomatch hlog
  · -- An alias that is left without a target is reported as invalid, not as a bad request.
    rw [hresult, Except.error.injEq] at hresult'
    have hnext := (App.edited_of_delete hedit).ordered hstore.ordered
    have hvalidation := App.isValidation_of_validate hnext hvalid
    rw [← hresult', TopologyError.isValidation, hkind] at hvalidation
    exact nomatch hvalidation

theorem isBadRequest_iff (hstore : store.tree.Checked) (hmode : mode.cancelled = false)
    (hleaf : (store.getLeaf α false scope name).result = .ok leaf) :
    (store.mutate (.delete (.ofKind (Leaf.kind α) scope name)) mode).IsBadRequest ↔
      Leaf.users leaf ≠ [] := by
  constructor
  · intro hrefused hunused
    obtain ⟨next, hedit⟩ := exists_edit_of_unused hleaf hunused
    exact not_isBadRequest_of_edit hstore hmode hedit hrefused
  · exact fun hused => ⟨_, delete_of_used hmode hleaf hused, rfl⟩

theorem exists_next_of_deleted {log : Changelog} (hstore : store.tree.Checked)
    (hmode : mode.cancelled = false)
    (hleaf : (store.getLeaf α false scope name).result = .ok leaf) :
    let deleted := store.mutate (.delete (.ofKind (Leaf.kind α) scope name)) mode
    deleted.result = .ok log → ∃ next, store.tree.Without next (.ofKind (Leaf.kind α) scope name) ∧
      (deleted.store.tree.declared = store.tree.declared ∨
        deleted.store.tree.declared = next.declared) := by
  intro deleted hresult
  have hunused : Leaf.users leaf = [] := by
    by_contra hused
    exact Outcome.not_isBadRequest_of_ok hresult ((isBadRequest_iff hstore hmode hleaf).mpr hused)
  obtain ⟨next, hedit⟩ := exists_edit_of_unused hleaf hunused
  obtain ⟨-, -, hafter⟩ | ⟨error, -, herror⟩ := delete_cases hstore hmode hedit
  · refine ⟨next, App.without_of_delete hedit, ?_⟩
    change deleted.store = _ at hafter
    rw [hafter]
    split
    · exact .inl rfl
    · exact .inr (store.declared_commit ((App.edited_of_delete hedit).ordered hstore.ordered))
  · rw [hresult] at herror
    exact nomatch herror

theorem Reachable.channelGuarded {channel : Channel} (h : Reachable store)
    (hmode : mode.cancelled = false)
    (hchannel : (store.getLeaf Channel false scope name).result = .ok channel) :
    ChannelGuarded store (store.mutate (.delete (.channel scope name)) mode)
      (Scope.child scope name) := by
  have hstore := h.committed.toChecked
  obtain ⟨hscope, hfound⟩ := leafIn?_of_getLeaf hchannel
  have hrefused : (store.mutate (.delete (.channel scope name)) mode).IsBadRequest ↔
      store.tree.Bound (Scope.child scope name) :=
    (isBadRequest_iff (α := Channel) hstore hmode hchannel).trans
      (hstore.connectedApps_ne_nil_iff h.connected hscope hfound)
  refine ⟨hrefused, ?_⟩
  intro log hlog place app direction bound happ hentry
  -- No name led to the channel, so the lookups that came past it before come past it now.
  have hunbound := mt hrefused.mpr (Outcome.not_isBadRequest_of_ok hlog)
  obtain ⟨next, hwithout, hsame | hnext⟩ :=
    exists_next_of_deleted (α := Channel) hstore hmode hchannel hlog
  · exact congrFun (congrFun (App.resolve_congr hsame).1 _) _
  · refine (congrFun (congrFun (App.resolve_congr hnext).1 _) _).trans ?_
    exact hwithout.resolveBoundary_eq hstore hscope (by rw [hfound]; rfl) hunbound happ hentry

theorem Reachable.typeGuarded {channelType : ChannelType} (h : Reachable store)
    (hmode : mode.cancelled = false)
    (htype : (store.getLeaf ChannelType false scope name).result = .ok channelType) :
    TypeGuarded store (store.mutate (.delete (.channelType scope name)) mode)
      (Scope.child scope name) := by
  have hstore := h.committed.toChecked
  obtain ⟨hscope, hfound⟩ := leafIn?_of_getLeaf htype
  have hused := hstore.connectedChannels_ne_nil_iff h.connected hscope hfound
  have hrefused : (store.mutate (.delete (.channelType scope name)) mode).IsBadRequest ↔
      store.tree.Typed (Scope.child scope name) :=
    (isBadRequest_iff (α := ChannelType) hstore hmode htype).trans hused
  have hsome : (store.tree.leafIn? ChannelType scope name).isSome := by
    rw [hfound]
    rfl
  refine ⟨hrefused.mpr, ?_, ?_⟩
  · intro hunused
    obtain ⟨next, hedit⟩ := exists_edit_of_unused htype (not_not.mp (mt hused.mp hunused))
    have hwithout := App.without_of_delete hedit
    have hvalid := hwithout.validate hstore ((App.edited_of_delete hedit).ordered hstore.ordered)
      hscope hsome hunused
    obtain ⟨-, hlog, -⟩ | ⟨error, herror, -⟩ := delete_cases hstore hmode hedit
    · exact hlog
    · rw [hvalid] at herror
      exact nomatch herror
  · intro log hlog place app name' channel happ hget
    have hunused := mt hrefused.mpr (Outcome.not_isBadRequest_of_ok hlog)
    obtain ⟨next, hwithout, hsame | hnext⟩ :=
      exists_next_of_deleted (α := ChannelType) hstore hmode htype hlog
    · exact congrFun (congrFun (App.resolve_congr hsame).2.1 _) _
    · refine (congrFun (congrFun (App.resolve_congr hnext).2.1 _) _).trans ?_
      exact hwithout.resolveType_eq hstore hscope hsome hunused happ hget

theorem Reachable.deletion_guarded (h : Reachable store) (hmode : mode.cancelled = false)
    (scope name : String) :
    (∀ channel, (store.getLeaf Channel false scope name).result = .ok channel →
      ChannelGuarded store (store.mutate (.delete (.channel scope name)) mode)
        (Scope.child scope name)) ∧
    ∀ channelType, (store.getLeaf ChannelType false scope name).result = .ok channelType →
      TypeGuarded store (store.mutate (.delete (.channelType scope name)) mode)
        (Scope.child scope name) :=
  ⟨fun _ hchannel => h.channelGuarded hmode hchannel,
    fun _ htype => h.typeGuarded hmode htype⟩

theorem deletion_guarded_billing : ∃ store, Reachable store ∧
    let refused := store.mutate (.delete (.channel "billing" "invoices")) {}
    let deleted := store.mutate (.delete (.channelType "" "Invoice")) {}
    refused.result = .error (.inUse .channel "billing.invoices" ["billing.printer"]) ∧
      ChannelGuarded store refused "billing.invoices" ∧
      deleted.result = .ok [⟨.deleted .channelType, "Invoice", .none⟩] ∧
      TypeGuarded store deleted "Invoice" := by
  let root := (({} : App).withApp Fixture.billing).withLeaf Fixture.invoiceType
  have hfound : (restore root {} .unary).toOption.map (fun store =>
      ((store.getLeaf Channel false "billing" "invoices").result.toOption.isSome &&
        (store.getLeaf ChannelType false "" "Invoice").result.toOption.isSome,
        (store.mutate (.delete (.channel "billing" "invoices")) {}).result,
        (store.mutate (.delete (.channelType "" "Invoice")) {}).result)) =
      some (true, .error (.inUse .channel "billing.invoices" ["billing.printer"]),
        .ok [⟨.deleted .channelType, "Invoice", .none⟩]) := by decide +kernel
  obtain ⟨store, hreachable, hquery⟩ := exists_restored (by decide +kernel) hfound
  simp only [Prod.mk.injEq, Bool.and_eq_true] at hquery
  obtain ⟨⟨hchannel, htype⟩, hrefused, hdeleted⟩ := hquery
  obtain ⟨channel, hchannel⟩ := Check.exists_of_isSome hchannel
  obtain ⟨channelType, htype⟩ := Check.exists_of_isSome htype
  exact ⟨store, hreachable, hrefused,
    (hreachable.deletion_guarded rfl "billing" "invoices").1 channel hchannel, hdeleted,
    (hreachable.deletion_guarded rfl "" "Invoice").2 channelType htype⟩

end Store

end AppTopology
