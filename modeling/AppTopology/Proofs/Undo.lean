import AppTopology.Proofs.Effect
import AppTopology.Proofs.Guard
import AppTopology.Proofs.Restoration
import AppTopology.Proofs.Reversal

namespace AppTopology

/-- Something led elsewhere before and leads to the target afterwards. -/
def Captured (before after : App) : Target → Prop
  | .channel scope name => ∃ place app direction bound path, before.at? place = some app ∧
      (direction, bound) ∈ app.own.boundary.entries ∧
      before.resolveBoundary (Scope.under "" place) bound = some path ∧
      path ≠ Scope.child scope name ∧
      after.resolveBoundary (Scope.under "" place) bound = some (Scope.child scope name)
  | .channelType scope name => ∃ place app key channel path, before.at? place = some app ∧
      app.own.channels.get? key = some channel ∧
      before.resolveType (Scope.under "" place) channel.typeName = some path ∧
      path ≠ Scope.child scope name ∧
      after.resolveType (Scope.under "" place) channel.typeName = some (Scope.child scope name)
  | .app _ | .channelAlias .. => False

namespace App

variable {α : Type} [Leaf α] [LawfulLeaf α] {root before after next : App} {target : Target}
variable {scope name : String} {leaf : α} {p : Position}

structure Adds (before after : App) (target : Target) : Prop where
  absent : ∀ p, target.Covers p → before.entity? p = none
  same : ∀ p, ¬ target.Covers p →
    (after.entity? p).map Entity.detached = (before.entity? p).map Entity.detached

theorem exists_entry_iff {place : List String} {entry : Direction × String} :
    (∃ app, root.at? place = some app ∧ entry ∈ app.own.boundary.entries) ↔
      ∃ info boundary node, (root.entity? ⟨place, .app⟩).map Entity.detached =
        some (.app info boundary node) ∧ entry ∈ boundary.entries := by
  rw [entity?]
  cases root.at? place <;> simp [Own.entity?, Entity.detached]

theorem exists_typeName_iff {place : List String} {typeName : String} :
    (∃ app channel, root.at? place = some app ∧ app.own.channels.get? name = some channel ∧
      channel.typeName = typeName) ↔ ∃ channel : Channel,
        (root.entity? ⟨place, .channel name⟩).map Entity.detached = some (.channel channel) ∧
          channel.typeName = typeName := by
  rw [entity?]
  constructor
  · rintro ⟨app, channel, happ, hget, rfl⟩
    refine ⟨Leaf.detached channel, ?_, rfl⟩
    rw [happ, Option.bind_some, Own.entity?, hget]
    rfl
  · rintro ⟨_, hentity, rfl⟩
    obtain ⟨_, hentity, hdetached⟩ := Option.map_eq_some_iff.mp hentity
    obtain ⟨app, happ, hitem⟩ := Option.bind_eq_some_iff.mp hentity
    obtain ⟨channel, hget, rfl⟩ := Option.map_eq_some_iff.mp hitem
    rw [← Entity.channel.inj hdetached]
    exact ⟨app, channel, happ, hget, rfl⟩

namespace Adds

theorem leafAt? (h : before.Adds after (.ofKind (Leaf.kind α) scope name))
    (hscope : Scope.isScope scope) (hname : Scope.isName name) :
    before.leafAt? α (Scope.child scope name) = none := by
  obtain ⟨embed, hembeds⟩ := exists_embeds α
  have hnone := h.absent _ (Target.covers_ofKind.mpr rfl)
  rw [entity?_eq_leafIn? hembeds, Option.map_eq_none_iff] at hnone
  rw [leafAt?_child before hscope hname]
  exact hnone

theorem bound_iff (h : before.Adds after (.channel scope name)) (hbefore : before.Checked)
    (hscope : Scope.isScope scope) (hname : Scope.isName name) :
    after.Bound (Scope.child scope name) ↔ Captured before after (.channel scope name) := by
  have hentry (place : List String) (entry : Direction × String) :
      (∃ app, after.at? place = some app ∧ entry ∈ app.own.boundary.entries) ↔
        ∃ app, before.at? place = some app ∧ entry ∈ app.own.boundary.entries := by
    have hsame := h.same ⟨place, .app⟩ fun hp => nomatch (Position.mk.inj hp).2
    rw [exists_entry_iff, hsame, exists_entry_iff]
  constructor
  · rintro ⟨place, app', direction, bound, happ', hbound', hnow⟩
    obtain ⟨app, happ, hbound⟩ := (hentry place (direction, bound)).mp ⟨app', happ', hbound'⟩
    obtain ⟨path, hpath⟩ := Option.isSome_iff_exists.mp
      ((hbefore.valid_under happ).boundary direction bound hbound)
    refine ⟨place, app, direction, bound, path, happ, hbound, hpath, ?_, hnow⟩
    rintro rfl
    obtain ⟨channel, hchannel⟩ := hbefore.resolveBoundary (hbefore.isScope_under happ) hpath
    rw [leafAt? (α := Channel) h hscope hname] at hchannel
    exact nomatch hchannel
  · rintro ⟨place, app, direction, bound, path, happ, hbound, -, -, hnow⟩
    obtain ⟨app', happ', hbound'⟩ := (hentry place (direction, bound)).mpr ⟨app, happ, hbound⟩
    exact ⟨place, app', direction, bound, happ', hbound', hnow⟩

theorem typed_iff (h : before.Adds after (.channelType scope name)) (hbefore : before.Checked)
    (hscope : Scope.isScope scope) (hname : Scope.isName name) :
    after.Typed (Scope.child scope name) ↔ Captured before after (.channelType scope name) := by
  have htypeName (place : List String) (key typeName : String) :
      (∃ app channel, after.at? place = some app ∧ app.own.channels.get? key = some channel ∧
        channel.typeName = typeName) ↔ ∃ app channel, before.at? place = some app ∧
          app.own.channels.get? key = some channel ∧ channel.typeName = typeName := by
    have hsame := h.same ⟨place, .channel key⟩ fun hp => nomatch (Position.mk.inj hp).2
    rw [exists_typeName_iff, hsame, exists_typeName_iff]
  constructor
  · rintro ⟨place, app', key, channel', happ', hget', hnow⟩
    obtain ⟨app, channel, happ, hget, htype⟩ :=
      (htypeName place key _).mp ⟨app', channel', happ', hget', rfl⟩
    rw [← htype] at hnow
    obtain ⟨path, hpath⟩ := Option.isSome_iff_exists.mp
      ((hbefore.valid_under happ).channel key channel hget).2.2
    refine ⟨place, app, key, channel, path, happ, hget, hpath, ?_, hnow⟩
    rintro rfl
    obtain ⟨channelType, hold⟩ := hbefore.resolveType (hbefore.isScope_under happ) hpath
    rw [leafAt? (α := ChannelType) h hscope hname] at hold
    exact nomatch hold
  · rintro ⟨place, app, key, channel, path, happ, hget, -, -, hnow⟩
    obtain ⟨app', channel', happ', hget', htype⟩ :=
      (htypeName place key _).mpr ⟨app, channel, happ, hget, rfl⟩
    rw [← htype] at hnow
    exact ⟨place, app', key, channel', happ', hget', hnow⟩

theorem detached_eq (h : before.Adds after target) (hwithout : after.Without next target)
    (hbefore : before.Ordered) (hnext : next.Ordered) : next.detached = before.detached := by
  apply App.detached_eq hnext hbefore
  intro p
  rw [hwithout p]
  split
  · next hp => rw [h.absent p hp]
  · next hp => exact h.same p hp

end Adds

end App

theorem Target.kind_ofKind (kind : Kind) (scope name : String) :
    (Target.ofKind kind scope name).kind = kind := by
  cases kind <;> rfl

theorem Target.path_ofKind (kind : Kind) (scope name : String) :
    (Target.ofKind kind scope name).path = Scope.child scope name := by
  cases kind <;> rfl

namespace Store

structure Undoes (store : Store) (log : Changelog) (outcome : Outcome Changelog) : Prop where
  result : outcome.result = .ok log.inverse
  tree : outcome.store.tree = store.tree

/-- The deletion of what was created is refused as long as something is captured, and undoes the
creation otherwise. -/
structure UndoneUnlessCaptured (before created : Store) (target : Target) (log : Changelog)
    (deleted : Outcome Changelog) : Prop where
  refused : Captured before.tree created.tree target →
    deleted.IsBadRequest ∧
      ∃ users, deleted.result = .error (.inUse target.kind target.path users)
  undone : ¬ Captured before.tree created.tree target → before.Undoes log deleted

variable {α : Type} [Leaf α] [LawfulLeaf α] {store : Store} {mode : Mode} {scope name : String}
variable {component : Component} {target : Target} {edited next : App} {log : Changelog}

theorem adds_of_create (hstore : store.tree.Committed) (hcomponent : component.Ordered)
    (h : Staged store (.create scope component) edited log) :
    store.tree.Adds (store.commit edited.filed).tree (Mutation.create scope component).target := by
  constructor
  · exact fun p hp => Mutation.absent_of_create h.edit hp
  · exact fun p hp => detached_commit_outside hstore (h.accepted hcomponent) hp

theorem undoes_of_edit (h : Reachable store) (hcomponent : component.Ordered)
    (hstaged : Staged store (.create scope component) edited log)
    (hcancelled : mode.cancelled = false) (hdryRun : mode.dryRun = false)
    (htarget : (Mutation.create scope component).target = target)
    (hedit : (Mutation.delete target).edit (store.commit edited.filed).tree = .ok next) :
    store.Undoes log ((store.commit edited.filed).mutate (.delete target) mode) := by
  have hstore := h.committed
  have haccepted := hstaged.accepted hcomponent
  have hadds := adds_of_create hstore hcomponent hstaged
  rw [htarget] at haccepted hadds
  have hcreated := store.committed_commit (haccepted.checked hstore.ordered)
  have hedited := App.edited_of_delete hedit
  have hnext := hedited.ordered hcreated.ordered
  have hwithout := App.without_of_delete hedit
  have hdetached := hadds.detached_eq hwithout hstore.ordered hnext
  -- Names are looked up without regard to connections, so what is left is as valid as the tree was.
  have hvalid : next.validate = .ok () := by
    rw [← App.validate_detached, hdetached, App.validate_detached, hstore.valid]
  have hfiled := hwithout.filed hcreated.toChecked hnext
  have htree : ((store.commit edited.filed).commit next).tree = store.tree := by
    rw [← commit_detached, hdetached, commit_detached, (hstore.stable h.connected).commit]
  obtain ⟨-, ⟨log', hlog'⟩, hafter⟩ | ⟨error, herror, -⟩ :=
    delete_cases hcreated.toChecked hcancelled hedit
  · rw [hdryRun, if_neg Bool.false_ne_true] at hafter
    refine ⟨?_, (congrArg Store.tree hafter).trans htree⟩
    have hordered : (Mutation.delete target).Ordered := trivial
    obtain ⟨-, edited', hstaged⟩ := exists_staged hcreated.ordered hordered hlog'
    have hsame : edited' = next := Except.ok.inj (hstaged.edit.symm.trans hedit)
    subst hsame
    -- Both mutations compare the same two trees, in opposite directions.
    have hrecords := subtree_commit hstore haccepted
    have hrecords' := subtree_commit hcreated (hstaged.accepted hordered)
    rw [hfiled, htree, Diff.subtree_swap, hrecords] at hrecords'
    rw [hlog', ← hrecords']
    rfl
  · rw [hvalid] at herror
    exact nomatch herror

theorem isSome_entity?_of_create {p : Position} (hstore : store.tree.Committed)
    (hcomponent : component.Ordered) (hstaged : Staged store (.create scope component) edited log)
    (hp : (Mutation.create scope component).target.Covers p) :
    ((store.commit edited.filed).tree.entity? p).isSome =
      ((Mutation.create scope component).submitted p).isSome := by
  have hmutation : (Mutation.create scope component).Ordered := hcomponent
  have hsome := congrArg Option.isSome (declared_commit_target hstore hmutation hstaged hp)
  rwa [Option.isSome_map, Option.isSome_map] at hsome

theorem exists_created_leaf (α : Type) [Leaf α] [LawfulLeaf α] (h : Reachable store)
    (hcomponent : component.Ordered) (hstaged : Staged store (.create scope component) edited log)
    (htarget : (Mutation.create scope component).target = .ofKind (Leaf.kind α) scope name)
    (hsubmitted : ∀ p, ((Mutation.create scope component).submitted p).isSome) :
    ∃ leaf : α, Scope.isName name ∧
      ((store.commit edited.filed).getLeaf α false scope name).result = .ok leaf := by
  have haccepted := hstaged.accepted hcomponent
  have hcreated := (store.committed_commit (haccepted.checked h.committed.ordered)).toChecked
  have hcovers : (Target.ofKind (Leaf.kind α) scope name).Covers
      ⟨Scope.names scope, .ofKind (Leaf.kind α) name⟩ := Target.covers_ofKind.mpr rfl
  rw [← htarget] at hcovers
  have hsome := isSome_entity?_of_create h.committed hcomponent hstaged hcovers
  rw [hsubmitted] at hsome
  have hedit := haccepted.edit
  rw [htarget] at hedit
  have hscope : Scope.isScope scope := by
    have hchild := hedit.isChild (LawfulLeaf.elim (α := α) (fun β _ =>
      Target.ofKind (Leaf.kind β) scope name ≠ .app "") nofun nofun nofun)
    rw [← Target.owner_ofKind α scope name]
    exact hchild.isScope_owner
  obtain ⟨embed, hembeds⟩ := exists_embeds α
  rw [App.entity?_eq_leafIn? hembeds, Option.isSome_map] at hsome
  obtain ⟨leaf, hleaf⟩ := Option.isSome_iff_exists.mp hsome
  obtain ⟨app, happ, hget⟩ := Option.bind_eq_some_iff.mp hleaf
  exact ⟨leaf, (hcreated.valid_at hscope happ).isName_leaf hget,
    getLeaf_eq_ok.mpr ⟨hscope, app, happ, hget⟩⟩

theorem unlessCaptured_app {app : App} (h : Reachable store) (happ : app.Ordered)
    (hstaged : Staged store (.create scope (.app app)) edited log)
    (hcancelled : mode.cancelled = false) (hdryRun : mode.dryRun = false) :
    let created := store.commit edited.filed
    let target := Target.app (Scope.child scope app.info.name)
    UndoneUnlessCaptured store created target log (created.mutate (.delete target) mode) := by
  intro created target
  have hcomponent : (Component.app app).Ordered := happ
  have hadds := adds_of_create h.committed hcomponent hstaged
  -- The root app was there before, so it is not what was created.
  have hne : target ≠ .app "" := by
    intro heq
    have hroot : target.Covers .root := by
      rw [heq, Target.Covers, Scope.names_empty]
      exact List.nil_prefix
    exact Option.some_ne_none _ (hadds.absent .root hroot)
  have hpath := (hstaged.accepted hcomponent).edit.isChild hne
  have hcovers : target.Covers ⟨Scope.names (Scope.child scope app.info.name), .app⟩ :=
    List.prefix_rfl
  have hsome := isSome_entity?_of_create h.committed hcomponent hstaged hcovers
  have hsubmitted : (Mutation.create scope (.app app)).submitted
      ⟨Scope.names (Scope.child scope app.info.name), .app⟩ = app.entity? .root := by
    simp [Mutation.submitted, Mutation.target, Target.place, Position.after, Component.info,
      Component.entity?, Position.root]
  rw [hsubmitted] at hsome
  obtain ⟨entity, hentity⟩ := Option.isSome_iff_exists.mp hsome
  obtain ⟨found, hfound, -⟩ := Option.bind_eq_some_iff.mp hentity
  obtain ⟨next, hedit⟩ := App.exists_deleteApp hpath hfound
  constructor
  · -- No name leads to an app.
    exact False.elim
  · exact fun _ => undoes_of_edit h hcomponent hstaged hcancelled hdryRun rfl hedit

theorem unlessCaptured_leaf {leaf : α} (h : Reachable store) (hcomponent : component.Ordered)
    (hstaged : Staged store (.create scope component) edited log)
    (hcancelled : mode.cancelled = false) (hdryRun : mode.dryRun = false)
    (htarget : (Mutation.create scope component).target = .ofKind (Leaf.kind α) scope name)
    (hleaf : ((store.commit edited.filed).getLeaf α false scope name).result = .ok leaf)
    (hused : Leaf.users leaf ≠ [] ↔ Captured store.tree (store.commit edited.filed).tree
      (.ofKind (Leaf.kind α) scope name)) :
    let created := store.commit edited.filed
    let target := Target.ofKind (Leaf.kind α) scope name
    UndoneUnlessCaptured store created target log (created.mutate (.delete target) mode) := by
  intro created target
  constructor
  · intro hcaptured
    have hrefused := delete_of_used hcancelled hleaf (hused.mpr hcaptured)
    refine ⟨⟨_, hrefused, rfl⟩, Leaf.users leaf, ?_⟩
    rw [Target.kind_ofKind, Target.path_ofKind]
    exact hrefused
  · intro hfree
    obtain ⟨next, hedit⟩ := exists_edit_of_unused hleaf (not_not.mp (mt hused.mp hfree))
    exact undoes_of_edit h hcomponent hstaged hcancelled hdryRun htarget hedit

theorem not_captured {before after : App} (h : target.kind = .app ∨ target.kind = .channelAlias) :
    ¬ Captured before after target := by
  cases target <;> simp_all [Target.kind, Captured]

/-- To delete what was just created leads back to the tree from before, unless the new entity has
captured what led elsewhere. -/
theorem Reachable.creation_undone (h : Reachable store) (hcomponent : component.Ordered)
    (hmode : mode.dryRun = false)
    (hresult : (store.mutate (.create scope component) mode).result = .ok log) :
    let creation := Mutation.create scope component
    let created := (store.mutate creation mode).store
    let deleted := created.mutate (.delete creation.target) mode
    UndoneUnlessCaptured store created creation.target log deleted ∧
      (component.kind = .app ∨ component.kind = .channelAlias → store.Undoes log deleted) := by
  intro creation created deleted
  have hmutation : creation.Ordered := hcomponent
  obtain ⟨hcancelled, edited, hstaged⟩ := exists_staged h.committed.ordered hmutation hresult
  obtain ⟨-, hafter⟩ := mutate_of_staged h.committed.ordered hmutation hstaged hcancelled
  rw [hmode, if_neg Bool.false_ne_true] at hafter
  have hadds := adds_of_create h.committed hcomponent hstaged
  have htree := store.committed_commit
    ((hstaged.accepted hmutation).checked h.committed.ordered)
  have hconnect := connect_commit store edited.filed
  have hundone : UndoneUnlessCaptured store created creation.target log deleted := by
    change UndoneUnlessCaptured store (store.mutate creation mode).store creation.target log
      ((store.mutate creation mode).store.mutate (.delete creation.target) mode)
    rw [hafter]
    cases component with
    | app app => exact unlessCaptured_app h hcomponent hstaged hcancelled hmode
    | channel channel =>
      obtain ⟨leaf, hname, hleaf⟩ :=
        exists_created_leaf Channel h hcomponent hstaged rfl fun _ => rfl
      obtain ⟨hscope, hfound⟩ := leafIn?_of_getLeaf hleaf
      have hbound := htree.toChecked.connectedApps_ne_nil_iff hconnect hscope hfound
      exact unlessCaptured_leaf (α := Channel) h hcomponent hstaged hcancelled hmode rfl hleaf
        (hbound.trans (hadds.bound_iff h.committed.toChecked hscope hname))
    | channelType declared =>
      obtain ⟨leaf, hname, hleaf⟩ :=
        exists_created_leaf ChannelType h hcomponent hstaged rfl fun _ => rfl
      obtain ⟨hscope, hfound⟩ := leafIn?_of_getLeaf hleaf
      have htyped := htree.toChecked.connectedChannels_ne_nil_iff hconnect hscope hfound
      exact unlessCaptured_leaf (α := ChannelType) h hcomponent hstaged hcancelled hmode rfl hleaf
        (htyped.trans (hadds.typed_iff h.committed.toChecked hscope hname))
    | channelAlias declared =>
      obtain ⟨leaf, -, hleaf⟩ :=
        exists_created_leaf ChannelAlias h hcomponent hstaged rfl fun _ => rfl
      exact unlessCaptured_leaf (α := ChannelAlias) h hcomponent hstaged hcancelled hmode rfl hleaf
        ⟨fun hne => absurd rfl hne, False.elim⟩
  refine ⟨hundone, fun hkind => hundone.undone (not_captured ?_)⟩
  rwa [Mutation.target_create, Target.kind_ofKind]

theorem creation_undone_billing :
    let store := (Fixture.billingStore .unary).1
    let creation := Mutation.create "billing.printer" (.channel Fixture.invoices)
    let created := (store.mutate creation {}).store
    let deleted := created.mutate (.delete creation.target) {}
    let log : Changelog := [⟨.created .channel, "billing.printer.invoices", .none⟩]
    let aliasing := Mutation.create "" (.channelAlias (.named "bills" "billing.invoices"))
    let aliased := (store.mutate aliasing {}).store
    let log' : Changelog := [⟨.created .channelAlias, "bills", .none⟩]
    ((store.mutate creation {}).result = .ok log ∧
      deleted.result =
        .error (.inUse .channel "billing.printer.invoices" ["billing.printer"]) ∧
      Captured store.tree created.tree creation.target ∧
      UndoneUnlessCaptured store created creation.target log deleted) ∧
    (store.mutate aliasing {}).result = .ok log' ∧ aliased.tree ≠ store.tree ∧
      store.Undoes log' (aliased.mutate (.delete aliasing.target) {}) := by
  intro store creation created deleted log aliasing aliased log'
  have hstore : Reachable store := reachable_billing .unary
  have hresult : (store.mutate creation {}).result = .ok log := by decide +kernel
  have hrefused : deleted.result =
      .error (.inUse .channel "billing.printer.invoices" ["billing.printer"]) := by decide +kernel
  have hcomponent : (Component.channel Fixture.invoices).Ordered := Dict.ordered_empty
  obtain ⟨hundone, -⟩ := hstore.creation_undone hcomponent rfl hresult
  have hcaptured : Captured store.tree created.tree creation.target := by
    by_contra hfree
    have hdeleted := (hundone.undone hfree).result
    rw [hrefused] at hdeleted
    exact nomatch hdeleted
  have haliased : (store.mutate aliasing {}).result = .ok log' := by decide +kernel
  have hchanged : aliased.tree ≠ store.tree := by decide +kernel
  have hcomponent' : (Component.channelAlias (.named "bills" "billing.invoices")).Ordered :=
    Dict.ordered_empty
  obtain ⟨-, hundoes⟩ := hstore.creation_undone hcomponent' rfl haliased
  exact ⟨⟨hresult, hrefused, hcaptured, hundone⟩, haliased, hchanged, hundoes (.inr rfl)⟩

end Store

end AppTopology
