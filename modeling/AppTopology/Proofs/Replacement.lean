import AppTopology.Proofs.Detached
import AppTopology.Proofs.Listing
import AppTopology.Proofs.Submission

/-!
To change a child of an app comes to the same as to make the change in a copy of the app and to
update the whole app by this copy.
-/

namespace AppTopology

namespace App

variable {tree app other : App}

def GiveSame (app other : App) : Prop :=
  ∀ p, (app.entity? p).map (Entity.given p) = (other.entity? p).map (Entity.given p)

namespace GiveSame

variable {p : Position}

theorem exists_entity {entity : Entity} (h : GiveSame app other)
    (hentity : other.entity? p = some entity) :
    ∃ same, app.entity? p = some same ∧ same.given p = entity.given p := by
  have hgiven := h p
  rwa [hentity, Option.map_some, Option.map_eq_some_iff] at hgiven

theorem declared (h : GiveSame app other) (happ : app.Ordered) (hother : other.Ordered) :
    app.declared = other.declared := by
  apply ext_entity? happ.declared hother.declared
  intro p
  have hfst := congrArg (Option.map Prod.fst) (h p)
  rw [Option.map_map, Option.map_map] at hfst
  rw [entity?_declared, entity?_declared]
  exact hfst

theorem fits (h : GiveSame app other)
    (hfits : ∀ p info, app.info? p = some info → info.FitsAt p) (p : Position) (info : Metadata)
    (hinfo : other.info? p = some info) : info.FitsAt p := by
  rw [info?_eq, Option.map_eq_some_iff] at hinfo
  obtain ⟨entity, hentity, rfl⟩ := hinfo
  obtain ⟨same, hsame, hgiven⟩ := h.exists_entity hentity
  have hfit : same.info.FitsAt p := by
    apply hfits
    rw [info?_eq, hsame]
    rfl
  rwa [Entity.fitsAt_iff, ← hgiven, ← Entity.fitsAt_iff]

theorem uuid_eq (happ : tree.Carries app) (hother : tree.Carries other) {entity same : Entity}
    (hentity : app.entity? p = some entity) (hsame : other.entity? p = some same) :
    entity.info.uuid = same.info.uuid := by
  rw [happ p entity.info (by rw [info?_eq, hentity]; rfl),
    hother p same.info (by rw [info?_eq, hsame]; rfl)]

theorem detached_filed (h : GiveSame app other) (happ : app.Ordered) (hother : other.Ordered)
    (hcarries : tree.Carries app) (hcarries' : tree.Carries other) :
    app.filed.detached = other.filed.detached := by
  apply detached_eq happ.filed hother.filed
  intro p
  rw [filed, filed, entity?_mapInfo, entity?_mapInfo]
  cases hentity : other.entity? p with
  | none =>
    have hnone := h p
    rw [hentity, Option.map_none, Option.map_eq_none_iff] at hnone
    rw [hnone]
  | some entity =>
    obtain ⟨same, hsame, hgiven⟩ := h.exists_entity hentity
    have hdeclared : same.declared = entity.declared := congrArg Prod.fst hgiven
    have hinfo : same.info.filedAt "" p = entity.info.filedAt "" p := by
      apply Metadata.filedAt_congr _ (uuid_eq hcarries hcarries' hsame hentity)
      rw [← Entity.info_declared, hdeclared, Entity.info_declared]
    rw [hsame, Option.map_some, Option.map_some, Option.map_some, Option.map_some,
      Entity.detached_mapInfo, Entity.detached_mapInfo, hdeclared, hinfo]

theorem alike (h : GiveSame app other) (happ : app.Ordered) (hother : other.Ordered)
    (hcarries : tree.Carries app) (hcarries' : tree.Carries other) :
    Diff.Alike (some tree) (some app) (some other) := by
  constructor
  · rw [Option.map_some, Option.map_some, h.declared happ hother]
  · intro p u u' _ hu hu'
    rw [hcarries.uuid? hu, hcarries'.uuid? hu']

end GiveSame

end App

namespace Store

variable {store : Store} {mutation mutation' : Mutation} {log : Changelog}
variable {edited edited' : App}

theorem Staged.congr (hstore : store.tree.Committed) (hmutation : mutation.Ordered)
    (hmutation' : mutation'.Ordered) (h : Staged store mutation edited log)
    (hedit : (mutation'.route store.registry).edit store.tree = .ok edited')
    (hsame : edited.GiveSame edited')
    (hlog : edited'.filed.Checked →
      ∃ log', mutation'.target.changes store.tree edited'.filed = .ok log') :
    Staged store mutation' edited' log ∧
      store.commit edited.filed = store.commit edited'.filed := by
  have haccepted := h.accepted hmutation
  have hedited := haccepted.edit
  have hedited' := edited_of_edit hmutation' hedit
  have hordered := hedited.ordered hstore.ordered
  have hordered' := hedited'.ordered hstore.ordered
  have hfiled := hsame.detached_filed hordered hordered' hedited.carries hedited'.carries
  have hvalid : edited'.filed.validate = .ok () := by
    rw [← App.validate_detached, ← hfiled, App.validate_detached, h.valid]
  have hchecked : edited'.filed.Checked := ⟨hordered'.filed, edited'.filed_filed, hvalid⟩
  obtain ⟨log', hlog⟩ := hlog hchecked
  have hrecords :=
    subtree_of_edited hstore.toChecked (haccepted.checked hstore.ordered) hedited h.log
  have hrecords' := subtree_of_edited hstore.toChecked hchecked hedited' hlog
  rw [Diff.subtree_congr (hsame.alike hordered hordered' hedited.carries hedited'.carries),
    hrecords', Except.ok.injEq] at hrecords
  subst hrecords
  refine ⟨⟨hedit, hsame.fits h.fits, hvalid, hlog⟩, ?_⟩
  rw [← store.commit_detached, hfiled, store.commit_detached]

end Store

def Position.below (place : List String) (p : Position) : Position := ⟨place ++ p.place, p.item⟩

namespace Position

variable {place : List String} {p : Position}

theorem after_below (place rest : List String) (p : Position) :
    (p.below place).after (place ++ rest) = p.after rest := by
  simp [below, after]

theorem after_below_self (place : List String) (p : Position) :
    (p.below place).after place = p := by
  simp [below, after]

theorem exists_below (h : place <+: p.place) : ∃ q : Position, p = q.below place := by
  obtain ⟨place', item⟩ := p
  obtain ⟨rest, rfl⟩ := h
  exact ⟨⟨rest, item⟩, rfl⟩

end Position

namespace Target

def owner : Target → String
  | channelType scope _ | channel scope _ | channelAlias scope _ => scope
  | app path => Scope.parent path

def key : Target → String
  | channelType _ name | channel _ name | channelAlias _ name => name
  | app path => Scope.leaf path

def IsChild : Target → Prop
  | channelType scope _ | channel scope _ | channelAlias scope _ => Scope.isScope scope
  | app path => Scope.isScope path ∧ path ≠ ""

def dropFrom (copy : App) : Target → App
  | channelType _ name => copy.dropLeaf ChannelType name
  | channel _ name => copy.dropLeaf Channel name
  | app path => copy.dropChild (Scope.leaf path)
  | channelAlias _ name => copy.dropLeaf ChannelAlias name

end Target

def Component.putInto (copy : App) (name : String) : Component → App
  | channelType declared => copy.putLeaf name declared
  | channel declared => copy.putLeaf name declared
  | app declared => copy.putChild name declared
  | channelAlias declared => copy.putLeaf name declared

/-- The change of a mutation made in a copy of the app that has the target as a child. -/
def Mutation.editCopy (copy : App) (mutation : Mutation) : App :=
  match mutation with
  | create _ component | update _ component => component.putInto copy mutation.target.key
  | delete target => target.dropFrom copy

namespace Target

variable {α : Type} [Leaf α] [LawfulLeaf α] {target : Target} {scope name path : String}
variable {p : Position}

theorem owner_ofKind (α : Type) [Leaf α] [LawfulLeaf α] (scope name : String) :
    (Target.ofKind (Leaf.kind α) scope name).owner = scope := by
  apply LawfulLeaf.elim (α := α) fun β _ => (Target.ofKind (Leaf.kind β) scope name).owner = scope
  all_goals rfl

theorem isChild_ofKind (α : Type) [Leaf α] [LawfulLeaf α] (hscope : Scope.isScope scope) :
    (Target.ofKind (Leaf.kind α) scope name).IsChild := by
  apply LawfulLeaf.elim (α := α) fun β _ => (Target.ofKind (Leaf.kind β) scope name).IsChild
  all_goals exact hscope

theorem IsChild.isScope_owner (h : target.IsChild) : Scope.isScope target.owner := by
  cases target with
  | app path => exact Scope.isScope_parent h.1 h.2
  | channelType | channel | channelAlias => exact h

theorem covers_below_ofKind (α : Type) [Leaf α] [LawfulLeaf α] :
    (Target.ofKind (Leaf.kind α) scope name).Covers (p.below (Scope.names scope)) ↔
      p = ⟨[], .ofKind (Leaf.kind α) name⟩ := by
  obtain ⟨place, item⟩ := p
  simp only [covers_ofKind, Position.below, Position.mk.injEq, List.append_right_eq_self]

theorem IsChild.covers_below (h : (Target.app path).IsChild) :
    (Target.app path).Covers (p.below (Scope.names (Scope.parent path))) ↔
      [Scope.leaf path] <+: p.place := by
  rw [Covers, Scope.names_parent h.1 h.2, Position.below, List.prefix_append_right_inj]

theorem IsChild.owner_prefix (h : target.IsChild) (hp : target.Covers p) :
    Scope.names target.owner <+: p.place := by
  cases target with
  | app path =>
    rw [Covers, Scope.names_parent h.1 h.2] at hp
    exact (List.prefix_append _ _).trans hp
  | channelType | channel | channelAlias =>
    rw [hp]
    exact List.prefix_rfl

end Target

namespace Edited

variable {root next : App} {target : Target}

theorem isChild (h : Edited root target next) (hne : target ≠ .app "") : target.IsChild := by
  cases h with
  | replace hpath => exact ⟨hpath, fun heq => hne (congrArg Target.app heq)⟩
  | putChild hscope hname | dropChild hscope hname =>
    refine ⟨Scope.isScope_child hscope hname, fun heq => ?_⟩
    exact Scope.isName_ne_empty hname (Scope.child_eq_empty.mp heq).2
  | putLeaf α hscope | dropLeaf α hscope => exact Target.isChild_ofKind α hscope

theorem exists_owner (h : Edited root target next) (hne : target ≠ .app "") :
    ∃ copy, root.find? target.owner = some copy := by
  cases h with
  | @replace path old app next hpath _ hold _ =>
    have hpath' : path ≠ "" := fun heq => hne (congrArg Target.app heq)
    obtain ⟨copy, hcopy, -⟩ := App.exists_find?_parent hpath hpath' hold
    exact ⟨copy, hcopy⟩
  | putChild hscope hname _ hparent | dropChild hscope hname hparent =>
    rw [Target.owner, Scope.parent_child hscope hname]
    exact ⟨_, hparent⟩
  | putLeaf α _ _ _ hparent | dropLeaf α _ hparent =>
    rw [Target.owner_ofKind]
    exact ⟨_, hparent⟩

end Edited

namespace App

variable {α : Type} [Leaf α] [LawfulLeaf α] {embed : α → Entity} {path : String}

theorem entity?_putLeaf_below (h : Embeds α embed) (copy : App) (scope name : String) (leaf : α)
    (p : Position) : (copy.putLeaf name leaf).entity? p =
      if (Target.ofKind (Leaf.kind α) scope name).Covers (p.below (Scope.names scope))
        then some (embed leaf) else copy.entity? p := by
  rw [entity?_putLeaf h]
  exact if_congr (Target.covers_below_ofKind α).symm rfl rfl

theorem entity?_dropLeaf_below (α : Type) [Leaf α] [LawfulLeaf α] (copy : App)
    (scope name : String) (p : Position) : (copy.dropLeaf α name).entity? p =
      if (Target.ofKind (Leaf.kind α) scope name).Covers (p.below (Scope.names scope))
        then none else copy.entity? p := by
  rw [entity?_dropLeaf]
  exact if_congr (Target.covers_below_ofKind α).symm rfl rfl

theorem entity?_putChild_below (h : (Target.app path).IsChild) (copy child : App) (p : Position) :
    (copy.putChild (Scope.leaf path) child).entity? p =
      if (Target.app path).Covers (p.below (Scope.names (Scope.parent path)))
        then child.entity? ((p.below (Scope.names (Scope.parent path))).after (Scope.names path))
        else copy.entity? p := by
  rw [entity?_putChild, Scope.names_parent h.1 h.2, Position.after_below]
  exact if_congr h.covers_below.symm rfl rfl

theorem entity?_dropChild_below (h : (Target.app path).IsChild) (copy : App) (p : Position) :
    (copy.dropChild (Scope.leaf path)).entity? p =
      if (Target.app path).Covers (p.below (Scope.names (Scope.parent path)))
        then none else copy.entity? p := by
  rw [entity?_dropChild]
  exact if_congr h.covers_below.symm rfl rfl

end App

theorem Mutation.entity?_editCopy {mutation : Mutation} (h : mutation.target.IsChild) (copy : App)
    (p : Position) :
    let below := p.below (Scope.names mutation.target.owner)
    (mutation.editCopy copy).entity? p =
      if mutation.target.Covers below then mutation.submitted below else copy.entity? p := by
  intro below
  cases mutation with
  | create scope component | update scope component =>
    cases component with
    | channelType declared => exact copy.entity?_putLeaf_below embeds_channelType scope _ declared p
    | channel channel => exact copy.entity?_putLeaf_below embeds_channel scope _ channel p
    | app app => exact App.entity?_putChild_below h copy app p
    | channelAlias declared =>
      exact copy.entity?_putLeaf_below embeds_channelAlias scope _ declared p
  | delete target =>
    cases target with
    | channelType scope name => exact copy.entity?_dropLeaf_below ChannelType scope name p
    | channel scope name => exact copy.entity?_dropLeaf_below Channel scope name p
    | app path => exact App.entity?_dropChild_below h copy p
    | channelAlias scope name => exact copy.entity?_dropLeaf_below ChannelAlias scope name p

theorem Mutation.info_editCopy (copy : App) (mutation : Mutation) :
    (mutation.editCopy copy).info = copy.info := by
  cases mutation with
  | create scope component | update scope component => cases component <;> rfl
  | delete target => cases target <;> rfl

theorem Mutation.ordered_editCopy {mutation : Mutation} {copy : App} (hmutation : mutation.Ordered)
    (hcopy : copy.Ordered) : (mutation.editCopy copy).Ordered := by
  cases mutation with
  | create scope component | update scope component =>
    cases component with
    | app app => exact hcopy.putChild hmutation _
    | channelType declared | channel declared | channelAlias declared =>
      have hleaf : (Leaf.info declared).Ordered := hmutation
      exact hcopy.putLeaf hleaf _
  | delete target =>
    cases target with
    | app path => exact hcopy.dropChild _
    | channelType | channel | channelAlias => exact hcopy.dropLeaf _

/-- To choose brokers again changes no channel of the copy, the target apart. -/
def Registry.Settled (registry : Registry) (target : Target) (copy : App) : Prop :=
  ∀ (p : Position) channel, ¬ target.Covers (p.below (Scope.names target.owner)) →
    copy.entity? p = some (.channel channel) → registry.route channel = channel

theorem Registry.settled_of_isEmpty {registry : Registry} (h : registry.isEmpty) (target : Target)
    (copy : App) : registry.Settled target copy :=
  fun _ channel _ _ => route_of_isEmpty h channel

namespace App

variable {root app old : App} {path : String}

theorem exists_updateApp (hpath : Scope.isScope path) (hold : root.find? path = some old)
    (hname : app.info.name = Scope.leaf path) : ∃ next, root.updateApp path app = .ok next := by
  obtain ⟨next, hmodify⟩ := exists_modifyAt? hold fun _ =>
    (app.withInfo { app.info with name := Scope.leaf path }).succeed (some old)
  exact ⟨next, updateApp_eq_ok.mpr ⟨hpath, .inr hname, old, hold, hmodify⟩⟩

end App

section

variable {root edited edited' copy : App} {mutation : Mutation} {registry : Registry}

theorem Registry.Settled.routeEntity {target : Target} {p : Position}
    (h : registry.Settled target copy)
    (hp : ¬ target.Covers (p.below (Scope.names target.owner))) :
    (copy.entity? p).map registry.routeEntity = copy.entity? p := by
  cases hentity : copy.entity? p with
  | none => rfl
  | some entity =>
    cases entity with
    | channel channel =>
      rw [Option.map_some, Registry.routeEntity, h p channel hp hentity]
    | app | channelType | channelAlias => rfl

theorem Mutation.submitted_update_app (scope : String) (app : App) (p : Position) :
    (Mutation.update scope (.app app)).submitted (p.below (Scope.names scope)) = app.entity? p :=
  congrArg app.entity? (p.after_below_self (Scope.names scope))

theorem Mutation.giveSame_editCopy (hchild : mutation.target.IsChild)
    (hcopy : root.find? mutation.target.owner = some copy)
    (hsettled : registry.Settled mutation.target copy)
    (hedited : Edited root mutation.target edited)
    (hedit : (mutation.route registry).edit root = .ok edited)
    (hedited' : Edited root (.app mutation.target.owner) edited')
    (hedit' : ((Mutation.update mutation.target.owner (.app (mutation.editCopy copy))).route
      registry).edit root = .ok edited') : edited.GiveSame edited' := by
  intro p
  by_cases hinside : Scope.names mutation.target.owner <+: p.place
  · obtain ⟨q, rfl⟩ := Position.exists_below hinside
    have hgiven' := Mutation.given_of_edit hedit' (by rwa [Mutation.target_route])
    rw [Mutation.submitted_route, Mutation.submitted_update_app,
      Mutation.entity?_editCopy hchild] at hgiven'
    rw [hgiven']
    split
    · next hp =>
      rw [← Mutation.submitted_route]
      exact Mutation.given_of_edit hedit (by rwa [Mutation.target_route])
    · next hp =>
      have hfound := root.entity?_append (Scope.names mutation.target.owner) q.place q.item
      rw [← App.find?, hcopy] at hfound
      rw [hsettled.routeEntity hp, hedited.entity?_eq hp, Position.below, hfound]
      rfl
  · rw [hedited'.entity?_eq hinside, hedited.entity?_eq fun hp => hinside (hchild.owner_prefix hp)]

end

namespace Store

variable {store : Store} {mutation : Mutation} {mode : Mode} {log : Changelog}

/-- A child of an app is changed as in a copy of the app by which the whole app is then updated. -/
theorem Reachable.replacement_agrees (h : Reachable store) (hmutation : mutation.Ordered)
    (hne : mutation.target ≠ .app "") (hresult : (store.mutate mutation mode).result = .ok log) :
    ∃ copy, (store.getApp false mutation.target.owner).result = .ok copy ∧
      (store.registry.Settled mutation.target copy →
        let replaced := store.mutate
          (.update mutation.target.owner (.app (mutation.editCopy copy))) mode
        replaced.result = .ok log ∧ replaced.store = (store.mutate mutation mode).store) := by
  have hstore := h.committed
  obtain ⟨hcancelled, edited, hstaged⟩ := exists_staged hstore.ordered hmutation hresult
  have hedited := (hstaged.accepted hmutation).edit
  have hchild := hedited.isChild hne
  have hscope := hchild.isScope_owner
  obtain ⟨copy, hcopy⟩ := hedited.exists_owner hne
  refine ⟨copy, getApp_eq_ok.mpr ⟨hscope, hcopy⟩, ?_⟩
  intro hsettled replaced
  have hmutation' : (Mutation.update mutation.target.owner
      (.app (mutation.editCopy copy))).Ordered :=
    Mutation.ordered_editCopy hmutation (hstore.ordered.at? hcopy)
  have hname : (store.registry.routeApp (mutation.editCopy copy)).info.name =
      Scope.leaf mutation.target.owner := by
    rw [Registry.info_routeApp, Mutation.info_editCopy, hstore.name_of_find? hscope hcopy]
  obtain ⟨edited', hedit'⟩ := App.exists_updateApp hscope hcopy hname
  have hedited' := edited_of_edit hmutation' hedit'
  have hsame :=
    Mutation.giveSame_editCopy hchild hcopy hsettled hedited hstaged.edit hedited' hedit'
  obtain ⟨hstaged', hcommit⟩ := hstaged.congr hstore hmutation hmutation' hedit' hsame
    fun hchecked => by
      obtain ⟨positions, -, hlog⟩ :=
        Diff.trees_listed (hstore.rooted hscope) (hchecked.rooted hscope)
      exact ⟨_, hlog⟩
  obtain ⟨-, hafter⟩ := mutate_of_staged hstore.ordered hmutation hstaged hcancelled
  obtain ⟨hresult', hafter'⟩ := mutate_of_staged hstore.ordered hmutation' hstaged' hcancelled
  exact ⟨hresult', by rw [hafter', hafter, hcommit]⟩

theorem replacement_agrees_billing :
    let created := ((Store.empty {} .unary).mutate (.create "" (.app Fixture.billing)) {}).store
    let mutation : Mutation :=
      .update "billing" (.channel (Fixture.invoices.withPriority ["kafka"]))
    let log : Changelog := [⟨.updated .channel, "billing.invoices",
      .field "Spec.BrokerPriorityList" (some "") (some "kafka")⟩]
    (created.mutate mutation {}).result = .ok log ∧
      ∃ copy, (created.getApp false "billing").result = .ok copy ∧
        let replaced := created.mutate (.update "billing" (.app (mutation.editCopy copy))) {}
        replaced.result = .ok log ∧ replaced.store = (created.mutate mutation {}).store := by
  intro created mutation log
  have hbilling : Fixture.billing.Ordered := by decide +kernel
  have hcall : Call.Ordered (.mutate (.create "" (.app Fixture.billing)) {}) := hbilling
  have hcreated : Reachable created := .after (.empty {} .unary) hcall
  have hresult : (created.mutate mutation {}).result = .ok log := by decide +kernel
  have hmutation : mutation.Ordered := Dict.ordered_empty
  obtain ⟨copy, hcopy, hreplaced⟩ := hcreated.replacement_agrees hmutation (by decide) hresult
  have hempty : created.registry.isEmpty := by decide +kernel
  exact ⟨hresult, copy, hcopy, hreplaced (Registry.settled_of_isEmpty hempty _ _)⟩

end Store

end AppTopology
