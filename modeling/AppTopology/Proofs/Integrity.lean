import AppTopology.Proofs.Comparison
import AppTopology.Proofs.References

namespace AppTopology

def TopologyError.IsExternal (error : TopologyError) : Prop := error.kind ≠ .internal

instance (error : TopologyError) : Decidable error.IsExternal :=
  inferInstanceAs (Decidable (_ ≠ _))

abbrev Safe {α : Type} (x : Except TopologyError α) : Prop :=
  Check.FailsWith TopologyError.IsExternal x

theorem TopologyError.isExternal_of_isValidation {error : TopologyError}
    (h : error.isValidation = true) : error.IsExternal := by
  intro hinternal
  rw [isValidation, hinternal] at h
  exact nomatch h

namespace Scope

variable {scope name : String}

theorem safe_checkName (name : String) : Safe (checkName name) :=
  .ite (fun _ => .ok ()) fun _ => .error nofun

theorem safe_checkRequest (scope : String) : Safe (checkRequest scope) :=
  .ite (fun _ => .ok ()) fun _ => .error nofun

theorem safe_check (scope : String) : Safe (check scope) :=
  .ite (fun _ => .ok ()) fun _ => .error nofun

theorem safe_append (scope name : String) : Safe (append scope name) :=
  .bind (safe_check scope) fun _ => .bind (safe_check name) fun _ => .ok _

end Scope

namespace App

variable {α : Type} [Leaf α] {root app parent : App} {scope name path : String} {leaf : α}

theorem safe_adopt (info : Metadata) (key scope : String) : Safe (info.adopt key scope) :=
  .ite (fun _ => .ok _) fun _ => .error nofun

theorem safe_adoptShelf (scope : String) (shelf : Dict α) : Safe (adoptShelf scope shelf) := by
  refine .bind (.mapM fun entry _ => ?_) fun _ => .ok _
  exact .bind (safe_adopt _ _ _) fun _ => .ok _

theorem safe_adoptLeaves (scope : String) (own : App.Own) : Safe (adoptLeaves scope own) :=
  .bind (safe_adoptShelf scope own.channels) fun _ =>
    .bind (safe_adoptShelf scope own.types) fun _ =>
      .bind (safe_adoptShelf scope own.aliases) fun _ => .ok _

theorem safe_adoptChildren {children : List (String × App)}
    (h : ∀ key child, (key, child) ∈ children → ∀ path, Safe (child.adoptBelow path))
    (path : String) : Safe (adoptChildren path children) := by
  induction children with
  | nil => exact .ok []
  | cons entry rest ih =>
    refine .bind (safe_adopt _ _ _) fun _ => .bind (h _ _ List.mem_cons_self _) fun _ => ?_
    exact .bind (ih fun key child hmem => h key child (List.mem_cons_of_mem _ hmem)) fun _ => .ok _

theorem safe_adoptBelow (app : App) (path : String) : Safe (app.adoptBelow path) := by
  induction app using App.induction generalizing path with
  | node own apps ih =>
    obtain ⟨children⟩ := apps
    rw [adoptBelow]
    exact .bind (safe_adoptChildren ih path) fun _ =>
      .bind (safe_adoptLeaves path own) fun _ => .ok _

theorem safe_normalize (root : App) : Safe root.normalize :=
  .ite (fun _ => .error nofun) fun _ => safe_adoptBelow _ _

theorem safe_validateAt (root : App) (path : String) (app : App) :
    Safe (validateAt root path app) := by
  induction app using App.induction generalizing path with
  | node own apps ih =>
    obtain ⟨children⟩ := apps
    obtain ⟨hown, hchannel, htype, halias⟩ := own.failsWith_isValidation root path
    have hchildren : Safe (validateAll root path children) :=
      failsWith_validateAll fun key child hmem => ih key child hmem _
    rw [validateAt]
    refine .bind (hown.imp fun _ => TopologyError.isExternal_of_isValidation) fun _ =>
      .bind hchildren fun _ => ?_
    refine .bind (.forM fun entry hentry => ?_) fun _ =>
      .bind (.forM fun entry hentry => ?_) fun _ => .forM fun entry hentry => ?_
    · exact (hchannel entry hentry).imp fun _ => TopologyError.isExternal_of_isValidation
    · exact (htype entry hentry).imp fun _ => TopologyError.isExternal_of_isValidation
    · exact (halias entry hentry).imp fun _ => TopologyError.isExternal_of_isValidation

theorem safe_require (root : App) (scope : String) : Safe (root.require scope) := by
  unfold require
  split
  · exact .ok _
  · exact .error nofun

theorem safe_requireLeaf (α : Type) [Leaf α] (root : App) (scope name : String) :
    Safe (root.requireLeaf α scope name) := by
  refine .bind (safe_require root scope) fun app => ?_
  cases app.own.leaf? α name with
  | none => exact .error nofun
  | some leaf => exact .ok leaf

theorem safe_stage (happ : root.find? scope = some app) (edit : App → App) :
    Safe (root.stage scope edit) := by
  obtain ⟨next, hnext⟩ := exists_modifyAt? happ edit
  exact .of_eq_ok (stage_eq_ok.mpr hnext)

theorem safe_createApp (root : App) (scope : String) (app : App) :
    Safe (root.createApp scope app) := by
  refine .bind (Scope.safe_checkRequest scope) fun _ => ?_
  refine .bind_of_ok (safe_require root scope) fun parent hparent => ?_
  refine .ite (fun _ => .error nofun) fun _ => .bind (Scope.safe_checkName _) fun _ => ?_
  exact safe_stage (require_eq_ok.mp hparent) _

theorem safe_updateApp (root : App) (scope : String) (app : App) :
    Safe (root.updateApp scope app) := by
  refine .bind (Scope.safe_checkRequest scope) fun _ => ?_
  refine .bind_of_ok (safe_require root scope) fun existing hexisting => ?_
  exact .ite (fun _ => .error nofun) fun _ => safe_stage (require_eq_ok.mp hexisting) _

theorem safe_deleteApp (root : App) (path : String) : Safe (root.deleteApp path) := by
  refine .bind_of_ok (Scope.safe_checkRequest path) fun _ hpath => ?_
  refine .ite (fun _ => .error nofun) fun hne => ?_
  refine .bind_of_ok (safe_require root path) fun app happ => ?_
  have hscope := Scope.checkRequest_eq_ok.mp hpath
  obtain ⟨parent, hparent, -⟩ := exists_find?_parent hscope hne (require_eq_ok.mp happ)
  exact safe_stage hparent _

theorem safe_createLeaf (root : App) (scope : String) (leaf : α) :
    Safe (root.createLeaf scope leaf) := by
  refine .bind (Scope.safe_checkRequest scope) fun _ => ?_
  refine .bind_of_ok (safe_require root scope) fun parent hparent => ?_
  refine .ite (fun _ => .error nofun) fun _ => .bind (Scope.safe_checkName _) fun _ => ?_
  exact safe_stage (require_eq_ok.mp hparent) _

theorem safe_updateLeaf (root : App) (scope : String) (leaf : α) :
    Safe (root.updateLeaf scope leaf) := by
  refine .bind (Scope.safe_checkRequest scope) fun _ => .bind (Scope.safe_checkName _) fun _ => ?_
  refine .bind_of_ok (safe_requireLeaf α root scope _) fun existing hexisting => ?_
  obtain ⟨parent, hparent, -⟩ := requireLeaf_eq_ok.mp hexisting
  exact safe_stage hparent _

theorem safe_deleteLeaf (α : Type) [Leaf α] (root : App) (scope name : String) :
    Safe (root.deleteLeaf α scope name) := by
  refine .bind (Scope.safe_checkRequest scope) fun _ => ?_
  refine .bind_of_ok (safe_requireLeaf α root scope name) fun existing hexisting => ?_
  obtain ⟨parent, hparent, -⟩ := requireLeaf_eq_ok.mp hexisting
  exact .ite (fun _ => .error nofun) fun _ => safe_stage hparent _

end App

theorem Mutation.safe_edit (mutation : Mutation) (root : App) : Safe (mutation.edit root) := by
  cases mutation with
  | create scope component =>
    cases component with
    | app app => exact root.safe_createApp scope app
    | channel leaf | channelType leaf | channelAlias leaf => exact root.safe_createLeaf scope leaf
  | update scope component =>
    cases component with
    | app app => exact root.safe_updateApp scope app
    | channel leaf | channelType leaf | channelAlias leaf => exact root.safe_updateLeaf scope leaf
  | delete target =>
    cases target with
    | app path => exact root.safe_deleteApp path
    | channel scope name => exact App.safe_deleteLeaf Channel root scope name
    | channelType scope name => exact App.safe_deleteLeaf ChannelType root scope name
    | channelAlias scope name => exact App.safe_deleteLeaf ChannelAlias root scope name

namespace Diff

theorem safe_leaves (α : Type) [Leaf α] (path : String) (old new : Option App) :
    Safe (leaves α path old new) :=
  .bind (.mapM fun _ _ => .bind (Scope.safe_append _ _) fun _ => .ok _) fun _ => .ok _

theorem safe_subtree (identity : Bool) (path : String) (old new : Option App) :
    Safe (subtree identity path old new) := by
  induction old, new using subtree_induction generalizing identity path with
  | step old new ih =>
    rw [subtree_eq]
    refine .bind (.mapM fun key hkey => ?_) fun _ => .bind (safe_leaves _ _ _ _) fun _ =>
      .bind (safe_leaves _ _ _ _) fun _ => .bind (safe_leaves _ _ _ _) fun _ => .ok _
    exact .bind (Scope.safe_append _ _) fun _ => ih key (Dict.mem_keyUnion.mp hkey) _ _

theorem safe_trees (old new : Option App) : Safe (trees old new) := by
  have hpath (app : App) : Safe (do subtree false (← app.info.path) old new) :=
    .bind (Scope.safe_append _ _) fun _ => safe_subtree _ _ _ _
  cases new with
  | some app => cases old <;> exact hpath app
  | none =>
    cases old with
    | none => exact .ok []
    | some app => exact hpath app

end Diff

theorem Target.safe_changes (target : Target) (old new : App) :
    Safe (target.changes old new) := by
  have hleaf (α : Type) [Leaf α] (scope name : String) :
      Safe (leafChanges α scope name old new) :=
    .bind (Scope.safe_append _ _) fun _ => .ok _
  cases target with
  | app path => exact Diff.safe_trees _ _
  | channel scope name | channelType scope name | channelAlias scope name =>
    exact hleaf _ scope name

theorem App.safe_settle (committed staged : App) (target : Target) :
    Safe (committed.settle staged target) :=
  .bind (safe_normalize staged) fun staged => .bind (safe_validateAt staged "" staged) fun _ =>
    .bind (target.safe_changes committed staged) fun _ => .ok _

theorem Outcome.safe_andThen {α β : Type} {outcome : Outcome α} {next : α → Store → Outcome β}
    (h : Safe outcome.result) (hnext : ∀ value store, Safe (next value store).result) :
    Safe (outcome.andThen next).result := by
  unfold andThen
  cases hresult : outcome.result with
  | error error => exact .error (h error hresult)
  | ok value => exact hnext value outcome.store

namespace Store

variable {α : Type} {store : Store}

theorem safe_mutate (store : Store) (mutation : Mutation) (mode : Mode) :
    Safe (store.mutate mutation mode).result := by
  change Safe (if mode.cancelled then _ else store.attempt mutation mode.dryRun : Outcome _).result
  split
  · exact .error nofun
  · unfold attempt
    cases hedit : (mutation.route store.registry).edit store.tree with
    | error error => exact .error (Mutation.safe_edit _ _ error hedit)
    | ok staged =>
      dsimp only
      cases hsettle : store.tree.settle staged mutation.target with
      | error error => exact .error (App.safe_settle _ _ _ error hsettle)
      | ok settled =>
        dsimp only
        split <;> exact .ok _

theorem safe_read (store : Store) (cancelled : Bool) (scope : String)
    {query : App → Except TopologyError α}
    (h : Scope.isScope scope → Safe (query store.tree)) :
    Safe (store.read cancelled scope query).result := by
  unfold read
  cases hrequest : Scope.checkRequest scope with
  | error error => exact .error (Scope.safe_checkRequest scope error hrequest)
  | ok u =>
    cases cancelled with
    | true => exact .error nofun
    | false => exact h (Scope.checkRequest_eq_ok.mp hrequest)

theorem safe_getApp (store : Store) (cancelled : Bool) (scope : String) :
    Safe (store.getApp cancelled scope).result :=
  safe_read store cancelled scope fun _ => App.safe_require _ scope

theorem safe_getLeaf (α : Type) [Leaf α] (store : Store) (cancelled : Bool)
    (scope name : String) : Safe (store.getLeaf α cancelled scope name).result :=
  safe_read store cancelled scope fun _ => App.safe_requireLeaf α _ scope name

theorem safe_resolveBroker (store : Store) (cancelled : Bool) (scope name : String) :
    Safe (store.resolveBroker cancelled scope name).result := by
  unfold resolveBroker
  dsimp only
  cases hfound : (store.getLeaf Channel cancelled scope name).result with
  | error error => exact .error (safe_getLeaf Channel store cancelled scope name error hfound)
  | ok channel =>
    dsimp only
    split
    · exact .error nofun
    · exact .ok _

theorem safe_createOrUpdate {lookup : Outcome α} (h : Safe lookup.result)
    (component : Component) (scope : String) (mode : Mode) :
    Safe (createOrUpdate lookup component scope mode).result := by
  have hfound : Safe (found lookup).result := by
    unfold found
    cases hresult : lookup.result with
    | error error => exact .ite (fun _ => .ok false) fun _ => .error (h error hresult)
    | ok value => exact .ok true
  exact Outcome.safe_andThen hfound fun _ store =>
    Outcome.safe_andThen (safe_mutate store _ mode) fun _ _ => .ok _

theorem safe_applyOne (store : Store) (component : Component) (mode : Mode) :
    Safe (store.applyOne component mode).result := by
  have hput : Safe (store.put component mode).result := by
    cases component with
    | app app =>
      unfold put
      dsimp only
      cases hpath : Scope.append (Component.app app).info.parent (Component.app app).info.name with
      | error error => exact .error (Scope.safe_append _ _ error hpath)
      | ok path => exact safe_createOrUpdate (safe_getApp _ _ _) _ _ _
    | channel leaf | channelType leaf | channelAlias leaf =>
      exact safe_createOrUpdate (safe_getLeaf _ _ _ _ _) _ _ _
  exact Outcome.safe_andThen hput fun _ _ => .ok _

theorem safe_applyInOrder (components : List Component) (store : Store) (mode : Mode) :
    Safe (store.applyInOrder mode components).result := by
  induction components generalizing store with
  | nil => exact .ok []
  | cons component rest ih =>
    exact Outcome.safe_andThen (safe_applyOne store component mode) fun _ store =>
      Outcome.safe_andThen (ih store) fun _ _ => .ok _

structure Resolves (root : App) (scope : String) (app : App) (bindings : Dict String) : Prop where
  bound : ∀ name, (bindings.get? name).isSome ↔
    ∃ direction, (direction, name) ∈ app.own.boundary.entries
  channel : ∀ name path, bindings.get? name = some path →
    root.resolveBoundary scope name = some path ∧
      ∃ channel, root.leafAt? Channel path = some channel

theorem read_result {scope : String} (hscope : Scope.isScope scope)
    (query : App → Except TopologyError α) :
    (store.read false scope query).result = query store.tree := by
  rw [read, Scope.checkRequest_eq_ok (u := ()) |>.mpr hscope]
  rfl

theorem exists_bindings (h : store.tree.Checked) {scope : String} {app : App}
    (hscope : Scope.isScope scope) (happ : store.tree.find? scope = some app) :
    ∃ bindings, (store.resolveBoundary false scope).result = .ok bindings ∧
      Resolves store.tree scope app bindings := by
  have hvalid := h.valid_at hscope happ
  let target (name : String) : String := (store.tree.resolveBoundary scope name).getD ""
  have htarget (direction : Direction) (name : String)
      (hbound : (direction, name) ∈ app.own.boundary.entries) :
      store.tree.resolveBoundary scope name = some (target name) := by
    obtain ⟨path, hpath⟩ := Option.isSome_iff_exists.mp (hvalid.boundary direction name hbound)
    simp only [target, hpath, Option.getD_some]
  let names := app.own.boundary.entries.map Prod.snd
  have hnames (name : String) :
      name ∈ names ↔ ∃ direction, (direction, name) ∈ app.own.boundary.entries := by
    simp [names]
  have hget (name : String) : (Dict.ofList (names.map fun name => (name, target name))).get? name =
      if name ∈ names then some (target name) else none :=
    Dict.get?_ofList_map names target name
  refine ⟨Dict.ofList (names.map fun name => (name, target name)), ?_, ?_, ?_⟩
  · rw [resolveBoundary, read_result hscope]
    refine Check.bind_eq_ok.mpr ⟨app, App.require_eq_ok.mpr happ, ?_⟩
    refine Check.bind_eq_ok.mpr
      ⟨_, Check.mapM_ok (g := fun entry => (entry.2, target entry.2)) ?_, ?_⟩
    · rintro ⟨direction, name⟩ hbound
      dsimp only
      rw [htarget direction name hbound]
    · rw [List.map_map]
      rfl
  · intro name
    rw [hget, ← hnames, Option.isSome_ite]
  · intro name path hpath
    rw [hget, Option.ite_none_right_eq_some] at hpath
    obtain ⟨hname, hpath⟩ := hpath
    obtain ⟨direction, hbound⟩ := (hnames name).mp hname
    obtain rfl := Option.some.inj hpath
    have hleads := htarget direction name hbound
    exact ⟨hleads, h.resolveBoundary hscope hleads⟩

theorem safe_resolveBoundary (h : store.tree.Checked) (cancelled : Bool) (scope : String) :
    Safe (store.resolveBoundary cancelled scope).result := by
  refine safe_read store cancelled scope fun hscope => ?_
  refine .bind_of_ok (App.safe_require _ scope) fun app happ => ?_
  obtain ⟨bindings, hresult, -⟩ := exists_bindings h hscope (App.require_eq_ok.mp happ)
  rw [resolveBoundary, read_result hscope, happ] at hresult
  exact .of_eq_ok hresult

structure Faultless (store : Store) : Prop where
  mutate : ∀ mutation mode, Safe (store.mutate mutation mode).result
  apply : ∀ components mode, Safe (store.apply components mode).result
  getApp : ∀ cancelled scope, Safe (store.getApp cancelled scope).result
  getLeaf : ∀ (α : Type) [Leaf α] cancelled scope name,
    Safe (store.getLeaf α cancelled scope name).result
  resolveBroker : ∀ cancelled scope name, Safe (store.resolveBroker cancelled scope name).result
  resolveBoundary : ∀ cancelled scope, Safe (store.resolveBoundary cancelled scope).result

theorem Reachable.never_internal (h : Reachable store) : store.Faultless ∧
    ∀ scope app, Scope.isScope scope → store.tree.find? scope = some app →
      ∃ bindings, (store.resolveBoundary false scope).result = .ok bindings ∧
        Resolves store.tree scope app bindings := by
  have hchecked := h.committed.toChecked
  refine ⟨⟨safe_mutate store, ?_, safe_getApp store, ?_, ?_, ?_⟩, ?_⟩
  · exact fun components mode => safe_applyInOrder _ store mode
  · exact fun α _ cancelled scope name => safe_getLeaf α store cancelled scope name
  · exact safe_resolveBroker store
  · exact safe_resolveBoundary hchecked
  · exact fun scope app hscope happ => exists_bindings hchecked hscope happ

theorem never_internal_billing : ∃ app bindings,
    (Fixture.billingStore .unary).1.Faultless ∧
      (Fixture.billingStore .unary).1.tree.find? "billing.printer" = some app ∧
      ((Fixture.billingStore .unary).1.resolveBoundary false "billing.printer").result =
        .ok bindings ∧
      Resolves (Fixture.billingStore .unary).1.tree "billing.printer" app bindings := by
  have hfound : ((Fixture.billingStore .unary).1.tree.find? "billing.printer").isSome := by
    decide +kernel
  obtain ⟨app, happ⟩ := Option.isSome_iff_exists.mp hfound
  obtain ⟨hfaultless, hboundary⟩ := (reachable_billing .unary).never_internal
  obtain ⟨bindings, hresult, hresolves⟩ :=
    hboundary "billing.printer" app (by decide +kernel) happ
  exact ⟨app, bindings, hfaultless, happ, hresult, hresolves⟩

end Store

end AppTopology
