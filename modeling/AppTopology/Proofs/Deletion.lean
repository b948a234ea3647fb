import AppTopology.Proofs.Addresses
import AppTopology.Proofs.Replacement

namespace AppTopology

def App.Without (tree next : App) (target : Target) : Prop :=
  ∀ p, next.entity? p = if target.Covers p then none else tree.entity? p

namespace App

variable {α : Type} [Leaf α] [LawfulLeaf α] {tree next root app : App} {target : Target}
variable {scope name : String} {leaf : α} {entity : Entity} {p : Position} {log : Changelog}

theorem edited_of_delete (hedit : (Mutation.delete target).edit tree = .ok next) :
    Edited tree target next :=
  @Mutation.edited (.delete target) tree next trivial hedit

theorem without_of_delete (hedit : (Mutation.delete target).edit tree = .ok next) :
    tree.Without next target := by
  intro p
  split
  · next hp =>
    have hgiven := Mutation.given_of_edit hedit hp
    rwa [Mutation.submitted, Option.map_none, Option.map_eq_none_iff] at hgiven
  · next hp => exact (edited_of_delete hedit).entity?_eq hp

omit [LawfulLeaf α] in
theorem deleteLeaf_of_used (hscope : Scope.isScope scope) (happ : root.find? scope = some app)
    (hleaf : app.own.leaf? α name = some leaf) (hused : Leaf.users leaf ≠ []) :
    root.deleteLeaf α scope name =
      .error (.inUse (Leaf.kind α) (Scope.child scope name) (Leaf.users leaf)) := by
  have hrequire : root.requireLeaf α scope name = .ok leaf :=
    requireLeaf_eq_ok.mpr ⟨app, happ, hleaf⟩
  rw [deleteLeaf, Scope.checkRequest, if_pos hscope, hrequire]
  simp only [bind, Except.bind, if_pos hused]
  rfl

omit [LawfulLeaf α] in
theorem exists_deleteLeaf (hscope : Scope.isScope scope) (happ : root.find? scope = some app)
    (hleaf : app.own.leaf? α name = some leaf) (hunused : Leaf.users leaf = []) :
    ∃ next, root.deleteLeaf α scope name = .ok next := by
  obtain ⟨next, hnext⟩ := exists_modifyAt? happ (·.dropLeaf α name)
  exact ⟨next, deleteLeaf_eq_ok.mpr ⟨hscope, app, leaf, happ, hleaf, hunused, hnext⟩⟩

theorem exists_deleteApp {path : String} (hpath : (Target.app path).IsChild)
    (happ : root.find? path = some app) : ∃ next, root.deleteApp path = .ok next := by
  obtain ⟨parent, hparent, -⟩ := exists_find?_parent hpath.1 hpath.2 happ
  obtain ⟨next, hnext⟩ := exists_modifyAt? hparent (·.dropChild (Scope.leaf path))
  exact ⟨next, deleteApp_eq_ok.mpr ⟨hpath.1, hpath.2, Option.isSome_of_eq_some happ, hnext⟩⟩

namespace Without

theorem entity?_eq (h : tree.Without next target) (hp : ¬ target.Covers p) :
    next.entity? p = tree.entity? p := by
  rw [h p, if_neg hp]

theorem entity?_of_some (h : tree.Without next target) (hentity : next.entity? p = some entity) :
    tree.entity? p = some entity := by
  rw [h p] at hentity
  split at hentity
  · exact nomatch hentity
  · exact hentity

theorem info?_of_some {info : Metadata} (h : tree.Without next target)
    (hinfo : next.info? p = some info) : tree.info? p = some info := by
  rw [info?_eq, Option.map_eq_some_iff] at hinfo ⊢
  obtain ⟨entity, hentity, rfl⟩ := hinfo
  exact ⟨entity, h.entity?_of_some hentity, rfl⟩

theorem filed (h : tree.Without next target) (htree : tree.Checked) (hnext : next.Ordered) :
    next.filed = next :=
  (filed_eq_self_iff hnext).mpr fun _ _ hinfo => htree.info_eq (h.info?_of_some hinfo)

theorem fits (h : tree.Without next target) (htree : tree.Checked) (p : Position)
    (info : Metadata) (hinfo : next.info? p = some info) : info.FitsAt p := by
  have hfiled := htree.info_eq (h.info?_of_some hinfo)
  rw [← hfiled]
  exact .inr rfl

end Without

end App

theorem Edited.exists_changes {tree next after : App} {target : Target}
    (h : Edited tree target next) (htree : tree.Checked) (hafter : after.Checked) :
    ∃ log, target.changes tree after = .ok log := by
  have happ {path : String} (hpath : Scope.isScope path) :
      ∃ log, Target.changes tree after (.app path) = .ok log := by
    obtain ⟨positions, -, hlog⟩ := Diff.trees_listed (htree.rooted hpath) (hafter.rooted hpath)
    exact ⟨_, hlog⟩
  have hleaf (α : Type) [Leaf α] [LawfulLeaf α] {scope name : String}
      (hscope : Scope.isScope scope) (hname : Scope.isName name) :
      ∃ log, Target.changes tree after (.ofKind (Leaf.kind α) scope name) = .ok log := by
    rw [Target.changes_ofKind, Target.leafChanges, Scope.Admits.append (.inl hname) hscope]
    exact ⟨_, rfl⟩
  cases h with
  | replace hpath => exact happ hpath
  | putChild hscope hname | dropChild hscope hname => exact happ (Scope.isScope_child hscope hname)
  | putLeaf α hscope hname => exact hleaf α hscope hname
  | dropLeaf α hscope hparent hold =>
    exact hleaf α hscope ((htree.valid_at hscope hparent).isName_leaf hold)

namespace Store

variable {α : Type} [Leaf α] [LawfulLeaf α] {store : Store} {mutation : Mutation} {mode : Mode}
variable {error : TopologyError} {target : Target} {scope name : String} {leaf : α} {next : App}

theorem mutate_of_unedited (hmode : mode.cancelled = false)
    (hedit : (mutation.route store.registry).edit store.tree = .error error) :
    (store.mutate mutation mode).result = .error error := by
  unfold mutate Outcome.conclude Outcome.announce attempt
  simp only [hmode, hedit, Bool.false_eq_true, if_false]

theorem mutate_of_unsettled (hmode : mode.cancelled = false)
    (hedit : (mutation.route store.registry).edit store.tree = .ok next)
    (hsettle : store.tree.settle next mutation.target = .error error) :
    (store.mutate mutation mode).result = .error error := by
  unfold mutate Outcome.conclude Outcome.announce attempt
  simp only [hmode, hedit, hsettle, Bool.false_eq_true, if_false]

theorem edit_delete_ofKind (tree : App) (scope name : String) :
    (Mutation.delete (.ofKind (Leaf.kind α) scope name)).edit tree =
      tree.deleteLeaf α scope name := by
  apply LawfulLeaf.elim (α := α) fun β _ =>
    (Mutation.delete (.ofKind (Leaf.kind β) scope name)).edit tree = tree.deleteLeaf β scope name
  all_goals rfl

theorem delete_of_used (hmode : mode.cancelled = false)
    (hleaf : (store.getLeaf α false scope name).result = .ok leaf) (hused : Leaf.users leaf ≠ []) :
    (store.mutate (.delete (.ofKind (Leaf.kind α) scope name)) mode).result =
      .error (.inUse (Leaf.kind α) (Scope.child scope name) (Leaf.users leaf)) := by
  obtain ⟨hscope, app, happ, hleaf⟩ := getLeaf_eq_ok.mp hleaf
  apply mutate_of_unedited hmode
  rw [Mutation.route, edit_delete_ofKind, App.deleteLeaf_of_used hscope happ hleaf hused]

theorem exists_edit_of_unused (hleaf : (store.getLeaf α false scope name).result = .ok leaf)
    (hunused : Leaf.users leaf = []) :
    ∃ next, (Mutation.delete (.ofKind (Leaf.kind α) scope name)).edit store.tree = .ok next := by
  obtain ⟨hscope, app, happ, hleaf⟩ := getLeaf_eq_ok.mp hleaf
  rw [edit_delete_ofKind]
  exact App.exists_deleteLeaf hscope happ hleaf hunused

theorem edit_cases (hstore : store.tree.Checked) (hmutation : mutation.Ordered)
    (hmode : mode.cancelled = false)
    (hedit : (mutation.route store.registry).edit store.tree = .ok next)
    (hfits : ∀ p info, next.info? p = some info → info.FitsAt p) :
    let outcome := store.mutate mutation mode
    (next.filed.validate = .ok () ∧ (∃ log, outcome.result = .ok log) ∧
      outcome.store = if mode.dryRun then store else store.commit next.filed) ∨
    ∃ error, next.filed.validate = .error error ∧ outcome.result = .error error := by
  intro outcome
  have hedited := edited_of_edit hmutation hedit
  have hnext := hedited.ordered hstore.ordered
  cases hvalid : next.filed.validate with
  | ok u =>
    obtain ⟨log, hlog⟩ := hedited.exists_changes hstore ⟨hnext.filed, next.filed_filed, hvalid⟩
    obtain ⟨hresult, hafter⟩ :=
      mutate_of_staged hstore.ordered hmutation ⟨hedit, hfits, hvalid, hlog⟩ hmode
    exact .inl ⟨rfl, ⟨log, hresult⟩, hafter⟩
  | error error =>
    refine .inr ⟨error, rfl, mutate_of_unsettled hmode hedit ?_⟩
    rw [App.settle, (App.normalize_eq_ok hnext).mpr ⟨hfits, rfl⟩]
    change (next.filed.validate >>= fun _ => _) = _
    rw [hvalid]
    rfl

theorem delete_cases (hstore : store.tree.Checked) (hmode : mode.cancelled = false)
    (hedit : (Mutation.delete target).edit store.tree = .ok next) :
    let deleted := store.mutate (.delete target) mode
    (next.validate = .ok () ∧ (∃ log, deleted.result = .ok log) ∧
      deleted.store = if mode.dryRun then store else store.commit next) ∨
    ∃ error, next.validate = .error error ∧ deleted.result = .error error := by
  intro deleted
  have hwithout := App.without_of_delete hedit
  have hfiled := hwithout.filed hstore ((App.edited_of_delete hedit).ordered hstore.ordered)
  have hmutation : (Mutation.delete target).Ordered := trivial
  have hcases := edit_cases hstore hmutation hmode hedit (hwithout.fits hstore)
  rwa [hfiled] at hcases

end Store

end AppTopology
