import AppTopology.Fixture
import AppTopology.Proofs.Comparison
import AppTopology.Proofs.Steps

namespace AppTopology

namespace App

variable {α : Type} [Leaf α] [LawfulLeaf α]
variable {root tree next app : App} {scope name path : String} {log : Changelog}

theorem Checked.named (h : root.Checked) : root.Named "" := by
  rintro ⟨place, item⟩ info hinfo hp
  obtain ⟨app, happ, hitem⟩ := Option.bind_eq_some_iff.mp hinfo
  cases item with
  | app =>
    obtain rfl | ⟨place, key, rfl⟩ := List.eq_nil_or_concat' place
    · exact absurd rfl hp
    · have hadmits := h.admits happ
      simpa [Position.owner, Position.name] using hadmits
  | channel name =>
    obtain ⟨leaf, hleaf, -⟩ := Option.map_eq_some_iff.mp hitem
    exact Or.inl ((h.valid_under happ).channel name leaf hleaf).1
  | channelType name =>
    obtain ⟨leaf, hleaf, -⟩ := Option.map_eq_some_iff.mp hitem
    exact Or.inl ((h.valid_under happ).channelType name leaf hleaf).1
  | channelAlias name =>
    obtain ⟨leaf, hleaf, -⟩ := Option.map_eq_some_iff.mp hitem
    exact Or.inl ((h.valid_under happ).channelAlias name leaf hleaf).1

theorem named_of_filed (h : next.filed.Named scope) : next.Named scope := by
  intro p info hinfo
  apply h p (info.filedAt "" p)
  rw [filed, info?_mapInfo, hinfo]
  rfl

theorem Checked.path_eq_ok (h : root.Checked) (hscope : Scope.isScope scope)
    (happ : root.find? scope = some app) : app.info.path = .ok scope := by
  have hinfo : root.info? ⟨Scope.names scope, .app⟩ = some app.info := by
    rw [info?]
    exact Option.bind_eq_some_iff.mpr ⟨app, happ, rfl⟩
  have hfiled := h.info_eq hinfo
  rw [Metadata.path, ← hfiled]
  by_cases hne : scope = ""
  · rw [hne, Scope.names_empty]
    exact Scope.Admits.append (.inr ⟨rfl, rfl⟩) Scope.isScope_empty
  · obtain ⟨outer, name, houter, hname, rfl⟩ := Scope.exists_child_of_isScope hscope hne
    have happend := Scope.Admits.append (.inl hname) houter
    rw [Scope.names_child houter hname]
    simpa [Metadata.filedAt, Position.owner, Position.name, Scope.under_names houter] using happend

theorem Checked.rooted (h : root.Checked) (hscope : Scope.isScope scope) :
    ∀ app ∈ root.find? scope, app.Named scope ∧ app.info.path = .ok scope := by
  intro app happ
  have hnamed := h.named.at? happ
  rw [Scope.under_names hscope] at hnamed
  exact ⟨hnamed, h.path_eq_ok hscope happ⟩

end App

section

variable {α : Type} [Leaf α] [LawfulLeaf α]
variable {tree next old other : App} {scope name path : String} {log : Changelog}

theorem Diff.alike_filed (old : Option App) (next : App) : Diff.Alike old next next.filed := by
  constructor
  · rw [Option.map_some, Option.map_some, App.declared_filed]
  · intro p u u' _ hu hu'
    rw [Option.bind_some, App.uuid?_filed] at hu'
    rw [Option.bind_some, hu', Option.some.injEq] at hu
    exact hu.symm

theorem Target.changes_ofKind (scope name : String) (old new : App) :
    Target.changes old new (.ofKind (Leaf.kind α) scope name) =
      leafChanges α scope name old new := by
  apply LawfulLeaf.elim (α := α) fun β _ =>
    Target.changes old new (.ofKind (Leaf.kind β) scope name) = leafChanges β scope name old new
  all_goals rfl

theorem subtree_of_changes (htree : tree.Checked) (hnext : next.filed.Checked)
    (hpath : Scope.isScope path) (hsome : (tree.find? path).isSome ∨ (next.find? path).isSome)
    (hlog : Target.changes tree next.filed (.app path) = .ok log) :
    Diff.subtree false path (tree.find? path) (next.find? path) = .ok log := by
  have halike : Diff.Alike (tree.find? path) (next.find? path) (next.filed.find? path) :=
    (Diff.alike_filed (some tree) next).at? (Scope.names path)
  have hiff : (next.filed.find? path).isSome = (next.find? path).isSome := by
    rw [← Option.isSome_map, ← halike.declared, Option.isSome_map]
  rw [← hiff] at hsome
  rw [Diff.subtree_congr halike, ← Diff.trees_eq hsome (fun app => htree.path_eq_ok hpath)
    fun app => hnext.path_eq_ok hpath]
  exact hlog

variable {target : Target}

theorem named_of_modify? {edit : App → App} {parent : App} (htree : tree.Checked)
    (hnext : next.filed.Checked) (hscope : Scope.isScope scope)
    (hparent : tree.find? scope = some parent) (hmodify : tree.modify? scope edit = some next) :
    parent.Named scope ∧ (edit parent).Named scope := by
  have hbefore := htree.named.at? hparent
  have hafter := (App.named_of_filed hnext.named).at? (App.at?_modifyAt? hmodify hparent)
  rw [Scope.under_names hscope] at hbefore hafter
  exact ⟨hbefore, hafter⟩

theorem subtree_of_child_edit {edit : App → App} {parent : App} (htree : tree.Checked)
    (hnext : next.filed.Checked) (hscope : Scope.isScope scope) (hname : Scope.isName name)
    (hparent : tree.find? scope = some parent) (hmodify : tree.modify? scope edit = some next)
    (hown : parent.own = (edit parent).own)
    (hsame : ∀ key, key ≠ name → parent.child? key = (edit parent).child? key)
    (hsome : (parent.child? name).isSome ∨ ((edit parent).child? name).isSome)
    (hnone : parent.child? name = none ∨ (edit parent).child? name = none)
    (hlog : Target.changes tree next.filed (.app (Scope.child scope name)) = .ok log) :
    Diff.subtree false "" (some tree) (some next) = .ok log := by
  have hedited : next.find? scope = some (edit parent) := App.at?_modifyAt? hmodify hparent
  have hold : tree.find? (Scope.child scope name) = parent.child? name := by
    rw [App.find?_child hscope hname, hparent, Option.bind_some]
  have hnew : next.find? (Scope.child scope name) = (edit parent).child? name := by
    rw [App.find?_child hscope hname, hedited, Option.bind_some]
  have hrecords := subtree_of_changes htree hnext (Scope.isScope_child hscope hname)
    (by rw [hold, hnew]; exact hsome) hlog
  rw [hold, hnew] at hrecords
  have hidentity : ∀ o n, parent.child? name = some o → (edit parent).child? name = some n →
      n.info.uuid = o.info.uuid := by
    intro o n ho hn
    rcases hnone with hnone | hnone
    · rw [hnone] at ho
      simp at ho
    · rw [hnone] at hn
      simp at hn
  obtain ⟨hbefore, hafter⟩ := named_of_modify? htree hnext hscope hparent hmodify
  apply Diff.subtree_modifyAt? hmodify hparent Scope.isScope_empty htree.named
    (App.named_of_filed hnext.named)
  rw [Scope.under_names hscope]
  apply Diff.subtree_of_child hscope hbefore hafter hown hsame hsome
  rw [Diff.subtree_identity hidentity, hrecords]

theorem subtree_of_leaf_edit {edit : App → App} {parent : App} {shelf : Dict α}
    (htree : tree.Checked) (hnext : next.filed.Checked) (hscope : Scope.isScope scope)
    (hname : Scope.isName name) (hparent : tree.find? scope = some parent)
    (hmodify : tree.modify? scope edit = some next)
    (hedit : edit parent = { parent with own := Leaf.withShelf parent.own shelf })
    (hsame : ∀ name', name' ≠ name → shelf.get? name' = parent.own.leaf? α name')
    (hsome : (parent.own.leaf? α name).isSome ∨ (shelf.get? name).isSome)
    (huuid : ∀ o n, parent.own.leaf? α name = some o → shelf.get? name = some n →
      (Leaf.info n).uuid = (Leaf.info o).uuid)
    (hlog : Target.changes tree next.filed (.ofKind (Leaf.kind α) scope name) = .ok log) :
    Diff.subtree false "" (some tree) (some next) = .ok log := by
  have hedited : next.find? scope = some (edit parent) := App.at?_modifyAt? hmodify hparent
  have hrecords : Diff.leaf false (Scope.child scope name) (parent.own.leaf? α name)
      (shelf.get? name) = log := by
    have halike : Diff.Alike (tree.find? scope) (next.find? scope) (next.filed.find? scope) :=
      (Diff.alike_filed (some tree) next).at? (Scope.names scope)
    have hleaf := halike.leaf (α := α) false (Scope.child scope name) name
    simp only [Diff.get?_shelf] at hleaf
    rw [Target.changes_ofKind, Target.leafChanges,
      Scope.Admits.append (.inl hname) hscope] at hlog
    have hchanges := Except.ok.inj hlog
    rw [← hleaf, hedited, hedit, hparent, Option.bind_some, Option.bind_some] at hchanges
    rwa [← LawfulLeaf.shelf_withShelf parent.own shelf]
  obtain ⟨hbefore, hafter⟩ := named_of_modify? htree hnext hscope hparent hmodify
  rw [hedit] at hafter
  apply Diff.subtree_modifyAt? hmodify hparent Scope.isScope_empty htree.named
    (App.named_of_filed hnext.named)
  intro identity
  rw [Scope.under_names hscope, hedit,
    Diff.subtree_of_leaf hscope hbefore hafter hsame hsome identity,
    Diff.leaf_identity huuid, hrecords]

theorem subtree_of_edited (htree : tree.Checked) (hnext : next.filed.Checked)
    (hedit : Edited tree target next) (hlog : target.changes tree next.filed = .ok log) :
    Diff.subtree false "" (some tree) (some next) = .ok log := by
  cases hedit with
  | @replace path old app next hpath _ hold hmodify =>
    have hnew := App.at?_modifyAt? hmodify hold
    have hrecords := subtree_of_changes htree hnext hpath (.inl (by rw [hold]; rfl)) hlog
    rw [hold, App.find?, hnew] at hrecords
    have hidentity : ∀ o n, some old = some o → some (app.succeed (some old)) = some n →
        n.info.uuid = o.info.uuid := by
      rintro o n ho hn
      injection ho with ho
      injection hn with hn
      rw [← ho, ← hn]
      exact App.Carries.succeed old app .root _ rfl
    apply Diff.subtree_modifyAt? hmodify hold Scope.isScope_empty htree.named
      (App.named_of_filed hnext.named)
    intro identity
    rw [Scope.under_names hpath, Diff.subtree_identity hidentity, hrecords]
  | @putChild scope name parent app next hscope hname _ hparent hnone hmodify =>
    apply subtree_of_child_edit htree hnext hscope hname hparent hmodify rfl _ _ (.inl hnone) hlog
    · intro key hne
      rw [App.child?_putChild, if_neg hne]
    · rw [App.child?_putChild, if_pos rfl]
      exact .inr rfl
  | @dropChild scope name parent old next hscope hname hparent hold hmodify =>
    have hnone : (parent.dropChild name).child? name = none := by
      rw [App.child?_dropChild, if_pos rfl]
    apply subtree_of_child_edit htree hnext hscope hname hparent hmodify rfl _ _ (.inr hnone) hlog
    · intro key hne
      rw [App.child?_dropChild, if_neg hne]
    · rw [hold]
      exact .inl rfl
  | @putLeaf β _ _ scope name leaf parent next hscope hname _ hparent huuid hmodify =>
    apply subtree_of_leaf_edit (α := β) htree hnext hscope hname hparent hmodify rfl _ _ _ hlog
    · intro name' hne
      rw [Dict.get?_insert, if_neg hne]
      rfl
    · rw [Dict.get?_insert, if_pos rfl]
      exact .inr rfl
    · intro o n ho hn
      rw [Dict.get?_insert, if_pos rfl, Option.some.injEq] at hn
      rw [← hn, huuid, ho]
      rfl
  | @dropLeaf β _ _ scope name old parent next hscope hparent hold hmodify =>
    have hname := (htree.valid_at hscope hparent).isName_leaf hold
    apply subtree_of_leaf_edit (α := β) htree hnext hscope hname hparent hmodify rfl _ _ _ hlog
    · intro name' hne
      rw [Dict.get?_erase, if_neg hne]
      rfl
    · rw [hold]
      exact .inl rfl
    · intro o n _ hn
      rw [Dict.get?_erase, if_pos rfl] at hn
      simp at hn

end

namespace Store

variable {store : Store} {mutation : Mutation} {mode : Mode} {log : Changelog}

theorem alike_commit {edited : App} (hstore : store.tree.Committed) (hedited : edited.Ordered)
    (hcarries : store.tree.Carries edited) :
    Diff.Alike (some store.tree) (some edited) (some (store.commit edited.filed).tree) := by
  obtain ⟨num, huuid, -⟩ := store.uuid?_commit hedited.filed
  constructor
  · rw [Option.map_some, Option.map_some, store.declared_commit hedited.filed,
      App.declared_filed]
  · intro p u u' hold hu hu'
    obtain ⟨old, hold⟩ := Option.isSome_iff_exists.mp hold
    rw [Option.bind_some] at hold hu hu'
    have hcarried := hcarries.uuid? hu
    rw [hold, Option.getD_some] at hcarried
    have hne : u ≠ "" := by
      obtain ⟨info, hinfo, rfl⟩ := Option.map_eq_some_iff.mp hold
      rw [hcarried]
      exact hstore.identified p info hinfo
    rw [huuid, App.uuid?_filed, hu, Option.map_some, if_neg hne, Option.some.injEq] at hu'
    exact hu'

theorem subtree_commit {target : Target} {edited : App} (hstore : store.tree.Committed)
    (h : Accepted store.tree target edited log) :
    Diff.subtree false "" (some store.tree) (some (store.commit edited.filed).tree) = .ok log := by
  have halike := alike_commit hstore (h.edit.ordered hstore.ordered) h.edit.carries
  rw [← Diff.subtree_congr halike]
  exact subtree_of_edited hstore.toChecked (h.checked hstore.ordered) h.edit h.log

theorem rooted (h : store.tree.Checked) :
    ∀ app ∈ some store.tree, app.Named "" ∧ app.info.path = .ok "" := by
  have hroot := h.rooted Scope.isScope_empty
  rwa [App.find?, Scope.names_empty] at hroot

theorem trees_commit {target : Target} {edited : App} (hstore : store.tree.Committed)
    (h : Accepted store.tree target edited log) :
    Diff.trees (some store.tree) (some (store.commit edited.filed).tree) = .ok log := by
  have hafter := (store.committed_commit (h.checked hstore.ordered)).toChecked
  rw [Diff.trees_eq (.inl rfl) (fun app happ => (rooted hstore.toChecked app happ).2)
    (fun app happ => (rooted hafter app happ).2), subtree_commit hstore h]

theorem Reachable.trees_mutate (h : Reachable store) (hmutation : mutation.Ordered)
    (hmode : mode.dryRun = false) (hresult : (store.mutate mutation mode).result = .ok log) :
    Diff.trees (some store.tree) (some (store.mutate mutation mode).store.tree) = .ok log := by
  have hstore := h.committed
  obtain ⟨error, herror, -⟩ | ⟨edited, log', haccepted, hlog, hnext⟩ :=
    mutate_cases hstore.ordered hmutation mode
  · rw [hresult] at herror
    exact nomatch herror
  · rw [hresult, Except.ok.injEq] at hlog
    rw [hmode, if_neg Bool.false_ne_true] at hnext
    rw [hnext, hlog]
    exact trees_commit hstore haccepted

theorem trees_mutate_billing :
    let store := Store.empty {} .unary
    let after := (store.mutate (.create "" (.app Fixture.billing)) {}).store
    Diff.trees (some store.tree) (some after.tree) =
      .ok [⟨.created .app, "billing", .none⟩, ⟨.created .app, "billing.printer", .none⟩,
        ⟨.created .channel, "billing.invoices", .none⟩,
        ⟨.created .channelType, "billing.Invoice", .none⟩] := by
  intro store after
  have hbilling : Fixture.billing.Ordered := by decide +kernel
  have hresult : (store.mutate (.create "" (.app Fixture.billing)) {}).result =
      .ok [⟨.created .app, "billing", .none⟩, ⟨.created .app, "billing.printer", .none⟩,
        ⟨.created .channel, "billing.invoices", .none⟩,
        ⟨.created .channelType, "billing.Invoice", .none⟩] := by decide +kernel
  exact (Reachable.empty {} .unary).trees_mutate hbilling rfl hresult

end Store

end AppTopology
