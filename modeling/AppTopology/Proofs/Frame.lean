import AppTopology.Proofs.Changes
import AppTopology.Proofs.Entity

namespace AppTopology

variable {α : Type} [Leaf α]

namespace Diff

variable {identity : Bool} {path : String} {kind : ChangeKind} {change : Change} {log : Changelog}

theorem path_of_mem_fieldChange {field : String} {before after : Option String}
    (h : change ∈ fieldChange kind path field before after) : change.path = path := by
  unfold fieldChange at h
  split at h
  · simp at h
  · rw [List.mem_singleton.mp h]

theorem path_of_mem_entryChanges {label : String → String} {old new : Dict String}
    (h : change ∈ entryChanges kind path label old new) : change.path = path := by
  obtain ⟨key, -, h⟩ := List.mem_flatMap.mp h
  exact path_of_mem_fieldChange h

theorem path_of_mem_identityChange {old new : Metadata}
    (h : change ∈ identityChange identity kind path old new) : change.path = path := by
  unfold identityChange at h
  split at h
  · exact path_of_mem_fieldChange h
  · simp at h

theorem path_of_mem_nodeChanges {old new : Option Node} (h : change ∈ nodeChanges path old new) :
    change.path = path := by
  simp only [nodeChanges, List.mem_append] at h
  rcases h with (h | h) | h
  · exact path_of_mem_fieldChange h
  · exact path_of_mem_fieldChange h
  · exact path_of_mem_entryChanges h

theorem path_of_mem_boundaryChange {old new : Boundary} {direction : Direction}
    (h : change ∈ boundaryChange path old new direction) : change.path = path := by
  unfold boundaryChange at h
  dsimp only at h
  split at h
  · simp at h
  · rw [List.mem_singleton.mp h]

theorem path_of_mem_own {old new : Option App} (h : change ∈ own identity path old new) :
    change.path = path := by
  cases old with
  | none =>
    cases new with
    | none => simp [own] at h
    | some new => rw [List.mem_singleton.mp h]
  | some old =>
    cases new with
    | none => rw [List.mem_singleton.mp h]
    | some new =>
      simp only [own, annotationChanges, List.mem_append] at h
      rcases h with (((h | h) | h) | h) | h
      · exact path_of_mem_identityChange h
      · exact path_of_mem_entryChanges h
      · exact path_of_mem_nodeChanges h
      · exact path_of_mem_boundaryChange h
      · exact path_of_mem_boundaryChange h

theorem path_of_mem_leaf {old new : Option α} (h : change ∈ leaf identity path old new) :
    change.path = path := by
  cases old with
  | none =>
    cases new with
    | none => simp [leaf] at h
    | some new => rw [List.mem_singleton.mp h]
  | some old =>
    cases new with
    | none => rw [List.mem_singleton.mp h]
    | some new =>
      simp only [leaf, annotationChanges, List.mem_append, List.mem_flatMap] at h
      rcases h with (h | h) | ⟨fields, -, h⟩
      · exact path_of_mem_identityChange h
      · exact path_of_mem_entryChanges h
      · exact path_of_mem_fieldChange h

theorem inner_of_mem_leaves {old new : Option App} (hlog : leaves α path old new = .ok log)
    (h : change ∈ log) : Scope.isInner path change.path := by
  simp only [leaves, Check.bind_eq_ok, Check.pure_eq_ok] at hlog
  obtain ⟨logs, hlogs, rfl⟩ := hlog
  obtain ⟨log, hlog, h⟩ := List.mem_flatten.mp h
  obtain ⟨name, -, hleaf⟩ := Check.exists_of_mapM_eq_ok hlogs hlog
  obtain ⟨below, hbelow, hleaf⟩ := Check.bind_eq_ok.mp hleaf
  rw [← Check.pure_eq_ok.mp hleaf] at h
  rw [path_of_mem_leaf h]
  exact Scope.isInner_append hbelow

theorem inner_of_mem_subtree {old new : Option App} (hscope : Scope.isScope path)
    (hlog : subtree identity path old new = .ok log) (h : change ∈ log) :
    Scope.isInner path change.path := by
  induction old, new using subtree_induction generalizing path identity log with
  | step old new ih =>
    obtain ⟨logs, channels, types, aliases, hlogs, hchannels, htypes, haliases, rfl⟩ :=
      subtree_eq_ok_iff.mp hlog
    simp only [List.mem_append, mem_childLogs hlogs] at h
    rcases h with (((h | ⟨key, below, log, hkey, happend, hlog, h⟩) | h) | h) | h
    · rw [path_of_mem_own h]
      exact Scope.isInner_self hscope
    · have hinner := ih key hkey (Scope.isScope_append happend) hlog h
      exact Scope.isInner_trans (Scope.isInner_append happend) hinner
    · exact inner_of_mem_leaves hchannels h
    · exact inner_of_mem_leaves htypes h
    · exact inner_of_mem_leaves haliases h

end Diff

/-- The positions that a target is about: an app with all that is in it, or a single leaf. -/
def Target.Covers : Target → Position → Prop
  | channelType scope name, p => p = ⟨Scope.names scope, .channelType name⟩
  | channel scope name, p => p = ⟨Scope.names scope, .channel name⟩
  | app path, p => Scope.names path <+: p.place
  | channelAlias scope name, p => p = ⟨Scope.names scope, .channelAlias name⟩

instance (target : Target) (p : Position) : Decidable (target.Covers p) :=
  match target with
  | .channelType .. | .channel .. | .channelAlias .. => inferInstanceAs (Decidable (p = _))
  | .app path => inferInstanceAs (Decidable (Scope.names path <+: p.place))

theorem Target.covers_ofKind [LawfulLeaf α] {scope name : String} {p : Position} :
    (Target.ofKind (Leaf.kind α) scope name).Covers p ↔
      p = ⟨Scope.names scope, .ofKind (Leaf.kind α) name⟩ := by
  apply LawfulLeaf.elim (α := α) fun β _ => (Target.ofKind (Leaf.kind β) scope name).Covers p ↔
    p = ⟨Scope.names scope, .ofKind (Leaf.kind β) name⟩
  all_goals exact Iff.rfl

namespace App

variable [LawfulLeaf α] {app next other : App} {edit : App → App} {own : App.Own}
variable {place : List String} {key name : String} {item : Item} {p : Position}

theorem Own.entity?_withShelf {shelf : Dict α}
    (hshelf : ∀ name', name' ≠ name → shelf.get? name' = own.leaf? α name')
    (hitem : item ≠ .ofKind (Leaf.kind α) name) :
    (Leaf.withShelf own shelf).entity? item = own.entity? item := by
  revert shelf hitem
  apply LawfulLeaf.elim (α := α) fun β _ => ∀ shelf : Dict β,
    (∀ name', name' ≠ name → shelf.get? name' = own.leaf? β name') →
      item ≠ .ofKind (Leaf.kind β) name → (Leaf.withShelf own shelf).entity? item = own.entity? item
  · intro shelf hshelf hitem
    cases item with
    | channel name' =>
      have hsame := hshelf name' fun heq => hitem (congrArg Item.channel heq)
      exact congrArg (Option.map Entity.channel) hsame
    | app | channelType | channelAlias => rfl
  · intro shelf hshelf hitem
    cases item with
    | channelType name' =>
      have hsame := hshelf name' fun heq => hitem (congrArg Item.channelType heq)
      exact congrArg (Option.map Entity.channelType) hsame
    | app | channel | channelAlias => rfl
  · intro shelf hshelf hitem
    cases item with
    | channelAlias name' =>
      have hsame := hshelf name' fun heq => hitem (congrArg Item.channelAlias heq)
      exact congrArg (Option.map Entity.channelAlias) hsame
    | app | channel | channelType => rfl

theorem entity?_withShelf {shelf : Dict α} {rest : List String}
    (hshelf : ∀ name', name' ≠ name → shelf.get? name' = app.own.leaf? α name')
    (hitem : (⟨rest, item⟩ : Position) ≠ ⟨[], .ofKind (Leaf.kind α) name⟩) :
    ({ app with own := Leaf.withShelf app.own shelf } : App).entity? ⟨rest, item⟩ =
      app.entity? ⟨rest, item⟩ := by
  cases rest with
  | nil => exact Own.entity?_withShelf hshelf fun heq => hitem (congrArg (Position.mk []) heq)
  | cons key rest => rfl

theorem entity?_modifyAt?_outside (h : app.modifyAt? edit place = some next)
    (hp : ¬ place <+: p.place) : next.entity? p = app.entity? p := by
  have hentity (app : App) :
      app.entity? p = ((app.at? p.place).map App.own).bind (·.entity? p.item) := by
    rw [entity?, Option.bind_map]
    rfl
  rw [hentity, hentity, own_modifyAt?_outside h hp]

theorem entity?_modifyAt? (h : app.modifyAt? edit place = some next)
    (hother : app.at? place = some other)
    (hedit : ∀ rest, p.place = place ++ rest →
      (edit other).entity? ⟨rest, p.item⟩ = other.entity? ⟨rest, p.item⟩) :
    next.entity? p = app.entity? p := by
  obtain ⟨place', item⟩ := p
  by_cases hprefix : place <+: place'
  · obtain ⟨rest, rfl⟩ := hprefix
    rw [entity?_append, entity?_append, at?_modifyAt? h hother, hother]
    exact hedit rest rfl
  · exact entity?_modifyAt?_outside h hprefix

theorem entity?_of_child? (hown : next.own = app.own)
    (hsame : ∀ key, key ≠ name → next.child? key = app.child? key) (hp : ¬ [name] <+: p.place) :
    next.entity? p = app.entity? p := by
  obtain ⟨place, item⟩ := p
  cases place with
  | nil => rw [entity?_own, entity?_own, hown]
  | cons key rest =>
    have hne : key ≠ name := fun heq => hp (by simp [heq])
    have hinside (app : App) : app.entity? ⟨key :: rest, item⟩ =
        (app.child? key).bind (·.entity? ⟨rest, item⟩) := app.entity?_inside key ⟨rest, item⟩
    rw [hinside, hinside, hsame key hne]

theorem entity?_modify?_child {root parent : App} {scope : String}
    (hmodify : root.modify? scope edit = some next) (hparent : root.find? scope = some parent)
    (hown : (edit parent).own = parent.own)
    (hsame : ∀ key, key ≠ name → (edit parent).child? key = parent.child? key)
    (hp : ¬ Scope.names scope ++ [name] <+: p.place) : next.entity? p = root.entity? p := by
  apply entity?_modifyAt? hmodify hparent
  intro rest hrest
  rw [hrest, List.prefix_append_right_inj] at hp
  exact entity?_of_child? hown hsame hp

theorem entity?_modify?_leaf {root parent : App} {scope : String} {shelf : Dict α}
    (hmodify : root.modify? scope edit = some next) (hparent : root.find? scope = some parent)
    (hedit : edit parent = { parent with own := Leaf.withShelf parent.own shelf })
    (hsame : ∀ name', name' ≠ name → shelf.get? name' = parent.own.leaf? α name')
    (hp : p ≠ ⟨Scope.names scope, .ofKind (Leaf.kind α) name⟩) :
    next.entity? p = root.entity? p := by
  apply entity?_modifyAt? hmodify hparent
  intro rest hrest
  rw [hedit]
  apply entity?_withShelf hsame
  intro heq
  injection heq with hnil hitem
  rw [hnil, List.append_nil] at hrest
  exact hp (by rw [← hrest, ← hitem])

end App

theorem Edited.entity?_eq {root next : App} {target : Target} (h : Edited root target next)
    {p : Position} (hp : ¬ target.Covers p) : next.entity? p = root.entity? p := by
  cases h with
  | replace hscope happ hold hmodify => exact App.entity?_modifyAt?_outside hmodify hp
  | @putChild scope name parent app next hscope hname happ hparent hchild hmodify =>
    rw [Target.Covers, Scope.names_child hscope hname] at hp
    apply App.entity?_modify?_child hmodify hparent rfl _ hp
    intro key hne
    rw [App.child?_putChild, if_neg hne]
  | @dropChild scope name parent old next hscope hname hparent hold hmodify =>
    rw [Target.Covers, Scope.names_child hscope hname] at hp
    apply App.entity?_modify?_child hmodify hparent rfl _ hp
    intro key hne
    rw [App.child?_dropChild, if_neg hne]
  | @putLeaf β _ _ scope name leaf parent next hscope hname hleaf hparent huuid hmodify =>
    rw [Target.covers_ofKind] at hp
    apply App.entity?_modify?_leaf (α := β) hmodify hparent rfl _ hp
    intro name' hne
    rw [Dict.get?_insert, if_neg hne]
    rfl
  | @dropLeaf β _ _ scope name old parent next hscope hparent hold hmodify =>
    rw [Target.covers_ofKind] at hp
    apply App.entity?_modify?_leaf (α := β) hmodify hparent rfl _ hp
    intro name' hne
    rw [Dict.get?_erase, if_neg hne]
    rfl

section

variable {tree next : App} {target : Target} {scope name path : String} {log : Changelog}
variable {change : Change}

theorem inner_of_mem_app (htree : tree.Checked) (hnext : next.Checked) (hpath : Scope.isScope path)
    (hlog : Target.changes tree next (.app path) = .ok log) (h : change ∈ log) :
    Scope.isInner path change.path := by
  change Diff.trees (tree.find? path) (next.find? path) = .ok log at hlog
  by_cases hsome : (tree.find? path).isSome ∨ (next.find? path).isSome
  · rw [Diff.trees_eq hsome (fun app => htree.path_eq_ok hpath)
      fun app => hnext.path_eq_ok hpath] at hlog
    exact Diff.inner_of_mem_subtree hpath hlog h
  · simp only [not_or, Option.not_isSome_iff_eq_none] at hsome
    rw [hsome.1, hsome.2] at hlog
    rw [← Check.pure_eq_ok.mp hlog] at h
    simp at h

theorem inner_of_mem_ofKind [LawfulLeaf α] (hscope : Scope.isScope scope)
    (hname : Scope.isName name)
    (hlog : Target.changes tree next (.ofKind (Leaf.kind α) scope name) = .ok log)
    (h : change ∈ log) :
    Scope.isInner (Target.ofKind (Leaf.kind α) scope name).path change.path := by
  have hpath : (Target.ofKind (Leaf.kind α) scope name).path = Scope.child scope name := by
    cases Leaf.kind α <;> rfl
  rw [Target.changes_ofKind, Target.leafChanges, Scope.Admits.append (.inl hname) hscope] at hlog
  rw [← Except.ok.inj hlog] at h
  rw [Diff.path_of_mem_leaf h, hpath]
  exact Scope.isInner_self (Scope.isScope_child hscope hname)

theorem Accepted.inner (h : Accepted tree target next log) (htree : tree.Checked)
    (hchange : change ∈ log) : Scope.isInner target.path change.path := by
  obtain ⟨hedit, -, hlog⟩ := id h
  have hnext := h.checked htree.ordered
  cases hedit with
  | replace hpath => exact inner_of_mem_app htree hnext hpath hlog hchange
  | putChild hscope hname =>
    exact inner_of_mem_app htree hnext (Scope.isScope_child hscope hname) hlog hchange
  | dropChild hscope hname =>
    exact inner_of_mem_app htree hnext (Scope.isScope_child hscope hname) hlog hchange
  | putLeaf β hscope hname => exact inner_of_mem_ofKind hscope hname hlog hchange
  | dropLeaf β hscope hparent hold =>
    exact inner_of_mem_ofKind hscope ((htree.valid_at hscope hparent).isName_leaf hold) hlog hchange

end

structure App.SameAt (before after : App) (p : Position) : Prop where
  content : (after.entity? p).map Entity.declared = (before.entity? p).map Entity.declared
  uuid : after.uuid? p = before.uuid? p

namespace Store

variable {store : Store} {mutation : Mutation} {mode : Mode} {log : Changelog} {target : Target}
variable {edited : App} {p : Position}

theorem sameAt_commit (hstore : store.tree.Committed)
    (h : Accepted store.tree target edited log) (hp : ¬ target.Covers p) :
    store.tree.SameAt (store.commit edited.filed).tree p := by
  have hfiled := (h.edit.ordered hstore.ordered).filed
  have hentity := h.edit.entity?_eq hp
  obtain ⟨num, huuid, -⟩ := store.uuid?_commit hfiled
  constructor
  · rw [← App.entity?_declared, store.declared_commit hfiled, App.declared_filed,
      App.entity?_declared, hentity]
  · have hsame : edited.uuid? p = store.tree.uuid? p := by
      rw [App.uuid?, App.uuid?, App.info?_eq, App.info?_eq, hentity]
    rw [huuid, App.uuid?_filed, hsame]
    -- Nothing that was committed before is without an identity.
    cases hinfo : store.tree.info? p with
    | none => rw [App.uuid?, hinfo]; rfl
    | some info =>
      rw [App.uuid?, hinfo, Option.map_some, Option.map_some,
        if_neg (hstore.identified p info hinfo)]

theorem mutate_confined (hstore : store.tree.Committed) (hmutation : mutation.Ordered)
    (hresult : (store.mutate mutation mode).result = .ok log) :
    (∀ change ∈ log, Scope.isInner mutation.target.path change.path) ∧
      ∀ p, ¬ mutation.target.Covers p →
        store.tree.SameAt (store.mutate mutation mode).store.tree p := by
  obtain ⟨error, herror, -⟩ | ⟨edited, log', haccepted, hlog, hnext⟩ :=
    mutate_cases hstore.ordered hmutation mode
  · rw [hresult] at herror
    exact nomatch herror
  · rw [hresult, Except.ok.injEq] at hlog
    refine ⟨fun change hchange => haccepted.inner hstore.toChecked (hlog ▸ hchange), ?_⟩
    intro p hp
    rw [hnext]
    split
    · exact ⟨rfl, rfl⟩
    · exact sameAt_commit hstore haccepted hp

end Store

end AppTopology
