import AppTopology.Proofs.Steps

namespace AppTopology

namespace App

variable {root app : App} {key : String} {place : List String} {p : Position} {info : Metadata}

theorem Checked.isPath (h : root.Checked) (happ : root.at? place = some app)
    (hempty : "" ∉ place) : Scope.IsPath place := by
  induction place using List.reverseRecOn generalizing app with
  | nil => exact Scope.isPath_nil
  | append_singleton place key ih =>
    rw [List.mem_append, List.mem_singleton, not_or] at hempty
    have hadmits := h.admits happ
    rw [at?_append, Option.bind_eq_some_iff] at happ
    obtain ⟨outer, houter, -⟩ := happ
    apply Scope.isPath_append_singleton.mpr
    refine ⟨ih houter hempty.1, ?_⟩
    rcases hadmits with hname | ⟨-, hkey⟩
    · exact hname
    · exact absurd hkey.symm hempty.2

theorem Checked.notMem_of_child? (h : root.Checked) (hchild : root.child? "" = none)
    (happ : root.at? place = some app) : "" ∉ place := by
  induction place using List.reverseRecOn generalizing app with
  | nil => simp
  | append_singleton place key ih =>
    have hadmits := h.admits happ
    rw [at?_append, Option.bind_eq_some_iff] at happ
    obtain ⟨outer, houter, hkey⟩ := happ
    have hplace := ih houter
    rw [List.mem_append, List.mem_singleton, not_or]
    refine ⟨hplace, ?_⟩
    rintro rfl
    rcases hadmits with hname | ⟨hunder, -⟩
    · exact Scope.isName_ne_empty hname rfl
    · rw [Scope.under_empty (h.isPath houter hplace),
        Scope.join_eq_empty (h.isPath houter hplace)] at hunder
      subst hunder
      injection houter with houter
      rw [at?_singleton, ← houter, hchild] at hkey
      simp at hkey

variable {α : Type} [Leaf α] [LawfulLeaf α] {name : String} {leaf : α}

theorem Checked.info_leaf (h : root.Checked) (happ : root.at? place = some app)
    (hleaf : app.own.leaf? α name = some leaf) :
    (Leaf.info leaf).name = name ∧ (Leaf.info leaf).parent = Scope.under "" place := by
  have hinfo : root.info? ⟨place, .ofKind (Leaf.kind α) name⟩ = some (Leaf.info leaf) := by
    rw [info?, happ, Option.bind_some, LawfulLeaf.info?_ofKind, hleaf]
    rfl
  rw [← h.info_eq hinfo]
  simp only [Metadata.filedAt, Position.name_leaf, Position.owner_leaf, and_self]

theorem Checked.reference_eq (h : root.Checked) (happ : root.at? place = some app)
    (hpath : Scope.IsPath place) : app.info.reference = Scope.join place := by
  have hinfo : root.info? ⟨place, .app⟩ = some app.info := by
    rw [info?, happ]
    rfl
  rw [← h.info_eq hinfo]
  obtain rfl | ⟨place, key, rfl⟩ := List.eq_nil_or_concat' place
  · simp [Metadata.filedAt, Position.name, Position.owner, Scope.child, Scope.join_nil]
  · have houter := (Scope.isPath_append_singleton.mp hpath).1
    simp only [Metadata.filedAt, Position.name, Position.owner, List.dropLast_concat,
      List.getLastD_concat, Scope.under_empty houter, Scope.child_join houter]

end App

namespace Store

variable {α : Type} [Leaf α] {store : Store} {app : App} {scope name : String} {leaf : α}
variable {place : List String}

theorem getApp_eq_ok : (store.getApp false scope).result = .ok app ↔
    Scope.isScope scope ∧ store.tree.find? scope = some app := by
  unfold getApp read Scope.checkRequest
  by_cases hscope : Scope.isScope scope <;> simp [hscope, App.require_eq_ok]

theorem getLeaf_eq_ok : (store.getLeaf α false scope name).result = .ok leaf ↔
    Scope.isScope scope ∧
      ∃ app, store.tree.find? scope = some app ∧ app.own.leaf? α name = some leaf := by
  unfold getLeaf read Scope.checkRequest
  by_cases hscope : Scope.isScope scope <;> simp [hscope, App.requireLeaf_eq_ok]

def FindsApp (store : Store) (app : App) : Prop :=
  Scope.isName app.info.name ∧ (store.getApp false app.info.reference).result = .ok app

def FindsLeaf (store : Store) (leaf : α) : Prop :=
  Scope.isName (Leaf.info leaf).name ∧
    (store.getLeaf α false (Leaf.info leaf).parent (Leaf.info leaf).name).result = .ok leaf

/-- Everything at a place is found by its own metadata; the root app itself needs no name. -/
structure FindsAt (store : Store) (place : List String) (app : App) : Prop where
  itself : place ≠ [] → store.FindsApp app
  channel : ∀ name channel, app.own.channels.get? name = some channel → store.FindsLeaf channel
  channelType : ∀ name channelType, app.own.types.get? name = some channelType →
    store.FindsLeaf channelType
  channelAlias : ∀ name declared, app.own.aliases.get? name = some declared →
    store.FindsLeaf declared

theorem findsLeaf [LawfulLeaf α] (h : store.tree.Checked) (hpath : Scope.IsPath place)
    (happ : store.tree.at? place = some app) (hleaf : app.own.leaf? α name = some leaf) :
    store.FindsLeaf leaf := by
  obtain ⟨hname, hparent⟩ := h.info_leaf happ hleaf
  rw [Scope.under_empty hpath] at hparent
  rw [FindsLeaf, hname, hparent, getLeaf_eq_ok]
  refine ⟨(h.valid_under happ).isName_leaf hleaf, Scope.isScope_join hpath, app, ?_, hleaf⟩
  rw [App.find?, Scope.names_join hpath, happ]

theorem findsAt (h : store.tree.Checked) (happ : store.tree.at? place = some app)
    (hempty : "" ∉ place) : store.FindsAt place app := by
  have hpath := h.isPath happ hempty
  refine ⟨?_, fun _ _ => findsLeaf h hpath happ, fun _ _ => findsLeaf h hpath happ,
    fun _ _ => findsLeaf h hpath happ⟩
  intro hne
  rw [FindsApp, h.reference_eq happ hpath, getApp_eq_ok]
  refine ⟨?_, Scope.isScope_join hpath, ?_⟩
  · obtain rfl | ⟨outer, key, rfl⟩ := List.eq_nil_or_concat' place
    · exact absurd rfl hne
    · have hname : app.info.name = key := h.name_eq happ
      rw [hname]
      exact (Scope.isPath_append_singleton.mp hpath).2
  · rw [App.find?, Scope.names_join hpath, happ]

/-- Whatever stands along names is found by its own metadata, and all of a tree is exactly if no app
stands at the root under the empty key. -/
theorem Reachable.finds_iff (h : Reachable store) :
    (∀ place app, store.tree.at? place = some app → "" ∉ place → store.FindsAt place app) ∧
      ((∀ place app, store.tree.at? place = some app → store.FindsAt place app) ↔
        store.tree.child? "" = none) := by
  have hchecked := h.committed.toChecked
  refine ⟨fun place app happ hempty => findsAt hchecked happ hempty, ?_, ?_⟩
  · intro hall
    cases hchild : store.tree.child? "" with
    | none => rfl
    | some app =>
      have happ : store.tree.at? ([] ++ [""]) = some app := by
        rw [List.nil_append, App.at?_singleton, hchild]
      have hname : app.info.name = "" := hchecked.name_eq happ
      have hfinds := ((hall _ app happ).itself (by simp)).1
      rw [hname] at hfinds
      exact absurd rfl (Scope.isName_ne_empty hfinds)
  · intro hchild place app happ
    exact findsAt hchecked happ (hchecked.notMem_of_child? hchild happ)

theorem finds_iff_unnamed : ∃ store, Reachable store ∧ ¬ ∀ place app,
    store.tree.at? place = some app → store.FindsAt place app := by
  have hfound : ((restore (({} : App).putChild "" {}) {} .unary).toOption.bind
      fun store => store.tree.child? "").isSome := by decide +kernel
  cases hrestore : restore (({} : App).putChild "" {}) {} .unary with
  | error error =>
    rw [hrestore] at hfound
    simp [Except.toOption] at hfound
  | ok store =>
    rw [hrestore] at hfound
    have hreachable : Reachable store := .restore (by decide +kernel) hrestore
    refine ⟨store, hreachable, ?_⟩
    rw [hreachable.finds_iff.2]
    exact Option.isSome_iff_ne_none.mp hfound

end Store

end AppTopology
