import AppTopology.Proofs.Reapplication
import AppTopology.Proofs.Restoration

namespace AppTopology

namespace App

variable {tree app other edited : App}

theorem GiveSame.of_contents (happ : ∀ p info, app.info? p = some info → info.FitsAt p)
    (hother : ∀ p info, other.info? p = some info → info.FitsAt p)
    (h : app.contents = other.contents) : app.GiveSame other := by
  have hgiven {app : App} (happ : ∀ p info, app.info? p = some info → info.FitsAt p)
      (p : Position) : (app.entity? p).map (Entity.given p) =
        (app.contents p).map fun entity => (entity, p.name) := by
    rw [contents, Option.map_map]
    apply Option.map_congr
    intro entity hentity
    have hfits : entity.info.FitsAt p := happ p _ (by rw [info?_eq, hentity]; rfl)
    exact Prod.ext rfl (Entity.fitsAt_iff.mp hfits)
  intro p
  rw [hgiven happ, hgiven hother, h]

theorem Checked.detached_filed_eq (htree : tree.Checked) (hedited : edited.Ordered)
    (hcarries : tree.Carries edited)
    (hfits : ∀ p info, edited.info? p = some info → info.FitsAt p)
    (h : edited.contents = tree.contents) : edited.filed.detached = tree.detached := by
  have hfitsTree (p : Position) (info : Metadata) (hinfo : tree.info? p = some info) :
      info.FitsAt p := by
    rw [← htree.info_eq hinfo]
    exact .inr rfl
  have hsame := (GiveSame.of_contents hfitsTree hfits h.symm).detached_filed htree.ordered hedited
    (.refl tree) hcarries
  rw [← hsame, htree.filed]

end App

namespace Component

variable {component : Component} {tree : App}

theorem isIn_find? (hkind : component.kind = .app) (hin : component.isIn tree) :
    (tree.find? (Scope.child component.info.parent component.info.name)).isSome := by
  rw [App.isSome_find?, App.isSome_contents]
  rw [isIn, site_app hkind] at hin
  exact hin

theorem changes_self (htree : tree.Checked) (hscope : Scope.isScope component.info.parent)
    (hname : Scope.isName component.info.name) (hin : component.isIn tree) :
    component.site.changes tree tree = .ok [] := by
  have happend := Scope.Admits.append (.inl hname) hscope
  have hleaf (α : Type) [Leaf α] [LawfulLeaf α] :
      Target.leafChanges α component.info.parent component.info.name tree tree = .ok [] := by
    unfold Target.leafChanges
    rw [happend]
    exact congrArg Except.ok (Diff.leaf_self false _ _)
  cases component with
  | channelType => exact hleaf ChannelType
  | channel => exact hleaf Channel
  | channelAlias => exact hleaf ChannelAlias
  | app app =>
    have hpath := Scope.isScope_child hscope hname
    obtain ⟨old, hold⟩ := Option.isSome_iff_exists.mp (isIn_find? rfl hin)
    obtain ⟨hnamed, hown⟩ := htree.rooted hpath old hold
    change Diff.trees (tree.find? _) (tree.find? _) = _
    rw [hold, Diff.trees_eq (.inl rfl) (fun _ happ => Option.some.inj happ ▸ hown)
      (fun _ happ => Option.some.inj happ ▸ hown)]
    exact Diff.subtree_self hpath hnamed false

end Component

namespace Component

variable {component : Component} {root : App}

theorem isSome_content_position (registry : Registry) (component : Component) :
    (component.content registry component.site.position).isSome := by
  by_cases hkind : component.kind = .app
  · cases component with
    | app app =>
      have hafter : (site (.app app)).position.after (site (.app app)).place = ⟨[], .app⟩ := by
        simp [Position.after, Target.position, site, Target.ofKind, kind, Target.item]
      rw [content, hafter, Option.isSome_map]
      rfl
    | channelType | channel | channelAlias => cases hkind
  · exact isSome_content hkind

theorem parent_prefix (hscope : Scope.isScope component.info.parent)
    (hname : Scope.isName component.info.name) :
    Scope.names component.info.parent <+: component.site.position.place := by
  by_cases hkind : component.kind = .app
  · rw [Target.position, place_app hscope hname hkind]
    exact List.prefix_append _ _
  · have hplace := congrArg Position.place (site_of_ne_app hkind)
    exact hplace ▸ List.prefix_rfl

theorem isSome_parent_of_isIn (hscope : Scope.isScope component.info.parent)
    (hname : Scope.isName component.info.name) (hin : component.isIn root) :
    (root.contents ⟨Scope.names component.info.parent, .app⟩).isSome := by
  obtain ⟨inner, hinner⟩ := parent_prefix hscope hname
  obtain ⟨entity, hentity⟩ := Option.isSome_iff_exists.mp hin
  obtain ⟨app, happ, -⟩ := Option.bind_eq_some_iff.mp hentity
  rw [← hinner, App.at?_append, Option.bind_eq_some_iff] at happ
  obtain ⟨parent, hparent, -⟩ := happ
  rw [← App.isSome_at?, hparent]
  rfl

end Component

namespace Store

variable {store : Store} {component : Component} {mode : Mode}

structure Rests (store : Store) (component : Component) : Prop where
  ordered : component.Ordered
  inScope : Scope.isScope component.info.parent
  hasName : Scope.isName component.info.name
  fits : component.Fits
  contents : ∀ p, component.site.Covers p →
    component.content store.registry p = store.tree.contents p

namespace Rests

theorem isIn (h : store.Rests component) : component.isIn store.tree := by
  rw [Component.isIn, ← App.isSome_contents, ← h.contents _ component.covers_position]
  exact component.isSome_content_position store.registry

theorem lay_eq (h : store.Rests component) :
    Component.lay store.registry store.tree.contents component = store.tree.contents := by
  funext p
  rw [Component.lay]
  split
  · next hp => exact h.contents p hp
  · rfl

theorem applyOne_eq (h : store.Rests component) (hstore : Reachable store)
    (hcancelled : mode.cancelled = false) :
    (store.applyOne component mode).result = .ok (.about component true []) ∧
      (store.applyOne component mode).store = store := by
  have htree := hstore.committed
  have hparent := Component.isSome_parent_of_isIn h.inScope h.hasName h.isIn
  obtain ⟨edited, hedit⟩ :=
    component.exists_edit store.registry h.inScope h.hasName hparent
  have hedited := Component.edited_of_edit h.ordered hedit
  have hfits := (Component.fits_iff h.ordered htree.toChecked hedit).mp h.fits
  have hcontents := Component.contents_of_edit h.ordered hedit
  rw [h.lay_eq] at hcontents
  have hdetached := htree.detached_filed_eq (hedited.ordered htree.ordered) hedited.carries hfits
    hcontents
  have hstaged : Staged store (component.mutation (component.isIn store.tree)) edited [] := by
    refine ⟨hedit, hfits, ?_, ?_⟩
    · rw [← App.validate_detached, hdetached, App.validate_detached, htree.valid]
    · rw [component.target_mutation, ← App.changes_detached, hdetached, App.changes_detached]
      exact component.changes_self htree.toChecked h.inScope h.hasName h.isIn
  have hcommit : store.commit edited.filed = store := by
    rw [← commit_detached, hdetached, commit_detached,
      (htree.stable hstore.connected).commit store]
  obtain ⟨hresult, hafter⟩ := mutate_of_staged htree.ordered
    (Component.ordered_mutation h.ordered _) hstaged hcancelled
  obtain ⟨happlied, hafter'⟩ := store.applyOne_eq mode h.inScope h.hasName
  rw [happlied, hafter', hresult, hafter, hcommit, ite_self, h.isIn]
  exact ⟨rfl, rfl⟩

end Rests

theorem applyInOrder_of_rests {components : List Component} (hstore : Reachable store)
    (h : ∀ component ∈ components, mode.cancelled = false ∧ store.Rests component) :
    (store.applyInOrder mode components).result = .ok (components.map (.about · true [])) ∧
      (store.applyInOrder mode components).store = store := by
  induction components with
  | nil => exact ⟨rfl, rfl⟩
  | cons component rest ih =>
    simp only [List.mem_cons, forall_eq_or_imp] at h
    obtain ⟨⟨hcancelled, hrests⟩, hlater⟩ := h
    obtain ⟨hfirst, hsame⟩ := hrests.applyOne_eq hstore hcancelled
    obtain ⟨hresult, hafter⟩ := applyInOrder_cons_ok hfirst rest
    obtain ⟨hrest, hrest'⟩ := ih hlater
    rw [hsame] at hresult hafter
    rw [hresult, hafter, hrest, hrest']
    exact ⟨rfl, rfl⟩

end Store

namespace Component

/-- The component is an app, and the other one is declared at its path or below. -/
def Encloses (component inner : Component) : Prop :=
  component.kind = .app ∧
    ∃ path ∈ (Scope.append component.info.parent component.info.name).toOption,
      Scope.isInner path inner.info.parent

instance (component inner : Component) : Decidable (component.Encloses inner) :=
  inferInstanceAs (Decidable (_ ∧ _))

theorem encloses_of_append {component inner : Component} {path : String}
    (hkind : component.kind = .app)
    (hpath : Scope.append component.info.parent component.info.name = .ok path)
    (hinner : Scope.isInner path inner.info.parent) : component.Encloses inner :=
  ⟨hkind, path, by rw [hpath]; rfl, hinner⟩

theorem Houses.encloses {component inner : Component} (h : component.Houses inner)
    (hscope : Scope.isScope component.info.parent) (hname : Scope.isName component.info.name) :
    component.Encloses inner :=
  encloses_of_append h.1 (Scope.Admits.append (.inl hname) hscope) h.2

theorem isName_of_named {component : Component} {path : String} (hnamed : component.Named)
    (hpath : Scope.append component.info.parent component.info.name = .ok path)
    (hfree : ¬ component.Encloses component) : Scope.isName component.info.name := by
  refine hnamed.resolve_right fun ⟨hkind, hempty⟩ => hfree (encloses_of_append hkind hpath ?_)
  obtain ⟨hscope, -, rfl⟩ := Scope.append_eq_ok.mp hpath
  rw [if_pos hempty]
  exact Scope.isInner_self hscope

end Component

namespace Store

variable {store : Store} {component : Component} {mode : Mode} {components : List Component}
variable {done rest : List Component} {applied : List Applied}

theorem named_of_applyInOrder
    (hresult : (store.applyInOrder mode components).result = .ok applied) :
    ∀ component ∈ components, component.Named ∧
      ∃ path, Scope.append component.info.parent component.info.name = .ok path := by
  induction components generalizing store applied with
  | nil => exact fun _ hmem => absurd hmem List.not_mem_nil
  | cons component rest ih =>
    simp only [List.mem_cons, forall_eq_or_imp]
    obtain ⟨⟨first, hfirst⟩, later, hlater⟩ := exists_of_applyInOrder_cons hresult
    obtain ⟨_, _, _, -, hmade⟩ := exists_made hfirst
    obtain ⟨path, hpath, -⟩ := hmade.path
    exact ⟨⟨hmade.named, path, hpath⟩, ih hlater⟩

theorem Overlaid.rests {before after last : Store}
    (harranged : Component.Arranged (done ++ component :: rest)) (hcomponent : component.Ordered)
    (hput : Put before after component) (hlast : Overlaid store last (done ++ component :: rest))
    (hfree : ∀ inner ∈ rest, ¬ component.Houses inner) : last.Rests component where
  ordered := hcomponent
  inScope := hput.inScope
  hasName := harranged.hasName component (by simp)
  fits := hput.fits
  contents p hp := by
    rw [hlast.contents, hlast.registry, Component.overlay_of_last hp fun inner hinner =>
      harranged.not_covers_of_free hfree hp hinner]

theorem Reachable.apply_again (h : Reachable store)
    (hcomponents : ∀ component ∈ components, component.Ordered)
    (hdistinct : (components.map Component.key).Nodup)
    (hfree : ∀ component ∈ components, ∀ inner ∈ components, ¬ component.Encloses inner)
    (hmode : mode.dryRun = false)
    (hresult : (store.apply components mode).result = .ok applied) :
    let first := (store.apply components mode).store
    let second := first.apply components mode
    second.result = .ok ((Component.ordered components).map (.about · true [])) ∧
      second.store = first := by
  intro first second
  have hmem {component : Component} (hmem : component ∈ Component.ordered components) :
      component ∈ components := List.mem_mergeSort.mp hmem
  have hcomponents (c : Component) (hc : c ∈ Component.ordered components) :=
    hcomponents c (hmem hc)
  have hnames (c : Component) (hc : c ∈ Component.ordered components) :
      Scope.isName c.info.name := by
    obtain ⟨hnamed, path, hpath⟩ := named_of_applyInOrder hresult c hc
    exact Component.isName_of_named hnamed hpath (hfree c (hmem hc) c (hmem hc))
  have harranged := arranged_of_apply h hmode hcomponents hnames hresult hdistinct
  have hfirst : Overlaid store first (Component.ordered components) :=
    h.overlaid hcomponents hnames hmode hresult
  refine applyInOrder_of_rests hfirst.reachable fun component hcomponent => ?_
  obtain ⟨done, rest, horder⟩ := List.append_of_mem hcomponent
  obtain ⟨-, hput, hcancelled⟩ := put_of_apply h hmode hcomponents hnames hresult horder
  have hordered := hcomponents component hcomponent
  have hnone (inner : Component) (hinner : inner ∈ rest) : ¬ component.Houses inner := by
    intro hhouses
    exact hfree component (hmem hcomponent) inner (hmem (by simp [horder, hinner]))
      (hhouses.encloses hput.inScope (hnames component hcomponent))
  rw [horder] at harranged hfirst
  exact ⟨hcancelled, hfirst.rests harranged hordered hput hnone⟩

theorem apply_again_billing :
    let store := (Fixture.seededStore .unary).1
    let components : List Component :=
      [.app Fixture.billing, .channelAlias (.named "bills" "billing.invoices")]
    let first := (store.apply components {}).store
    let second := first.apply components {}
    second.result = .ok [⟨.app, "", "billing", true, []⟩, ⟨.channelAlias, "", "bills", true, []⟩] ∧
      second.store = first := by
  intro store components first second
  have horder : components.Pairwise fun a b => a.before b := by decide +kernel
  have hordered : ∀ component ∈ components, component.Ordered := by
    simp only [components, List.forall_mem_cons]
    exact ⟨show Fixture.billing.Ordered by decide +kernel, Dict.ordered_empty, nofun⟩
  have hresult : (store.apply components {}).result.toOption.isSome := by
    rw [apply_eq_applyInOrder _ _ horder]
    decide +kernel
  obtain ⟨applied, hresult⟩ := Check.exists_of_isSome hresult
  have hstore : Reachable store := .empty _ .unary
  obtain ⟨hagain, hsame⟩ := hstore.apply_again hordered (by decide +kernel) (by decide +kernel) rfl
    hresult
  refine ⟨hagain.trans ?_, hsame⟩
  rw [Component.ordered, List.mergeSort_of_pairwise horder]
  rfl

end Store
end AppTopology
