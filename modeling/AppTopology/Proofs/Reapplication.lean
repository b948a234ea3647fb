import AppTopology.Proofs.Arrangement
import AppTopology.Proofs.Connection
import AppTopology.Proofs.Anonymity
import AppTopology.Proofs.Putting

/-!
The update of an app may take away channels that the batch puts back only later; the batch is then
refused if an alias elsewhere names one of them by its path.
-/

namespace AppTopology

namespace Component

variable {registry : Registry} {component : Component} {done rest : List Component}
variable {contents : Contents} {place : List String} {item : Item}

theorem names_under_of_covers {root : App} (hroot : root.Checked) (hplace : (root.at? place).isSome)
    (hscope : Scope.isScope component.info.parent) (hname : Scope.isName component.info.name)
    (hp : component.site.Covers ⟨place, item⟩) : Scope.names (Scope.under "" place) = place := by
  obtain ⟨app, happ⟩ := Option.isSome_iff_exists.mp hplace
  by_cases hkind : component.kind = .app
  · have hpath := Scope.isScope_child hscope hname
    rw [covers_app hkind, site_app hkind] at hp
    refine hroot.names_under hpath (fun hempty => ?_) happ hp
    exact Scope.isName_ne_empty hname (Scope.child_eq_empty.mp hempty).2
  · rw [covers_of_ne_app hkind, site_of_ne_app hkind] at hp
    rw [(Position.mk.inj hp).1, Scope.under_names hscope]

section

variable {first last again app : App} (h : Arranged (done ++ rest)) (hfirst : first.Checked)
variable (hlast : last.Checked) (hthen : first.contents = overlay registry contents done)
variable (hend : last.contents = overlay registry contents (done ++ rest))
variable (hagain : again.contents =
  overlay registry (overlay registry contents (done ++ rest)) done)

include h hfirst hlast hthen hend hagain

theorem Arranged.names_under_again (happ : again.at? place = some app)
    (hcomponent : component ∈ done ++ rest) (hp : component.site.Covers ⟨place, item⟩) :
    Scope.names (Scope.under "" place) = place := by
  have hscope := h.inScope component hcomponent
  have hname := h.hasName component hcomponent
  have hsome : (again.contents ⟨place, .app⟩).isSome := by
    rw [← App.isSome_at?, happ]
    rfl
  rw [hagain] at hsome
  by_cases hplace : ∃ a ∈ done, a.site.Covers ⟨place, .app⟩
  · rw [overlay_again_of_covers hplace, ← hthen, ← App.isSome_at?] at hsome
    exact names_under_of_covers hfirst hsome hscope hname hp
  · rw [overlay_again_of_not_covers hplace, ← hend, ← App.isSome_at?] at hsome
    exact names_under_of_covers hlast hsome hscope hname hp

theorem Arranged.patched : again.Patched := by
  intro place app happ
  have hregular {b : Component} {item : Item} (hb : b ∈ done ++ rest)
      (hp : b.site.Covers ⟨place, item⟩) : Scope.names (Scope.under "" place) = place :=
    h.names_under_again hfirst hlast hthen hend hagain happ hb hp
  by_cases hinside : ∃ a ∈ done, a.kind = .app ∧
      a.site.place <+: Scope.names (Scope.under "" place)
  · -- Inside an app that has been put back, all is as it was when it was put there first.
    obtain ⟨a, ha, hkind, hplace⟩ := hinside
    refine ⟨first, hfirst, fun item => ?_, ?_⟩
    · rw [hagain, hthen]
      by_cases hp : ∃ a ∈ done, a.site.Covers ⟨place, item⟩
      · exact overlay_again_of_covers hp
      · rw [overlay_again_of_not_covers hp, overlay_append]
        apply overlay_of_not_covers
        intro b hb hcovers
        rw [hregular (List.mem_append_right done hb) hcovers] at hplace
        exact hp ⟨a, ha, (covers_app hkind).mpr hplace⟩
    · rw [hagain, hthen]
      exact h.around_inside ha hkind hplace
  · -- Elsewhere nothing has changed since the end of the first time.
    refine ⟨last, hlast, fun item => ?_, ?_⟩
    · rw [hagain, hend]
      apply h.overlay_outside
      intro a ha hkind hcovers
      refine hinside ⟨a, ha, hkind, ?_⟩
      rw [hregular (List.mem_append_left rest ha) hcovers]
      exact (covers_app hkind).mp hcovers
    · rw [hagain, hend]
      exact around_outside fun a ha hkind hplace => hinside ⟨a, ha, hkind, hplace⟩

end

end Component

namespace Store

variable {store : Store} {mode : Mode} {components done rest : List Component}
variable {component : Component} {applied : List Applied}

theorem Reachable.anonymous_eq {other : Store} (h : Reachable store) (h' : Reachable other)
    (hcontents : store.tree.contents = other.tree.contents) :
    store.tree.anonymous = other.tree.anonymous :=
  App.anonymous_eq_of_declared h.committed.toChecked h'.committed.toChecked h.connected
    h'.connected
    (App.declared_eq_of_contents h.committed.ordered h'.committed.ordered hcontents)

theorem exists_of_applyInOrder_cons
    (h : (store.applyInOrder mode (component :: rest)).result = .ok applied) :
    (∃ first, (store.applyOne component mode).result = .ok first) ∧
      ∃ later, ((store.applyOne component mode).store.applyInOrder mode rest).result =
        .ok later := by
  cases hfirst : (store.applyOne component mode).result with
  | error error =>
    rw [(applyInOrder_cons_error hfirst rest).1] at h
    exact nomatch h
  | ok first =>
    rw [(applyInOrder_cons_ok hfirst rest).1] at h
    cases hrest : ((store.applyOne component mode).store.applyInOrder mode rest).result with
    | ok later => exact ⟨⟨first, rfl⟩, later, rfl⟩
    | error error =>
      rw [hrest] at h
      exact nomatch h

theorem exists_of_applyInOrder_append
    (h : (store.applyInOrder mode (done ++ rest)).result = .ok applied) :
    (∃ earlier, (store.applyInOrder mode done).result = .ok earlier) ∧
      ∃ later, ((store.applyInOrder mode done).store.applyInOrder mode rest).result = .ok later := by
  induction done generalizing store applied with
  | nil => exact ⟨⟨[], rfl⟩, applied, h⟩
  | cons component done ih =>
    obtain ⟨⟨first, hfirst⟩, later, hlater⟩ := exists_of_applyInOrder_cons h
    obtain ⟨⟨earlier, hearlier⟩, hrest⟩ := ih hlater
    obtain ⟨hresult, hafter⟩ := applyInOrder_cons_ok hfirst done
    rw [hresult, hafter, hearlier]
    exact ⟨⟨_, rfl⟩, hrest⟩

structure Overlaid (before after : Store) (components : List Component) : Prop where
  contents : after.tree.contents =
    Component.overlay before.registry before.tree.contents components
  registry : after.registry = before.registry
  reachable : Reachable after

theorem Reachable.overlaid (h : Reachable store)
    (hcomponents : ∀ component ∈ components, component.Ordered)
    (hnames : ∀ component ∈ components, Scope.isName component.info.name)
    (hmode : mode.dryRun = false)
    (hresult : (store.applyInOrder mode components).result = .ok applied) :
    Overlaid store (store.applyInOrder mode components).store components := by
  induction components generalizing store applied with
  | nil => exact ⟨rfl, rfl, h⟩
  | cons component rest ih =>
    simp only [List.mem_cons, forall_eq_or_imp] at hcomponents hnames
    obtain ⟨⟨first, hfirst⟩, later, hlater⟩ := exists_of_applyInOrder_cons hresult
    obtain ⟨hput, -⟩ := h.put hcomponents.1 hnames.1 hmode hfirst
    obtain ⟨hcontents, hregistry, hreachable⟩ :=
      ih hput.reachable hcomponents.2 hnames.2 hlater
    rw [(applyInOrder_cons_ok hfirst rest).2]
    refine ⟨?_, hregistry.trans hput.registry, hreachable⟩
    rw [hcontents, hput.contents, hput.registry]
    rfl

/-- The component is refused: in the tree with it in place, an alias names by its path a channel that
is not there. -/
structure Severs (store : Store) (component : Component) (mode : Mode) (edited : App)
    (error : TopologyError) : Prop where
  edit : ((component.mutation (component.isIn store.tree)).route store.registry).edit store.tree =
    .ok edited
  severed : edited.Severed
  invalid : edited.filed.validate = .error error
  dangling : error.IsDangling
  refused : (store.applyOne component mode).result = .error error
  unchanged : (store.applyOne component mode).store = store

section

variable {start before after last again : Store} {edited : App}

theorem Overlaid.contents_again (hlast : Overlaid start last components)
    (hagain : Overlaid last again done) : again.tree.contents =
      Component.overlay start.registry
        (Component.overlay start.registry start.tree.contents components) done := by
  rw [hagain.contents, hlast.registry, hlast.contents]

theorem Put.contents_after (hput : Put before after component)
    (hbefore : Overlaid start before done) : after.tree.contents =
      Component.overlay start.registry start.tree.contents (done ++ [component]) := by
  rw [hput.contents, hbefore.registry, hbefore.contents, Component.overlay_concat]

variable (harranged : Component.Arranged (done ++ component :: rest)) (hcomponent : component.Ordered)
variable (hbefore : Overlaid start before done) (hput : Put before after component)
variable (hlast : Overlaid start last (done ++ component :: rest))
variable (hagain : Overlaid last again done)
variable (hedit : ((component.mutation (component.isIn again.tree)).route again.registry).edit
  again.tree = .ok edited)

include hcomponent hlast hagain hedit

theorem contents_edit_again : edited.filed.contents =
    Component.overlay start.registry
      (Component.overlay start.registry start.tree.contents (done ++ component :: rest))
      (done ++ [component]) := by
  rw [App.contents_congr edited.declared_filed, Component.contents_of_edit hcomponent hedit,
    hlast.contents_again hagain, hagain.registry, hlast.registry, Component.overlay_concat]

include harranged hbefore hput

theorem patched_edit_again : edited.filed.Patched := by
  have hedited := contents_edit_again hcomponent hlast hagain hedit
  have hend := hlast.contents
  rw [List.append_cons] at harranged hedited hend
  exact harranged.patched hput.reachable.committed.toChecked hlast.reachable.committed.toChecked
    (hput.contents_after hbefore) hend hedited

theorem houses_of_severed (hsevered : edited.filed.Severed) :
    ∃ inner ∈ rest, component.Houses inner := by
  by_contra! hfree
  apply App.severed_iff.mp hsevered
  rw [contents_edit_again hcomponent hlast hagain hedit]
  apply harranged.unsevered_again hfree
  · rw [← hput.contents_after hbefore]
    exact hput.reachable.committed.toChecked.unsevered
  · rw [← hlast.contents]
    exact hlast.reachable.committed.toChecked.unsevered
  · rw [← hlast.contents_again hagain]
    exact hagain.reachable.committed.toChecked.unsevered

omit hedit

theorem Put.again_or_severs (hcancelled : mode.cancelled = false) :
    (∃ applied, (again.applyOne component mode).result = .ok applied) ∨
      (∃ inner ∈ rest, component.Houses inner) ∧
        ∃ edited error, again.Severs component mode edited error := by
  have hname := harranged.hasName component (by simp)
  have hparent : (again.tree.contents ⟨Scope.names component.info.parent, .app⟩).isSome := by
    rw [hlast.contents_again hagain]
    apply harranged.isSome_parent_again
    rw [← hbefore.contents]
    exact hput.parent
  obtain ⟨edited, hedit, hok | ⟨error, hinvalid, hrefused, hsame⟩⟩ :=
    hagain.reachable.put_or_invalid hcomponent hname hcancelled hput.inScope hparent hput.fits
  · exact .inl hok
  · have hordered := (Component.edited_of_edit hcomponent hedit).ordered
      hagain.reachable.committed.ordered
    have hpatched := patched_edit_again harranged hcomponent hbefore hput hlast hagain hedit
    have hdangling := hpatched.isDangling hordered.filed edited.filed_filed hinvalid
    have hsevered : edited.filed.Severed := by
      by_contra hwhole
      rw [hpatched.valid hordered.filed edited.filed_filed hwhole] at hinvalid
      exact nomatch hinvalid
    have hhouses :=
      houses_of_severed harranged hcomponent hbefore hput hlast hagain hedit hsevered
    rw [App.severed_iff, App.contents_congr edited.declared_filed, ← App.severed_iff] at hsevered
    exact .inr ⟨hhouses, edited, error, hedit, hsevered, hinvalid, hdangling, hrefused, hsame⟩

end

theorem exists_of_applyInOrder_concat {earlier : List Applied} {last : Applied}
    (hdone : (store.applyInOrder mode done).result = .ok earlier)
    (hlast : ((store.applyInOrder mode done).store.applyOne component mode).result = .ok last) :
    ∃ applied, (store.applyInOrder mode (done ++ [component])).result = .ok applied := by
  rw [(applyInOrder_append hdone [component]).1, (applyInOrder_cons_ok hlast []).1]
  exact ⟨_, rfl⟩

/-- A batch ends at an app that severs something as long as others of the batch are not back in it;
what came before is applied. -/
structure StopsAt (store : Store) (components : List Component) (mode : Mode)
    (done : List Component) (component : Component) (rest : List Component) : Prop where
  order : Component.ordered components = done ++ component :: rest
  applied : ∃ earlier, (store.applyInOrder mode done).result = .ok earlier
  inside : ∃ inner ∈ rest, component.Houses inner
  refused : ∃ edited error, (store.applyInOrder mode done).store.Severs component mode edited error ∧
    (store.apply components mode).result = .error error ∧
    (store.apply components mode).store = (store.applyInOrder mode done).store

theorem stopsAt_of_severs {earlier : List Applied} {edited : App} {error : TopologyError}
    (horder : Component.ordered components = done ++ component :: rest)
    (hdone : (store.applyInOrder mode done).result = .ok earlier)
    (hinside : ∃ inner ∈ rest, component.Houses inner)
    (hsevers : (store.applyInOrder mode done).store.Severs component mode edited error) :
    store.StopsAt components mode done component rest := by
  obtain ⟨hresult, hafter⟩ := applyInOrder_append hdone (component :: rest)
  obtain ⟨hrest, hrest'⟩ := applyInOrder_cons_error hsevers.refused rest
  refine ⟨horder, ⟨earlier, hdone⟩, hinside, edited, error, hsevers, ?_, ?_⟩
  · rw [apply, horder, hresult, hrest]
    rfl
  · rw [apply, horder, hafter, hrest', hsevers.unchanged]

section

variable (h : Reachable store) (hmode : mode.dryRun = false)
variable (hcomponents : ∀ component ∈ Component.ordered components, component.Ordered)
variable (hnames : ∀ component ∈ Component.ordered components, Scope.isName component.info.name)
variable (hresult : (store.apply components mode).result = .ok applied)

include h hmode hcomponents hnames hresult

theorem put_of_apply (horder : Component.ordered components = done ++ component :: rest) :
    let before := (store.applyInOrder mode done).store
    Overlaid store before done ∧ Put before (before.applyOne component mode).store component ∧
      mode.cancelled = false := by
  intro before
  rw [apply, horder] at hresult
  rw [horder] at hcomponents hnames
  obtain ⟨⟨_, hdone⟩, _, hrest⟩ := exists_of_applyInOrder_append hresult
  obtain ⟨⟨_, hfirst⟩, -⟩ := exists_of_applyInOrder_cons hrest
  have hbefore := h.overlaid (fun a ha => hcomponents a (List.mem_append_left _ ha))
    (fun a ha => hnames a (List.mem_append_left _ ha)) hmode hdone
  exact ⟨hbefore,
    hbefore.reachable.put (hcomponents component (by simp)) (hnames component (by simp)) hmode hfirst⟩

theorem arranged_of_apply (hdistinct : (components.map Component.key).Nodup) :
    Component.Arranged (Component.ordered components) where
  inScope component hmem := by
    obtain ⟨done, rest, horder⟩ := List.append_of_mem hmem
    obtain ⟨-, hput, -⟩ := put_of_apply h hmode hcomponents hnames hresult horder
    exact hput.inScope
  hasName := hnames
  sorted := Component.pairwise_ordered components
  distinct := ((List.mergeSort_perm components _).map Component.key).nodup_iff.mpr hdistinct

theorem again_or_stops (harranged : Component.Arranged (Component.ordered components))
    (horder : Component.ordered components = done ++ rest) :
    let last := (store.apply components mode).store
    (∃ earlier, (last.applyInOrder mode done).result = .ok earlier) ∨
      ∃ done component rest, last.StopsAt components mode done component rest := by
  intro last
  -- The induction is on what is applied again: so far it went through, or the batch has stopped.
  induction done using List.reverseRecOn generalizing rest with
  | nil => exact .inl ⟨[], rfl⟩
  | append_singleton done component ih =>
    rw [← List.append_cons] at horder
    obtain ⟨earlier, hearlier⟩ | hstops := ih horder
    · obtain ⟨hbefore, hput, hcancelled⟩ :=
        put_of_apply h hmode hcomponents hnames hresult horder
      have hlast : Overlaid store last (done ++ component :: rest) := by
        rw [← horder]
        exact h.overlaid hcomponents hnames hmode hresult
      have hagain := hlast.reachable.overlaid
        (fun a ha => hcomponents a (by simp [horder, ha]))
        (fun a ha => hnames a (by simp [horder, ha])) hmode hearlier
      have hcomponent := hcomponents component (by simp [horder])
      rw [horder] at harranged
      obtain ⟨_, hok⟩ | ⟨hinside, edited, error, hsevers⟩ :=
        Put.again_or_severs harranged hcomponent hbefore hput hlast hagain hcancelled
      · exact .inl (exists_of_applyInOrder_concat hearlier hok)
      · exact .inr ⟨done, component, rest, stopsAt_of_severs horder hearlier hinside hsevers⟩
    · exact .inr hstops

end

/-- A batch goes through again, unless it stops at an app: without what is declared apart inside it,
an alias elsewhere leads nowhere. -/
theorem Reachable.reapplies (h : Reachable store)
    (hcomponents : ∀ component ∈ components, component.Ordered)
    (hnames : ∀ component ∈ components, Scope.isName component.info.name)
    (hdistinct : (components.map Component.key).Nodup) (hmode : mode.dryRun = false)
    (hresult : (store.apply components mode).result = .ok applied) :
    let first := (store.apply components mode).store
    let second := first.apply components mode
    ((∃ applied, second.result = .ok applied) ∧
      second.store.tree.anonymous = first.tree.anonymous) ∨
    ∃ done component rest, first.StopsAt components mode done component rest := by
  intro first second
  have hmem {component : Component} (hmem : component ∈ Component.ordered components) :
      component ∈ components := List.mem_mergeSort.mp hmem
  have hcomponents (c : Component) (hc : c ∈ Component.ordered components) :=
    hcomponents c (hmem hc)
  have hnames (c : Component) (hc : c ∈ Component.ordered components) := hnames c (hmem hc)
  have harranged := arranged_of_apply h hmode hcomponents hnames hresult hdistinct
  obtain ⟨applied', hagain⟩ | hstops :=
    again_or_stops h hmode hcomponents hnames hresult harranged (List.append_nil _).symm
  · have hfirst := h.overlaid hcomponents hnames hmode hresult
    have hsecond := hfirst.reachable.overlaid hcomponents hnames hmode hagain
    refine .inl ⟨⟨applied', hagain⟩, hsecond.reachable.anonymous_eq hfirst.reachable ?_⟩
    rw [hfirst.contents_again hsecond, Component.overlay_overlay]
    exact hfirst.contents.symm
  · exact .inr hstops

theorem apply_eq_applyInOrder (store : Store) (mode : Mode)
    (h : components.Pairwise fun a b => a.before b) :
    store.apply components mode = store.applyInOrder mode components := by
  rw [apply, Component.ordered, List.mergeSort_of_pairwise h]

theorem reapplies_billing :
    let store := (Fixture.seededStore .unary).1
    let components : List Component :=
      [.app Fixture.billing, .channelAlias (.named "bills" "billing.invoices")]
    let first := (store.apply components {}).store
    let second := first.apply components {}
    (∃ applied, second.result = .ok applied) ∧
      second.store.tree.anonymous = first.tree.anonymous := by
  intro store components first second
  have horder : components.Pairwise fun a b => a.before b := by decide +kernel
  have hordered : ∀ component ∈ components, component.Ordered := by
    simp only [components, List.forall_mem_cons]
    exact ⟨show Fixture.billing.Ordered by decide +kernel, Dict.ordered_empty, nofun⟩
  have hresult : (store.apply components {}).result.toOption.isSome := by
    rw [apply_eq_applyInOrder _ _ horder]
    decide +kernel
  have hagain : second.result.toOption.isSome := by
    simp only [second, first]
    rw [apply_eq_applyInOrder _ _ horder, apply_eq_applyInOrder _ _ horder]
    decide +kernel
  obtain ⟨applied, hresult⟩ := Check.exists_of_isSome hresult
  obtain ⟨applied', hagain⟩ := Check.exists_of_isSome hagain
  have hstore : Reachable store := .empty _ .unary
  obtain hreapplied | ⟨done, component, rest, hstops⟩ :=
    hstore.reapplies hordered (by decide +kernel) (by decide +kernel) rfl hresult
  · exact hreapplied
  · obtain ⟨edited, error, -, hrefused, -⟩ := hstops.refused
    have hclash := hagain.symm.trans hrefused
    exact nomatch hclash

/-- Once its channel is declared apart from it, the app is not updated again: for the moment the
channel is gone, and the alias leads nowhere. -/
theorem refused_again_billing :
    let store := Store.empty {} .unary
    let components : List Component :=
      [.app (.named "billing"),
        .channelType { info := { name := "Invoice", parent := "billing" }, schema := "object" },
        .channel { info := { name := "invoices", parent := "billing" }, typeName := "Invoice" },
        .channelAlias (.named "bills" "billing.invoices")]
    let first := store.apply components {}
    Reachable store ∧ (∀ component ∈ components, component.Ordered) ∧
      (∀ component ∈ components, Scope.isName component.info.name) ∧
      (components.map Component.key).Nodup ∧ first.result.toOption.isSome ∧
      (first.store.apply components {}).result =
        .error (.danglingTarget "bills" "billing.invoices") := by
  intro store components first
  have horder : components.Pairwise fun a b => a.before b := by decide +kernel
  simp only [first]
  rw [apply_eq_applyInOrder _ _ horder, apply_eq_applyInOrder _ _ horder]
  refine ⟨.empty _ .unary, ?_, ?_, ?_, ?_, ?_⟩
  · simp only [components, List.forall_mem_cons]
    exact ⟨show (App.named "billing").Ordered by decide +kernel, Dict.ordered_empty,
      Dict.ordered_empty, Dict.ordered_empty, nofun⟩
  · decide +kernel
  · decide +kernel
  · decide +kernel
  · -- Results of batches cannot be compared, but errors can.
    apply Check.eq_error_of_map (f := fun _ => ())
    decide +kernel

end Store

end AppTopology
