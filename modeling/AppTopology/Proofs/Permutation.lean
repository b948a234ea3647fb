import AppTopology.Proofs.Reapplication

/-!
The same component lies last over a position in any arrangement, and finds the same there when its
turn comes. So the outcome does not depend on the order of declaration, although the trees on the
way do.
-/

namespace AppTopology

namespace Store

variable {store : Store} {mode : Mode} {component : Component} {existed existed' : Bool}
variable {log log' : Changelog} {components components' done rest : List Component}
variable {applied applied' : List Applied}

def Reports (store : Store) (mode : Mode) (components : List Component) (component : Component)
    (existed : Bool) (log : Changelog) : Prop :=
  ∃ done rest, components = done ++ component :: rest ∧
    ((store.applyInOrder mode done).store.applyOne component mode).result =
      .ok (.about component existed log)

theorem reports_of_applyInOrder {earlier : List Applied}
    (hdone : (store.applyInOrder mode done).result = .ok earlier)
    (hrest : ((store.applyInOrder mode done).store.applyInOrder mode rest).result = .ok applied) :
    List.Forall₂ (fun component report => ∃ existed log,
      store.Reports mode (done ++ rest) component existed log ∧
        report = .about component existed log) rest applied := by
  induction rest generalizing done earlier applied with
  | nil =>
    rw [← Except.ok.inj hrest]
    exact .nil
  | cons component rest ih =>
    obtain ⟨⟨first, hfirst⟩, later, hlater⟩ := exists_of_applyInOrder_cons hrest
    obtain ⟨hresult, -⟩ := applyInOrder_cons_ok hfirst rest
    rw [hrest, hlater, Except.map, Except.ok.injEq] at hresult
    obtain ⟨existed, log, -, rfl, -⟩ := exists_made hfirst
    obtain ⟨earlier, hdone'⟩ := exists_of_applyInOrder_concat hdone hfirst
    have hafter : (store.applyInOrder mode (done ++ [component])).store =
        ((store.applyInOrder mode done).store.applyOne component mode).store := by
      rw [(applyInOrder_append hdone [component]).2, (applyInOrder_cons_ok hfirst []).2]
      rfl
    have hothers := ih hdone' (by rw [hafter]; exact hlater)
    rw [← List.append_cons] at hothers
    rw [hresult]
    exact .cons ⟨existed, log, ⟨done, rest, rfl, hfirst⟩, rfl⟩ hothers

theorem mutate_of_applyOne (hscope : Scope.isScope component.info.parent)
    (hname : Scope.isName component.info.name)
    (h : (store.applyOne component mode).result = .ok (.about component existed log)) :
    existed = component.isIn store.tree ∧
      (store.mutate (component.mutation existed) mode).result = .ok log := by
  rw [(store.applyOne_eq mode hscope hname).1] at h
  cases hlog : (store.mutate (component.mutation (component.isIn store.tree)) mode).result with
  | error error =>
    rw [hlog] at h
    exact nomatch h
  | ok log' =>
    rw [hlog, Except.map, Except.ok.injEq] at h
    obtain ⟨-, -, -, rfl, rfl⟩ := Applied.mk.inj h
    exact ⟨rfl, hlog⟩

theorem report_eq {before before' : Store} (hstore : before.tree.Committed)
    (hstore' : before'.tree.Committed) (hregistry : before'.registry = before.registry)
    (hcomponent : component.Ordered) (hscope : Scope.isScope component.info.parent)
    (hname : Scope.isName component.info.name)
    (hcontents : ∀ p, component.site.Covers p → before'.tree.contents p = before.tree.contents p)
    (h : (before.applyOne component mode).result = .ok (.about component existed log))
    (h' : (before'.applyOne component mode).result = .ok (.about component existed' log')) :
    existed' = existed ∧ log' = log := by
  obtain ⟨hexisted, hlog⟩ := mutate_of_applyOne hscope hname h
  obtain ⟨hexisted', hlog'⟩ := mutate_of_applyOne hscope hname h'
  have hsame : existed' = existed := by
    rw [hexisted, hexisted', Component.isIn, Component.isIn, ← App.isSome_contents,
      ← App.isSome_contents, hcontents _ component.covers_position]
  rw [hsame] at hlog'
  refine ⟨hsame, log_eq hstore hstore' hregistry (Component.ordered_mutation hcomponent existed)
    (fun p hp => ?_) hlog hlog'⟩
  rw [component.target_mutation] at hp
  exact hcontents p hp

structure Passes (store : Store) (mode : Mode) (components : List Component) : Prop where
  ordered : ∀ component ∈ components, component.Ordered
  named : ∀ component ∈ components, Scope.isName component.info.name
  distinct : (components.map Component.key).Nodup
  committing : mode.dryRun = false
  passes : ∃ applied, (store.apply components mode).result = .ok applied

namespace Passes

theorem ordered_of_mem (hpasses : store.Passes mode components) :
    ∀ component ∈ Component.ordered components, component.Ordered :=
  fun component hcomponent => hpasses.ordered component (List.mem_mergeSort.mp hcomponent)

theorem named_of_mem (hpasses : store.Passes mode components) :
    ∀ component ∈ Component.ordered components, Scope.isName component.info.name :=
  fun component hcomponent => hpasses.named component (List.mem_mergeSort.mp hcomponent)

theorem arranged (hpasses : store.Passes mode components) (h : Reachable store) :
    Component.Arranged (Component.ordered components) := by
  obtain ⟨applied, hresult⟩ := hpasses.passes
  exact arranged_of_apply h hpasses.committing hpasses.ordered_of_mem hpasses.named_of_mem hresult
    hpasses.distinct

theorem overlaid (hpasses : store.Passes mode components) (h : Reachable store) :
    Overlaid store (store.apply components mode).store (Component.ordered components) := by
  obtain ⟨applied, hresult⟩ := hpasses.passes
  exact h.overlaid hpasses.ordered_of_mem hpasses.named_of_mem hpasses.committing hresult

theorem turn (hpasses : store.Passes mode components) (h : Reachable store)
    (horder : Component.ordered components = done ++ component :: rest) :
    Overlaid store (store.applyInOrder mode done).store done ∧ component.Ordered ∧
      Scope.isScope component.info.parent ∧ Scope.isName component.info.name := by
  obtain ⟨applied, hresult⟩ := hpasses.passes
  have hmem : component ∈ Component.ordered components := by simp [horder]
  obtain ⟨hbefore, hput, -⟩ := put_of_apply h hpasses.committing hpasses.ordered_of_mem
    hpasses.named_of_mem hresult horder
  exact ⟨hbefore, hpasses.ordered_of_mem component hmem, hput.inScope,
    hpasses.named_of_mem component hmem⟩

end Passes

section

variable (h : Reachable store) (hpasses : store.Passes mode components)
variable (hpasses' : store.Passes mode components') (hperm : components.Perm components')

include hperm

theorem perm_ordered : (Component.ordered components).Perm (Component.ordered components') :=
  (List.mergeSort_perm _ _).trans (hperm.trans (List.mergeSort_perm _ _).symm)

include h hpasses hpasses'

theorem tree_eq_of_perm : (store.apply components mode).store.tree.anonymous =
    (store.apply components' mode).store.tree.anonymous := by
  have hlast := hpasses.overlaid h
  have hlast' := hpasses'.overlaid h
  apply hlast.reachable.anonymous_eq hlast'.reachable
  rw [hlast.contents, hlast'.contents]
  funext p
  exact (hpasses.arranged h).overlay_congr (hpasses'.arranged h) fun a _ =>
    (perm_ordered hperm).mem_iff

theorem reports_eq
    (hreports : store.Reports mode (Component.ordered components) component existed log)
    (hreports' : store.Reports mode (Component.ordered components') component existed' log') :
    existed' = existed ∧ log' = log := by
  obtain ⟨done, rest, horder, hdone⟩ := hreports
  obtain ⟨done', rest', horder', hdone'⟩ := hreports'
  obtain ⟨hbefore, hcomponent, hscope, hname⟩ := hpasses.turn h horder
  obtain ⟨hbefore', -⟩ := hpasses'.turn h horder'
  have harranged := hpasses.arranged h
  have harranged' := hpasses'.arranged h
  have hsorted := perm_ordered hperm
  rw [horder] at harranged hsorted
  rw [horder'] at harranged' hsorted
  refine report_eq hbefore.reachable.committed hbefore'.reachable.committed
    (hbefore'.registry.trans hbefore.registry.symm) hcomponent hscope hname (fun p hp => ?_) hdone
    hdone'
  rw [hbefore.contents, hbefore'.contents, harranged.overlay_before harranged' hsorted hp]

end

theorem exists_report (h : Reachable store) (mode : Mode) (components : List Component) :
    ∃ (existed : Component → Bool) (log : Component → Changelog), ∀ components',
      components'.Perm components → store.Passes mode components' →
        (store.apply components' mode).result = .ok ((Component.ordered components').map
          fun component => .about component (existed component) (log component)) := by
  have hunique (component : Component) : ∃ report : Bool × Changelog, ∀ components' existed log,
      components'.Perm components → store.Passes mode components' →
        store.Reports mode (Component.ordered components') component existed log →
          existed = report.1 ∧ log = report.2 := by
    by_cases hreported : ∃ components' existed log, components'.Perm components ∧
      store.Passes mode components' ∧
        store.Reports mode (Component.ordered components') component existed log
    · obtain ⟨components', existed, log, hperm, hpasses, hreports⟩ := hreported
      exact ⟨(existed, log), fun components'' existed' log' hperm' hpasses' hreports' =>
        reports_eq h hpasses hpasses' (hperm.trans hperm'.symm) hreports hreports'⟩
    · exact ⟨default, fun components' existed log hperm hpasses hreports =>
        absurd ⟨components', existed, log, hperm, hpasses, hreports⟩ hreported⟩
  choose report hreport using hunique
  refine ⟨fun c => (report c).1, fun c => (report c).2, fun components' hperm hpasses => ?_⟩
  obtain ⟨applied, hresult⟩ := hpasses.passes
  rw [hresult, Except.ok.injEq, ← List.forall₂_eq_eq_eq, List.forall₂_map_right_iff]
  apply List.Forall₂.flip
  have hnone : (store.applyInOrder mode []).result = .ok [] := rfl
  refine (reports_of_applyInOrder hnone hresult).imp ?_
  rintro component _ ⟨existed, log, hreports, rfl⟩
  obtain ⟨rfl, rfl⟩ := hreport component components' existed log hperm hpasses hreports
  rfl

theorem Reachable.apply_perm (h : Reachable store)
    (hcomponents : ∀ component ∈ components, component.Ordered)
    (hnames : ∀ component ∈ components, Scope.isName component.info.name)
    (hdistinct : (components.map Component.key).Nodup) (hperm : components.Perm components')
    (hmode : mode.dryRun = false) (hresult : (store.apply components mode).result = .ok applied)
    (hresult' : (store.apply components' mode).result = .ok applied') :
    (store.apply components mode).store.tree.anonymous =
        (store.apply components' mode).store.tree.anonymous ∧
      ∃ (existed : Component → Bool) (log : Component → Changelog),
        applied = (Component.ordered components).map
            (fun component => .about component (existed component) (log component)) ∧
          applied' = (Component.ordered components').map
            (fun component => .about component (existed component) (log component)) := by
  have hpasses : store.Passes mode components := ⟨hcomponents, hnames, hdistinct, hmode, _, hresult⟩
  have hpasses' : store.Passes mode components' :=
    ⟨fun c hc => hcomponents c (hperm.mem_iff.mpr hc), fun c hc => hnames c (hperm.mem_iff.mpr hc),
      (hperm.map Component.key).nodup_iff.mp hdistinct, hmode, _, hresult'⟩
  refine ⟨tree_eq_of_perm h hpasses hpasses' hperm, ?_⟩
  obtain ⟨existed, log, hreport⟩ := exists_report h mode components
  refine ⟨existed, log, ?_, ?_⟩
  · exact Except.ok.inj (hresult.symm.trans (hreport components .rfl hpasses))
  · exact Except.ok.inj (hresult'.symm.trans (hreport components' hperm.symm hpasses'))

theorem apply_perm_billing :
    let store := (Fixture.seededStore .unary).1
    let archive := App.named "archive"
    let bills := ChannelAlias.named "bills" "billing.invoices"
    let first := store.apply [.app Fixture.billing, .app archive, .channelAlias bills] {}
    let second := store.apply [.app archive, .app Fixture.billing, .channelAlias bills] {}
    first.store.tree.anonymous = second.store.tree.anonymous ∧
      ∃ (existed : Component → Bool) (log : Component → Changelog),
        let report (component : Component) : Applied :=
          .about component (existed component) (log component)
        first.result = .ok [report (.app Fixture.billing), report (.app archive),
            report (.channelAlias bills)] ∧
          second.result = .ok [report (.app archive), report (.app Fixture.billing),
            report (.channelAlias bills)] := by
  intro store archive bills first second
  have hbilling : Component.Ordered (.app Fixture.billing) :=
    show Fixture.billing.Ordered by decide +kernel
  have harchive : Component.Ordered (.app archive) := show archive.Ordered by decide +kernel
  have hbills : Component.Ordered (.channelAlias bills) := Dict.ordered_empty
  have horder : [.app Fixture.billing, .app archive, .channelAlias bills].Pairwise
      fun a b => Component.before a b := by decide +kernel
  have horder' : [.app archive, .app Fixture.billing, .channelAlias bills].Pairwise
      fun a b => Component.before a b := by decide +kernel
  have hresult : first.result.toOption.isSome := by
    simp only [first]
    rw [apply_eq_applyInOrder _ _ horder]
    decide +kernel
  have hresult' : second.result.toOption.isSome := by
    simp only [second]
    rw [apply_eq_applyInOrder _ _ horder']
    decide +kernel
  obtain ⟨applied, hresult⟩ := Check.exists_of_isSome hresult
  obtain ⟨applied', hresult'⟩ := Check.exists_of_isSome hresult'
  have hstore : Reachable store := .empty _ .unary
  obtain ⟨htree, existed, log, happlied, happlied'⟩ := hstore.apply_perm
    (by simp [hbilling, harchive, hbills]) (by decide +kernel) (by decide +kernel)
    (.swap (.app archive) (.app Fixture.billing) [.channelAlias bills]) rfl hresult hresult'
  refine ⟨htree, existed, log, ?_, ?_⟩
  · rw [hresult, happlied, Component.ordered, List.mergeSort_of_pairwise horder]
    rfl
  · rw [hresult', happlied', Component.ordered, List.mergeSort_of_pairwise horder']
    rfl

end Store

end AppTopology
