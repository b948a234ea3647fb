import AppTopology.Fixture
import AppTopology.Proofs.Frame

namespace AppTopology

namespace Outcome

variable {α β γ : Type} {outcome : Outcome α} {next : α → Store → Outcome β}
variable {error : TopologyError} {value : α}

theorem result_andThen_error (h : outcome.result = .error error) :
    (outcome.andThen next).result = .error error := by
  rw [andThen, h]

theorem store_andThen_error (h : outcome.result = .error error) :
    (outcome.andThen next).store = outcome.store := by
  rw [andThen, h]

theorem result_andThen_ok (h : outcome.result = .ok value) :
    (outcome.andThen next).result = (next value outcome.store).result := by
  rw [andThen, h]

theorem store_andThen_ok (h : outcome.result = .ok value) :
    (outcome.andThen next).store = (next value outcome.store).store := by
  rw [andThen, h]

theorem ok_andThen (value : α) (store : Store) (next : α → Store → Outcome β) :
    (⟨.ok value, store, []⟩ : Outcome α).andThen next = next value store := rfl

theorem andThen_ok (outcome : Outcome α) :
    (outcome.andThen fun value store => ⟨.ok value, store, []⟩) = outcome := by
  obtain ⟨result, store, events⟩ := outcome
  cases result with
  | error error => rfl
  | ok value => simp only [andThen, List.append_nil]

theorem andThen_map (outcome : Outcome α) (f : α → β) :
    (outcome.andThen fun value store => ⟨.ok (f value), store, []⟩).result =
        outcome.result.map f ∧
      (outcome.andThen fun value store => ⟨.ok (f value), store, []⟩).store = outcome.store := by
  cases hresult : outcome.result with
  | error error => exact ⟨result_andThen_error hresult, store_andThen_error hresult⟩
  | ok value => exact ⟨result_andThen_ok hresult, store_andThen_ok hresult⟩

theorem andThen_assoc (outcome : Outcome α) (next : α → Store → Outcome β)
    (last : β → Store → Outcome γ) :
    (outcome.andThen next).andThen last =
      outcome.andThen fun value store => (next value store).andThen last := by
  cases hfirst : outcome.result with
  | error error => simp only [andThen, hfirst]
  | ok value =>
    cases hnext : (next value outcome.store).result with
    | error error => simp only [andThen, hfirst, hnext]
    | ok value' => simp only [andThen, hfirst, hnext, List.append_assoc]

end Outcome

def Component.Named (component : Component) : Prop :=
  Scope.isName component.info.name ∨ component.kind = .app ∧ component.info.name = ""

def Component.target (component : Component) (path : String) : Target :=
  if component.kind = .app then .app path
  else .ofKind component.kind component.info.parent component.info.name

theorem Component.target_child (component : Component) :
    component.target (Scope.child component.info.parent component.info.name) =
      .ofKind component.kind component.info.parent component.info.name := by
  cases component <;> rfl

theorem Component.path_target {component : Component} {path : String}
    (hpath : Scope.append component.info.parent component.info.name = .ok path)
    (hnamed : component.Named) : (component.target path).path = path := by
  have hchild (hkind : component.kind ≠ .app) :
      path = Scope.child component.info.parent component.info.name := by
    have hname := hnamed.resolve_right fun h => hkind h.1
    rw [(Scope.append_eq_ok.mp hpath).2.2, if_neg (Scope.isName_ne_empty hname)]
  cases component with
  | app => rfl
  | channelType | channel | channelAlias => exact (hchild nofun).symm

namespace Mutation

variable {root next : App} {scope : String} {component : Component}

theorem name_of_create (h : (create scope component).edit root = .ok next) :
    Scope.isScope scope ∧ Scope.isName component.info.name := by
  cases component with
  | app app =>
    obtain ⟨hscope, hname, -⟩ := App.createApp_eq_ok.mp h
    exact ⟨hscope, hname⟩
  | channelType declared | channel declared | channelAlias declared =>
    obtain ⟨hscope, hname, -⟩ := App.createLeaf_eq_ok.mp h
    exact ⟨hscope, hname⟩

theorem name_of_update (h : (update scope component).edit root = .ok next) :
    if component.kind = .app then
      component.info.name = "" ∨ component.info.name = Scope.leaf scope
    else Scope.isScope scope ∧ Scope.isName component.info.name := by
  cases component with
  | app app => exact (App.updateApp_eq_ok.mp h).2.1
  | channelType declared | channel declared | channelAlias declared =>
    obtain ⟨hscope, hname, -⟩ := App.updateLeaf_eq_ok.mp h
    exact ⟨hscope, hname⟩

end Mutation

def Applied.about (component : Component) (existed : Bool) (log : Changelog) : Applied :=
  ⟨component.kind, component.info.parent, component.info.name, existed, log⟩

namespace Store

variable {α : Type} {store : Store} {mutation : Mutation} {mode : Mode} {log : Changelog}
variable {component : Component} {scope : String}

def UpdatedIn (component : Component) (scope : String) : Prop :=
  if component.kind = .app then
    Scope.append component.info.parent component.info.name = .ok scope
  else scope = component.info.parent

theorem exists_path_of_create
    (h : (store.mutate (.create component.info.parent component) mode).result = .ok log) :
    ∃ path, Scope.append component.info.parent component.info.name = .ok path ∧
      component.Named ∧
      (Mutation.create component.info.parent component).target = component.target path := by
  obtain ⟨-, edited, -, hedit, -⟩ := exists_settled h
  obtain ⟨hscope, hname⟩ := Mutation.name_of_create hedit
  rw [Registry.info_routeComponent] at hname
  refine ⟨_, Scope.Admits.append (.inl hname) hscope, .inl hname, ?_⟩
  rw [Mutation.target_create, Component.target_child]

theorem exists_path_of_update (hscope : UpdatedIn component scope)
    (h : (store.mutate (.update scope component) mode).result = .ok log) :
    ∃ path, Scope.append component.info.parent component.info.name = .ok path ∧
      component.Named ∧ (Mutation.update scope component).target = component.target path := by
  obtain ⟨-, edited, -, hedit, -⟩ := exists_settled h
  have hname := Mutation.name_of_update hedit
  rw [Registry.kind_routeComponent, Registry.info_routeComponent] at hname
  rw [Mutation.target_update]
  by_cases hkind : component.kind = .app
  · rw [UpdatedIn, if_pos hkind] at hscope
    rw [if_pos hkind] at hname
    refine ⟨scope, hscope, ?_, by rw [if_pos hkind, Component.target, if_pos hkind]⟩
    by_cases hempty : component.info.name = ""
    · exact .inr ⟨hkind, hempty⟩
    · -- A name that is not left out is the last of the path, which is a name.
      have hleaf := hname.resolve_left hempty
      have hne : scope ≠ "" := by
        rw [(Scope.append_eq_ok.mp hscope).2.2, if_neg hempty]
        exact fun hchild => hempty (Scope.child_eq_empty.mp hchild).2
      obtain ⟨outer, last, houter, hlast, rfl⟩ :=
        Scope.exists_child_of_isScope (Scope.isScope_append hscope) hne
      rw [Scope.leaf_child houter hlast] at hleaf
      exact .inl (hleaf ▸ hlast)
  · rw [UpdatedIn, if_neg hkind] at hscope
    rw [if_neg hkind] at hname
    subst hscope
    refine ⟨_, Scope.Admits.append (.inl hname.2) hname.1, .inl hname.2, ?_⟩
    rw [if_neg hkind, Component.target_child]

structure Made (store : Store) (component : Component) (mode : Mode) (log : Changelog)
    (mutation : Mutation) : Prop where
  kind : ∃ scope, mutation = .create scope component ∨ mutation = .update scope component
  named : component.Named
  path : ∃ path, Scope.append component.info.parent component.info.name = .ok path ∧
    mutation.target = component.target path
  result : (store.mutate mutation mode).result = .ok log

theorem Made.ordered (h : Made store component mode log mutation) (hcomponent : component.Ordered) :
    mutation.Ordered := by
  obtain ⟨scope, rfl | rfl⟩ := h.kind <;> exact hcomponent

theorem createOrUpdate_made {lookup : Outcome α} (hlookup : lookup.store = store)
    (hscope : UpdatedIn component scope) :
    (∃ error, (createOrUpdate lookup component scope mode).result = .error error ∧
      (createOrUpdate lookup component scope mode).store = store) ∨
    ∃ existed log mutation,
      (createOrUpdate lookup component scope mode).result = .ok (existed, log) ∧
        Made store component mode log mutation ∧
        (createOrUpdate lookup component scope mode).store =
          (store.mutate mutation mode).store := by
  subst hlookup
  unfold createOrUpdate
  cases hfound : (found lookup).result with
  | error error =>
    exact .inl ⟨error, Outcome.result_andThen_error hfound, Outcome.store_andThen_error hfound⟩
  | ok existed =>
    have hlookup : (found lookup).store = lookup.store := rfl
    rw [Outcome.result_andThen_ok hfound, Outcome.store_andThen_ok hfound, hlookup]
    dsimp only
    generalize hmutation : (if existed = true then Mutation.update scope component
      else .create component.info.parent component) = mutation
    obtain ⟨error, hresult, hsame⟩ | ⟨hcancelled, edited, staged, log, hedit, hsettle⟩ :=
      lookup.store.refused_or_settled mutation mode
    · exact .inl ⟨error, Outcome.result_andThen_error hresult,
        (Outcome.store_andThen_error hresult).trans hsame⟩
    · obtain ⟨hresult, -⟩ := mutate_of_settled hcancelled hedit hsettle
      refine .inr ⟨existed, log, mutation, Outcome.result_andThen_ok hresult, ?_,
        Outcome.store_andThen_ok hresult⟩
      cases existed with
      | false =>
        subst hmutation
        obtain ⟨path, hpath, hnamed, htarget⟩ := exists_path_of_create hresult
        exact ⟨⟨_, .inl rfl⟩, hnamed, ⟨path, hpath, htarget⟩, hresult⟩
      | true =>
        subst hmutation
        obtain ⟨path, hpath, hnamed, htarget⟩ := exists_path_of_update hscope hresult
        exact ⟨⟨_, .inr rfl⟩, hnamed, ⟨path, hpath, htarget⟩, hresult⟩

theorem put_made (store : Store) (component : Component) (mode : Mode) :
    (∃ error, (store.put component mode).result = .error error ∧
      (store.put component mode).store = store) ∨
    ∃ existed log mutation, (store.put component mode).result = .ok (existed, log) ∧
      Made store component mode log mutation ∧
      (store.put component mode).store = (store.mutate mutation mode).store := by
  cases component with
  | channelType declared => exact createOrUpdate_made (store.read_store _ _ _) rfl
  | channel channel => exact createOrUpdate_made (store.read_store _ _ _) rfl
  | channelAlias declared => exact createOrUpdate_made (store.read_store _ _ _) rfl
  | app app =>
    unfold put
    dsimp only
    split
    · next error _ => exact .inl ⟨error, rfl, rfl⟩
    · next path hpath => exact createOrUpdate_made (store.read_store _ _ _) hpath

theorem applyOne_made (store : Store) (component : Component) (mode : Mode) :
    (∃ error, (store.applyOne component mode).result = .error error ∧
      (store.applyOne component mode).store = store) ∨
    ∃ existed log mutation,
      (store.applyOne component mode).result = .ok (.about component existed log) ∧
        Made store component mode log mutation ∧
        (store.applyOne component mode).store = (store.mutate mutation mode).store := by
  unfold applyOne Outcome.conclude Outcome.announce
  dsimp only
  obtain ⟨error, hresult, hsame⟩ | ⟨existed, log, mutation, hresult, hmade, hsame⟩ :=
    store.put_made component mode
  · exact .inl ⟨error, Outcome.result_andThen_error hresult,
      (Outcome.store_andThen_error hresult).trans hsame⟩
  · exact .inr ⟨existed, log, mutation, Outcome.result_andThen_ok hresult, hmade,
      (Outcome.store_andThen_ok hresult).trans hsame⟩

theorem exists_made {applied : Applied}
    (hresult : (store.applyOne component mode).result = .ok applied) :
    ∃ existed log mutation, applied = .about component existed log ∧
      Made store component mode log mutation := by
  obtain ⟨_, herror, -⟩ | ⟨existed, log, mutation, haccepted, hmade, -⟩ :=
    store.applyOne_made component mode
  · rw [hresult] at herror
    exact nomatch herror
  · exact ⟨existed, log, mutation, Except.ok.inj (hresult.symm.trans haccepted), hmade⟩

structure Confined (component : Component) (log : Changelog) (before after : App) : Prop where
  named : component.Named
  path : ∃ path, Scope.append component.info.parent component.info.name = .ok path ∧
    (∀ change ∈ log, Scope.isInner path change.path) ∧
    ∀ p, ¬ (component.target path).Covers p → before.SameAt after p

theorem Made.confined (h : Made store component mode log mutation)
    (hstore : store.tree.Committed) (hcomponent : component.Ordered) :
    Confined component log store.tree (store.mutate mutation mode).store.tree := by
  obtain ⟨path, hpath, htarget⟩ := h.path
  obtain ⟨hlog, hsame⟩ := mutate_confined hstore (h.ordered hcomponent) h.result
  rw [htarget] at hlog hsame
  rw [Component.path_target hpath h.named] at hlog
  exact ⟨h.named, path, hpath, hlog, hsame⟩

theorem applyOne_cases (hstore : store.tree.Committed) (hcomponent : component.Ordered) :
    (∃ error, (store.applyOne component mode).result = .error error ∧
      (store.applyOne component mode).store = store) ∨
    ∃ applied, (store.applyOne component mode).result = .ok applied ∧
      Confined component applied.log store.tree (store.applyOne component mode).store.tree := by
  obtain hrefused | ⟨existed, log, mutation, hresult, hmade, hafter⟩ :=
    store.applyOne_made component mode
  · exact .inl hrefused
  · rw [hafter]
    exact .inr ⟨_, hresult, hmade.confined hstore hcomponent⟩

variable {done rest : List Component} {earlier : List Applied}

theorem applyInOrder_cons_ok {applied : Applied}
    (h : (store.applyOne component mode).result = .ok applied) (rest : List Component) :
    let later := (store.applyOne component mode).store.applyInOrder mode rest
    (store.applyInOrder mode (component :: rest)).result = later.result.map (applied :: ·) ∧
      (store.applyInOrder mode (component :: rest)).store = later.store := by
  intro later
  unfold applyInOrder
  rw [Outcome.result_andThen_ok h, Outcome.store_andThen_ok h]
  exact later.andThen_map _

theorem applyInOrder_cons_error {error : TopologyError}
    (h : (store.applyOne component mode).result = .error error) (rest : List Component) :
    (store.applyInOrder mode (component :: rest)).result = .error error ∧
      (store.applyInOrder mode (component :: rest)).store =
        (store.applyOne component mode).store := by
  unfold applyInOrder
  exact ⟨Outcome.result_andThen_error h, Outcome.store_andThen_error h⟩

theorem applyInOrder_append_eq (store : Store) (mode : Mode) (done rest : List Component) :
    store.applyInOrder mode (done ++ rest) =
      (store.applyInOrder mode done).andThen fun earlier store =>
        (store.applyInOrder mode rest).andThen fun later store =>
          ⟨.ok (earlier ++ later), store, []⟩ := by
  induction done generalizing store with
  | nil =>
    rw [List.nil_append, applyInOrder, Outcome.ok_andThen]
    exact (Outcome.andThen_ok _).symm
  | cons component done ih =>
    simp only [List.cons_append, applyInOrder, ih, Outcome.andThen_assoc, Outcome.ok_andThen]

theorem applyInOrder_append (hdone : (store.applyInOrder mode done).result = .ok earlier)
    (rest : List Component) :
    let later := (store.applyInOrder mode done).store.applyInOrder mode rest
    (store.applyInOrder mode (done ++ rest)).result = later.result.map (earlier ++ ·) ∧
      (store.applyInOrder mode (done ++ rest)).store = later.store := by
  intro later
  rw [applyInOrder_append_eq, Outcome.result_andThen_ok hdone, Outcome.store_andThen_ok hdone]
  exact later.andThen_map _

/-- The next component is refused and leaves the store as it was, or its records stand at its path
or below and all else stays. -/
theorem Reachable.apply_confined (h : Reachable store) {components : List Component}
    (hcomponents : ∀ component ∈ components, component.Ordered)
    (horder : Component.ordered components = done ++ component :: rest)
    (hdone : (store.applyInOrder mode done).result = .ok earlier) :
    let before := (store.applyInOrder mode done).store
    let after := (before.applyOne component mode).store
    (∃ error, (before.applyOne component mode).result = .error error ∧ after = before ∧
      (store.apply components mode).result = .error error ∧
      (store.apply components mode).store = before) ∨
    ∃ applied, (before.applyOne component mode).result = .ok applied ∧
      Confined component applied.log before.tree after.tree := by
  intro before after
  have hmem (other : Component) (hother : other ∈ done ++ component :: rest) : other.Ordered :=
    hcomponents other (List.mem_mergeSort.mp (horder ▸ hother))
  have hbefore : before.tree.Committed :=
    (steps_applyInOrder (fun other hother => hmem other (List.mem_append_left _ hother)) store
      mode).committed h.committed
  have hcomponent : component.Ordered := hmem component (by simp)
  obtain ⟨error, hresult, hsame⟩ | haccepted := before.applyOne_cases hbefore hcomponent
  · obtain ⟨hrest, hrest'⟩ := applyInOrder_cons_error hresult rest
    obtain ⟨hbatch, hbatch'⟩ := applyInOrder_append hdone (component :: rest)
    refine .inl ⟨error, hresult, hsame, ?_, ?_⟩
    · rw [apply, horder, hbatch, hrest]
      rfl
    · rw [apply, horder, hbatch', hrest']
      exact hsame
  · exact .inr haccepted

theorem apply_confined_unnamed : ∃ store applied, Reachable store ∧
    let component : Component := .app { own := { info := { parent := "billing" } } }
    let after := (store.applyOne component {}).store
    (store.applyOne component {}).result = .ok applied ∧
      applied.log.summary.contains (.deleted .app, "billing.printer") ∧
      Confined component applied.log store.tree after.tree := by
  let component : Component := .app { own := { info := { parent := "billing" } } }
  let loses (store : Store) : Option Bool :=
    (store.applyOne component {}).result.toOption.map fun applied =>
      applied.log.summary.contains (.deleted .app, "billing.printer")
  have hfound : (restore (({} : App).withApp Fixture.billing) {} .unary).toOption.map loses =
      some (some true) := by decide +kernel
  obtain ⟨store, hreachable, hloses⟩ := exists_restored (by decide +kernel) hfound
  have hordered : ∀ other ∈ [component], other.Ordered := by
    intro other hother
    rw [List.mem_singleton.mp hother]
    exact show App.Ordered _ by decide
  have horder : Component.ordered [component] = [] ++ component :: [] :=
    List.mergeSort_singleton component
  have hdone : (store.applyInOrder {} []).result = .ok [] := rfl
  obtain ⟨error, herror, -⟩ | ⟨applied, hresult, hconfined⟩ :=
    hreachable.apply_confined hordered horder hdone
  · change (store.applyOne component {}).result = _ at herror
    simp [loses, herror, Except.toOption] at hloses
  · change (store.applyOne component {}).result = _ at hresult
    refine ⟨store, applied, hreachable, hresult, ?_, hconfined⟩
    simpa [loses, hresult, Except.toOption] using hloses

end Store

end AppTopology
