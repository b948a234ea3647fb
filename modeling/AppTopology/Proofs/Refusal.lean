import AppTopology.Proofs.Reapplication

namespace AppTopology

theorem Outcome.andThen_of_error {α β : Type} {outcome : Outcome α} {error : TopologyError}
    (h : outcome.result = .error error) (next : α → Store → Outcome β) :
    outcome.andThen next = ⟨.error error, outcome.store, outcome.events⟩ := by
  rw [andThen, h]

namespace Store

variable {store : Store} {mode : Mode} {components done : List Component} {component : Component}
variable {error : TopologyError} {earlier : List Applied}

theorem applyInOrder_cons_refused (h : (store.applyOne component mode).result = .error error)
    (rest : List Component) :
    store.applyInOrder mode (component :: rest) =
      ⟨.error error, store, (store.applyOne component mode).events⟩ := by
  have hsame : (store.applyOne component mode).store = store := by
    obtain ⟨_, -, hsame⟩ | ⟨_, _, _, haccepted, -⟩ := store.applyOne_made component mode
    · exact hsame
    · rw [h] at haccepted
      exact nomatch haccepted
  rw [applyInOrder, Outcome.andThen_of_error h, hsame]

theorem applyInOrder_append_refused (hdone : (store.applyInOrder mode done).result = .ok earlier)
    (h : ((store.applyInOrder mode done).store.applyOne component mode).result = .error error)
    (rest : List Component) :
    let left := (store.applyInOrder mode done).store
    store.applyInOrder mode (done ++ component :: rest) =
      ⟨.error error, left,
        (store.applyInOrder mode done).events ++ (left.applyOne component mode).events⟩ := by
  intro left
  rw [applyInOrder_append_eq, Outcome.andThen, hdone]
  dsimp only
  rw [applyInOrder_cons_refused h, Outcome.andThen_of_error rfl]

theorem exists_refused (h : (store.applyInOrder mode components).result = .error error) :
    ∃ done component rest earlier, components = done ++ component :: rest ∧
      (store.applyInOrder mode done).result = .ok earlier ∧
      ((store.applyInOrder mode done).store.applyOne component mode).result = .error error := by
  induction components generalizing store with
  | nil => exact nomatch h
  | cons component rest ih =>
    cases hfirst : (store.applyOne component mode).result with
    | error error' =>
      rw [(applyInOrder_cons_error hfirst rest).1, Except.error.injEq] at h
      exact ⟨[], component, rest, [], rfl, rfl, h ▸ hfirst⟩
    | ok applied =>
      rw [(applyInOrder_cons_ok hfirst rest).1] at h
      cases hrest : ((store.applyOne component mode).store.applyInOrder mode rest).result with
      | ok later =>
        rw [hrest] at h
        exact nomatch h
      | error error' =>
        rw [hrest, Except.map, Except.error.injEq] at h
        obtain ⟨done, refused, rest', earlier, rfl, hdone, hrefused⟩ := ih (h ▸ hrest)
        obtain ⟨hresult, hstore⟩ := applyInOrder_cons_ok hfirst done
        rw [hdone] at hresult
        refine ⟨component :: done, refused, rest', applied :: earlier, rfl, hresult, ?_⟩
        rwa [hstore]

/-- A batch that fails is one that goes through, a component that is refused on its own, and a rest
that is not looked at. -/
theorem ends_refused (store : Store) (mode : Mode) (components : List Component)
    (h : (store.apply components mode).result = .error error) :
    ∃ done component rest, Component.ordered components = done ++ component :: rest ∧
      let failed := store.apply components mode
      let alone := failed.store.apply [component] mode
      (∃ applied, (store.apply done mode).result = .ok applied) ∧
        (store.apply done mode).store = failed.store ∧
        alone.result = .error error ∧ alone.store = failed.store ∧
        failed.events = (store.apply done mode).events ++ alone.events ∧
        store.apply (done ++ [component]) mode = failed := by
  obtain ⟨done, component, rest, earlier, horder, hdone, hrefused⟩ := exists_refused h
  let left := (store.applyInOrder mode done).store
  have hfailed (rest : List Component) : store.applyInOrder mode (done ++ component :: rest) =
      ⟨.error error, left,
        (store.applyInOrder mode done).events ++ (left.applyOne component mode).events⟩ :=
    applyInOrder_append_refused hdone hrefused rest
  have halone : left.apply [component] mode =
      ⟨.error error, left, (left.applyOne component mode).events⟩ := by
    rw [apply_eq_applyInOrder left mode (List.pairwise_singleton _ component)]
    exact applyInOrder_cons_refused hrefused []
  -- Parts of a sorted batch are sorted, so they are applied in the order in which they stand.
  have hsorted := Component.pairwise_ordered components
  rw [horder, List.append_cons] at hsorted
  have hwith := (List.pairwise_append.mp hsorted).1
  have hbefore := (List.pairwise_append.mp hwith).1
  refine ⟨done, component, rest, horder, ?_⟩
  rw [apply_eq_applyInOrder store mode hwith, apply_eq_applyInOrder store mode hbefore, apply,
    horder, hfailed rest, hfailed []]
  dsimp only
  rw [halone]
  exact ⟨⟨earlier, hdone⟩, rfl, rfl, rfl, rfl, rfl⟩

theorem ends_refused_billing :
    let store := (Fixture.seededStore .unary).1
    let components : List Component :=
      [.app Fixture.billing, .channelAlias (.named "bills" "billing.ghost"),
        .channelAlias (.named "receipts" "billing.invoices")]
    let error : TopologyError := .danglingTarget "bills" "billing.ghost"
    (store.apply components {}).result = .error error ∧
      ∃ done component rest, Component.ordered components = done ++ component :: rest ∧
        let failed := store.apply components {}
        let alone := failed.store.apply [component] {}
        (∃ applied, (store.apply done {}).result = .ok applied) ∧
          (store.apply done {}).store = failed.store ∧
          alone.result = .error error ∧ alone.store = failed.store ∧
          failed.events = (store.apply done {}).events ++ alone.events ∧
          store.apply (done ++ [component]) {} = failed := by
  intro store components error
  have horder : components.Pairwise fun a b => a.before b := by decide +kernel
  have hresult : (store.apply components {}).result = .error error := by
    rw [apply_eq_applyInOrder _ _ horder]
    apply Check.eq_error_of_map (f := fun _ => ())
    decide +kernel
  exact ⟨hresult, store.ends_refused {} components hresult⟩

end Store

end AppTopology
