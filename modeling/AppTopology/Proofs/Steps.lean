import AppTopology.Fixture
import AppTopology.Proofs.Committed
import Mathlib.Logic.Relation

namespace AppTopology

namespace Outcome

variable {α β : Type} {outcome : Outcome α} {next : α → Store → Outcome β}

theorem andThen_store {P : Store → Prop} (hfirst : P outcome.store)
    (hnext : ∀ value, P (next value outcome.store).store) : P (outcome.andThen next).store := by
  unfold andThen
  cases outcome.result with
  | error error => exact hfirst
  | ok value => exact hnext value

end Outcome

def Supply.unary : Supply where
  mint n := String.ofList (List.replicate (n + 1) 'u')
  mint_ne_empty n := by simp [List.replicate_succ]

theorem Supply.mint_unary_injective : Function.Injective Supply.unary.mint := by
  intro n n' h
  have hlength := congrArg (fun s => s.toList.length) h
  simpa [unary] using hlength

namespace Store

variable {α : Type} {store store' : Store} {call : Call} {component : Component}

inductive Step (store : Store) : Store → Prop where
  | mutate {mutation : Mutation} : mutation.Ordered → (mode : Mode) →
    Step store (store.mutate mutation mode).store
  | register (broker : String) : Step store (store.register broker).store
  | setDefault (broker : String) : Step store (store.setDefault broker).store

abbrev Steps : Store → Store → Prop := Relation.ReflTransGen Step

inductive Opened : Store → Prop where
  | empty (registry : Registry) (supply : Supply) : Opened (Store.empty registry supply)
  | restore {root : App} {registry : Registry} {supply : Supply} {store : Store} :
    root.Ordered → Store.restore root registry supply = .ok store → Opened store

theorem read_store (store : Store) (cancelled : Bool) (scope : String)
    (query : App → Except TopologyError α) : (store.read cancelled scope query).store = store := by
  unfold read
  split
  · rfl
  · split <;> rfl

theorem steps_createOrUpdate {lookup : Outcome α} (hlookup : lookup.store = store)
    (hcomponent : component.Ordered) (scope : String) (mode : Mode) :
    Steps store (createOrUpdate lookup component scope mode).store := by
  subst hlookup
  apply Outcome.andThen_store
  · exact .refl
  · intro existed
    have hmutation : (if existed then Mutation.update scope component
        else .create component.info.parent component).Ordered := by
      split <;> exact hcomponent
    apply Outcome.andThen_store
    · exact .single (.mutate hmutation mode)
    · exact fun _ => .single (.mutate hmutation mode)

theorem steps_put (store : Store) (hcomponent : component.Ordered) (mode : Mode) :
    Steps store (store.put component mode).store := by
  cases component with
  | channelType declared => exact steps_createOrUpdate (store.read_store _ _ _) hcomponent _ mode
  | channel channel => exact steps_createOrUpdate (store.read_store _ _ _) hcomponent _ mode
  | app app =>
    unfold put
    dsimp only
    split
    · exact .refl
    · exact steps_createOrUpdate (store.read_store _ _ _) hcomponent _ mode
  | channelAlias declared => exact steps_createOrUpdate (store.read_store _ _ _) hcomponent _ mode

theorem steps_applyOne (store : Store) (hcomponent : component.Ordered) (mode : Mode) :
    Steps store (store.applyOne component mode).store := by
  have hput := store.steps_put hcomponent mode
  change Steps store (Outcome.andThen _ _).store
  apply Outcome.andThen_store
  · exact hput
  · exact fun _ => hput

theorem steps_applyInOrder {components : List Component}
    (hcomponents : ∀ component ∈ components, component.Ordered) (store : Store) (mode : Mode) :
    Steps store (store.applyInOrder mode components).store := by
  induction components generalizing store with
  | nil => exact .refl
  | cons component rest ih =>
    simp only [List.mem_cons, forall_eq_or_imp] at hcomponents
    have hfirst := store.steps_applyOne hcomponents.1 mode
    unfold applyInOrder
    apply Outcome.andThen_store
    · exact hfirst
    · intro applied
      have hrest := hfirst.trans (ih hcomponents.2 (store.applyOne component mode).store)
      apply Outcome.andThen_store
      · exact hrest
      · exact fun _ => hrest

theorem steps_after (store : Store) (hcall : call.Ordered) : Steps store (store.after call) := by
  cases call with
  | mutate mutation mode => exact .single (.mutate hcall mode)
  | apply components mode =>
    apply steps_applyInOrder
    intro component hcomponent
    exact hcall component (List.mem_mergeSort.mp hcomponent)
  | register broker => exact .single (.register broker)
  | setDefault broker => exact .single (.setDefault broker)

theorem steps_run (store : Store) {calls : List Call} (hcalls : ∀ call ∈ calls, call.Ordered) :
    Steps store (store.run calls) := by
  induction calls generalizing store with
  | nil => exact .refl
  | cons call rest ih =>
    simp only [List.mem_cons, forall_eq_or_imp] at hcalls
    exact (store.steps_after hcalls.1).trans (ih (store.after call) hcalls.2)

theorem Reachable.exists_steps (h : Reachable store) :
    ∃ opened, Opened opened ∧ Steps opened store := by
  induction h with
  | empty registry supply => exact ⟨_, .empty registry supply, .refl⟩
  | restore hroot hrestore => exact ⟨_, .restore hroot hrestore, .refl⟩
  | after _ hcall ih =>
    obtain ⟨opened, hopened, hsteps⟩ := ih
    exact ⟨opened, hopened, hsteps.trans (steps_after _ hcall)⟩

theorem Step.commit_or_eq (h : Step store store') (hstore : store.tree.Ordered) :
    (store'.tree = store.tree ∧ store'.supply = store.supply) ∨
      ∃ target edited log, Accepted store.tree target edited log ∧
        store' = store.commit edited.filed := by
  cases h with
  | mutate hmutation mode =>
    obtain ⟨_, -, hsame⟩ | ⟨edited, log, haccepted, -, hnext⟩ :=
      mutate_cases hstore hmutation mode
    · rw [hsame]
      exact .inl ⟨rfl, rfl⟩
    · rw [hnext]
      split
      · exact .inl ⟨rfl, rfl⟩
      · exact .inr ⟨_, edited, log, haccepted, rfl⟩
  | register broker =>
    unfold Store.register
    split <;> exact .inl ⟨rfl, rfl⟩
  | setDefault broker =>
    unfold Store.setDefault
    split <;> exact .inl ⟨rfl, rfl⟩

theorem Step.committed (h : Step store store') (hstore : store.tree.Committed) :
    store'.tree.Committed := by
  obtain ⟨htree, -⟩ | ⟨target, edited, log, haccepted, rfl⟩ := h.commit_or_eq hstore.ordered
  · rw [htree]
    exact hstore
  · exact committed_commit store (haccepted.checked hstore.ordered)

theorem Steps.committed (h : Steps store store') (hstore : store.tree.Committed) :
    store'.tree.Committed := by
  induction h with
  | refl => exact hstore
  | tail _ hstep ih => exact hstep.committed ih

theorem checkRoot_eq_ok {root staged : App} (hroot : root.Ordered) :
    checkRoot root = .ok staged ↔ (∀ p info, root.info? p = some info → info.FitsAt p) ∧
      staged = root.filed ∧ staged.validate = .ok () := by
  unfold checkRoot
  simp only [Check.bind_eq_ok, App.normalize_eq_ok hroot, Check.pure_eq_ok]
  constructor
  · rintro ⟨_, ⟨hfits, rfl⟩, _, hvalid, rfl⟩
    exact ⟨hfits, rfl, hvalid⟩
  · rintro ⟨hfits, rfl, hvalid⟩
    exact ⟨_, ⟨hfits, rfl⟩, (), hvalid, rfl⟩

theorem restore_eq_ok {root : App} {registry : Registry} {supply : Supply} (hroot : root.Ordered) :
    restore root registry supply = .ok store ↔
      (∀ p info, root.info? p = some info → info.FitsAt p) ∧ root.filed.validate = .ok () ∧
        store = (⟨{}, registry, supply⟩ : Store).commit root.filed := by
  unfold restore
  simp only [Check.bind_eq_ok, checkRoot_eq_ok hroot, Check.pure_eq_ok]
  constructor
  · rintro ⟨_, ⟨hfits, rfl, hvalid⟩, rfl⟩
    exact ⟨hfits, hvalid, rfl⟩
  · rintro ⟨hfits, hvalid, rfl⟩
    exact ⟨_, ⟨hfits, rfl, hvalid⟩, rfl⟩

theorem Opened.committed (h : Opened store) : store.tree.Committed := by
  cases h with
  | empty registry supply => exact committed_commit _ ⟨App.ordered_empty, rfl, rfl⟩
  | restore hroot hrestore =>
    obtain ⟨-, hvalid, rfl⟩ := (restore_eq_ok hroot).mp hrestore
    exact committed_commit _ ⟨hroot.filed, App.filed_filed _, hvalid⟩

theorem exists_restored {root : App} {registry : Registry} {supply : Supply} {query : Store → α}
    {value : α} (hroot : root.Ordered)
    (h : (restore root registry supply).toOption.map query = some value) :
    ∃ store, Reachable store ∧ query store = value := by
  cases hrestore : restore root registry supply with
  | error error =>
    rw [hrestore] at h
    exact nomatch h
  | ok store =>
    rw [hrestore] at h
    exact ⟨store, .restore hroot hrestore, Option.some.inj h⟩

theorem Reachable.committed (h : Reachable store) : store.tree.Committed := by
  obtain ⟨opened, hopened, hsteps⟩ := h.exists_steps
  exact hsteps.committed hopened.committed

theorem Reachable.mutated {mutation : Mutation} (h : Reachable store) (hmutation : mutation.Ordered)
    (mode : Mode) : Reachable (store.mutate mutation mode).store :=
  have hcall : Call.Ordered (.mutate mutation mode) := hmutation
  .after h hcall

theorem reachable_billing (supply : Supply) : Reachable (Fixture.billingStore supply).1 :=
  have hbilling : Mutation.Ordered (.create "" (.app Fixture.billing)) :=
    show Fixture.billing.Ordered by decide +kernel
  (Reachable.empty _ supply).mutated hbilling {}

end Store

end AppTopology
