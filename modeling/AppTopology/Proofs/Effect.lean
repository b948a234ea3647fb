import AppTopology.Proofs.Detached
import AppTopology.Proofs.Identities
import AppTopology.Proofs.Submission

namespace AppTopology

namespace App

theorem Checked.entity?_filed {tree : App} (h : tree.Checked) (p : Position) :
    (tree.entity? p).map (Entity.mapInfo (Metadata.filedAt "" p)) = tree.entity? p := by
  rw [← entity?_mapInfo]
  exact congrArg (·.entity? p) h.filed

end App

theorem Edited.entity?_filed {tree next : App} {target : Target} (h : Edited tree target next)
    (htree : tree.Checked) {p : Position} (hp : ¬ target.Covers p) :
    next.filed.entity? p = tree.entity? p := by
  rw [App.filed, App.entity?_mapInfo, h.entity?_eq hp, htree.entity?_filed]

theorem Mutation.declared_of_edit {mutation : Mutation} {registry : Registry} {root next : App}
    {p : Position} (hedit : (mutation.route registry).edit root = .ok next)
    (hp : mutation.target.Covers p) : (next.filed.entity? p).map Entity.declared =
      (mutation.submitted p).map fun entity => (registry.routeEntity entity).declared := by
  rw [← target_route registry] at hp
  have hgiven := congrArg (Option.map Prod.fst) (given_of_edit hedit hp)
  rw [Option.map_map, Option.map_map, submitted_route, Option.map_map] at hgiven
  rw [← App.entity?_declared, App.declared_filed, App.entity?_declared]
  exact hgiven

theorem Metadata.identifiedAs_eq_self {info : Metadata} (h : info.uuid ≠ "") (uuid : String) :
    info.identifiedAs uuid = info := by
  simp [identifiedAs, hasIdentity, h]

namespace Store

variable {store after : Store} {mutation : Mutation} {mode : Mode} {log : Changelog}
variable {staged edited : App} {target : Target} {p : Position}

theorem detached_commit (store : Store) (hstaged : staged.Ordered) (p : Position) : ∃ uuid,
    ((store.commit staged).tree.entity? p).map Entity.detached =
      (staged.entity? p).map fun entity =>
        (entity.mapInfo (Metadata.identifiedAs uuid)).detached := by
  obtain ⟨num, links, htree, -⟩ := store.exists_numbers_commit hstaged
  refine ⟨store.supply.mint (num p), ?_⟩
  rw [← App.entity?_detached, htree, App.detached_connected, App.entity?_detached,
    App.entity?_mapInfo, Option.map_map]
  rfl

theorem detached_commit_outside (hstore : store.tree.Committed)
    (h : Accepted store.tree target edited log) (hp : ¬ target.Covers p) :
    ((store.commit edited.filed).tree.entity? p).map Entity.detached =
      (store.tree.entity? p).map Entity.detached := by
  obtain ⟨uuid, hcommit⟩ := store.detached_commit (h.edit.ordered hstore.ordered).filed p
  rw [hcommit, h.edit.entity?_filed hstore.toChecked hp]
  apply Option.map_congr
  intro entity hentity
  have hinfo : store.tree.info? p = some entity.info := by
    rw [App.info?_eq, hentity]
    rfl
  rw [Entity.mapInfo_eq_self (Metadata.identifiedAs_eq_self (hstore.identified p _ hinfo) uuid)]

/-- Elsewhere nothing changes but connections; at the target stands what was submitted, with brokers
chosen, or nothing after a deletion. -/
structure Effect (before after : Store) (mutation : Mutation) : Prop where
  elsewhere : ∀ p, ¬ mutation.target.Covers p →
    (after.tree.entity? p).map Entity.detached = (before.tree.entity? p).map Entity.detached
  target : ∀ p, mutation.target.Covers p →
    (after.tree.entity? p).map Entity.declared =
      (mutation.submitted p).map fun entity => (before.registry.routeEntity entity).declared
  filed : ∀ p info, mutation.target.Covers p → after.tree.info? p = some info →
    info.name = p.name ∧ info.parent = Scope.under "" p.owner ∧
      info.reference = Scope.child info.parent info.name
  identified : ∀ p uuid, mutation.target.Covers p → after.tree.uuid? p = some uuid →
    before.tree.uuid? p = some uuid ∨
      before.tree.uuid? p = none ∧
        ∃ n, before.supply.next ≤ n ∧ before.supply.mint n = uuid
  connected : after.tree.connect = after.tree

theorem declared_commit_target (hstore : store.tree.Committed) (hmutation : mutation.Ordered)
    (h : Staged store mutation edited log) (hp : mutation.target.Covers p) :
    ((store.commit edited.filed).tree.entity? p).map Entity.declared =
      (mutation.submitted p).map fun entity =>
        (store.registry.routeEntity entity).declared := by
  have hedited := (h.accepted hmutation).edit.ordered hstore.ordered
  rw [← App.entity?_declared, store.declared_commit hedited.filed, App.entity?_declared]
  exact Mutation.declared_of_edit h.edit hp

theorem effect_of_staged (hstore : store.tree.Committed) (hmutation : mutation.Ordered)
    (h : Staged store mutation edited log) :
    Effect store (store.commit edited.filed) mutation := by
  have haccepted := h.accepted hmutation
  have hedited := haccepted.edit.ordered hstore.ordered
  have hchecked := store.committed_commit (haccepted.checked hstore.ordered)
  constructor
  · exact fun p hp => detached_commit_outside hstore haccepted hp
  · exact fun p hp => declared_commit_target hstore hmutation h hp
  · intro p info _ hinfo
    rw [← hchecked.info_eq hinfo]
    exact ⟨rfl, rfl, rfl⟩
  · intro p uuid _ huuid
    exact (renews_commit hstore hedited.filed
      (haccepted.edit.carries.mapInfo fun _ _ => rfl)).uuid? p uuid huuid
  · exact connect_commit _ _

theorem effect_of_mutate (hstore : store.tree.Committed) (hmutation : mutation.Ordered)
    (hmode : mode.dryRun = false) (hresult : (store.mutate mutation mode).result = .ok log) :
    Effect store (store.mutate mutation mode).store mutation := by
  obtain ⟨-, edited, hstaged, hafter⟩ := exists_commit hstore.ordered hmutation hmode hresult
  rw [hafter]
  exact effect_of_staged hstore hmutation hstaged

theorem Reachable.mutate_effect (h : Reachable store) (hmutation : mutation.Ordered)
    (hmode : mode.dryRun = false) (hresult : (store.mutate mutation mode).result = .ok log) :
    Effect store (store.mutate mutation mode).store mutation :=
  effect_of_mutate h.committed hmutation hmode hresult

theorem mutate_effect_billing :
    let created := (Fixture.billingStore .unary).1
    let mutation : Mutation :=
      .update "billing" (.channel (Fixture.invoices.withPriority ["kafka"]))
    let outcome := created.mutate mutation {}
    outcome.result = .ok [
      ⟨.updated .channel, "billing.invoices",
        .field "Spec.SelectedBroker" (some "memory") (some "kafka")⟩,
      ⟨.updated .channel, "billing.invoices",
        .field "Spec.BrokerPriorityList" (some "") (some "kafka")⟩] ∧
      Effect created outcome.store mutation := by
  intro created mutation outcome
  have hcreated : Reachable created := reachable_billing .unary
  have hresult : outcome.result = .ok [
      ⟨.updated .channel, "billing.invoices",
        .field "Spec.SelectedBroker" (some "memory") (some "kafka")⟩,
      ⟨.updated .channel, "billing.invoices",
        .field "Spec.BrokerPriorityList" (some "") (some "kafka")⟩] := by decide +kernel
  exact ⟨hresult, hcreated.mutate_effect Dict.ordered_empty rfl hresult⟩

end Store

end AppTopology
