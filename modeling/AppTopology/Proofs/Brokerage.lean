import AppTopology.Proofs.Addresses
import AppTopology.Proofs.Lookup
import AppTopology.Proofs.Selection

/-!
The empty name stands for having no broker, yet it can be installed like any other name.
-/

namespace AppTopology

namespace Store

variable {store before after : Store} {writes : List Write} {mode : Mode} {scope name : String}
variable {components : List Component} {channel : Channel}

def Brokered (store : Store) : Prop :=
  ∀ p channel, store.tree.entity? p = some (.channel channel) →
    channel.selectedBroker ∈ store.registry.available

theorem brokered_empty (registry : Registry) (supply : Supply) :
    (Store.empty registry supply).Brokered :=
  fun p channel hchannel => absurd hchannel (entity?_empty registry supply p channel)

theorem Stretch.brokered (h : Stretch before after writes) (hbefore : before.Brokered) :
    after.Brokered := by
  intro p channel hchannel
  obtain ⟨write, ⟨earlier, later, hwrites, -⟩, hselect⟩ | ⟨-, old, hold, hsame⟩ :=
    h.channels p channel hchannel
  · exact h.chosen write (by simp [hwrites]) (Registry.mem_of_select hselect)
  · rw [(Channel.brokers_eq hsame).2]
    exact h.installed (hbefore p old hold)

theorem entity?_of_leafIn? (h : store.tree.leafIn? Channel scope name = some channel) :
    store.tree.entity? ⟨Scope.names scope, .channel name⟩ = some (.channel channel) := by
  obtain ⟨app, happ, hchannel⟩ := Option.bind_eq_some_iff.mp h
  exact Option.bind_eq_some_iff.mpr ⟨app, happ, congrArg (Option.map Entity.channel) hchannel⟩

theorem registry_register (store : Store) (broker : String) :
    (store.register broker).store.registry = store.registry.after (.register broker) := by
  rw [register, Registry.after, Registry.attempt]
  cases store.registry.register broker <;> rfl

theorem registry_setDefault (store : Store) (broker : String) :
    (store.setDefault broker).store.registry = store.registry.after (.setDefault broker) := by
  rw [setDefault, Registry.after, Registry.attempt]
  cases store.registry.setDefault broker <;> rfl

theorem registry_applyInOrder (store : Store) (mode : Mode) (components : List Component) :
    (store.applyInOrder mode components).store.registry = store.registry := by
  induction components generalizing store with
  | nil => rfl
  | cons component rest ih =>
    obtain ⟨error, hrefused, hsame⟩ | ⟨existed, log, mutation, haccepted, -, hafter⟩ :=
      store.applyOne_made component mode
    · rw [(applyInOrder_cons_error hrefused rest).2, hsame]
    · rw [(applyInOrder_cons_ok haccepted rest).2, ih, hafter, registry_mutate]

theorem mem_available_after (store : Store) (call : Call) (broker : String) :
    broker ∈ (store.after call).registry.available ↔
      broker ∈ store.registry.available ∨ call = .register broker := by
  cases call with
  | mutate mutation mode => simp [after, registry_mutate]
  | apply components mode => simp [after, apply, registry_applyInOrder]
  | register other =>
    rw [after, registry_register, Registry.available_after_register, Call.register.injEq]
    split <;> grind
  | setDefault other =>
    simp [after, registry_setDefault, Registry.available_after_setDefault]

theorem mem_available_run (store : Store) (calls : List Call) (broker : String) :
    broker ∈ (store.run calls).registry.available ↔
      broker ∈ store.registry.available ∨ .register broker ∈ calls := by
  induction calls generalizing store with
  | nil => simp [run]
  | cons call rest ih =>
    change broker ∈ ((store.after call).run rest).registry.available ↔ _
    rw [ih, mem_available_after, List.mem_cons, or_assoc, eq_comm]

theorem resolveBroker_of_declared (hscope : Scope.isScope scope)
    (h : store.tree.leafIn? Channel scope name = some channel) :
    (store.resolveBroker false scope name).result =
      if channel.selectedBroker = "" then .error (.unbrokered channel.info.reference)
      else .ok channel.selectedBroker := by
  obtain ⟨app, happ, hchannel⟩ := Option.bind_eq_some_iff.mp h
  have hget : (store.getLeaf Channel false scope name).result = .ok channel :=
    getLeaf_eq_ok.mpr ⟨hscope, app, happ, hchannel⟩
  rw [resolveBroker, hget]
  dsimp only
  split <;> rfl

theorem resolveBroker_of_undeclared (hscope : Scope.isScope scope)
    (h : store.tree.leafIn? Channel scope name = none) :
    (store.resolveBroker false scope name).result =
      .error (if (store.tree.find? scope).isSome then .missing .channel (Scope.child scope name)
        else .missing .app scope) := by
  rw [resolveBroker, getLeaf, read, Scope.checkRequest, if_pos hscope]
  dsimp only [Bool.false_eq_true, if_false]
  unfold App.requireLeaf App.require
  cases happ : store.tree.find? scope with
  | none => rfl
  | some app =>
    have hchannel : app.own.leaf? Channel name = none := by
      rw [App.leafIn?, happ] at h
      exact h
    dsimp only [bind, Except.bind]
    rw [hchannel]
    rfl

theorem declared_of_unbrokered {path : String}
    (h : (store.resolveBroker false scope name).result = .error (.unbrokered path)) :
    ∃ channel, store.tree.leafIn? Channel scope name = some channel ∧
      channel.selectedBroker = "" := by
  by_cases hscope : Scope.isScope scope
  · cases hdeclared : store.tree.leafIn? Channel scope name with
    | none =>
      rw [resolveBroker_of_undeclared hscope hdeclared] at h
      split at h <;> exact nomatch h
    | some channel =>
      refine ⟨channel, rfl, ?_⟩
      by_contra hbroker
      rw [resolveBroker_of_declared hscope hdeclared, if_neg hbroker] at h
      exact nomatch h
  · have hmalformed : (store.resolveBroker false scope name).result =
        .error (.malformedScope scope) := by
      rw [resolveBroker, getLeaf, read, Scope.checkRequest, if_neg hscope]
    rw [hmalformed] at h
    exact nomatch h

/-- A declared channel has an installed broker and is told of it, save that the empty name is taken
for none. -/
theorem brokers_told (registry : Registry) (supply : Supply) (calls : List Call)
    (hinstalled : registry.available ≠ []) (hcalls : ∀ call ∈ calls, call.Ordered) :
    let last := (Store.empty registry supply).run calls
    (∀ scope name channel, Scope.isScope scope →
      last.tree.leafIn? Channel scope name = some channel →
        channel.selectedBroker ∈ last.registry.available ∧
          (last.resolveBroker false scope name).result =
            if channel.selectedBroker = "" then .error (.unbrokered channel.info.reference)
            else .ok channel.selectedBroker) ∧
      (∀ scope name, Scope.isScope scope → last.tree.leafIn? Channel scope name = none →
        (last.resolveBroker false scope name).result =
          .error (if (last.tree.find? scope).isSome then .missing .channel (Scope.child scope name)
            else .missing .app scope)) ∧
      ("" ∉ registry.available → .register "" ∉ calls →
        (∀ scope name channel, Scope.isScope scope →
          last.tree.leafIn? Channel scope name = some channel →
            ∃ broker ∈ last.registry.available,
              (last.resolveBroker false scope name).result = .ok broker) ∧
        ∀ scope name path,
          (last.resolveBroker false scope name).result ≠ .error (.unbrokered path)) := by
  intro last
  have hbrokered : last.Brokered :=
    (stretch_run (.empty registry supply) hcalls hinstalled).brokered
      (brokered_empty registry supply)
  have htold (scope name : String) (channel : Channel)
      (hdeclared : last.tree.leafIn? Channel scope name = some channel) :
      channel.selectedBroker ∈ last.registry.available :=
    hbrokered _ channel (entity?_of_leafIn? hdeclared)
  refine ⟨fun scope name channel hscope hdeclared => ⟨htold scope name channel hdeclared,
    resolveBroker_of_declared hscope hdeclared⟩,
    fun scope name => resolveBroker_of_undeclared, fun hempty hnever => ?_⟩
  have hnamed : "" ∉ last.registry.available := by
    rw [mem_available_run]
    exact not_or_intro hempty hnever
  refine ⟨fun scope name channel hscope hdeclared => ?_, fun scope name path h => ?_⟩
  · have hbroker := htold scope name channel hdeclared
    refine ⟨_, hbroker, ?_⟩
    rw [resolveBroker_of_declared hscope hdeclared]
    exact if_neg fun (hsentinel : channel.selectedBroker = "") => hnamed (hsentinel ▸ hbroker)
  · obtain ⟨channel, hdeclared, hsentinel⟩ := declared_of_unbrokered h
    exact hnamed (hsentinel ▸ htold scope name channel hdeclared)

theorem brokers_told_unnamed :
    let registry := (Registry.build ["", "kafka"] none).toOption.getD {}
    let invoices := Channel.named "invoices" "Invoice"
    let receipts := (Channel.named "receipts" "Invoice").withPriority ["kafka"]
    let calls : List Call :=
      [.mutate (.create "" (.channelType (.named "Invoice" "object"))) {},
        .mutate (.create "" (.channel invoices)) {}, .mutate (.create "" (.channel receipts)) {}]
    let last := (Store.empty registry .unary).run calls
    registry.available = ["", "kafka"] ∧ last.registry.select invoices.brokerPriority = some "" ∧
      (last.resolveBroker false "" "invoices").result = .error (.unbrokered "invoices") ∧
      (last.resolveBroker false "" "receipts").result = .ok "kafka" ∧
      (last.resolveBroker false "" "ghost").result = .error (.missing .channel "ghost") := by
  intro registry invoices receipts calls last
  have hcalls : ∀ call ∈ calls, call.Ordered := by
    simp only [calls, List.forall_mem_cons]
    exact ⟨Dict.ordered_empty, Dict.ordered_empty, Dict.ordered_empty, nofun⟩
  obtain ⟨hdeclared, hundeclared, -⟩ :=
    brokers_told registry .unary calls (by decide +kernel) hcalls
  have hfound (name broker : String)
      (h : (last.tree.leafIn? Channel "" name).map (fun c => (c.selectedBroker, c.info.reference)) =
        some (broker, name)) :
      (last.resolveBroker false "" name).result =
        if broker = "" then .error (.unbrokered name) else .ok broker := by
    obtain ⟨channel, hchannel, hsame⟩ := Option.map_eq_some_iff.mp h
    obtain ⟨hbroker, hreference⟩ := Prod.mk.inj hsame
    rw [(hdeclared "" name channel Scope.isScope_empty hchannel).2, hbroker, hreference]
  refine ⟨by decide +kernel, by decide +kernel, ?_, ?_, ?_⟩
  · rw [hfound "invoices" "" (by decide +kernel), if_pos rfl]
  · rw [hfound "receipts" "kafka" (by decide +kernel), if_neg (by decide)]
  · rw [hundeclared "" "ghost" Scope.isScope_empty (by decide +kernel),
      if_pos (by decide +kernel), Scope.child, if_pos rfl]

end Store

end AppTopology
