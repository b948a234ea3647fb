import AppTopology.Proofs.Batch
import AppTopology.Proofs.Commutation
import AppTopology.Proofs.Preview
import AppTopology.Proofs.Registry

namespace AppTopology

theorem Channel.brokers_eq {channel old : Channel} (h : Leaf.declared channel = Leaf.declared old) :
    channel.brokerPriority = old.brokerPriority ∧ channel.selectedBroker = old.selectedBroker :=
  have hdeclared (channel : Channel) :
      (Leaf.declared channel).brokerPriority = channel.brokerPriority ∧
        (Leaf.declared channel).selectedBroker = channel.selectedBroker := ⟨rfl, rfl⟩
  ⟨by rw [← (hdeclared channel).1, h, (hdeclared old).1],
    by rw [← (hdeclared channel).2, h, (hdeclared old).2]⟩

structure Write where
  target : Target
  registry : Registry

def Mutation.isDeletion : Mutation → Bool
  | delete _ => true
  | create .. | update .. => false

namespace Store

def written (store : Store) (turn : Turn) : List Write :=
  if turn.commits (store.mutate turn.mutation turn.mode) then
    if turn.mutation.isDeletion then [] else [⟨turn.mutation.target, store.registry⟩]
  else []

def writtenInOrder (store : Store) (mode : Mode) : List Component → List Write
  | [] => []
  | component :: rest =>
    let outcome := store.applyOne component mode
    match outcome.result, Scope.append component.info.parent component.info.name with
    | .ok _, .ok path =>
      ⟨component.target path, store.registry⟩ :: outcome.store.writtenInOrder mode rest
    | _, _ => []

def writes (store : Store) : Call → List Write
  | .mutate mutation mode => store.written ⟨mutation, mode⟩
  | .apply components mode =>
    if mode.dryRun then [] else store.writtenInOrder mode (Component.ordered components)
  | .register _ | .setDefault _ => []

def chronicle (store : Store) : List Call → List Write
  | [] => []
  | call :: rest => store.writes call ++ (store.after call).chronicle rest

end Store

def LastOver (p : Position) (writes : List Write) (write : Write) : Prop :=
  ∃ earlier later, writes = earlier ++ write :: later ∧ write.target.Covers p ∧
    ∀ other ∈ later, ¬ other.target.Covers p

namespace LastOver

variable {p : Position} {earlier later : List Write} {write : Write}

theorem singleton (h : write.target.Covers p) : LastOver p [write] write :=
  ⟨[], [], rfl, h, fun _ hmem => absurd hmem List.not_mem_nil⟩

theorem append_left (h : LastOver p later write) (earlier : List Write) :
    LastOver p (earlier ++ later) write := by
  obtain ⟨before, after, rfl, hcovers, hafter⟩ := h
  exact ⟨earlier ++ before, after, by simp, hcovers, hafter⟩

theorem append_right (h : LastOver p earlier write)
    (hlater : ∀ other ∈ later, ¬ other.target.Covers p) : LastOver p (earlier ++ later) write := by
  obtain ⟨before, after, rfl, hcovers, hafter⟩ := h
  refine ⟨before, after ++ later, by simp, hcovers, fun other hmem => ?_⟩
  exact (List.mem_append.mp hmem).elim (hafter other) (hlater other)

end LastOver

namespace Store

variable {store before mid after : Store} {earlier later writes : List Write} {mode : Mode}
variable {mutation : Mutation} {component : Component} {components : List Component}

/-- A channel is as it was before, or has the broker that was chosen by the last write about it. -/
structure Stretch (before after : Store) (writes : List Write) : Prop where
  installed : before.registry.available ⊆ after.registry.available
  chosen : ∀ write ∈ writes, write.registry.available ⊆ after.registry.available
  channels : ∀ p channel, after.tree.entity? p = some (.channel channel) →
    (∃ write, LastOver p writes write ∧
      write.registry.select channel.brokerPriority = some channel.selectedBroker) ∨
    (∀ write ∈ writes, ¬ write.target.Covers p) ∧
      ∃ old, before.tree.entity? p = some (.channel old) ∧
        Leaf.declared channel = Leaf.declared old

namespace Stretch

theorem idle (htree : after.tree = before.tree)
    (hinstalled : before.registry.available ⊆ after.registry.available) :
    Stretch before after [] where
  installed := hinstalled
  chosen _ hmem := absurd hmem List.not_mem_nil
  channels _ channel hchannel :=
    .inr ⟨fun _ hmem => absurd hmem List.not_mem_nil, channel, htree ▸ hchannel, rfl⟩

theorem refl (store : Store) : Stretch store store [] := idle rfl (List.Subset.refl _)

theorem trans (h : Stretch before mid earlier) (h' : Stretch mid after later) :
    Stretch before after (earlier ++ later) where
  installed := List.Subset.trans h.installed h'.installed
  chosen write hmem := (List.mem_append.mp hmem).elim
    (fun hearlier => List.Subset.trans (h.chosen write hearlier) h'.installed) (h'.chosen write)
  channels p channel hchannel := by
    obtain ⟨write, hlast, hselect⟩ | ⟨hlater, old, hold, hsame⟩ := h'.channels p channel hchannel
    · exact .inl ⟨write, hlast.append_left earlier, hselect⟩
    · obtain ⟨write, hlast, hselect⟩ | ⟨hearlier, older, holder, hsame'⟩ := h.channels p old hold
      · obtain ⟨hpriority, hbroker⟩ := Channel.brokers_eq hsame
        rw [← hpriority, ← hbroker] at hselect
        exact .inl ⟨write, hlast.append_right hlater, hselect⟩
      · exact .inr ⟨fun write hmem => (List.mem_append.mp hmem).elim (hearlier write)
          (hlater write), older, holder, hsame.trans hsame'⟩

end Stretch

theorem channel_of_declared {old new : Option Entity} {channel : Channel}
    (h : new.map Entity.declared = old.map Entity.declared) (hnew : new = some (.channel channel)) :
    ∃ other, old = some (.channel other) ∧ Leaf.declared channel = Leaf.declared other := by
  rw [hnew, Option.map_some] at h
  obtain ⟨entity, rfl, hentity⟩ := Option.map_eq_some_iff.mp h.symm
  cases entity with
  | channel other => exact ⟨other, rfl, (Entity.channel.inj hentity).symm⟩
  | app | channelType | channelAlias => exact nomatch hentity

theorem Effect.select_of_covers {p : Position} {channel : Channel}
    (h : Effect before after mutation) (hinstalled : before.registry.available ≠ [])
    (hp : mutation.target.Covers p)
    (hchannel : after.tree.entity? p = some (.channel channel)) :
    mutation.isDeletion = false ∧
      before.registry.select channel.brokerPriority = some channel.selectedBroker := by
  have htarget : (after.tree.entity? p).map Entity.declared =
      ((mutation.submitted p).map before.registry.routeEntity).map Entity.declared := by
    rw [h.target p hp, Option.map_map]
    rfl
  obtain ⟨routed, hrouted, hsame⟩ := channel_of_declared htarget hchannel
  obtain ⟨entity, hentity, hroute⟩ := Option.map_eq_some_iff.mp hrouted
  refine ⟨?_, ?_⟩
  · cases mutation with
    | delete => exact nomatch hentity
    | create | update => rfl
  · cases entity with
    | channel submitted =>
      obtain ⟨hpriority, hbroker⟩ := Channel.brokers_eq hsame
      rw [hpriority, hbroker, ← Entity.channel.inj hroute]
      exact Registry.select_route hinstalled submitted
    | app | channelType | channelAlias => exact nomatch hroute

theorem stretch_of_commit {log : Changelog} (h : Reachable store) (hmutation : mutation.Ordered)
    (hinstalled : store.registry.available ≠ []) (hmode : mode.dryRun = false)
    (hresult : (store.mutate mutation mode).result = .ok log) :
    Stretch store (store.mutate mutation mode).store
      (if mutation.isDeletion then [] else [⟨mutation.target, store.registry⟩]) := by
  have heffect := effect_of_mutate h.committed hmutation hmode hresult
  have hregistry := store.registry_mutate mutation mode
  constructor
  · rw [hregistry]
    exact List.Subset.refl _
  · intro write hwrite
    rw [hregistry]
    split at hwrite
    · exact absurd hwrite List.not_mem_nil
    · rw [List.mem_singleton.mp hwrite]
      exact List.Subset.refl _
  · intro p channel hchannel
    by_cases hp : mutation.target.Covers p
    · obtain ⟨hkept, hselect⟩ := heffect.select_of_covers hinstalled hp hchannel
      rw [hkept]
      exact .inl ⟨_, .singleton hp, hselect⟩
    · obtain ⟨old, hold, hsame⟩ := channel_of_declared (heffect.sameAt hp).content hchannel
      refine .inr ⟨fun write hwrite => ?_, old, hold, hsame⟩
      split at hwrite
      · exact absurd hwrite List.not_mem_nil
      · rwa [List.mem_singleton.mp hwrite]

theorem exists_log_of_commits {turn : Turn} {outcome : Outcome Changelog}
    (h : turn.commits outcome) :
    turn.mode.dryRun = false ∧ ∃ log, outcome.result = .ok log := by
  simp only [Turn.commits, Bool.and_eq_true, Bool.not_eq_true'] at h
  obtain ⟨⟨hmode, -⟩, hok⟩ := h
  refine ⟨hmode, ?_⟩
  cases hresult : outcome.result with
  | ok log => exact ⟨log, rfl⟩
  | error error =>
    rw [hresult] at hok
    cases hok

theorem stretch_mutate (h : Reachable store) (hmutation : mutation.Ordered)
    (hinstalled : store.registry.available ≠ []) (mode : Mode) :
    Stretch store (store.mutate mutation mode).store (store.written ⟨mutation, mode⟩) := by
  rw [written]
  split
  · next hcommits =>
    obtain ⟨hmode, log, hresult⟩ := exists_log_of_commits hcommits
    exact stretch_of_commit h hmutation hinstalled hmode hresult
  · next hcommits =>
    rw [store_of_not_commits (Bool.eq_false_iff.mpr hcommits)]
    exact .refl store

theorem stretch_of_made {log : Changelog} {path : String} (h : Reachable store)
    (hcomponent : component.Ordered) (hinstalled : store.registry.available ≠ [])
    (hmode : mode.dryRun = false) (hmade : Made store component mode log mutation)
    (hpath : Scope.append component.info.parent component.info.name = .ok path) :
    Stretch store (store.mutate mutation mode).store [⟨component.target path, store.registry⟩] := by
  have hstretch := stretch_of_commit h (hmade.ordered hcomponent) hinstalled hmode hmade.result
  obtain ⟨path', hpath', htarget⟩ := hmade.path
  rw [hpath, Except.ok.injEq] at hpath'
  rw [htarget, ← hpath'] at hstretch
  obtain ⟨scope, rfl | rfl⟩ := hmade.kind <;> exact hstretch

theorem stretch_applyInOrder (h : Reachable store)
    (hcomponents : ∀ component ∈ components, component.Ordered)
    (hinstalled : store.registry.available ≠ []) (hmode : mode.dryRun = false) :
    Stretch store (store.applyInOrder mode components).store
      (store.writtenInOrder mode components) := by
  induction components generalizing store with
  | nil => exact .refl store
  | cons component rest ih =>
    simp only [List.mem_cons, forall_eq_or_imp] at hcomponents
    rw [writtenInOrder]
    obtain ⟨error, hrefused, hsame⟩ | ⟨existed, log, mutation, haccepted, hmade, hafter⟩ :=
      store.applyOne_made component mode
    · rw [(applyInOrder_cons_error hrefused rest).2, hsame, hrefused]
      exact .refl store
    · obtain ⟨path, hpath, -⟩ := hmade.path
      have hfirst := stretch_of_made h hcomponents.1 hinstalled hmode hmade hpath
      rw [(applyInOrder_cons_ok haccepted rest).2, haccepted, hpath, hafter]
      dsimp only
      refine hfirst.trans (ih (h.mutated (hmade.ordered hcomponents.1) mode) hcomponents.2 ?_)
      rwa [registry_mutate]

theorem store_applyInOrder_dryRun (hmode : mode.dryRun = true) :
    (store.applyInOrder mode components).store = store := by
  induction components with
  | nil => rfl
  | cons component rest ih =>
    obtain ⟨error, hrefused, hsame⟩ | ⟨existed, log, mutation, haccepted, -, hafter⟩ :=
      store.applyOne_made component mode
    · rw [(applyInOrder_cons_error hrefused rest).2, hsame]
    · have hcommits : Turn.commits ⟨mutation, mode⟩ (store.mutate mutation mode) = false := by
        rw [Turn.commits, hmode]
        rfl
      have hkept : (store.mutate mutation mode).store = store := store_of_not_commits hcommits
      rw [(applyInOrder_cons_ok haccepted rest).2, hafter, hkept, ih]

theorem stretch_after (h : Reachable store) {call : Call} (hcall : call.Ordered)
    (hinstalled : store.registry.available ≠ []) :
    Stretch store (store.after call) (store.writes call) := by
  cases call with
  | mutate mutation mode => exact stretch_mutate h hcall hinstalled mode
  | apply components mode =>
    rw [writes]
    split
    · next hmode =>
      rw [after, apply, store_applyInOrder_dryRun hmode]
      exact .refl store
    · next hmode =>
      exact stretch_applyInOrder h (fun c hc => hcall c (List.mem_mergeSort.mp hc)) hinstalled
        (Bool.eq_false_iff.mpr hmode)
  | register broker =>
    rw [after, register]
    split
    · exact .refl store
    · next registry hregistry =>
      refine .idle rfl ?_
      rw [Registry.available_register hregistry]
      exact List.subset_append_left _ _
  | setDefault broker =>
    rw [after, setDefault]
    split
    · exact .refl store
    · next registry hregistry =>
      refine .idle rfl ?_
      rw [Registry.available_setDefault hregistry]
      exact List.Subset.refl _

theorem Stretch.installed_ne_nil (h : Stretch before after writes)
    (hinstalled : before.registry.available ≠ []) : after.registry.available ≠ [] := by
  obtain ⟨broker, hbroker⟩ := List.exists_mem_of_ne_nil _ hinstalled
  exact List.ne_nil_of_mem (h.installed hbroker)

theorem stretch_run (h : Reachable store) {calls : List Call}
    (hcalls : ∀ call ∈ calls, call.Ordered) (hinstalled : store.registry.available ≠ []) :
    Stretch store (store.run calls) (store.chronicle calls) := by
  induction calls generalizing store with
  | nil => exact .refl store
  | cons call rest ih =>
    simp only [List.mem_cons, forall_eq_or_imp] at hcalls
    have hfirst := stretch_after h hcalls.1 hinstalled
    exact hfirst.trans (ih (h.after hcalls.1) hcalls.2 (hfirst.installed_ne_nil hinstalled))

theorem entity?_empty (registry : Registry) (supply : Supply) (p : Position) (channel : Channel) :
    (Store.empty registry supply).tree.entity? p ≠ some (.channel channel) := by
  intro hchannel
  have hdeclared := congrArg (·.entity? p)
    ((⟨{}, registry, supply⟩ : Store).declared_commit App.ordered_empty)
  simp only [App.entity?_declared] at hdeclared
  obtain ⟨other, hother, -⟩ := channel_of_declared hdeclared hchannel
  obtain ⟨place, item⟩ := p
  cases place with
  | cons key place => cases hother
  | nil => cases item <;> cases hother

/-- Each channel has the broker to which its list led when it or an app around it was last created
or updated. -/
theorem brokers_chosen (registry : Registry) (supply : Supply) (calls : List Call)
    (hinstalled : registry.available ≠ []) (hcalls : ∀ call ∈ calls, call.Ordered) :
    let start := Store.empty registry supply
    let last := start.run calls
    (∀ p channel, last.tree.entity? p = some (.channel channel) →
      channel.selectedBroker ∈ last.registry.available ∧
        ∃ write, LastOver p (start.chronicle calls) write ∧
          write.registry.select channel.brokerPriority = some channel.selectedBroker) ∧
    ∀ call, call.Ordered → ∀ p channel next, last.tree.entity? p = some (.channel channel) →
      (last.after call).tree.entity? p = some (.channel next) →
        (∀ write ∈ last.writes call, ¬ write.target.Covers p) →
          next.selectedBroker = channel.selectedBroker := by
  intro start last
  have hstart : Reachable start := .empty registry supply
  have hrun := stretch_run hstart hcalls hinstalled
  constructor
  · intro p channel hchannel
    obtain ⟨write, hlast, hselect⟩ | ⟨-, old, hold, -⟩ := hrun.channels p channel hchannel
    · refine ⟨?_, write, hlast, hselect⟩
      obtain ⟨earlier, later, hwrites, -⟩ := hlast
      exact hrun.chosen write (by rw [hwrites]; simp) (Registry.mem_of_select hselect)
    · exact absurd hold (entity?_empty registry supply p old)
  · intro call hcall p channel next hchannel hnext hapart
    have hcallStretch := stretch_after (hstart.run hcalls) hcall (hrun.installed_ne_nil hinstalled)
    obtain ⟨write, ⟨earlier, later, hwrites, hcovers, -⟩, -⟩ | ⟨-, old, hold, hsame⟩ :=
      hcallStretch.channels p next hnext
    · exact absurd hcovers (hapart write (by rw [hwrites]; simp))
    · rw [hchannel, Option.some.injEq, Entity.channel.injEq] at hold
      rw [(Channel.brokers_eq hsame).2, hold]

theorem brokers_chosen_billing :
    let registry := (Registry.build ["memory"] none).toOption.getD {}
    let start := Store.empty registry .unary
    let calls : List Call :=
      [.mutate (.create "" (.app Fixture.billing)) {}, .register "kafka", .setDefault "kafka"]
    let last := start.run calls
    let p : Position := ⟨["billing"], .channel "invoices"⟩
    last.registry.defaultBroker = some "kafka" ∧ ∃ channel,
      last.tree.entity? p = some (.channel channel) ∧ channel.selectedBroker = "memory" ∧
        ∃ write, LastOver p (start.chronicle calls) write ∧
          write.registry.select channel.brokerPriority = some channel.selectedBroker := by
  intro registry start calls last p
  have hfound : ((last.tree.at? p.place).bind (·.own.channels.get? "invoices")).map
      Channel.selectedBroker = some "memory" := by decide +kernel
  obtain ⟨channel, hget, hbroker⟩ := Option.map_eq_some_iff.mp hfound
  obtain ⟨app, happ, hget⟩ := Option.bind_eq_some_iff.mp hget
  have hchannel : last.tree.entity? p = some (.channel channel) :=
    Option.bind_eq_some_iff.mpr ⟨app, happ, congrArg (Option.map Entity.channel) hget⟩
  have hcalls : ∀ call ∈ calls, call.Ordered := by
    simp only [calls, List.forall_mem_cons]
    exact ⟨show Fixture.billing.Ordered by decide +kernel, trivial, trivial, nofun⟩
  obtain ⟨-, hwrite⟩ :=
    (brokers_chosen registry .unary calls (by decide +kernel) hcalls).1 p channel hchannel
  exact ⟨by decide +kernel, channel, hchannel, hbroker, hwrite⟩

end Store

end AppTopology
