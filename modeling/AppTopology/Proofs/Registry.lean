import AppTopology.Proofs.Check
import AppTopology.Registry
import Mathlib.Data.List.Induction
import Mathlib.Data.List.Nodup
import Mathlib.Tactic.ByContra

namespace AppTopology.Registry

variable {registry next : Registry} {broker : String} {priority : List String}

theorem mem_of_select (h : registry.select priority = some broker) :
    broker ∈ registry.available := by
  unfold select at h
  split at h
  · next found hfound =>
    rw [← Option.some.inj h]
    simpa using List.find?_some hfound
  · exact registry.default_mem broker h

theorem isSome_select (h : registry.available ≠ []) (priority : List String) :
    (registry.select priority).isSome := by
  unfold select
  split
  · rfl
  · exact registry.default_isSome h

theorem select_route (h : registry.available ≠ []) (channel : Channel) :
    registry.select (registry.route channel).brokerPriority =
      some (registry.route channel).selectedBroker := by
  obtain ⟨broker, hbroker⟩ := Option.isSome_iff_exists.mp (isSome_select h channel.brokerPriority)
  simp only [route, hbroker]

theorem register_eq_error {error : TopologyError} :
    registry.register broker = .error error ↔
      broker ∈ registry.available ∧ error = .takenBroker broker := by
  unfold register
  split
  · next h => simp [h, eq_comm]
  · next h => simp [h]

theorem setDefault_eq_error {error : TopologyError} :
    registry.setDefault broker = .error error ↔
      broker ∉ registry.available ∧ error = .missingBroker broker := by
  unfold setDefault
  split
  · next h => simp [h]
  · next h => simp [h, eq_comm]

theorem available_register (h : registry.register broker = .ok next) :
    next.available = registry.available ++ [broker] := by
  unfold register at h
  split at h
  · exact nomatch h
  · rw [← Except.ok.inj h]

theorem available_setDefault (h : registry.setDefault broker = .ok next) :
    next.available = registry.available := by
  unfold setDefault at h
  split at h
  · rw [← Except.ok.inj h]
  · exact nomatch h

def IsFirst (installed priority : List String) (broker : String) : Prop :=
  broker ∈ installed ∧ ∃ before after, priority = before ++ broker :: after ∧
    ∀ other ∈ before, other ∉ installed

theorem IsFirst.find?_eq_some {installed : List String} (h : IsFirst installed priority broker) :
    priority.find? (· ∈ installed) = some broker := by
  obtain ⟨hbroker, before, after, rfl, hbefore⟩ := h
  rw [List.find?_eq_some_iff_append]
  exact ⟨by simpa using hbroker, before, after, rfl, by simpa using hbefore⟩

theorem isFirst_of_find? {installed : List String}
    (h : priority.find? (· ∈ installed) = some broker) : IsFirst installed priority broker := by
  obtain ⟨hbroker, before, after, hsplit, hbefore⟩ := List.find?_eq_some_iff_append.mp h
  exact ⟨by simpa using hbroker, before, after, hsplit, by simpa using hbefore⟩

theorem select_eq_some : registry.select priority = some broker ↔
    IsFirst registry.available priority broker ∨
      (∀ other ∈ priority, other ∉ registry.available) ∧ registry.defaultBroker = some broker := by
  unfold select
  cases hfind : priority.find? (· ∈ registry.available) with
  | none =>
    have hnone : ∀ other ∈ priority, other ∉ registry.available := by
      simpa [List.find?_eq_none] using hfind
    have hfirst : ¬ IsFirst registry.available priority broker := fun h => by
      rw [h.find?_eq_some] at hfind
      exact nomatch hfind
    constructor
    · exact fun h => .inr ⟨hnone, h⟩
    · exact fun h => (h.resolve_left hfirst).2
  | some found =>
    have hfound := isFirst_of_find? hfind
    constructor
    · intro h
      exact .inl (Option.some.inj h ▸ hfound)
    · rintro (h | ⟨hnone, -⟩)
      · rw [← hfind, h.find?_eq_some]
      · exact absurd hfound.1 (hnone found (List.mem_of_find?_eq_some hfind))

theorem choice_eq_none {installed : List String} {choice : Option String}
    (hmem : ∀ broker ∈ choice, broker ∈ installed) (hsome : installed ≠ [] → choice.isSome) :
    choice = none ↔ installed = [] := by
  cases choice with
  | none =>
    refine iff_of_true rfl ?_
    by_contra hne
    exact nomatch hsome hne
  | some broker => exact iff_of_false nofun (List.ne_nil_of_mem (hmem broker rfl))

theorem default_eq_none : registry.defaultBroker = none ↔ registry.available = [] :=
  choice_eq_none registry.default_mem registry.default_isSome

theorem select_eq_none : registry.select priority = none ↔ registry.available = [] :=
  choice_eq_none (fun _ => mem_of_select) fun hne => isSome_select hne priority

inductive Action where
  | register (broker : String)
  | setDefault (broker : String)

namespace Action

def registered? : Action → Option String
  | register broker => some broker
  | setDefault _ => none

def chosen? : Action → Option String
  | register _ => none
  | setDefault broker => some broker

end Action

def attempt (registry : Registry) : Action → Except TopologyError Registry
  | .register broker => registry.register broker
  | .setDefault broker => registry.setDefault broker

def after (registry : Registry) (action : Action) : Registry :=
  match registry.attempt action with
  | .ok next => next
  | .error _ => registry

def run (registry : Registry) (actions : List Action) : Registry := actions.foldl after registry

def granted (registry : Registry) : List Action → List Action
  | [] => []
  | action :: rest =>
    let later := (registry.after action).granted rest
    if (registry.attempt action).isOk then action :: later else later

def registered (actions : List Action) : List String := actions.filterMap Action.registered?

def chosen (actions : List Action) : List String :=
  (granted {} actions).filterMap Action.chosen?

theorem run_concat (registry : Registry) (actions : List Action) (action : Action) :
    registry.run (actions ++ [action]) = (registry.run actions).after action := by
  rw [run, List.foldl_append]
  rfl

theorem granted_concat (registry : Registry) (actions : List Action) (action : Action) :
    registry.granted (actions ++ [action]) = registry.granted actions ++
      if ((registry.run actions).attempt action).isOk then [action] else [] := by
  induction actions generalizing registry with
  | nil => rfl
  | cons first rest ih =>
    rw [List.cons_append, granted, granted, ih]
    split <;> rfl

theorem available_after_register (registry : Registry) (broker : String) :
    (registry.after (.register broker)).available =
      if broker ∈ registry.available then registry.available
      else registry.available ++ [broker] := by
  by_cases h : broker ∈ registry.available <;> simp [after, attempt, register, h]

theorem default_after_register (registry : Registry) (broker : String) :
    (registry.after (.register broker)).defaultBroker =
      some (registry.defaultBroker.getD broker) := by
  by_cases h : broker ∈ registry.available
  · obtain ⟨found, hfound⟩ :=
      Option.isSome_iff_exists.mp (registry.default_isSome (List.ne_nil_of_mem h))
    simp [after, attempt, register, h, hfound]
  · simp [after, attempt, register, h]

theorem available_after_setDefault (registry : Registry) (broker : String) :
    (registry.after (.setDefault broker)).available = registry.available := by
  by_cases h : broker ∈ registry.available <;> simp [after, attempt, setDefault, h]

theorem default_after_setDefault (registry : Registry) (broker : String) :
    (registry.after (.setDefault broker)).defaultBroker =
      if broker ∈ registry.available then some broker else registry.defaultBroker := by
  by_cases h : broker ∈ registry.available <;> simp [after, attempt, setDefault, h]

theorem isOk_setDefault (registry : Registry) (broker : String) :
    (registry.attempt (.setDefault broker)).isOk = decide (broker ∈ registry.available) := by
  by_cases h : broker ∈ registry.available <;>
    simp [attempt, setDefault, h, Except.isOk, Except.toBool]

theorem eraseDups_concat (names : List String) (name : String) :
    (names ++ [name]).eraseDups =
      if name ∈ names.eraseDups then names.eraseDups else names.eraseDups ++ [name] := by
  rw [List.eraseDups_append]
  by_cases h : name ∈ names <;> simp [List.removeAll, List.eraseDups_cons, h]

structure Follows (registry : Registry) (actions : List Action) : Prop where
  available : registry.available = (registered actions).eraseDups
  defaultBroker : registry.defaultBroker =
    (chosen actions).getLast?.or (registered actions).head?

theorem registered_concat (actions : List Action) (action : Action) :
    registered (actions ++ [action]) = registered actions ++ action.registered?.toList := by
  rw [registered, List.filterMap_append]
  cases action <;> rfl

theorem Follows.after {actions : List Action} (h : Follows (run {} actions) actions)
    (action : Action) : Follows ((run {} actions).after action) (actions ++ [action]) := by
  cases action with
  | register broker =>
    have hregistered := registered_concat actions (.register broker)
    have hchosen : chosen (actions ++ [.register broker]) = chosen actions := by
      rw [chosen, granted_concat, List.filterMap_append]
      split <;> simp [chosen, Action.chosen?]
    constructor
    · rw [available_after_register, hregistered, h.available]
      exact (eraseDups_concat _ broker).symm
    · rw [default_after_register, hregistered, hchosen, h.defaultBroker, List.head?_append]
      cases (chosen actions).getLast? <;> cases (registered actions).head? <;> rfl
  | setDefault broker =>
    have hregistered : registered (actions ++ [.setDefault broker]) = registered actions := by
      rw [registered_concat, Action.registered?, Option.toList_none, List.append_nil]
    constructor
    · rw [available_after_setDefault, hregistered, h.available]
    · rw [default_after_setDefault, hregistered, chosen, granted_concat, isOk_setDefault,
        List.filterMap_append, ← chosen]
      by_cases hinstalled : broker ∈ (run {} actions).available
      · simp [hinstalled, Action.chosen?]
      · simp [hinstalled, h.defaultBroker]

theorem run_follows (actions : List Action) : Follows (run {} actions) actions := by
  induction actions using List.reverseRecOn with
  | nil => exact ⟨rfl, rfl⟩
  | append_singleton actions action ih =>
    rw [run_concat]
    exact ih.after action

theorem mem_available_run {actions : List Action} :
    broker ∈ (run {} actions).available ↔ broker ∈ registered actions := by
  rw [(run_follows actions).available, List.mem_eraseDups]

theorem available_run_eq_nil {actions : List Action} :
    (run {} actions).available = [] ↔ registered actions = [] := by
  simp only [List.eq_nil_iff_forall_not_mem, mem_available_run]

theorem foldlM_register_eq_ok {brokers : List String} :
    brokers.foldlM register registry = .ok next ↔
      (registry.available ++ brokers).Nodup ∧ next = registry.run (brokers.map .register) := by
  induction brokers generalizing registry with
  | nil =>
    rw [List.foldlM_nil, Check.pure_eq_ok, List.append_nil]
    exact ⟨fun h => ⟨registry.nodup, h.symm⟩, fun h => h.2.symm⟩
  | cons broker rest ih =>
    rw [List.foldlM_cons]
    cases hfirst : registry.register broker with
    | error error =>
      have hinstalled := (register_eq_error.mp hfirst).1
      constructor
      · exact fun h => nomatch h
      · rintro ⟨hnodup, -⟩
        rw [List.nodup_append] at hnodup
        exact absurd rfl (hnodup.2.2 broker hinstalled broker List.mem_cons_self)
    | ok first =>
      have hafter : registry.after (.register broker) = first := by rw [after, attempt, hfirst]
      change rest.foldlM register first = .ok next ↔ _
      rw [ih, available_register hfirst, List.append_assoc, List.singleton_append, List.map_cons,
        run, run, List.foldl_cons, hafter]

theorem setDefault_eq_ok : registry.setDefault broker = .ok next ↔
    broker ∈ registry.available ∧ next = registry.after (.setDefault broker) := by
  by_cases h : broker ∈ registry.available <;> simp [after, attempt, setDefault, h, eq_comm]

theorem registered_map_register (brokers : List String) :
    registered (brokers.map .register) = brokers := by
  rw [registered, List.filterMap_map]
  exact List.filterMap_some

theorem build_eq_ok {brokers : List String} {defaultBroker : Option String} :
    build brokers defaultBroker = .ok registry ↔
      (brokers.Nodup ∧ ∀ broker ∈ defaultBroker, broker ∈ brokers) ∧
        registry = run {} (brokers.map .register ++ defaultBroker.toList.map .setDefault) := by
  have hinstall (next : Registry) : brokers.foldlM register {} = .ok next ↔
      brokers.Nodup ∧ next = run {} (brokers.map .register) := foldlM_register_eq_ok
  unfold build
  rw [Check.bind_eq_ok]
  simp only [hinstall]
  cases defaultBroker with
  | none =>
    simp only [Check.pure_eq_ok, Option.toList_none, List.map_nil, List.append_nil]
    constructor
    · rintro ⟨_, ⟨hnodup, rfl⟩, hsame⟩
      exact ⟨⟨hnodup, nofun⟩, hsame.symm⟩
    · rintro ⟨⟨hnodup, -⟩, rfl⟩
      exact ⟨_, ⟨hnodup, rfl⟩, rfl⟩
  | some broker =>
    simp only [setDefault_eq_ok, Option.toList_some, List.map_singleton, run_concat]
    constructor
    · rintro ⟨_, ⟨hnodup, rfl⟩, hbroker, rfl⟩
      rw [mem_available_run, registered_map_register] at hbroker
      simp [hnodup, hbroker]
    · rintro ⟨⟨hnodup, hbroker⟩, rfl⟩
      refine ⟨_, ⟨hnodup, rfl⟩, ?_, rfl⟩
      rw [mem_available_run, registered_map_register]
      exact hbroker broker rfl

/-- The calls alone decide which brokers are installed, in which order, and which one is the
default. -/
theorem determined (actions : List Action) :
    let last := run {} actions
    last.available = (registered actions).eraseDups ∧ last.available.Nodup ∧
      last.defaultBroker = (chosen actions).getLast?.or (registered actions).head? ∧
      (last.defaultBroker = none ↔ registered actions = []) ∧
      (∀ broker ∈ last.defaultBroker, broker ∈ last.available) ∧
      (∀ broker error, last.register broker = .error error ↔
        broker ∈ last.available ∧ error = .takenBroker broker) ∧
      (∀ broker error, last.setDefault broker = .error error ↔
        broker ∉ last.available ∧ error = .missingBroker broker) ∧
      (∀ action error, last.attempt action = .error error → last.after action = last) ∧
      (∀ priority broker, last.select priority = some broker ↔
        IsFirst last.available priority broker ∨
          (∀ other ∈ priority, other ∉ last.available) ∧ last.defaultBroker = some broker) ∧
      (∀ priority, last.select priority = none ↔ last.available = []) ∧
      ∀ brokers defaultBroker registry, build brokers defaultBroker = .ok registry ↔
        (brokers.Nodup ∧ ∀ broker ∈ defaultBroker, broker ∈ brokers) ∧
          registry = run {} (brokers.map .register ++ defaultBroker.toList.map .setDefault) := by
  intro last
  have hfollows := run_follows actions
  refine ⟨hfollows.available, last.nodup, hfollows.defaultBroker,
    default_eq_none.trans available_run_eq_nil, last.default_mem, fun _ _ => register_eq_error,
    fun _ _ => setDefault_eq_error, fun action error herror => ?_, fun _ _ => select_eq_some,
    fun _ => select_eq_none, fun _ _ _ => build_eq_ok⟩
  rw [after, herror]

example : (run {} [.setDefault "kafka", .register "memory", .register "kafka", .register "memory",
    .setDefault "kafka", .setDefault "nats"]).defaultBroker = some "kafka" := by decide

end AppTopology.Registry
