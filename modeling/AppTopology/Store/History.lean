import AppTopology.Entity.Ordered
import AppTopology.Store.Apply

namespace AppTopology

def Component.Ordered : Component → Prop
  | channelType declared => declared.info.Ordered
  | channel declared => declared.info.Ordered
  | app declared => declared.Ordered
  | channelAlias declared => declared.info.Ordered

def Mutation.Ordered : Mutation → Prop
  | create _ component | update _ component => component.Ordered
  | delete _ => True

inductive Call where
  | mutate (mutation : Mutation) (mode : Mode)
  | apply (components : List Component) (mode : Mode)
  | register (broker : String)
  | setDefault (broker : String)

def Call.Ordered : Call → Prop
  | mutate mutation _ => mutation.Ordered
  | apply components _ => ∀ component ∈ components, component.Ordered
  | register _ | setDefault _ => True

namespace Store

def after (store : Store) : Call → Store
  | .mutate mutation mode => (store.mutate mutation mode).store
  | .apply components mode => (store.apply components mode).store
  | .register broker => (store.register broker).store
  | .setDefault broker => (store.setDefault broker).store

def run (store : Store) (calls : List Call) : Store := calls.foldl after store

inductive Reachable : Store → Prop where
  | empty (registry : Registry) (supply : Supply) : Reachable (Store.empty registry supply)
  | restore {root : App} {registry : Registry} {supply : Supply} {store : Store} :
    root.Ordered → Store.restore root registry supply = .ok store → Reachable store
  | after {store : Store} {call : Call} :
    Reachable store → call.Ordered → Reachable (store.after call)

theorem Reachable.run {store : Store} (h : Reachable store) {calls : List Call}
    (hcalls : ∀ call ∈ calls, call.Ordered) : Reachable (store.run calls) := by
  induction calls generalizing store with
  | nil => exact h
  | cons call rest ih =>
    simp only [List.mem_cons, forall_eq_or_imp] at hcalls
    exact ih (h.after hcalls.1) hcalls.2

end Store

end AppTopology
