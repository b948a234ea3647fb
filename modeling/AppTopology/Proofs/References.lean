import AppTopology.Fixture
import AppTopology.Proofs.Steps

namespace AppTopology

namespace App

variable {α : Type} [Leaf α] {root app : App} {scope name path target : String}

theorem leafAt?_child (root : App) (hscope : Scope.isScope scope) (hname : Scope.isName name) :
    root.leafAt? α (Scope.child scope name) =
      (root.find? scope).bind fun app => app.own.leaf? α name := by
  rw [leafAt?, Scope.locate?_child hscope hname]
  rfl

def DeclaresType (root : App) (scope name outer : String) : Prop :=
  ∃ inner rest app channelType, Scope.enclosing scope = inner ++ outer :: rest ∧
    root.find? outer = some app ∧ app.own.types.get? name = some channelType ∧
    ∀ s ∈ inner, ∀ app, root.find? s = some app → app.own.types.get? name = none

theorem exists_nearest {declares : App → Bool}
    (h : ((Scope.enclosing scope).findSome? fun outer => (root.find? outer).bind fun app =>
      if declares app then some (Scope.child outer name) else none) = some path) :
    ∃ inner outer rest app, Scope.enclosing scope = inner ++ outer :: rest ∧
      root.find? outer = some app ∧ declares app ∧ path = Scope.child outer name ∧
      ∀ s ∈ inner, ∀ app, root.find? s = some app → declares app = false := by
  obtain ⟨inner, outer, rest, henclosing, hfound, hinner⟩ := List.findSome?_eq_some_iff.mp h
  obtain ⟨app, happ, hpath⟩ := Option.bind_eq_some_iff.mp hfound
  rw [Option.ite_none_right_eq_some, Option.some.injEq] at hpath
  refine ⟨inner, outer, rest, app, henclosing, happ, hpath.1, hpath.2.symm, ?_⟩
  intro s hs app' happ'
  have hnone := hinner s hs
  simpa [happ'] using hnone

theorem resolveType_eq_some (h : root.resolveType scope name = some path) :
    ∃ outer, outer ∈ Scope.enclosing scope ∧ root.DeclaresType scope name outer ∧
      path = Scope.child outer name := by
  obtain ⟨inner, outer, rest, app, henclosing, happ, hcontains, hpath, hinner⟩ := exists_nearest h
  obtain ⟨channelType, htype⟩ := Option.isSome_iff_exists.mp hcontains
  refine ⟨outer, by simp [henclosing], ?_, hpath⟩
  refine ⟨inner, rest, app, channelType, henclosing, happ, htype, ?_⟩
  intro s hs app' happ'
  have hnone : app'.own.types.contains name = false := hinner s hs app' happ'
  simpa [Dict.contains] using hnone

theorem Checked.resolveType (h : root.Checked) (hscope : Scope.isScope scope)
    (hpath : root.resolveType scope name = some path) :
    ∃ channelType, root.leafAt? ChannelType path = some channelType := by
  obtain ⟨outer, hmem, ⟨-, -, app, channelType, -, happ, htype, -⟩, rfl⟩ :=
    resolveType_eq_some hpath
  have houter := Scope.isScope_of_mem_enclosing hscope hmem
  have hname := ((h.valid_at houter happ).channelType _ channelType htype).1
  refine ⟨channelType, ?_⟩
  rw [leafAt?_child root houter hname, happ]
  exact htype

theorem Checked.exists_channel (h : root.Checked) (hscope : Scope.isScope scope)
    (happ : root.find? scope = some app) (hcontains : app.own.channels.contains name) :
    ∃ channel, root.leafAt? Channel (Scope.child scope name) = some channel := by
  obtain ⟨channel, hchannel⟩ := Option.isSome_iff_exists.mp hcontains
  have hname := ((h.valid_at hscope happ).channel name channel hchannel).1
  refine ⟨channel, ?_⟩
  rw [leafAt?_child root hscope hname, happ]
  exact hchannel

theorem Checked.resolveChannel (h : root.Checked) (hscope : Scope.isScope scope)
    (hpath : root.resolveChannel scope name = some path) :
    ∃ channel, root.leafAt? Channel path = some channel := by
  obtain ⟨inner, outer, rest, app, henclosing, happ, hcontains, rfl, -⟩ := exists_nearest hpath
  have houter : Scope.isScope outer :=
    Scope.isScope_of_mem_enclosing hscope (by simp [henclosing])
  exact h.exists_channel houter happ hcontains

theorem Checked.resolveTarget (h : root.Checked) (hscope : Scope.isScope scope)
    (hpath : root.resolveTarget scope target = some path) :
    ∃ channel, root.leafAt? Channel path = some channel := by
  unfold App.resolveTarget at hpath
  split at hpath
  · obtain ⟨channel, hchannel, rfl⟩ := Option.map_eq_some_iff.mp hpath
    exact ⟨channel, hchannel⟩
  · split at hpath
    · exact h.resolveChannel hscope hpath
    · simp at hpath

theorem Checked.resolveBoundaryIn (h : root.Checked) {scopes : List String}
    (hscopes : ∀ scope ∈ scopes, Scope.isScope scope)
    (hpath : root.resolveBoundaryIn name scopes = some path) :
    ∃ channel, root.leafAt? Channel path = some channel := by
  induction scopes with
  | nil => simp [App.resolveBoundaryIn] at hpath
  | cons scope outer ih =>
    simp only [List.mem_cons, forall_eq_or_imp] at hscopes
    unfold App.resolveBoundaryIn at hpath
    cases happ : root.find? scope with
    | none =>
      rw [happ] at hpath
      exact ih hscopes.2 hpath
    | some app =>
      rw [happ] at hpath
      dsimp only at hpath
      split at hpath
      · next hcontains =>
        rw [Option.some.injEq] at hpath
        rw [← hpath]
        exact h.exists_channel hscopes.1 happ hcontains
      · split at hpath
        · exact h.resolveTarget hscopes.1 hpath
        · exact ih hscopes.2 hpath

theorem Checked.resolveBoundary (h : root.Checked) (hscope : Scope.isScope scope)
    (hpath : root.resolveBoundary scope name = some path) :
    ∃ channel, root.leafAt? Channel path = some channel :=
  h.resolveBoundaryIn (fun _ houter => Scope.isScope_of_mem_enclosing hscope houter) hpath

/-- Names and targets lead to channels, channels have the nearest declared types, and no image or
schema is blank. -/
structure Grounded (root : App) (scope : String) (app : App) : Prop where
  boundary : ∀ direction name, (direction, name) ∈ app.own.boundary.entries →
    ∃ path channel, root.resolveBoundary scope name = some path ∧
      root.leafAt? Channel path = some channel
  channel : ∀ name channel, app.own.channels.get? name = some channel → channel.typeName ≠ "" ∧
    ∃ outer channelType, root.DeclaresType scope channel.typeName outer ∧
      root.resolveType scope channel.typeName = some (Scope.child outer channel.typeName) ∧
      root.leafAt? ChannelType (Scope.child outer channel.typeName) = some channelType
  channelAlias : ∀ name declared, app.own.aliases.get? name = some declared →
    ∃ path channel, root.resolveTarget scope declared.target = some path ∧
      root.leafAt? Channel path = some channel
  channelType : ∀ name channelType, app.own.types.get? name = some channelType →
    Text.isBlank channelType.schema = false
  node : ∀ node, app.own.node = some node → Text.isBlank node.image = false

theorem Checked.grounded (h : root.Checked) (hscope : Scope.isScope scope)
    (happ : root.find? scope = some app) : root.Grounded scope app := by
  have hvalid := h.valid_at hscope happ
  constructor
  · intro direction name hbound
    obtain ⟨path, hpath⟩ := Option.isSome_iff_exists.mp (hvalid.boundary direction name hbound)
    obtain ⟨channel, hchannel⟩ := h.resolveBoundary hscope hpath
    exact ⟨path, channel, hpath, hchannel⟩
  · intro name channel hchannel
    obtain ⟨-, htyped, hsome⟩ := hvalid.channel name channel hchannel
    obtain ⟨path, hpath⟩ := Option.isSome_iff_exists.mp hsome
    obtain ⟨channelType, htype⟩ := h.resolveType hscope hpath
    obtain ⟨outer, -, hnearest, rfl⟩ := resolveType_eq_some hpath
    exact ⟨htyped, outer, channelType, hnearest, hpath, htype⟩
  · intro name declared halias
    obtain ⟨-, -, hsome⟩ := hvalid.channelAlias name declared halias
    obtain ⟨path, hpath⟩ := Option.isSome_iff_exists.mp hsome
    obtain ⟨channel, hchannel⟩ := h.resolveTarget hscope hpath
    exact ⟨path, channel, hpath, hchannel⟩
  · exact fun name channelType htype => (hvalid.channelType name channelType htype).2
  · exact hvalid.node

end App

namespace Store

theorem Reachable.no_dangling_reference {store : Store} (h : Reachable store) {scope : String}
    {app : App} (hscope : Scope.isScope scope) (happ : store.tree.find? scope = some app) :
    store.tree.Grounded scope app :=
  h.committed.grounded hscope happ

theorem no_dangling_reference_printer : ∃ store app, Reachable store ∧
    store.tree.find? "billing.printer" = some app ∧
    store.tree.Grounded "billing.printer" app := by
  have hfound : ((restore (({} : App).withApp Fixture.billing) {} .unary).toOption.bind
      fun store => store.tree.find? "billing.printer").isSome := by decide +kernel
  obtain ⟨app, happ⟩ := Option.isSome_iff_exists.mp hfound
  cases hrestore : restore (({} : App).withApp Fixture.billing) {} .unary with
  | error error =>
    rw [hrestore] at happ
    simp [Except.toOption] at happ
  | ok store =>
    rw [hrestore] at happ
    have hreachable : Reachable store := .restore (by decide +kernel) hrestore
    exact ⟨store, app, hreachable, happ,
      hreachable.no_dangling_reference (by decide +kernel) happ⟩

end Store

end AppTopology
