import AppTopology.Proofs.Frame
import AppTopology.Proofs.References

/-!
The first of the scopes around a scope that knows a name decides. A lookup in a later tree gives the
same where each of these scopes answers as before, save for answers that the lookup did not come to.
-/

namespace AppTopology

variable {α β : Type}

/-- What was found before is found again, unless it is lost. -/
def Kept (lost : β → Prop) (before after : Option β) : Prop :=
  (∀ b, before = some b → ¬ lost b) → after = before

namespace Kept

variable {lost : β → Prop} {before after : Option β}

theorem of_eq (h : after = before) : Kept lost before after := fun _ => h

theorem of_lost {b : β} (h : before = some b) (hlost : lost b) : Kept lost before after :=
  fun hkept => absurd hlost (hkept b h)

theorem eq_of_nothing_lost (h : Kept (fun _ => False) before after) : after = before :=
  h fun _ _ => id

theorem findSome? {f g : α → Option β} {xs : List α} (h : ∀ x ∈ xs, Kept lost (f x) (g x)) :
    Kept lost (xs.findSome? f) (xs.findSome? g) := by
  induction xs with
  | nil => exact of_eq rfl
  | cons x xs ih =>
    simp only [List.mem_cons, forall_eq_or_imp] at h
    intro hkept
    rw [List.findSome?_cons] at hkept
    cases hf : f x with
    | some b =>
      -- An answer here hides what comes after it, so nothing is asked of the rest.
      rw [hf] at hkept
      have hg := h.1 (hf ▸ hkept)
      rw [List.findSome?_cons, List.findSome?_cons, hg, hf]
    | none =>
      rw [hf] at hkept
      have hg := h.1 (by simp [hf])
      rw [List.findSome?_cons, List.findSome?_cons, hg, hf]
      exact ih h.2 hkept

end Kept

theorem Scope.isInner_of_mem_enclosing {scope outer : String} (hscope : isScope scope)
    (h : outer ∈ enclosing scope) : isInner outer scope := by
  induction scope, hscope using isScope_induction with
  | root =>
    rw [enclosing_empty, List.mem_singleton] at h
    rw [h]
    exact isInner_self isScope_empty
  | child scope name hscope hname ih =>
    rw [enclosing_child scope hname, List.mem_cons] at h
    rcases h with rfl | h
    · exact isInner_self (isScope_child hscope hname)
    · exact isInner_trans (ih h) (isInner_append (Admits.append (.inl hname) hscope))

namespace App

variable [Leaf α] {root before after : App} {lost : String → Prop} {scope name target path : String}

def leafIn? (α : Type) [Leaf α] (root : App) (scope name : String) : Option α :=
  (root.find? scope).bind (·.own.leaf? α name)

def pathIn? (α : Type) [Leaf α] (root : App) (name scope : String) : Option String :=
  if (root.leafIn? α scope name).isSome then some (Scope.child scope name) else none

def boundIn? (root : App) (name scope : String) : Option (Option String) :=
  ((root.pathIn? Channel name scope).map some).or
    ((root.leafIn? ChannelAlias scope name).map fun declared =>
      root.resolveTarget scope declared.target)

theorem isSome_pathIn? (root : App) (name scope : String) :
    (root.pathIn? α name scope).isSome = (root.leafIn? α scope name).isSome := by
  rw [pathIn?]
  split <;> simp_all

theorem isSome_boundIn? (root : App) (name scope : String) : (root.boundIn? name scope).isSome =
    ((root.leafIn? Channel scope name).isSome ||
      (root.leafIn? ChannelAlias scope name).isSome) := by
  rw [boundIn?, Option.isSome_or, Option.isSome_map, Option.isSome_map, isSome_pathIn?]

theorem pathIn?_eq (root : App) (name scope : String) : root.pathIn? α name scope =
    (root.find? scope).bind fun app =>
      if (Leaf.shelf app.own : Dict α).contains name then some (Scope.child scope name)
      else none := by
  rw [pathIn?, leafIn?]
  cases root.find? scope with
  | none => rfl
  | some app => rfl

theorem resolveLeaf_eq (root : App) (scope name : String) : root.resolveLeaf α scope name =
    (Scope.enclosing scope).findSome? (root.pathIn? α name) := by
  rw [resolveLeaf]
  congr 1
  funext outer
  exact (root.pathIn?_eq name outer).symm

theorem resolveType_eq (root : App) (scope name : String) : root.resolveType scope name =
    (Scope.enclosing scope).findSome? (root.pathIn? ChannelType name) :=
  root.resolveLeaf_eq scope name

theorem resolveChannel_eq (root : App) (scope name : String) : root.resolveChannel scope name =
    (Scope.enclosing scope).findSome? (root.pathIn? Channel name) :=
  root.resolveLeaf_eq scope name

theorem resolveBoundaryIn_eq (root : App) (name : String) (scopes : List String) :
    root.resolveBoundaryIn name scopes = (scopes.findSome? (root.boundIn? name)).join := by
  induction scopes with
  | nil => rfl
  | cons scope outer ih =>
    rw [resolveBoundaryIn, List.findSome?_cons, ih, boundIn?, pathIn?_eq, leafIn?]
    cases root.find? scope with
    | none => rfl
    | some app =>
      change (if app.own.channels.contains name then _ else _) = _
      by_cases hchannel : app.own.channels.contains name
      · simp [hchannel, Leaf.shelf]
      · simp only [hchannel, Leaf.shelf, Own.leaf?, Option.bind_some]
        cases app.own.aliases.get? name <;> rfl

theorem resolveBoundary_eq (root : App) (scope name : String) :
    root.resolveBoundary scope name =
      ((Scope.enclosing scope).findSome? (root.boundIn? name)).join :=
  root.resolveBoundaryIn_eq name _

theorem resolveTarget_dotted (hdot : '.' ∈ target.toList) (root : App) (scope : String) :
    root.resolveTarget scope target =
      if Scope.isScope target then root.pathIn? Channel (Scope.leaf target) (Scope.parent target)
      else none := by
  rw [resolveTarget, if_pos hdot]
  by_cases htarget : Scope.isScope target
  · have hne : target ≠ "" := by
      rintro rfl
      simp at hdot
    obtain ⟨outer, name, houter, hname, rfl⟩ := Scope.exists_child_of_isScope htarget hne
    rw [if_pos htarget, Scope.parent_child houter hname, Scope.leaf_child houter hname, pathIn?,
      leafIn?, leafAt?_child root houter hname]
    cases (root.find? outer).bind (·.own.leaf? Channel name) <;> rfl
  · rw [if_neg htarget, leafAt?, Scope.locate?, if_neg htarget]
    rfl

theorem exists_embeds_injective (α : Type) [Leaf α] [LawfulLeaf α] :
    ∃ embed : α → Entity, Embeds α embed ∧ Function.Injective embed := by
  apply LawfulLeaf.elim (α := α) fun β _ =>
    ∃ embed : β → Entity, Embeds β embed ∧ Function.Injective embed
  · exact ⟨_, embeds_channel, fun _ _ => Entity.channel.inj⟩
  · exact ⟨_, embeds_channelType, fun _ _ => Entity.channelType.inj⟩
  · exact ⟨_, embeds_channelAlias, fun _ _ => Entity.channelAlias.inj⟩

theorem entity?_eq_leafIn? {embed : α → Entity} (h : Embeds α embed) (root : App)
    (scope name : String) :
    root.entity? ⟨Scope.names scope, .ofKind (Leaf.kind α) name⟩ =
      (root.leafIn? α scope name).map embed := by
  rw [entity?, leafIn?, Option.map_bind]
  exact congrArg _ (funext fun app => h.entity? app.own name)

theorem isSome_leafIn? [LawfulLeaf α] (root : App) (scope name : String) :
    (root.leafIn? α scope name).isSome =
      (root.entity? ⟨Scope.names scope, .ofKind (Leaf.kind α) name⟩).isSome := by
  obtain ⟨embed, hembeds⟩ := exists_embeds α
  rw [entity?_eq_leafIn? hembeds, Option.isSome_map]

theorem declared_leafIn? [LawfulLeaf α]
    (h : (after.entity? ⟨Scope.names scope, .ofKind (Leaf.kind α) name⟩).map Entity.declared =
      (before.entity? ⟨Scope.names scope, .ofKind (Leaf.kind α) name⟩).map Entity.declared) :
    (after.leafIn? α scope name).map Leaf.declared =
      (before.leafIn? α scope name).map Leaf.declared := by
  obtain ⟨embed, hembeds, hinjective⟩ := exists_embeds_injective α
  have hdeclared (root : App) :
      (root.entity? ⟨Scope.names scope, .ofKind (Leaf.kind α) name⟩).map Entity.declared =
        ((root.leafIn? α scope name).map Leaf.declared).map embed := by
    rw [entity?_eq_leafIn? hembeds, Option.map_map, Option.map_map]
    exact congrArg (Option.map · _) (funext hembeds.declared)
  rw [hdeclared, hdeclared] at h
  exact Option.map_injective hinjective h

theorem pathIn?_congr [LawfulLeaf α]
    (h : (after.leafIn? α scope name).map Leaf.declared =
      (before.leafIn? α scope name).map Leaf.declared) :
    after.pathIn? α name scope = before.pathIn? α name scope := by
  have hsome := congrArg Option.isSome h
  rw [Option.isSome_map, Option.isSome_map] at hsome
  rw [pathIn?, pathIn?, hsome]

theorem target_congr
    (h : (after.leafIn? ChannelAlias scope name).map Leaf.declared =
      (before.leafIn? ChannelAlias scope name).map Leaf.declared) :
    (after.leafIn? ChannelAlias scope name).map ChannelAlias.target =
      (before.leafIn? ChannelAlias scope name).map ChannelAlias.target := by
  have htarget := congrArg (Option.map ChannelAlias.target) h
  rw [Option.map_map, Option.map_map] at htarget
  exact htarget

structure KeepsChannels (lost : String → Prop) (before after : App) (scope : String) : Prop where
  channel : ∀ outer name, Scope.isInner outer scope →
    Kept lost (before.pathIn? Channel name outer) (after.pathIn? Channel name outer)
  target : ∀ outer name, Scope.isInner outer scope →
    (after.leafIn? ChannelAlias outer name).map ChannelAlias.target =
      (before.leafIn? ChannelAlias outer name).map ChannelAlias.target
  dotted : ∀ outer name declared, Scope.isInner outer scope →
    before.leafIn? ChannelAlias outer name = some declared → '.' ∈ declared.target.toList →
      Kept lost (before.resolveTarget outer declared.target)
        (after.resolveTarget outer declared.target)

theorem resolveLeaf_kept (hscope : Scope.isScope scope)
    (h : ∀ outer, Scope.isInner outer scope →
      Kept lost (before.pathIn? α name outer) (after.pathIn? α name outer)) :
    Kept lost (before.resolveLeaf α scope name) (after.resolveLeaf α scope name) := by
  rw [resolveLeaf_eq, resolveLeaf_eq]
  exact .findSome? fun outer houter => h outer (Scope.isInner_of_mem_enclosing hscope houter)

namespace KeepsChannels

theorem outer {inner : String} (h : KeepsChannels lost before after inner)
    (hscope : Scope.isInner scope inner) : KeepsChannels lost before after scope where
  channel outer name houter := h.channel outer name (Scope.isInner_trans houter hscope)
  target outer name houter := h.target outer name (Scope.isInner_trans houter hscope)
  dotted outer name declared houter :=
    h.dotted outer name declared (Scope.isInner_trans houter hscope)

theorem resolveChannel (h : KeepsChannels lost before after scope)
    (hscope : Scope.isScope scope) :
    Kept lost (before.resolveChannel scope name) (after.resolveChannel scope name) :=
  resolveLeaf_kept hscope fun outer houter => h.channel outer name houter

theorem resolveTarget (h : KeepsChannels lost before after scope) (hscope : Scope.isScope scope)
    (hdotted : '.' ∈ target.toList →
      Kept lost (before.resolveTarget scope target) (after.resolveTarget scope target)) :
    Kept lost (before.resolveTarget scope target) (after.resolveTarget scope target) := by
  by_cases hdot : '.' ∈ target.toList
  · exact hdotted hdot
  · simp only [App.resolveTarget, hdot, if_false]
    split
    · exact h.resolveChannel hscope
    · exact .of_eq rfl

theorem boundIn? (h : KeepsChannels lost before after scope) (hscope : Scope.isScope scope) :
    Kept (fun found => ∃ path, found = some path ∧ lost path) (before.boundIn? name scope)
      (after.boundIn? name scope) := by
  have hself := Scope.isInner_self hscope
  intro hkept
  have hchannel := h.channel scope name hself
  have htarget := h.target scope name hself
  unfold App.boundIn? at hkept ⊢
  cases hpath : before.pathIn? Channel name scope with
  | some path =>
    rw [hpath] at hkept hchannel
    rw [hchannel fun b hb hlost => hkept (some path) rfl ⟨b, hb, hlost⟩]
    rfl
  | none =>
    -- Only where no channel has the name does an alias count.
    rw [hpath] at hkept hchannel
    rw [hchannel nofun, Option.map_none, Option.none_or, Option.none_or]
    cases halias : before.leafIn? ChannelAlias scope name with
    | none =>
      rw [halias, Option.map_none, Option.map_eq_none_iff] at htarget
      rw [htarget]
      rfl
    | some declared =>
      rw [halias, Option.map_some, Option.map_eq_some_iff] at htarget
      obtain ⟨declared', halias', htarget⟩ := htarget
      rw [halias', Option.map_some, Option.map_some, htarget]
      rw [halias] at hkept
      have htarget := h.resolveTarget hscope (h.dotted scope name declared hself halias)
      rw [htarget fun path hpath hlost => hkept _ rfl ⟨path, hpath, hlost⟩]

theorem resolveBoundary (h : KeepsChannels lost before after scope)
    (hscope : Scope.isScope scope) :
    Kept lost (before.resolveBoundary scope name) (after.resolveBoundary scope name) := by
  have hfound : Kept (fun found => ∃ path, found = some path ∧ lost path)
      ((Scope.enclosing scope).findSome? (before.boundIn? name))
      ((Scope.enclosing scope).findSome? (after.boundIn? name)) :=
    .findSome? fun outer houter =>
      (h.outer (Scope.isInner_of_mem_enclosing hscope houter)).boundIn?
        (Scope.isScope_of_mem_enclosing hscope houter)
  intro hkept
  rw [resolveBoundary_eq] at hkept
  rw [resolveBoundary_eq, resolveBoundary_eq, hfound]
  rintro _ hsome ⟨path, rfl, hlost⟩
  exact hkept path (by rw [hsome]; rfl) hlost

end KeepsChannels

end App

end AppTopology
