import AppTopology.Proofs.Edit
import AppTopology.Proofs.Identification
import AppTopology.Proofs.Normal
import AppTopology.Proofs.Routing

namespace AppTopology

variable {α : Type} [Leaf α] [LawfulLeaf α]

namespace App

variable {app before after next child other root : App} {edit : App → App}
variable {key name scope path u : String} {p : Position} {leaf : α} {place : List String}

/-- What stands where something stood before has its identity, and nothing else has any. -/
def Carries (before after : App) : Prop :=
  ∀ p info, after.info? p = some info →
    info.uuid = ((before.info? p).map Metadata.uuid).getD ""

namespace Carries

theorem refl (app : App) : Carries app app := by
  intro p info hinfo
  rw [hinfo]
  rfl

theorem mapInfo (h : Carries before after) {f : Position → Metadata → Metadata}
    (hf : ∀ p info, (f p info).uuid = info.uuid) : Carries before (after.mapInfo f) := by
  intro p info hinfo
  rw [info?_mapInfo, Option.map_eq_some_iff] at hinfo
  obtain ⟨info, hinfo, rfl⟩ := hinfo
  rw [hf, h p info hinfo]

theorem succeed (before app : App) : Carries before (app.succeed (some before)) := by
  intro p info hinfo
  rw [succeed_eq, info?_mapInfo, Option.map_eq_some_iff] at hinfo
  obtain ⟨info, -, rfl⟩ := hinfo
  rfl

theorem putChild (hchild : app.child? key = none) (child : App) :
    Carries app (app.putChild key (child.succeed none)) := by
  refine (forall_info?_iff _).mpr ⟨fun item => refl app ⟨[], item⟩, ?_⟩
  intro key' next hnext p info hinfo
  rw [child?_putChild] at hnext
  split at hnext
  · next heq =>
    injection hnext with hnext
    rw [← hnext, succeed_eq, info?_mapInfo, Option.map_eq_some_iff] at hinfo
    obtain ⟨info, -, rfl⟩ := hinfo
    rw [info?_inside, heq, hchild]
    rfl
  · rw [info?_inside_of_child? hnext, hinfo]
    rfl

theorem dropChild (app : App) (key : String) : Carries app (app.dropChild key) := by
  refine (forall_info?_iff _).mpr ⟨fun item => refl app ⟨[], item⟩, ?_⟩
  intro key' next hnext p info hinfo
  rw [child?_dropChild] at hnext
  split at hnext
  · simp at hnext
  · rw [info?_inside_of_child? hnext, hinfo]
    rfl

theorem putLeaf (hleaf : (Leaf.info leaf).uuid =
    ((app.own.leaf? α name).map fun leaf => (Leaf.info leaf).uuid).getD "") :
    Carries app (app.putLeaf name leaf) := by
  rintro ⟨place, item⟩ info hinfo
  cases place with
  | nil =>
    change (app.own.putLeaf name leaf).info? item = some info at hinfo
    rw [Own.info?_putLeaf] at hinfo
    split at hinfo
    · next heq =>
      injection hinfo with hinfo
      rw [info?_own, heq, LawfulLeaf.info?_ofKind, ← hinfo, hleaf, Option.map_map]
      rfl
    · exact refl app ⟨[], item⟩ info hinfo
  | cons key place => exact refl app ⟨key :: place, item⟩ info hinfo

theorem dropLeaf (app : App) (name : String) : Carries app (app.dropLeaf α name) := by
  rintro ⟨place, item⟩ info hinfo
  cases place with
  | nil =>
    change (app.own.dropLeaf α name).info? item = some info at hinfo
    rw [Own.info?_dropLeaf] at hinfo
    split at hinfo
    · simp at hinfo
    · exact refl app ⟨[], item⟩ info hinfo
  | cons key place => exact refl app ⟨key :: place, item⟩ info hinfo

theorem modifyAt? (h : app.modifyAt? edit place = some next) (hother : app.at? place = some other)
    (hedit : Carries other (edit other)) : Carries app next := by
  rintro ⟨place', item⟩ info hinfo
  by_cases hprefix : place <+: place'
  · obtain ⟨rest, rfl⟩ := hprefix
    rw [info?_append, at?_modifyAt? h hother] at hinfo
    rw [info?_append, hother]
    exact hedit ⟨rest, item⟩ info hinfo
  · rw [info?_modifyAt?_outside h hprefix] at hinfo
    exact refl app ⟨place', item⟩ info hinfo

end Carries

theorem Carries.uuid? (h : Carries before after) (hu : after.uuid? p = some u) :
    u = (before.uuid? p).getD "" := by
  obtain ⟨info, hinfo, rfl⟩ := Option.map_eq_some_iff.mp hu
  exact h p info hinfo

theorem Carries.uuid?_of_ne_empty (h : Carries before after) (hu : after.uuid? p = some u)
    (hne : u ≠ "") : before.uuid? p = some u := by
  have hcarried := h.uuid? hu
  cases hbefore : before.uuid? p with
  | none =>
    rw [hbefore] at hcarried
    exact absurd hcarried hne
  | some old =>
    rw [hbefore] at hcarried
    rw [hcarried]
    rfl

theorem Ordered.succeed (h : app.Ordered) (before : Option App) : (app.succeed before).Ordered := by
  rw [succeed_eq]
  exact h.mapInfo fun _ _ => rfl

end App

inductive Edited (root : App) : Target → App → Prop where
  | replace {path : String} {old app next : App} : Scope.isScope path → app.Ordered →
    root.find? path = some old → root.modify? path (fun _ => app.succeed (some old)) = some next →
    Edited root (.app path) next
  | putChild {scope name : String} {parent app next : App} : Scope.isScope scope →
    Scope.isName name → app.Ordered → root.find? scope = some parent →
    parent.child? name = none →
    root.modify? scope (·.putChild name (app.succeed none)) = some next →
    Edited root (.app (Scope.child scope name)) next
  | dropChild {scope name : String} {parent old next : App} : Scope.isScope scope →
    Scope.isName name → root.find? scope = some parent → parent.child? name = some old →
    root.modify? scope (·.dropChild name) = some next →
    Edited root (.app (Scope.child scope name)) next
  | putLeaf (α : Type) [Leaf α] [LawfulLeaf α] {scope name : String} {leaf : α}
    {parent next : App} : Scope.isScope scope → Scope.isName name → (Leaf.info leaf).Ordered →
    root.find? scope = some parent →
    (Leaf.info leaf).uuid =
      ((parent.own.leaf? α name).map fun old => (Leaf.info old).uuid).getD "" →
    root.modify? scope (·.putLeaf name leaf) = some next →
    Edited root (Target.ofKind (Leaf.kind α) scope name) next
  | dropLeaf (α : Type) [Leaf α] [LawfulLeaf α] {scope name : String} {old : α}
    {parent next : App} : Scope.isScope scope → root.find? scope = some parent →
    parent.own.leaf? α name = some old → root.modify? scope (·.dropLeaf α name) = some next →
    Edited root (Target.ofKind (Leaf.kind α) scope name) next

namespace Edited

variable {root next : App} {target : Target}

theorem ordered (hroot : root.Ordered) (h : Edited root target next) : next.Ordered := by
  cases h with
  | replace hscope happ hold hmodify =>
    exact hroot.modifyAt? hmodify fun _ _ => happ.succeed _
  | putChild hscope hname happ hparent hchild hmodify =>
    exact hroot.modifyAt? hmodify fun _ hother => (hroot.at? hother).putChild (happ.succeed _) _
  | dropChild hscope hname hparent hchild hmodify =>
    exact hroot.modifyAt? hmodify fun _ hother => (hroot.at? hother).dropChild _
  | putLeaf α hscope hname hleaf hparent huuid hmodify =>
    exact hroot.modifyAt? hmodify fun _ hother => (hroot.at? hother).putLeaf hleaf _
  | dropLeaf α hscope hparent hold hmodify =>
    exact hroot.modifyAt? hmodify fun _ hother => (hroot.at? hother).dropLeaf _

theorem carries (h : Edited root target next) : root.Carries next := by
  cases h with
  | replace hscope happ hold hmodify => exact .modifyAt? hmodify hold (.succeed _ _)
  | putChild hscope hname happ hparent hchild hmodify =>
    exact .modifyAt? hmodify hparent (.putChild hchild _)
  | dropChild hscope hname hparent hchild hmodify =>
    exact .modifyAt? hmodify hparent (.dropChild _ _)
  | putLeaf α hscope hname hleaf hparent huuid hmodify =>
    exact .modifyAt? hmodify hparent (.putLeaf huuid)
  | dropLeaf α hscope hparent hold hmodify =>
    exact .modifyAt? hmodify hparent (.dropLeaf _ _)

end Edited

namespace App

variable {app next root : App} {scope path name : String} {leaf : α} {edit : App → App}

theorem find?_child (hscope : Scope.isScope scope) (hname : Scope.isName name) (root : App) :
    root.find? (Scope.child scope name) = (root.find? scope).bind (·.child? name) := by
  rw [find?, Scope.names_child hscope hname, at?_append]
  simp only [at?_singleton, find?]

theorem exists_find?_parent (hpath : Scope.isScope path) (hne : path ≠ "")
    (happ : root.find? path = some app) :
    ∃ parent, root.find? (Scope.parent path) = some parent ∧
      parent.child? (Scope.leaf path) = some app := by
  obtain ⟨scope, name, hscope, hname, rfl⟩ := Scope.exists_child_of_isScope hpath hne
  rw [find?_child hscope hname, Option.bind_eq_some_iff] at happ
  rwa [Scope.parent_child hscope hname, Scope.leaf_child hscope hname]

theorem require_eq_ok : root.require scope = .ok app ↔ root.find? scope = some app := by
  unfold require
  split <;> simp [*]

omit [LawfulLeaf α] in
theorem requireLeaf_eq_ok : root.requireLeaf α scope name = .ok leaf ↔
    ∃ app, root.find? scope = some app ∧ app.own.leaf? α name = some leaf := by
  unfold requireLeaf
  simp only [Check.bind_eq_ok, require_eq_ok]
  constructor
  · rintro ⟨app, happ, hleaf⟩
    refine ⟨app, happ, ?_⟩
    split at hleaf
    · next heq => rw [heq, Check.pure_eq_ok.mp hleaf]
    · exact absurd hleaf Check.throw_ne_ok
  · rintro ⟨app, happ, hleaf⟩
    exact ⟨app, happ, by rw [hleaf]; rfl⟩

theorem stage_eq_ok : root.stage scope edit = .ok next ↔ root.modify? scope edit = some next := by
  unfold stage
  split <;> simp [*]

theorem createApp_eq_ok : root.createApp scope app = .ok next ↔
    Scope.isScope scope ∧ Scope.isName app.info.name ∧ ∃ parent, root.find? scope = some parent ∧
      parent.child? app.info.name = none ∧
        root.modify? scope (·.putChild app.info.name (app.succeed none)) = some next := by
  unfold createApp
  simp only [Check.bind_eq_ok, Check.refuse_eq_ok, Scope.checkRequest_eq_ok, Scope.checkName_eq_ok,
    require_eq_ok, stage_eq_ok, Option.not_isSome_iff_eq_none]
  constructor
  · rintro ⟨_, hscope, parent, hparent, hchild, _, hname, hmodify⟩
    exact ⟨hscope, hname, parent, hparent, hchild, hmodify⟩
  · rintro ⟨hscope, hname, parent, hparent, hchild, hmodify⟩
    exact ⟨(), hscope, parent, hparent, hchild, (), hname, hmodify⟩

theorem updateApp_eq_ok : root.updateApp path app = .ok next ↔
    Scope.isScope path ∧ (app.info.name = "" ∨ app.info.name = Scope.leaf path) ∧
      ∃ old, root.find? path = some old ∧ root.modify? path (fun _ =>
        (app.withInfo { app.info with name := Scope.leaf path }).succeed (some old)) =
          some next := by
  unfold updateApp
  simp only [Check.bind_eq_ok, Check.refuse_eq_ok, Scope.checkRequest_eq_ok, require_eq_ok,
    stage_eq_ok, ne_eq, not_and_or, not_not]
  constructor
  · rintro ⟨_, hpath, old, hold, hname, hmodify⟩
    exact ⟨hpath, hname, old, hold, hmodify⟩
  · rintro ⟨hpath, hname, old, hold, hmodify⟩
    exact ⟨(), hpath, old, hold, hname, hmodify⟩

theorem deleteApp_eq_ok : root.deleteApp path = .ok next ↔
    Scope.isScope path ∧ path ≠ "" ∧ (root.find? path).isSome ∧
      root.modify? (Scope.parent path) (·.dropChild (Scope.leaf path)) = some next := by
  unfold deleteApp
  simp only [Check.bind_eq_ok, Check.refuse_eq_ok, Scope.checkRequest_eq_ok, require_eq_ok,
    stage_eq_ok, Option.isSome_iff_exists]
  constructor
  · rintro ⟨_, hpath, hne, old, hold, hmodify⟩
    exact ⟨hpath, hne, ⟨old, hold⟩, hmodify⟩
  · rintro ⟨hpath, hne, ⟨old, hold⟩, hmodify⟩
    exact ⟨(), hpath, hne, old, hold, hmodify⟩

section

omit [LawfulLeaf α]

theorem createLeaf_eq_ok : root.createLeaf scope leaf = .ok next ↔
    Scope.isScope scope ∧ Scope.isName (Leaf.info leaf).name ∧
      ∃ parent, root.find? scope = some parent ∧
        parent.own.leaf? α (Leaf.info leaf).name = none ∧
          root.modify? scope (·.putLeaf (Leaf.info leaf).name
            (Leaf.withInfo (Leaf.detached leaf) ((Leaf.info leaf).succeed none))) = some next := by
  unfold createLeaf
  simp only [Check.bind_eq_ok, Check.refuse_eq_ok, Scope.checkRequest_eq_ok, Scope.checkName_eq_ok,
    require_eq_ok, stage_eq_ok, Option.not_isSome_iff_eq_none]
  constructor
  · rintro ⟨_, hscope, parent, hparent, hnone, _, hname, hmodify⟩
    exact ⟨hscope, hname, parent, hparent, hnone, hmodify⟩
  · rintro ⟨hscope, hname, parent, hparent, hnone, hmodify⟩
    exact ⟨(), hscope, parent, hparent, hnone, (), hname, hmodify⟩

theorem updateLeaf_eq_ok : root.updateLeaf scope leaf = .ok next ↔
    Scope.isScope scope ∧ Scope.isName (Leaf.info leaf).name ∧
      ∃ parent old, root.find? scope = some parent ∧
        parent.own.leaf? α (Leaf.info leaf).name = some old ∧
          root.modify? scope (·.putLeaf (Leaf.info leaf).name
            (Leaf.withInfo leaf ((Leaf.info leaf).succeed (some (Leaf.info old))))) =
              some next := by
  unfold updateLeaf
  simp only [Check.bind_eq_ok, Scope.checkRequest_eq_ok, Scope.checkName_eq_ok, requireLeaf_eq_ok,
    stage_eq_ok]
  constructor
  · rintro ⟨_, hscope, _, hname, old, ⟨parent, hparent, hold⟩, hmodify⟩
    exact ⟨hscope, hname, parent, old, hparent, hold, hmodify⟩
  · rintro ⟨hscope, hname, parent, old, hparent, hold, hmodify⟩
    exact ⟨(), hscope, (), hname, old, ⟨parent, hparent, hold⟩, hmodify⟩

theorem deleteLeaf_eq_ok : root.deleteLeaf α scope name = .ok next ↔
    Scope.isScope scope ∧ ∃ parent old, root.find? scope = some parent ∧
      parent.own.leaf? α name = some old ∧ Leaf.users old = [] ∧
        root.modify? scope (·.dropLeaf α name) = some next := by
  unfold deleteLeaf
  simp only [Check.bind_eq_ok, Check.refuse_eq_ok, Scope.checkRequest_eq_ok, requireLeaf_eq_ok,
    stage_eq_ok, ne_eq, not_not]
  constructor
  · rintro ⟨_, hscope, old, ⟨parent, hparent, hold⟩, hunused, hmodify⟩
    exact ⟨hscope, parent, old, hparent, hold, hunused, hmodify⟩
  · rintro ⟨hscope, parent, old, hparent, hold, hunused, hmodify⟩
    exact ⟨(), hscope, old, ⟨parent, hparent, hold⟩, hunused, hmodify⟩

end

theorem edited_of_createApp (happ : app.Ordered) (h : root.createApp scope app = .ok next) :
    Edited root (.app (Scope.child scope app.info.name)) next := by
  obtain ⟨hscope, hname, parent, hparent, hchild, hmodify⟩ := createApp_eq_ok.mp h
  exact .putChild hscope hname happ hparent hchild hmodify

theorem edited_of_updateApp (happ : app.Ordered) (h : root.updateApp path app = .ok next) :
    Edited root (.app path) next := by
  obtain ⟨hpath, -, old, hold, hmodify⟩ := updateApp_eq_ok.mp h
  have hordered : (app.withInfo { app.info with name := Scope.leaf path }).Ordered :=
    ordered_iff.mpr ⟨⟨happ.own.1, happ.own.2⟩, (ordered_iff.mp happ).2⟩
  exact .replace hpath hordered hold hmodify

theorem exists_dropChild (h : root.deleteApp path = .ok next) :
    ∃ scope name parent old, Scope.isScope scope ∧ Scope.isName name ∧
      path = Scope.child scope name ∧ root.find? scope = some parent ∧
      parent.child? name = some old ∧ root.modify? scope (·.dropChild name) = some next := by
  obtain ⟨hpath, hne, hsome, hmodify⟩ := deleteApp_eq_ok.mp h
  obtain ⟨old, hold⟩ := Option.isSome_iff_exists.mp hsome
  obtain ⟨parent, hparent, hold⟩ := exists_find?_parent hpath hne hold
  obtain ⟨scope, name, hscope, hname, rfl⟩ := Scope.exists_child_of_isScope hpath hne
  rw [Scope.parent_child hscope hname] at hparent hmodify
  rw [Scope.leaf_child hscope hname] at hold hmodify
  exact ⟨scope, name, parent, old, hscope, hname, rfl, hparent, hold, hmodify⟩

theorem edited_of_deleteApp (h : root.deleteApp path = .ok next) :
    Edited root (.app path) next := by
  obtain ⟨scope, name, parent, old, hscope, hname, rfl, hparent, hold, hmodify⟩ :=
    exists_dropChild h
  exact .dropChild hscope hname hparent hold hmodify

theorem edited_of_createLeaf (hleaf : (Leaf.info leaf).Ordered)
    (h : root.createLeaf scope leaf = .ok next) :
    Edited root (Target.ofKind (Leaf.kind α) scope (Leaf.info leaf).name) next := by
  obtain ⟨hscope, hname, parent, hparent, hnone, hmodify⟩ := createLeaf_eq_ok.mp h
  refine .putLeaf α hscope hname ?_ hparent ?_ hmodify
  · rw [LawfulLeaf.info_withInfo]
    exact hleaf
  · rw [LawfulLeaf.info_withInfo, hnone]
    rfl

theorem edited_of_updateLeaf (hleaf : (Leaf.info leaf).Ordered)
    (h : root.updateLeaf scope leaf = .ok next) :
    Edited root (Target.ofKind (Leaf.kind α) scope (Leaf.info leaf).name) next := by
  obtain ⟨hscope, hname, parent, old, hparent, hold, hmodify⟩ := updateLeaf_eq_ok.mp h
  refine .putLeaf α hscope hname ?_ hparent ?_ hmodify
  · rw [LawfulLeaf.info_withInfo]
    exact hleaf
  · rw [LawfulLeaf.info_withInfo, hold]
    rfl

theorem edited_of_deleteLeaf (h : root.deleteLeaf α scope name = .ok next) :
    Edited root (Target.ofKind (Leaf.kind α) scope name) next := by
  obtain ⟨hscope, parent, old, hparent, hold, -, hmodify⟩ := deleteLeaf_eq_ok.mp h
  exact .dropLeaf α hscope hparent hold hmodify

end App

theorem Mutation.edited {mutation : Mutation} {root next : App} (hmutation : mutation.Ordered)
    (h : mutation.edit root = .ok next) : Edited root mutation.target next := by
  cases mutation with
  | create scope component =>
    cases component with
    | channelType declared => exact App.edited_of_createLeaf (α := ChannelType) hmutation h
    | channel channel => exact App.edited_of_createLeaf (α := Channel) hmutation h
    | app app => exact App.edited_of_createApp hmutation h
    | channelAlias declared => exact App.edited_of_createLeaf (α := ChannelAlias) hmutation h
  | update scope component =>
    cases component with
    | channelType declared => exact App.edited_of_updateLeaf (α := ChannelType) hmutation h
    | channel channel => exact App.edited_of_updateLeaf (α := Channel) hmutation h
    | app app => exact App.edited_of_updateApp hmutation h
    | channelAlias declared => exact App.edited_of_updateLeaf (α := ChannelAlias) hmutation h
  | delete target =>
    cases target with
    | channelType scope name => exact App.edited_of_deleteLeaf (α := ChannelType) h
    | channel scope name => exact App.edited_of_deleteLeaf (α := Channel) h
    | app path => exact App.edited_of_deleteApp h
    | channelAlias scope name => exact App.edited_of_deleteLeaf (α := ChannelAlias) h

theorem Mutation.edited_of_route {mutation : Mutation} {registry : Registry} {root next : App}
    (hmutation : mutation.Ordered) (h : (mutation.route registry).edit root = .ok next) :
    Edited root mutation.target next := by
  have hedited := edited (ordered_route registry hmutation) h
  rwa [target_route] at hedited

end AppTopology
