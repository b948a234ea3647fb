import AppTopology.Proofs.Exactness

/-!
A key is let through if it is a scope: besides the names, the empty key and keys with dots between
names. What stands under such keys is recorded at the names on the way to it, so that two entities
may share a path.
-/

namespace AppTopology

namespace Position

variable {p q : Position} {scope key name path : String}

theorem exists_iff {P : Position → Prop} : (∃ p, P p) ↔
    P .root ∨ (∃ key p, P (inside key p)) ∨ (∃ name, P ⟨[], .channel name⟩) ∨
      (∃ name, P ⟨[], .channelType name⟩) ∨ ∃ name, P ⟨[], .channelAlias name⟩ := by
  rw [← not_iff_not]
  simp only [not_exists, not_or]
  rw [forall_iff, Item.forall_iff, and_right_comm, and_assoc]
  rfl

/-- The names on the way to a position, where a key counts as the names that it is made of. -/
def address (scope : String) (p : Position) : String :=
  Scope.join (Scope.names scope ++ p.names.flatMap Scope.names)

theorem address_root (hscope : Scope.isScope scope) : root.address scope = scope := by
  rw [address, names, steps_root, List.map_nil, List.flatMap_nil, List.append_nil,
    Scope.join_names hscope]

theorem address_inside (h : Scope.append scope key = .ok path) (p : Position) :
    (p.inside key).address scope = p.address path := by
  rw [address, address, Scope.names_append h, List.append_assoc]
  rfl

theorem address_leaf (α : Type) [Leaf α] [LawfulLeaf α]
    (h : Scope.append scope name = .ok path) :
    address scope ⟨[], .ofKind (Leaf.kind α) name⟩ = path := by
  rw [address, names, steps_leaf, List.map_singleton, List.flatMap_singleton,
    ← Scope.names_append h, Scope.join_names (Scope.isScope_append h)]

theorem flatMap_names (hp : Scope.IsPath p.names) : p.names.flatMap Scope.names = p.names := by
  have hsingle : p.names.map Scope.names = p.names.map fun name => [name] := by
    apply List.map_congr_left
    intro name hname
    have hpath : Scope.IsPath [name] := by simpa [Scope.IsPath] using hp name hname
    simpa [Scope.join_singleton] using Scope.names_join hpath
  rw [List.flatMap_def, hsingle, ← List.flatMap_def, List.flatMap_singleton']

end Position

namespace Diff

variable {α : Type} [Leaf α] [LawfulLeaf α] {old new : Option App} {identity : Bool}
variable {scope key name path : String} {p q : Position} {change : Change} {log : Changelog}

def Occupied (old new : Option App) (p : Position) : Prop :=
  (old.bind (·.entity? p)).isSome ∨ (new.bind (·.entity? p)).isSome

def KeysAreScopes (old new : Option App) : Prop :=
  ∀ p, Occupied old new p → p ≠ .root → Scope.isScope p.name

def recordsUnder (identity : Bool) (scope : String) (old new : Option App) (p : Position) :
    Changelog :=
  entity (identity || p ≠ .root) (p.address scope) (old.bind (·.entity? p))
    (new.bind (·.entity? p))

theorem occupied_inside : Occupied old new (p.inside key) ↔
    Occupied ((children old).get? key) ((children new).get? key) p := by
  rw [Occupied, entity?_children, entity?_children, Occupied]

theorem isSome_of_occupied_inside (h : Occupied old new (p.inside key)) :
    ((children old).get? key).isSome ∨ ((children new).get? key).isSome :=
  (occupied_inside.mp h).imp Option.isSome_of_isSome_bind Option.isSome_of_isSome_bind

theorem occupied_child (h : ((children old).get? key).isSome ∨ ((children new).get? key).isSome) :
    Occupied old new (Position.root.inside key) := by
  have hroot {side : Option App} (hside : side.isSome) : (side.bind (·.entity? .root)).isSome := by
    obtain ⟨app, rfl⟩ := Option.isSome_iff_exists.mp hside
    rfl
  exact occupied_inside.mpr (h.imp hroot hroot)

theorem mem_keyUnion_shelf_iff (α : Type) [Leaf α] [LawfulLeaf α] :
    name ∈ Dict.keyUnion (shelf α old) (shelf α new) ↔
      Occupied old new ⟨[], .ofKind (Leaf.kind α) name⟩ := by
  rw [Dict.mem_keyUnion, Occupied, isSome_entity?_leaf, isSome_entity?_leaf]

theorem occupied_of_mem_recordsUnder (h : change ∈ recordsUnder identity scope old new p) :
    Occupied old new p := by
  by_contra hnone
  simp only [Occupied, not_or, Option.not_isSome_iff_eq_none] at hnone
  rw [recordsUnder, hnone.1, hnone.2] at h
  exact absurd h List.not_mem_nil

theorem exists_append_eq_ok (hscope : Scope.isScope scope) :
    (∃ path, Scope.append scope name = .ok path) ↔ Scope.isScope name := by
  simp [Scope.append_eq_ok, hscope]

theorem KeysAreScopes.below (h : KeysAreScopes old new) (key : String) :
    KeysAreScopes ((children old).get? key) ((children new).get? key) := by
  intro p hp hroot
  rw [← Position.name_inside hroot key]
  exact h (p.inside key) (occupied_inside.mpr hp) (Position.inside_ne_root key p)

theorem KeysAreScopes.isScope_of_mem_names (h : KeysAreScopes old new) (hp : Occupied old new p) :
    ∀ name ∈ p.names, Scope.isScope name := by
  obtain ⟨place, item⟩ := p
  induction place generalizing old new with
  | nil =>
    intro name hname
    cases item with
    | app => exact absurd hname List.not_mem_nil
    | channel | channelType | channelAlias =>
      rw [List.mem_singleton.mp hname]
      exact h _ hp nofun
  | cons key place ih =>
    intro name hname
    have hinside : Occupied old new (Position.inside key ⟨place, item⟩) := hp
    rcases List.mem_cons.mp hname with rfl | hname
    · exact h (Position.root.inside name) (occupied_child (isSome_of_occupied_inside hinside))
        (Position.inside_ne_root name _)
    · exact ih (h.below key) (occupied_inside.mp hinside) name hname

theorem exists_leaves_eq_ok (α : Type) [Leaf α] [LawfulLeaf α] (hscope : Scope.isScope scope) :
    (∃ log, leaves α scope old new = .ok log) ↔
      ∀ name, Occupied old new ⟨[], .ofKind (Leaf.kind α) name⟩ → Scope.isScope name := by
  have hlogs : (∃ log, leaves α scope old new = .ok log) ↔
      ∀ name ∈ Dict.keyUnion (shelf α old) (shelf α new),
        ∃ path, Scope.append scope name = .ok path := by
    simp only [leaves, Check.bind_eq_ok, Check.pure_eq_ok, exists_comm (α := Changelog),
      exists_and_left, exists_eq', and_true, Check.exists_mapM_eq_ok]
  simp only [hlogs, mem_keyUnion_shelf_iff, exists_append_eq_ok hscope]

theorem exists_subtree_iff : (∃ log, subtree identity scope old new = .ok log) ↔
    (∃ logs, childLogs scope old new = .ok logs) ∧ (∃ log, leaves Channel scope old new = .ok log) ∧
      (∃ log, leaves ChannelType scope old new = .ok log) ∧
      ∃ log, leaves ChannelAlias scope old new = .ok log := by
  simp only [subtree_eq_ok_iff]
  constructor
  · rintro ⟨_, logs, channels, types, aliases, hlogs, hchannels, htypes, haliases, -⟩
    exact ⟨⟨logs, hlogs⟩, ⟨channels, hchannels⟩, ⟨types, htypes⟩, aliases, haliases⟩
  · rintro ⟨⟨logs, hlogs⟩, ⟨channels, hchannels⟩, ⟨types, htypes⟩, aliases, haliases⟩
    exact ⟨_, logs, channels, types, aliases, hlogs, hchannels, htypes, haliases, rfl⟩

theorem exists_childLogs_eq_ok (hscope : Scope.isScope scope)
    (hbelow : ∀ key, ((children old).get? key).isSome ∨ ((children new).get? key).isSome →
      ∀ path, Scope.isScope path →
        ((∃ log, subtree true path ((children old).get? key) ((children new).get? key) = .ok log) ↔
          KeysAreScopes ((children old).get? key) ((children new).get? key))) :
    (∃ logs, childLogs scope old new = .ok logs) ↔
      ∀ key p, Occupied old new (.inside key p) → Scope.isScope (Position.inside key p).name := by
  rw [exists_childLogs_iff]
  constructor
  · intro h key p hp
    have hkey := isSome_of_occupied_inside hp
    obtain ⟨path, hpath, hlog⟩ := h key hkey
    by_cases hroot : p = .root
    · rw [hroot]
      exact (Scope.append_eq_ok.mp hpath).2.1
    · rw [Position.name_inside hroot]
      exact (hbelow key hkey path (Scope.isScope_append hpath)).mp hlog p (occupied_inside.mp hp)
        hroot
  · intro h key hkey
    obtain ⟨path, hpath⟩ := (exists_append_eq_ok hscope).mpr (h key .root (occupied_child hkey))
    refine ⟨path, hpath, (hbelow key hkey path (Scope.isScope_append hpath)).mpr ?_⟩
    intro p hp hroot
    rw [← Position.name_inside hroot key]
    exact h key p (occupied_inside.mpr hp)

theorem exists_subtree_eq_ok (hscope : Scope.isScope scope) (identity : Bool) :
    (∃ log, subtree identity scope old new = .ok log) ↔ KeysAreScopes old new := by
  induction old, new using subtree_induction generalizing scope identity with
  | step old new ih =>
    have hbelow := exists_childLogs_eq_ok hscope fun key hkey _ hpath => ih key hkey hpath true
    rw [exists_subtree_iff, hbelow, exists_leaves_eq_ok Channel hscope,
      exists_leaves_eq_ok ChannelType hscope, exists_leaves_eq_ok ChannelAlias hscope,
      KeysAreScopes, Position.forall_iff, Item.forall_iff]
    constructor
    · rintro ⟨hinside, hchannels, htypes, haliases⟩
      exact ⟨⟨fun _ hroot => absurd rfl hroot, fun name hp _ => hchannels name hp,
        fun name hp _ => htypes name hp, fun name hp _ => haliases name hp⟩,
        fun key p hp _ => hinside key p hp⟩
    · rintro ⟨⟨-, hchannels, htypes, haliases⟩, hinside⟩
      exact ⟨fun key p hp => hinside key p hp (Position.inside_ne_root key p),
        fun name hp => hchannels name hp nofun, fun name hp => htypes name hp nofun,
        fun name hp => haliases name hp nofun⟩

theorem own_eq_recordsUnder (hscope : Scope.isScope scope) (identity : Bool) :
    own identity scope old new = recordsUnder identity scope old new .root := by
  rw [own_eq_entity, recordsUnder, Position.address_root hscope, decide_eq_false (by simp),
    Bool.or_false]
  rfl

theorem leaf_eq_recordsUnder (α : Type) [Leaf α] [LawfulLeaf α] (identity : Bool)
    (hpath : Scope.append scope name = .ok path) :
    leaf true path ((shelf α old).get? name) ((shelf α new).get? name) =
      recordsUnder identity scope old new ⟨[], .ofKind (Leaf.kind α) name⟩ := by
  rw [leaf_eq_entity, recordsUnder, Position.address_leaf α hpath,
    decide_eq_true (Position.leaf_ne_root (α := α) [] name), Bool.or_true]
  rfl

theorem recordsUnder_inside (identity : Bool) (hpath : Scope.append scope key = .ok path) :
    recordsUnder identity scope old new (p.inside key) =
      recordsUnder true path ((children old).get? key) ((children new).get? key) p := by
  rw [recordsUnder, recordsUnder, entity?_children, entity?_children,
    Position.address_inside hpath, decide_eq_true (Position.inside_ne_root key p), Bool.or_true,
    Bool.true_or]

theorem mem_leaves (α : Type) [Leaf α] [LawfulLeaf α] (identity : Bool)
    (hlog : leaves α scope old new = .ok log) : change ∈ log ↔
      ∃ name, change ∈ recordsUnder identity scope old new ⟨[], .ofKind (Leaf.kind α) name⟩ := by
  simp only [leaves, Check.bind_eq_ok, Check.pure_eq_ok] at hlog
  obtain ⟨logs, hlogs, rfl⟩ := hlog
  simp only [List.mem_flatten, Check.mem_iff_of_mapM_eq_ok hlogs, Check.bind_eq_ok,
    Check.pure_eq_ok]
  constructor
  · rintro ⟨_, ⟨name, -, path, hpath, rfl⟩, hchange⟩
    exact ⟨name, leaf_eq_recordsUnder α identity hpath ▸ hchange⟩
  · rintro ⟨name, hchange⟩
    have hname := (mem_keyUnion_shelf_iff α).mpr (occupied_of_mem_recordsUnder hchange)
    obtain ⟨log, hlog⟩ := Check.exists_mapM_eq_ok.mp ⟨logs, hlogs⟩ name hname
    obtain ⟨path, hpath, -⟩ := Check.bind_eq_ok.mp hlog
    exact ⟨_, ⟨name, hname, path, hpath, rfl⟩, leaf_eq_recordsUnder α identity hpath ▸ hchange⟩

theorem mem_subtree (hscope : Scope.isScope scope)
    (hlog : subtree identity scope old new = .ok log) :
    change ∈ log ↔ ∃ p, change ∈ recordsUnder identity scope old new p := by
  induction old, new using subtree_induction generalizing scope identity log with
  | step old new ih =>
    obtain ⟨logs, channels, types, aliases, hlogs, hchannels, htypes, haliases, rfl⟩ :=
      subtree_eq_ok_iff.mp hlog
    have hbelow : change ∈ logs.flatten ↔
        ∃ key p, change ∈ recordsUnder identity scope old new (.inside key p) := by
      rw [mem_childLogs hlogs]
      constructor
      · rintro ⟨key, path, log, hkey, hpath, hlog, hchange⟩
        obtain ⟨p, hp⟩ := (ih key hkey (Scope.isScope_append hpath) hlog).mp hchange
        exact ⟨key, p, recordsUnder_inside identity hpath ▸ hp⟩
      · rintro ⟨key, p, hchange⟩
        have hkey := isSome_of_occupied_inside (occupied_of_mem_recordsUnder hchange)
        obtain ⟨path, hpath, log, hlog⟩ := exists_childLogs_iff.mp ⟨logs, hlogs⟩ key hkey
        rw [recordsUnder_inside identity hpath] at hchange
        exact ⟨key, path, log, hkey, hpath, hlog,
          (ih key hkey (Scope.isScope_append hpath) hlog).mpr ⟨p, hchange⟩⟩
    simp only [List.mem_append, own_eq_recordsUnder hscope, hbelow,
      mem_leaves Channel identity hchannels, mem_leaves ChannelType identity htypes,
      mem_leaves ChannelAlias identity haliases, or_assoc]
    rw [Position.exists_iff]
    rfl

theorem failsWith_append (scope name : String) :
    Check.FailsWith (·.kind = .invalidName) (Scope.append scope name) := by
  have hcheck (scope : String) : Check.FailsWith (·.kind = .invalidName) (Scope.check scope) :=
    .ite (fun _ => .ok ()) fun _ => .error rfl
  exact .bind (hcheck scope) fun _ => .bind (hcheck name) fun _ => .ok _

theorem failsWith_subtree (identity : Bool) (scope : String) (old new : Option App) :
    Check.FailsWith (·.kind = .invalidName) (subtree identity scope old new) := by
  have hleaves (α : Type) [Leaf α] (scope : String) (old new : Option App) :
      Check.FailsWith (·.kind = .invalidName) (leaves α scope old new) :=
    .bind (.mapM fun _ _ => .bind (failsWith_append _ _) fun _ => .ok _) fun _ => .ok _
  induction old, new using subtree_induction generalizing identity scope with
  | step old new ih =>
    rw [subtree_eq]
    refine .bind (.mapM fun key hkey => ?_) fun _ => .bind (hleaves _ _ _ _) fun _ =>
      .bind (hleaves _ _ _ _) fun _ => .bind (hleaves _ _ _ _) fun _ => .ok _
    exact .bind (failsWith_append _ _) fun _ => ih key (Dict.mem_keyUnion.mp hkey) _ _

theorem trees_eq_bind {app : App} (happ : app ∈ new.or old) :
    trees old new = app.info.path >>= fun path => subtree false path old new := by
  cases new with
  | some _ =>
    cases happ
    cases old <;> rfl
  | none =>
    cases old with
    | none => exact nomatch happ
    | some _ =>
      cases happ
      rfl

theorem trees_none_none : trees none none = subtree false "" none none := by
  rw [subtree_eq]
  rfl

theorem failsWith_trees (old new : Option App) :
    Check.FailsWith (·.kind = .invalidName) (trees old new) := by
  cases hside : new.or old with
  | none =>
    obtain ⟨rfl, rfl⟩ := Option.or_eq_none_iff.mp hside
    exact .ok []
  | some app =>
    rw [trees_eq_bind hside]
    exact .bind (failsWith_append _ _) fun _ => failsWith_subtree _ _ _ _

theorem error_trees_iff (old new : Option App) : (∃ error, trees old new = .error error) ↔
    (∃ app ∈ new.or old, ∃ error, app.info.path = .error error) ∨
      ∃ p, Occupied old new p ∧ p ≠ .root ∧ ¬ Scope.isScope p.name := by
  have hrefused (scope : String) (hscope : Scope.isScope scope) :
      (∃ error, subtree false scope old new = .error error) ↔
        ∃ p, Occupied old new p ∧ p ≠ .root ∧ ¬ Scope.isScope p.name := by
    have hkeys : ¬ (∃ log, subtree false scope old new = .ok log) ↔ ¬ KeysAreScopes old new :=
      (exists_subtree_eq_ok hscope false).not
    simp only [KeysAreScopes, not_forall, exists_prop] at hkeys
    rw [← hkeys]
    cases subtree false scope old new <;> simp
  cases hside : new.or old with
  | none =>
    obtain ⟨rfl, rfl⟩ := Option.or_eq_none_iff.mp hside
    rw [trees_none_none, hrefused "" Scope.isScope_empty]
    simp
  | some app =>
    rw [trees_eq_bind hside]
    cases hpath : app.info.path with
    | error error => exact iff_of_true ⟨error, rfl⟩ (.inl ⟨app, rfl, error, hpath⟩)
    | ok scope =>
      change (∃ error, subtree false scope old new = .error error) ↔ _
      simp [hrefused scope (Scope.isScope_append hpath), hpath]

theorem exists_subtree_of_trees (h : trees old new = .ok log) : ∃ scope,
    Scope.isScope scope ∧ (∀ app ∈ new.or old, app.info.path = .ok scope) ∧
      subtree false scope old new = .ok log := by
  cases hside : new.or old with
  | none =>
    obtain ⟨rfl, rfl⟩ := Option.or_eq_none_iff.mp hside
    exact ⟨"", Scope.isScope_empty, by simp, trees_none_none ▸ h⟩
  | some app =>
    rw [trees_eq_bind hside] at h
    obtain ⟨scope, hpath, hlog⟩ := Check.bind_eq_ok.mp h
    refine ⟨scope, Scope.isScope_append hpath, ?_, hlog⟩
    rintro _ ⟨⟩
    exact hpath

theorem path_and_subject_of_mem_recordsUnder
    (h : change ∈ recordsUnder identity scope old new p) :
    change.path = p.address scope ∧ change.kind.subject = p.kind :=
  path_and_subject_of_mem_entity (kind_of_bind_entity? old p) (kind_of_bind_entity? new p) h

/-- The records of a log are those of each position under its address; where keys are names, no two
entities of a kind share one. -/
structure Addressed (scope : String) (old new : Option App) (log : Changelog) : Prop where
  mem_iff : ∀ change, change ∈ log ↔ ∃ p, change ∈ recordsUnder false scope old new p
  same_address_iff : ∀ p q, Occupied old new p → Occupied old new q →
    (p.address scope = q.address scope ↔
      p.names.flatMap Scope.names = q.names.flatMap Scope.names)
  told_apart : ∀ app, old = some app ∨ new = some app → app.KeysAreNames →
    ∀ p q, (app.entity? p).isSome → (app.entity? q).isSome →
      ∀ change ∈ recordsUnder false scope old new p, ∀ other ∈ recordsUnder false scope old new q,
        change.path = other.path → change.kind.subject = other.kind.subject → p = q

theorem KeysAreScopes.isPath (hkeys : KeysAreScopes old new) (hscope : Scope.isScope scope)
    (hp : Occupied old new p) :
    Scope.IsPath (Scope.names scope ++ p.names.flatMap Scope.names) := by
  refine (Scope.isPath_names hscope).append fun name hname => ?_
  obtain ⟨key, hkey, hname⟩ := List.mem_flatMap.mp hname
  exact Scope.isPath_names (hkeys.isScope_of_mem_names hp key hkey) name hname

theorem KeysAreScopes.same_address_iff (hkeys : KeysAreScopes old new)
    (hscope : Scope.isScope scope) (hp : Occupied old new p) (hq : Occupied old new q) :
    p.address scope = q.address scope ↔
      p.names.flatMap Scope.names = q.names.flatMap Scope.names := by
  constructor
  · intro h
    have hnames := congrArg Scope.names h
    rw [Position.address, Position.address, Scope.names_join (hkeys.isPath hscope hp),
      Scope.names_join (hkeys.isPath hscope hq)] at hnames
    exact List.append_cancel_left hnames
  · intro h
    rw [Position.address, Position.address, h]

theorem addressed_of_subtree (hscope : Scope.isScope scope)
    (hlog : subtree false scope old new = .ok log) : Addressed scope old new log where
  mem_iff change := mem_subtree hscope hlog
  same_address_iff _ _ :=
    ((exists_subtree_eq_ok hscope false).mp ⟨log, hlog⟩).same_address_iff hscope
  told_apart := by
    intro app _ hnames p q hp hq change hchange other hother hpath hsubject
    obtain ⟨haddress, hkind⟩ := path_and_subject_of_mem_recordsUnder hchange
    obtain ⟨haddress', hkind'⟩ := path_and_subject_of_mem_recordsUnder hother
    have hisPath {p : Position} (hp : (app.entity? p).isSome) : Scope.IsPath p.names := by
      obtain ⟨entity, hentity⟩ := Option.isSome_iff_exists.mp hp
      exact hnames.isPath hentity
    have hsame : p.address scope = q.address scope := by rw [← haddress, hpath, haddress']
    rw [((exists_subtree_eq_ok hscope false).mp ⟨log, hlog⟩).same_address_iff hscope
      (occupied_of_mem_recordsUnder hchange) (occupied_of_mem_recordsUnder hother),
      Position.flatMap_names (hisPath hp), Position.flatMap_names (hisPath hq)] at hsame
    exact Position.eq_of_names (by rw [← hkind, hsubject, hkind']) hsame

/-- A comparison fails exactly for a key that is not made of names; otherwise it records everything
under its address. -/
theorem trees_addressed (old new : Option App) :
    Check.FailsWith (·.kind = .invalidName) (trees old new) ∧
    ((∃ error, trees old new = .error error) ↔
      (∃ app ∈ new.or old, ∃ error, app.info.path = .error error) ∨
        ∃ p, Occupied old new p ∧ p ≠ .root ∧ ¬ Scope.isScope p.name) ∧
    ∀ log, trees old new = .ok log → ∃ scope,
      (∀ app ∈ new.or old, app.info.path = .ok scope) ∧ Addressed scope old new log := by
  refine ⟨failsWith_trees old new, error_trees_iff old new, fun log hlog => ?_⟩
  obtain ⟨scope, hscope, hpath, hlog⟩ := exists_subtree_of_trees hlog
  exact ⟨scope, hpath, addressed_of_subtree hscope hlog⟩

theorem trees_addressed_dotted :
    let app : App := (({} : App).putChild "a" (({} : App).putChild "b" {})).putChild "a.b" {}
    let log : Changelog := [⟨.created .app, "", .none⟩, ⟨.created .app, "a", .none⟩,
      ⟨.created .app, "a.b", .none⟩, ⟨.created .app, "a.b", .none⟩]
    trees none (some app) = .ok log ∧ Addressed "" none (some app) log ∧
      Position.address "" ⟨["a", "b"], .app⟩ = Position.address "" ⟨["a.b"], .app⟩ ∧
      ¬ Scope.isName "a.b" := by
  intro app log
  have hlog : trees none (some app) = .ok log := by decide +kernel
  obtain ⟨scope, hscope, haddressed⟩ := (trees_addressed none (some app)).2.2 log hlog
  have hempty := hscope app rfl
  rw [show app.info.path = .ok "" by decide +kernel, Except.ok.injEq] at hempty
  exact ⟨hlog, hempty ▸ haddressed, by decide +kernel, by decide +kernel⟩

end Diff

end AppTopology
