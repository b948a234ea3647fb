import AppTopology.Change.Diff
import AppTopology.Proofs.Declared

namespace AppTopology

namespace App

variable {α : Type} [Leaf α] [LawfulLeaf α] {app child other : App} {scope key name : String}
variable {place : List String} {leaf : α}

def Named (scope : String) (app : App) : Prop :=
  ∀ p info, app.info? p = some info → p ≠ .root →
    Scope.Admits (Scope.under scope p.owner) p.name

theorem Named.admits_child (h : app.Named scope) (hchild : app.child? key = some child) :
    Scope.Admits scope key := by
  apply h (Position.root.inside key) child.info
  · rw [info?_inside_of_child? hchild]
    rfl
  · exact Position.inside_ne_root key _

theorem Named.admits_leaf (h : app.Named scope) (hleaf : app.own.leaf? α name = some leaf) :
    Scope.Admits scope name := by
  have hinfo : app.info? ⟨[], .ofKind (Leaf.kind α) name⟩ = some (Leaf.info leaf) := by
    rw [info?_own, LawfulLeaf.info?_ofKind, hleaf]
    rfl
  have hadmits := h _ _ hinfo (Position.leaf_ne_root [] name)
  rwa [Position.owner_leaf, Position.name_leaf, Scope.under_nil] at hadmits

theorem Named.below (h : app.Named scope) (hchild : app.child? key = some child) :
    child.Named (Scope.child scope key) := by
  intro p info hinfo hp
  rw [← info?_inside_of_child? hchild] at hinfo
  have hadmits := h _ _ hinfo (Position.inside_ne_root key p)
  rwa [Position.owner_inside hp, Position.name_inside hp, Scope.under_cons] at hadmits

theorem Named.at? (h : app.Named scope) (hplace : app.at? place = some other) :
    other.Named (Scope.under scope place) := by
  induction place generalizing app scope with
  | nil =>
    injection hplace with hplace
    exact hplace ▸ h
  | cons key place ih =>
    rw [at?_cons, Option.bind_eq_some_iff] at hplace
    obtain ⟨child, hchild, hplace⟩ := hplace
    exact ih (h.below hchild) hplace

end App

namespace Diff

variable {α : Type} [Leaf α]
variable {old new new' : Option App} {identity : Bool} {path name key : String} {log : Changelog}

theorem get?_shelf (app : Option App) (name : String) :
    (shelf α app).get? name = app.bind fun app => app.own.leaf? α name := by
  cases app <;> rfl

theorem subtree_induction {motive : Option App → Option App → Prop}
    (step : ∀ old new, (∀ key, ((children old).get? key).isSome ∨ ((children new).get? key).isSome →
      motive ((children old).get? key) ((children new).get? key)) → motive old new) :
    ∀ old new, motive old new := by
  intro old new
  generalize hsize : size old + size new = n
  induction n using Nat.strongRecOn generalizing old new with
  | ind n ih =>
    apply step
    intro key hkey
    refine ih _ ?_ _ _ rfl
    have hold := size_child_le old key
    have hnew := size_child_le new key
    rcases hkey with hkey | hkey
    · have hlt := size_child_lt old key hkey
      omega
    · have hlt := size_child_lt new key hkey
      omega

theorem labels_eq [LawfulLeaf α] (leaf leaf' : α) :
    (Leaf.fields leaf).map Prod.fst = (Leaf.fields leaf').map Prod.fst := by
  apply LawfulLeaf.elim (α := α) fun β _ =>
    ∀ leaf leaf' : β, (Leaf.fields leaf).map Prod.fst = (Leaf.fields leaf').map Prod.fst
  all_goals exact fun _ _ => rfl

structure Alike (old new new' : Option App) : Prop where
  declared : new.map App.declared = new'.map App.declared
  uuid : ∀ p u u', (old.bind (·.uuid? p)).isSome → new.bind (·.uuid? p) = some u →
    new'.bind (·.uuid? p) = some u' → u = u'

theorem Alike.child (h : Alike old new new') (key : String) :
    Alike ((children old).get? key) ((children new).get? key) ((children new').get? key) := by
  have hinside (app : Option App) (p : Position) : ((children app).get? key).bind (·.uuid? p) =
      app.bind (·.uuid? (p.inside key)) := by
    cases app with
    | none => rfl
    | some app => exact (app.uuid?_inside key p).symm
  have hdeclared (app : Option App) : ((children app).get? key).map App.declared =
      (app.map App.declared).bind (·.child? key) := by
    cases app with
    | none => rfl
    | some app => exact (app.child?_declared key).symm
  constructor
  · rw [hdeclared, hdeclared, h.declared]
  · intro p u u'
    rw [hinside, hinside, hinside]
    exact h.uuid (p.inside key) u u'

theorem Alike.at? (h : Alike old new new') (place : List String) :
    Alike (old.bind (·.at? place)) (new.bind (·.at? place)) (new'.bind (·.at? place)) := by
  induction place generalizing old new new' with
  | nil => simpa using h
  | cons key place ih =>
    have hinside (app : Option App) : ((children app).get? key).bind (·.at? place) =
        app.bind (·.at? (key :: place)) := by
      cases app <;> rfl
    have hbelow := ih (h.child key)
    rwa [hinside, hinside, hinside] at hbelow

theorem isSome_children_congr (h : new.map App.declared = new'.map App.declared) (key : String) :
    ((children new).get? key).isSome = ((children new').get? key).isSome := by
  have hdeclared (app : Option App) : ((children app).get? key).isSome =
      ((app.map App.declared).bind (·.child? key)).isSome := by
    cases app with
    | none => rfl
    | some app =>
      rw [Option.map_some, Option.bind_some, App.child?_declared, Option.isSome_map]
      rfl
  rw [hdeclared, hdeclared, h]

theorem leaf_congr [LawfulLeaf α] {old new new' : Option α}
    (h : new.map Leaf.declared = new'.map Leaf.declared)
    (huuid : ∀ o n n', old = some o → new = some n → new' = some n' →
      (Leaf.info n).uuid = (Leaf.info n').uuid) :
    leaf identity path old new = leaf identity path old new' := by
  cases new with
  | none =>
    cases new' with
    | none => rfl
    | some n' => simp at h
  | some n =>
    cases new' with
    | none => simp at h
    | some n' =>
      cases old with
      | none => rfl
      | some o =>
        rw [Option.map_some, Option.map_some, Option.some.injEq] at h
        have hfields : Leaf.fields n = Leaf.fields n' := by
          rw [← Leaf.fields_declared, h, Leaf.fields_declared]
        have hannotations : (Leaf.info n).annotations = (Leaf.info n').annotations := by
          have hinfo := congrArg (fun leaf => (Leaf.info leaf).annotations) h
          simp only [Leaf.info_declared] at hinfo
          exact hinfo
        simp only [leaf, identityChange, annotationChanges, hfields, hannotations,
          huuid o n n' rfl rfl rfl]

theorem declared_get?_shelf [LawfulLeaf α] (app : Option App) (name : String) :
    ((shelf α app).get? name).map Leaf.declared =
      (app.map App.declared).bind fun app => app.own.leaf? α name := by
  cases app with
  | none => rfl
  | some app =>
    rw [Option.map_some, Option.bind_some, App.own_declared, App.Own.leaf?_declared]
    rfl

theorem uuid_get?_shelf [LawfulLeaf α] (app : Option App) (name : String) :
    ((shelf α app).get? name).map (fun leaf => (Leaf.info leaf).uuid) =
      app.bind (·.uuid? ⟨[], .ofKind (Leaf.kind α) name⟩) := by
  cases app with
  | none => rfl
  | some app =>
    rw [Option.bind_some, App.uuid?, App.info?_own, LawfulLeaf.info?_ofKind, Option.map_map]
    rfl

theorem Alike.leaf [LawfulLeaf α] (h : Alike old new new') (identity : Bool) (path name : String) :
    leaf identity path ((shelf α old).get? name) ((shelf α new).get? name) =
      leaf identity path ((shelf α old).get? name) ((shelf α new').get? name) := by
  apply leaf_congr
  · rw [declared_get?_shelf, declared_get?_shelf, h.declared]
  · intro o n n' ho hn hn'
    apply h.uuid ⟨[], .ofKind (Leaf.kind α) name⟩
    · rw [← uuid_get?_shelf, ho]
      rfl
    · rw [← uuid_get?_shelf, hn]
      rfl
    · rw [← uuid_get?_shelf, hn']
      rfl

theorem Alike.leaves [LawfulLeaf α] (h : Alike old new new') (path : String) :
    leaves α path old new = leaves α path old new' := by
  have hsome (name : String) :
      ((shelf α new).get? name).isSome = ((shelf α new').get? name).isSome := by
    rw [← Option.isSome_map, declared_get?_shelf, h.declared, ← declared_get?_shelf,
      Option.isSome_map]
  have hkeys : Dict.keyUnion (shelf α old) (shelf α new) =
      Dict.keyUnion (shelf α old) (shelf α new') := by
    apply Dict.keyUnion_congr
    intro name
    rw [hsome]
  rw [Diff.leaves, Diff.leaves, hkeys]
  congr 1
  apply Check.mapM_congr
  intro name _
  simp only [h.leaf]

theorem Alike.own (h : Alike old new new') (identity : Bool) (path : String) :
    own identity path old new = own identity path old new' := by
  obtain ⟨hdeclared, huuid⟩ := h
  cases new with
  | none =>
    cases new' with
    | none => rfl
    | some n' => simp at hdeclared
  | some n =>
    cases new' with
    | none => simp at hdeclared
    | some n' =>
      cases old with
      | none => rfl
      | some o =>
        rw [Option.map_some, Option.map_some, Option.some.injEq] at hdeclared
        have hown := congrArg App.own hdeclared
        rw [App.own_declared, App.own_declared] at hown
        obtain ⟨hannotations, hnode, hboundary⟩ := App.Own.eq_of_declared hown
        have hannotations : n.info.annotations = n'.info.annotations := hannotations
        have hidentity : n.info.uuid = n'.info.uuid := huuid ⟨[], .app⟩ _ _ rfl rfl rfl
        simp only [Diff.own, identityChange, annotationChanges, hannotations, hnode, hboundary,
          hidentity]

theorem subtree_congr (h : Alike old new new') (identity : Bool) (path : String) :
    subtree identity path old new = subtree identity path old new' := by
  induction old, new using subtree_induction generalizing new' identity path with
  | step old new ih =>
    have hkeys : Dict.keyUnion (children old) (children new) =
        Dict.keyUnion (children old) (children new') := by
      apply Dict.keyUnion_congr
      intro key
      rw [isSome_children_congr h.declared]
    have hbelow : (Dict.keyUnion (children old) (children new)).mapM (fun key => do
          let path ← Scope.append path key
          subtree true path ((children old).get? key) ((children new).get? key)) =
        (Dict.keyUnion (children old) (children new')).mapM (fun key => do
          let path ← Scope.append path key
          subtree true path ((children old).get? key) ((children new').get? key)) := by
      rw [← hkeys]
      apply Check.mapM_congr
      intro key hkey
      simp only [ih key (Dict.mem_keyUnion.mp hkey) (h.child key)]
    rw [subtree_eq, subtree_eq, hbelow, h.own, h.leaves, h.leaves, h.leaves]

section

variable {before after child : App}

theorem fieldChange_self (kind : ChangeKind) (path field : String) (value : Option String) :
    fieldChange kind path field value value = [] := if_pos rfl

theorem entryChanges_self (kind : ChangeKind) (path : String) (label : String → String)
    (d : Dict String) : entryChanges kind path label d d = [] := by
  simp only [entryChanges, fieldChange_self, List.flatMap_eq_nil_iff, implies_true]

theorem identityChange_self (identity : Bool) (kind : ChangeKind) (path : String)
    (info : Metadata) : identityChange identity kind path info info = [] := by
  simp only [identityChange, fieldChange_self, ite_self]

theorem without_self (names : NameSet) : names.without names = [] := by
  simp [NameSet.without]

theorem own_self (hinfo : before.own.info = after.own.info)
    (hnode : before.own.node = after.own.node)
    (hboundary : before.own.boundary = after.own.boundary) (identity : Bool) (path : String) :
    own identity path (some before) (some after) = [] := by
  simp [own, App.info, hinfo, hnode, hboundary, identityChange_self, annotationChanges,
    nodeChanges, entryChanges_self, fieldChange_self, boundaryChange, without_self]

theorem leaf_self [LawfulLeaf α] (identity : Bool) (path : String) (leaf? : Option α) :
    leaf identity path leaf? leaf? = [] := by
  cases leaf? with
  | none => rfl
  | some leaf =>
    simp only [Diff.leaf, identityChange_self, annotationChanges, entryChanges_self,
      List.nil_append, List.flatMap_eq_nil_iff]
    rintro ⟨field, field'⟩ hmem
    have hzip : ((Leaf.fields leaf).map id).zip ((Leaf.fields leaf).map id) =
        (Leaf.fields leaf).map fun field => (field, field) := List.zip_map'
    rw [List.map_id] at hzip
    rw [hzip, List.mem_map] at hmem
    obtain ⟨_, -, heq⟩ := hmem
    injection heq with hfield hfield'
    rw [← hfield, ← hfield']
    exact fieldChange_self _ _ _ _

def leafRecords (α : Type) [Leaf α] (path : String) (before after : App) : Changelog :=
  let names := Dict.keyUnion (Leaf.shelf before.own : Dict α) (Leaf.shelf after.own : Dict α)
  names.flatMap fun name =>
    leaf true (Scope.child path name) (before.own.leaf? α name) (after.own.leaf? α name)

theorem admits_of_isSome_shelf [LawfulLeaf α] {side : Option App}
    (hside : ∀ app ∈ side, app.Named path) (hsome : ((shelf α side).get? name).isSome) :
    Scope.Admits path name := by
  rw [get?_shelf, Option.isSome_iff_exists] at hsome
  obtain ⟨leaf, hleaf⟩ := hsome
  obtain ⟨app, happ, hleaf⟩ := Option.bind_eq_some_iff.mp hleaf
  exact (hside app happ).admits_leaf hleaf

theorem get?_children (side : Option App) (key : String) :
    (children side).get? key = side.bind (·.child? key) := by
  cases side <;> rfl

theorem admits_of_isSome_children {side : Option App} (hside : ∀ app ∈ side, app.Named path)
    (hsome : ((children side).get? key).isSome) : Scope.Admits path key := by
  rw [get?_children, Option.isSome_iff_exists] at hsome
  obtain ⟨child, hchild⟩ := hsome
  obtain ⟨app, happ, hchild⟩ := Option.bind_eq_some_iff.mp hchild
  exact (hside app happ).admits_child hchild

theorem leaves_ok [LawfulLeaf α] (hscope : Scope.isScope path) (hold : ∀ app ∈ old, app.Named path)
    (hnew : ∀ app ∈ new, app.Named path) :
    leaves α path old new = .ok ((Dict.keyUnion (shelf α old) (shelf α new)).flatMap fun name =>
      leaf true (Scope.child path name) ((shelf α old).get? name) ((shelf α new).get? name)) := by
  have hlog : ∀ name ∈ Dict.keyUnion (shelf α old) (shelf α new), (do
      let path ← Scope.append path name
      return leaf true path ((shelf α old).get? name) ((shelf α new).get? name)) =
        Except.ok (leaf true (Scope.child path name) ((shelf α old).get? name)
          ((shelf α new).get? name)) := by
    intro name hname
    have hadmits : Scope.Admits path name := by
      rcases Dict.mem_keyUnion.mp hname with hsome | hsome
      · exact admits_of_isSome_shelf hold hsome
      · exact admits_of_isSome_shelf hnew hsome
    rw [hadmits.append hscope]
    rfl
  rw [List.flatMap_def]
  exact Check.bind_eq_ok.mpr ⟨_, Check.mapM_ok hlog, rfl⟩

theorem leaves_eq_ok [LawfulLeaf α] (hscope : Scope.isScope path) (hbefore : before.Named path)
    (hafter : after.Named path) :
    leaves α path (some before) (some after) = .ok (leafRecords α path before after) :=
  leaves_ok hscope (by simpa using hbefore) (by simpa using hafter)

def childLogs (path : String) (old new : Option App) : Except TopologyError (List Changelog) :=
  (Dict.keyUnion (children old) (children new)).mapM fun key => do
    let path ← Scope.append path key
    subtree true path ((children old).get? key) ((children new).get? key)

theorem subtree_eq_ok_iff : subtree identity path old new = .ok log ↔
    ∃ logs channels types aliases, childLogs path old new = .ok logs ∧
      leaves Channel path old new = .ok channels ∧ leaves ChannelType path old new = .ok types ∧
      leaves ChannelAlias path old new = .ok aliases ∧
      log = own identity path old new ++ logs.flatten ++ channels ++ types ++ aliases := by
  rw [subtree_eq]
  simp only [Check.bind_eq_ok, Check.pure_eq_ok]
  constructor
  · rintro ⟨logs, hlogs, channels, hchannels, types, htypes, aliases, haliases, rfl⟩
    exact ⟨logs, channels, types, aliases, hlogs, hchannels, htypes, haliases, rfl⟩
  · rintro ⟨logs, channels, types, aliases, hlogs, hchannels, htypes, haliases, rfl⟩
    exact ⟨logs, hlogs, channels, hchannels, types, htypes, aliases, haliases, rfl⟩

theorem exists_childLogs_iff : (∃ logs, childLogs path old new = .ok logs) ↔
    ∀ key, ((children old).get? key).isSome ∨ ((children new).get? key).isSome →
      ∃ below, Scope.append path key = .ok below ∧
        ∃ log, subtree true below ((children old).get? key) ((children new).get? key) =
          .ok log := by
  rw [childLogs, Check.exists_mapM_eq_ok]
  simp only [Dict.mem_keyUnion, Check.bind_eq_ok]
  refine forall_congr' fun key => imp_congr_right fun _ => ?_
  constructor
  · rintro ⟨log, below, hbelow, hlog⟩
    exact ⟨below, hbelow, log, hlog⟩
  · rintro ⟨below, hbelow, log, hlog⟩
    exact ⟨log, below, hbelow, hlog⟩

theorem mem_childLogs {logs : List Changelog} {change : Change}
    (hlogs : childLogs path old new = .ok logs) : change ∈ logs.flatten ↔
      ∃ key below log, (((children old).get? key).isSome ∨ ((children new).get? key).isSome) ∧
        Scope.append path key = .ok below ∧
        subtree true below ((children old).get? key) ((children new).get? key) = .ok log ∧
        change ∈ log := by
  simp only [List.mem_flatten, Check.mem_iff_of_mapM_eq_ok hlogs, Check.bind_eq_ok,
    Dict.mem_keyUnion]
  constructor
  · rintro ⟨log, ⟨key, hkey, below, hbelow, hlog⟩, hchange⟩
    exact ⟨key, below, log, hkey, hbelow, hlog, hchange⟩
  · rintro ⟨key, below, log, hkey, hbelow, hlog, hchange⟩
    exact ⟨log, ⟨key, hkey, below, hbelow, hlog⟩, hchange⟩

theorem subtree_ok (hscope : Scope.isScope path) (hold : ∀ app ∈ old, app.Named path)
    (hnew : ∀ app ∈ new, app.Named path) {below : String → Changelog}
    (hbelow : ∀ key, ((children old).get? key).isSome ∨ ((children new).get? key).isSome →
      subtree true (Scope.child path key) ((children old).get? key) ((children new).get? key) =
        .ok (below key))
    {channels types aliases : Changelog} (hchannels : leaves Channel path old new = .ok channels)
    (htypes : leaves ChannelType path old new = .ok types)
    (haliases : leaves ChannelAlias path old new = .ok aliases) :
    subtree identity path old new =
      .ok (own identity path old new ++
        (Dict.keyUnion (children old) (children new)).flatMap below ++
        channels ++ types ++ aliases) := by
  have hlog : ∀ key ∈ Dict.keyUnion (children old) (children new), (do
      let path ← Scope.append path key
      subtree true path ((children old).get? key) ((children new).get? key)) =
        Except.ok (below key) := by
    intro key hkey
    have hkey := Dict.mem_keyUnion.mp hkey
    have hadmits : Scope.Admits path key := by
      rcases hkey with hsome | hsome
      · exact admits_of_isSome_children hold hsome
      · exact admits_of_isSome_children hnew hsome
    rw [hadmits.append hscope]
    exact hbelow key hkey
  rw [subtree_eq, hchannels, htypes, haliases, List.flatMap_def]
  exact Check.bind_eq_ok.mpr ⟨_, Check.mapM_ok hlog, rfl⟩

theorem subtree_eq_ok (hscope : Scope.isScope path) (hbefore : before.Named path)
    (hafter : after.Named path) {below : String → Changelog}
    (hbelow : ∀ key, (before.child? key).isSome ∨ (after.child? key).isSome →
      subtree true (Scope.child path key) (before.child? key) (after.child? key) =
        .ok (below key)) :
    subtree identity path (some before) (some after) =
      .ok (own identity path (some before) (some after) ++
        (Dict.keyUnion before.apps after.apps).flatMap below ++
        leafRecords Channel path before after ++ leafRecords ChannelType path before after ++
        leafRecords ChannelAlias path before after) := by
  have hold : ∀ app ∈ some before, app.Named path := by simpa using hbefore
  have hnew : ∀ app ∈ some after, app.Named path := by simpa using hafter
  exact subtree_ok hscope hold hnew hbelow (leaves_eq_ok hscope hbefore hafter)
    (leaves_eq_ok hscope hbefore hafter) (leaves_eq_ok hscope hbefore hafter)

theorem leafRecords_self [LawfulLeaf α]
    (h : (Leaf.shelf before.own : Dict α) = Leaf.shelf after.own) :
    leafRecords α path before after = [] := by
  simp only [leafRecords, App.Own.leaf?, h, leaf_self, List.flatMap_eq_nil_iff, implies_true]

theorem subtree_self (hscope : Scope.isScope path) (h : after.Named path) (identity : Bool) :
    subtree identity path (some after) (some after) = .ok [] := by
  induction after using App.induction generalizing path identity with
  | node own apps ih =>
    have hbelow : ∀ key, (apps.get? key).isSome ∨ (apps.get? key).isSome →
        subtree true (Scope.child path key) (apps.get? key) (apps.get? key) = .ok [] := by
      intro key hkey
      obtain ⟨child, hchild⟩ := Option.isSome_iff_exists.mp (or_self_iff.mp hkey)
      rw [hchild]
      exact ih key child (Dict.mem_of_get? hchild)
        ((h.admits_child hchild).isScope_child hscope) (h.below hchild) true
    rw [subtree_eq_ok hscope h h hbelow, own_self rfl rfl rfl, leafRecords_self rfl,
      leafRecords_self rfl, leafRecords_self rfl]
    simp

theorem subtree_child_self (hscope : Scope.isScope path) (h : after.Named path)
    (hsome : (after.child? key).isSome) :
    subtree true (Scope.child path key) (after.child? key) (after.child? key) = .ok [] := by
  obtain ⟨child, hchild⟩ := Option.isSome_iff_exists.mp hsome
  rw [hchild]
  exact subtree_self ((h.admits_child hchild).isScope_child hscope) (h.below hchild) true

theorem flatMap_eq_of_unique {xs : List String} (hnodup : xs.Nodup) (hname : name ∈ xs)
    {below : String → Changelog} (h : ∀ key ∈ xs, key ≠ name → below key = []) :
    xs.flatMap below = below name := by
  induction xs with
  | nil => simp at hname
  | cons key xs ih =>
    simp only [List.mem_cons, forall_eq_or_imp, List.nodup_cons] at hname h hnodup
    rw [List.flatMap_cons]
    rcases hname with rfl | hname
    · have hrest : xs.flatMap below = [] := by
        rw [List.flatMap_eq_nil_iff]
        intro key hkey
        exact h.2 key hkey fun heq => hnodup.1 (heq ▸ hkey)
      rw [hrest, List.append_nil]
    · rw [h.1 fun heq => hnodup.1 (heq ▸ hname), List.nil_append, ih hnodup.2 hname h.2]

theorem subtree_of_child (hscope : Scope.isScope path) (hbefore : before.Named path)
    (hafter : after.Named path) (hown : before.own = after.own)
    (hsame : ∀ key, key ≠ name → before.child? key = after.child? key)
    (hsome : (before.child? name).isSome ∨ (after.child? name).isSome)
    (hlog : subtree true (Scope.child path name) (before.child? name) (after.child? name) =
      .ok log) (identity : Bool) :
    subtree identity path (some before) (some after) = .ok log := by
  have hbelow : ∀ key, (before.child? key).isSome ∨ (after.child? key).isSome →
      subtree true (Scope.child path key) (before.child? key) (after.child? key) =
        .ok (if key = name then log else []) := by
    intro key hkey
    by_cases hname : key = name
    · rw [if_pos hname, hname]
      exact hlog
    · rw [hsame key hname, or_self_iff] at hkey
      rw [if_neg hname, hsame key hname]
      exact subtree_child_self hscope hafter hkey
  have hkeys : (Dict.keyUnion before.apps after.apps).flatMap
      (fun key => if key = name then log else []) = log := by
    rw [flatMap_eq_of_unique (Dict.nodup_keyUnion _ _) (Dict.mem_keyUnion.mpr hsome)
      fun key _ hne => if_neg hne, if_pos rfl]
  rw [subtree_eq_ok hscope hbefore hafter hbelow, hkeys,
    own_self (by rw [hown]) (by rw [hown]) (by rw [hown]), leafRecords_self (by rw [hown]),
    leafRecords_self (by rw [hown]), leafRecords_self (by rw [hown])]
  simp

theorem leafRecords_withShelf [LawfulLeaf α] (path : String) (before : App) (shelf : Dict α) :
    let after : App := { before with own := Leaf.withShelf before.own shelf }
    leafRecords Channel path before after ++ leafRecords ChannelType path before after ++
      leafRecords ChannelAlias path before after = leafRecords α path before after := by
  revert shelf
  apply LawfulLeaf.elim (α := α) fun β _ => ∀ shelf : Dict β,
    let after : App := { before with own := Leaf.withShelf before.own shelf }
    leafRecords Channel path before after ++ leafRecords ChannelType path before after ++
      leafRecords ChannelAlias path before after = leafRecords β path before after
  · intro shelf after
    have htype : leafRecords ChannelType path before after = [] := leafRecords_self rfl
    have halias : leafRecords ChannelAlias path before after = [] := leafRecords_self rfl
    rw [htype, halias, List.append_nil, List.append_nil]
  · intro shelf after
    have hchannel : leafRecords Channel path before after = [] := leafRecords_self rfl
    have halias : leafRecords ChannelAlias path before after = [] := leafRecords_self rfl
    rw [hchannel, halias, List.append_nil, List.nil_append]
  · intro shelf after
    have hchannel : leafRecords Channel path before after = [] := leafRecords_self rfl
    have htype : leafRecords ChannelType path before after = [] := leafRecords_self rfl
    rw [hchannel, htype, List.nil_append, List.nil_append]

theorem subtree_of_leaf [LawfulLeaf α] {shelf : Dict α} (hscope : Scope.isScope path)
    (hbefore : before.Named path)
    (hafter : App.Named path { before with own := Leaf.withShelf before.own shelf })
    (hsame : ∀ name', name' ≠ name → shelf.get? name' = before.own.leaf? α name')
    (hsome : (before.own.leaf? α name).isSome ∨ (shelf.get? name).isSome) (identity : Bool) :
    subtree identity path (some before)
        (some { before with own := Leaf.withShelf before.own shelf }) =
      .ok (leaf true (Scope.child path name) (before.own.leaf? α name) (shelf.get? name)) := by
  have hbelow : ∀ key, (before.child? key).isSome ∨ (before.child? key).isSome →
      subtree true (Scope.child path key) (before.child? key) (before.child? key) = .ok [] :=
    fun key hkey => subtree_child_self hscope hbefore (or_self_iff.mp hkey)
  have hown : own identity path (some before)
      (some { before with own := Leaf.withShelf before.own shelf }) = [] := by
    apply own_self
    · exact (LawfulLeaf.info_withShelf before.own shelf).symm
    · exact (LawfulLeaf.node_withShelf before.own shelf).symm
    · exact (LawfulLeaf.boundary_withShelf before.own shelf).symm
  have hrecords : leafRecords α path before
      { before with own := Leaf.withShelf before.own shelf } =
        leaf true (Scope.child path name) (before.own.leaf? α name) (shelf.get? name) := by
    simp only [leafRecords, App.Own.leaf?, LawfulLeaf.shelf_withShelf]
    apply flatMap_eq_of_unique (Dict.nodup_keyUnion _ _) (Dict.mem_keyUnion.mpr hsome)
    intro name' _ hne
    rw [hsame name' hne]
    exact leaf_self _ _ _
  have hchildren (keys : List String) : keys.flatMap (fun _ => ([] : Changelog)) = [] :=
    List.flatMap_eq_nil_iff.mpr fun _ _ => rfl
  have hleaves := leafRecords_withShelf path before shelf
  dsimp only at hleaves
  rw [subtree_eq_ok hscope hbefore hafter hbelow, hown, hchildren, List.append_nil,
    List.nil_append, hleaves, hrecords]

theorem leaf_identity {old new : Option α}
    (h : ∀ o n, old = some o → new = some n → (Leaf.info n).uuid = (Leaf.info o).uuid)
    (identity : Bool) (path : String) :
    leaf identity path old new = leaf false path old new := by
  cases old with
  | none => cases new <;> rfl
  | some o =>
    cases new with
    | none => rfl
    | some n =>
      simp [leaf, identityChange, fieldChange, h o n rfl rfl]

theorem subtree_identity {old new : Option App}
    (h : ∀ o n, old = some o → new = some n → n.info.uuid = o.info.uuid)
    (identity : Bool) (path : String) :
    subtree identity path old new = subtree false path old new := by
  have hown : own identity path old new = own false path old new := by
    cases old with
    | none => cases new <;> rfl
    | some o =>
      cases new with
      | none => rfl
      | some n => simp [own, identityChange, fieldChange, h o n rfl rfl]
  rw [subtree_eq, subtree_eq, hown]

theorem subtree_modifyAt? {edit : App → App} {place : List String} {other : App}
    (hmodify : before.modifyAt? edit place = some after) (hother : before.at? place = some other)
    (hscope : Scope.isScope path) (hbefore : before.Named path) (hafter : after.Named path)
    (hlog : ∀ identity, subtree identity (Scope.under path place) (some other)
      (some (edit other)) = .ok log) (identity : Bool) :
    subtree identity path (some before) (some after) = .ok log := by
  -- Identities are left out only where a comparison starts; the app at the place may be deeper.
  induction place generalizing before after path identity with
  | nil =>
    injection hmodify with hmodify
    injection hother with hother
    subst hother hmodify
    exact hlog identity
  | cons key place ih =>
    obtain ⟨child, child', hchild, hedit, rfl⟩ := App.modifyAt?_cons_eq_some.mp hmodify
    rw [App.at?_cons, hchild] at hother
    have hchild' : (before.putChild key child').child? key = some child' := by
      rw [App.child?_putChild, if_pos rfl]
    have hsame : ∀ key', key' ≠ key →
        before.child? key' = (before.putChild key child').child? key' := by
      intro key' hne
      rw [App.child?_putChild, if_neg hne]
    have hbelow : subtree true (Scope.child path key) (before.child? key)
        ((before.putChild key child').child? key) = .ok log := by
      rw [hchild, hchild']
      exact ih hedit hother ((hbefore.admits_child hchild).isScope_child hscope)
        (hbefore.below hchild) (hafter.below hchild') hlog true
    exact subtree_of_child hscope hbefore hafter rfl hsame (Or.inr (by rw [hchild']; rfl)) hbelow
      identity

end

theorem trees_eq (hsome : old.isSome ∨ new.isSome)
    (hold : ∀ app, old = some app → app.info.path = .ok path)
    (hnew : ∀ app, new = some app → app.info.path = .ok path) :
    trees old new = subtree false path old new := by
  unfold trees
  cases new with
  | some app =>
    have hpath := hnew app rfl
    cases old <;> simp only [hpath, bind, Except.bind]
  | none =>
    obtain ⟨app, rfl⟩ := Option.isSome_iff_exists.mp (by simpa using hsome)
    simp only [hold app rfl, bind, Except.bind]

end Diff

end AppTopology
