import AppTopology.Proofs.Comparison
import AppTopology.Proofs.Entity

namespace AppTopology

theorem Boundary.ext_names {b b' : Boundary} :
    b = b' ↔ b.names .input = b'.names .input ∧ b.names .output = b'.names .output := by
  cases b
  cases b'
  simp [Boundary.names]

/-- The entity with its broker priorities as the one text that a comparison makes of them. -/
def Entity.joined : Entity → Entity
  | channel c => channel { c with brokerPriority := [",".intercalate c.brokerPriority] }
  | entity => entity

def Entity.PlainPriority : Entity → Prop
  | channel c => ∀ broker ∈ c.brokerPriority, broker ≠ "" ∧ ',' ∉ broker.toList
  | _ => True

theorem Entity.plainPriority_declared {entity : Entity} :
    entity.declared.PlainPriority ↔ entity.PlainPriority := by
  cases entity <;> rfl

theorem Entity.joined_inj {entity entity' : Entity} (h : entity.PlainPriority)
    (h' : entity'.PlainPriority) : entity.joined = entity'.joined ↔ entity = entity' := by
  cases entity with
  | channel c =>
    cases entity' with
    | channel c' =>
      obtain ⟨⟩ := c
      obtain ⟨⟩ := c'
      have hpriority := @Text.intercalate_inj ',' _ _ h h'
      simpa [joined] using fun _ _ _ _ _ => hpriority
    | app | channelType | channelAlias => simp [joined]
  | app | channelType | channelAlias => cases entity' <;> simp [joined]

namespace App

/-- The same keys, the same view of what is declared, and below the root the same identities. -/
structure AgreeUpTo (view : Entity → Entity) (old new : App) : Prop where
  content : ∀ p, ((old.entity? p).map Entity.declared).map view =
    ((new.entity? p).map Entity.declared).map view
  uuid : ∀ p, p ≠ .root → old.uuid? p = new.uuid? p

def Agree (old new : App) : Prop := AgreeUpTo id old new

def KeysAreNames (app : App) : Prop :=
  ∀ p info, app.info? p = some info → p ≠ .root → Scope.isName p.name

def PlainPriorities (app : App) : Prop :=
  ∀ p entity, app.entity? p = some entity → entity.PlainPriority

theorem agreeUpTo_joined_iff {old new : App} (hold : old.PlainPriorities)
    (hnew : new.PlainPriorities) : old.AgreeUpTo Entity.joined new ↔ old.Agree new := by
  have hcontent (p : Position) :
      ((old.entity? p).map Entity.declared).map Entity.joined =
          ((new.entity? p).map Entity.declared).map Entity.joined ↔
        ((old.entity? p).map Entity.declared).map id =
          ((new.entity? p).map Entity.declared).map id := by
    cases ho : old.entity? p with
    | none => cases new.entity? p <;> simp
    | some o =>
      cases hn : new.entity? p with
      | none => simp
      | some n =>
        simp only [Option.map_some, Option.some.injEq, id]
        exact Entity.joined_inj (Entity.plainPriority_declared.mpr (hold p o ho))
          (Entity.plainPriority_declared.mpr (hnew p n hn))
  constructor
  · rintro ⟨hagree, huuid⟩
    exact ⟨fun p => (hcontent p).mp (hagree p), huuid⟩
  · rintro ⟨hagree, huuid⟩
    exact ⟨fun p => (hcontent p).mpr (hagree p), huuid⟩

theorem KeysAreNames.named {app : App} (h : app.KeysAreNames) (scope : String) :
    app.Named scope :=
  fun p info hinfo hp => .inl (h p info hinfo hp)

theorem keysAreNames_of_keys {app : App}
    (hown : ∀ key ∈ app.own.channels.keys ++ app.own.types.keys ++ app.own.aliases.keys,
      Scope.isName key)
    (hbelow : ∀ entry ∈ app.apps.entries, Scope.isName entry.1 ∧ entry.2.KeysAreNames) :
    app.KeysAreNames := by
  have hkey {α : Type} [Leaf α] {shelf : Dict α} {name : String} {info : Metadata}
      (hinfo : (shelf.get? name).map Leaf.info = some info) : name ∈ shelf.keys := by
    rw [← Dict.isSome_get?_iff, ← Option.isSome_map, hinfo]
    rfl
  simp only [List.mem_append] at hown
  rw [KeysAreNames, forall_info?_iff]
  constructor
  · intro item info hinfo hroot
    cases item with
    | app => exact absurd rfl hroot
    | channel name => exact hown name (.inl (.inl (hkey hinfo)))
    | channelType name => exact hown name (.inl (.inr (hkey hinfo)))
    | channelAlias name => exact hown name (.inr (hkey hinfo))
  · intro key child hchild p info hinfo _
    obtain ⟨hname, hnames⟩ := hbelow (key, child) (mem_of_child? hchild)
    by_cases hp : p = .root
    · rw [hp]
      exact hname
    · rw [Position.name_inside hp]
      exact hnames p info hinfo hp

end App

namespace Diff

variable {α : Type} [Leaf α] {identity : Bool} {path : String} {kind : ChangeKind}

theorem fieldChange_eq_nil {field : String} {before after : Option String} :
    fieldChange kind path field before after = [] ↔ before = after := by
  unfold fieldChange
  split <;> simp [*]

theorem entryChanges_eq_nil {label : String → String} {old new : Dict String} (hold : old.Ordered)
    (hnew : new.Ordered) : entryChanges kind path label old new = [] ↔ old = new := by
  simp only [entryChanges, List.flatMap_eq_nil_iff, fieldChange_eq_nil]
  rw [Dict.forall_keyUnion_iff fun key ho hn => ho.trans hn.symm]
  constructor
  · exact Dict.ext_get? hold hnew
  · rintro rfl key
    rfl

theorem annotationChanges_eq_nil {old new : Metadata} (hold : old.Ordered) (hnew : new.Ordered) :
    annotationChanges kind path old new = [] ↔ old.annotations = new.annotations :=
  entryChanges_eq_nil hold hnew

theorem identityChange_eq_nil {old new : Metadata} :
    identityChange identity kind path old new = [] ↔ (identity → old.uuid = new.uuid) := by
  cases identity <;> simp [identityChange, fieldChange_eq_nil]

theorem toString_replicas_inj {replicas replicas' : UInt32} :
    toString replicas = toString replicas' ↔ replicas = replicas' := by
  constructor
  · intro h
    have hrepr : replicas.toNat.repr = replicas'.toNat.repr := h
    rw [Nat.repr_eq_ofList_toDigits, Nat.repr_eq_ofList_toDigits, String.ofList_inj] at hrepr
    have hread := congrArg (fun digits => Nat.ofDigitChars 10 digits 0) hrepr
    simp only [Nat.ofDigitChars_toDigits (by decide : 1 < 10) (by decide : 10 ≤ 10)] at hread
    exact UInt32.toNat_inj.mp hread
  · exact congrArg toString

theorem nodeChanges_eq_nil {old new : Option Node} (hold : ∀ node ∈ old, node.environment.Ordered)
    (hnew : ∀ node ∈ new, node.environment.Ordered) :
    nodeChanges path old new = [] ↔ old = new := by
  simp only [nodeChanges, List.append_eq_nil_iff, fieldChange_eq_nil]
  cases old with
  | none => cases new <;> simp [entryChanges_self]
  | some old =>
    cases new with
    | none => simp
    | some new =>
      obtain ⟨image, replicas, environment⟩ := old
      obtain ⟨image', replicas', environment'⟩ := new
      simp only [Option.map_some, Option.some.injEq, Option.getD_some, toString_replicas_inj,
        entryChanges_eq_nil (hold _ rfl) (hnew _ rfl), Node.mk.injEq, and_assoc]

theorem boundaryChange_eq_nil {old new : Boundary} {direction : Direction} :
    boundaryChange path old new direction = [] ↔ old.names direction = new.names direction := by
  have hwithout (s t : NameSet) : s.without t = [] ↔ ∀ name ∈ s.names, name ∈ t.names := by
    simp [NameSet.without]
  simp only [boundaryChange, ite_eq_left_iff, List.cons_ne_self, imp_false, not_not, hwithout]
  constructor
  · rintro ⟨hadded, hremoved⟩
    exact NameSet.ext_mem fun name => ⟨hremoved name, hadded name⟩
  · intro h
    rw [h]
    exact ⟨fun _ => id, fun _ => id⟩

theorem fields_eq_nil {old new : List (String × String)}
    (hlabels : old.map Prod.fst = new.map Prod.fst) :
    ((old.zip new).flatMap fun (before, after) =>
        fieldChange kind path before.1 (some before.2) (some after.2)) = [] ↔ old = new := by
  induction old generalizing new with
  | nil => cases new <;> simp at hlabels ⊢
  | cons field old ih =>
    cases new with
    | nil => simp at hlabels
    | cons field' new =>
      obtain ⟨label, value⟩ := field
      obtain ⟨label', value'⟩ := field'
      simp only [List.map_cons, List.cons.injEq] at hlabels
      simp only [List.zip_cons_cons, List.flatMap_cons, List.append_eq_nil_iff, fieldChange_eq_nil,
        ih hlabels.2, List.cons.injEq, Prod.mk.injEq, hlabels.1, true_and, Option.some.injEq]

def seen (identity : Bool) (entity : Entity) : Entity × Option String :=
  (entity.declared.joined, if identity then some entity.info.uuid else none)

theorem own_eq_nil {old new : App} (hold : old.own.Ordered) (hnew : new.own.Ordered) :
    own identity path (some old) (some new) = [] ↔
      (old.own.entity? .app).map (seen identity) = (new.own.entity? .app).map (seen identity) := by
  obtain ⟨hannotations, -, -, -, hnode⟩ := hold
  obtain ⟨hannotations', -, -, -, hnode'⟩ := hnew
  simp only [own, List.append_eq_nil_iff, identityChange_eq_nil, App.info,
    annotationChanges_eq_nil hannotations hannotations', nodeChanges_eq_nil hnode hnode',
    boundaryChange_eq_nil,
    App.Own.entity?, Option.map_some, Option.some.injEq, seen, Entity.declared, Entity.joined,
    Entity.info, Entity.app.injEq, Metadata.declared, Metadata.mk.injEq, Prod.mk.injEq, true_and,
    and_true, Boundary.ext_names]
  cases identity <;> simp only [Bool.false_eq_true, false_imp_iff, if_false, if_true,
    forall_const, Option.some.injEq] <;> tauto

theorem exists_joined_embed (α : Type) [Leaf α] [LawfulLeaf α] : ∃ embed : α → Entity,
    Embeds α embed ∧ ∀ leaf leaf', (embed leaf).declared.joined = (embed leaf').declared.joined ↔
      (Leaf.info leaf).annotations = (Leaf.info leaf').annotations ∧
        Leaf.fields leaf = Leaf.fields leaf' := by
  apply LawfulLeaf.elim (α := α) fun β _ => ∃ embed : β → Entity,
    Embeds β embed ∧ ∀ leaf leaf', (embed leaf).declared.joined = (embed leaf').declared.joined ↔
      (Leaf.info leaf).annotations = (Leaf.info leaf').annotations ∧
        Leaf.fields leaf = Leaf.fields leaf'
  · refine ⟨_, embeds_channel, ?_⟩
    rintro ⟨⟩ ⟨⟩
    simp [Entity.declared, Entity.joined, Leaf.declared, Leaf.withInfo, Leaf.detached, Leaf.info,
      Leaf.fields, Metadata.declared]
  · refine ⟨_, embeds_channelType, ?_⟩
    rintro ⟨⟩ ⟨⟩
    simp [Entity.declared, Entity.joined, Leaf.declared, Leaf.withInfo, Leaf.detached, Leaf.info,
      Leaf.fields, Metadata.declared]
  · refine ⟨_, embeds_channelAlias, ?_⟩
    rintro ⟨⟩ ⟨⟩
    simp [Entity.declared, Entity.joined, Leaf.declared, Leaf.withInfo, Leaf.detached, Leaf.info,
      Leaf.fields, Metadata.declared]

theorem leaf_eq_nil [LawfulLeaf α] {old new : App.Own} (hold : old.Ordered) (hnew : new.Ordered)
    (name : String) : leaf true path (old.leaf? α name) (new.leaf? α name) = [] ↔
      (old.entity? (.ofKind (Leaf.kind α) name)).map (seen true) =
        (new.entity? (.ofKind (Leaf.kind α) name)).map (seen true) := by
  obtain ⟨embed, h, hjoined⟩ := exists_joined_embed α
  rw [h.entity?, h.entity?]
  cases ho : old.leaf? α name with
  | none => cases new.leaf? α name <;> simp [leaf]
  | some o =>
    cases hn : new.leaf? α name with
    | none => simp [leaf]
    | some n =>
      simp only [leaf, List.append_eq_nil_iff, identityChange_eq_nil,
        annotationChanges_eq_nil (hold.leaf? ho) (hnew.leaf? hn),
        fields_eq_nil (labels_eq o n), Option.map_some, Option.some.injEq, seen, Prod.mk.injEq,
        hjoined, h.info, if_true, forall_const]
      tauto

def Indistinct (identity : Bool) (old new : Option App) : Prop :=
  ∀ p : Position, (old.bind (·.entity? p)).map (seen (identity || p ≠ .root)) =
    (new.bind (·.entity? p)).map (seen (identity || p ≠ .root))

def IndistinctLeaves (α : Type) [Leaf α] (old new : App) : Prop :=
  ∀ name, (old.own.entity? (.ofKind (Leaf.kind α) name)).map (seen true) =
    (new.own.entity? (.ofKind (Leaf.kind α) name)).map (seen true)

theorem indistinct_iff {old new : App} : Indistinct identity (some old) (some new) ↔
    (old.own.entity? .app).map (seen identity) = (new.own.entity? .app).map (seen identity) ∧
      (∀ key, Indistinct true (old.child? key) (new.child? key)) ∧
      IndistinctLeaves Channel old new ∧ IndistinctLeaves ChannelType old new ∧
        IndistinctLeaves ChannelAlias old new := by
  have hroot : seen (identity || (⟨[], .app⟩ : Position) ≠ .root) = seen identity := by
    simp [Position.root]
  have hleaf (kind : Kind) (name : String) (hkind : kind ≠ .app) :
      seen (identity || (⟨[], .ofKind kind name⟩ : Position) ≠ .root) = seen true := by
    cases kind <;> simp [Position.root, Item.ofKind] at hkind ⊢
  have hinside (key : String) (p : Position) :
      seen (identity || p.inside key ≠ .root) = seen true := by
    rw [decide_eq_true (Position.inside_ne_root key p), Bool.or_true]
  have hchannel (name : String) :
      seen (identity || (⟨[], .channel name⟩ : Position) ≠ .root) = seen true :=
    hleaf .channel name (by decide)
  have htype (name : String) :
      seen (identity || (⟨[], .channelType name⟩ : Position) ≠ .root) = seen true :=
    hleaf .channelType name (by decide)
  have halias (name : String) :
      seen (identity || (⟨[], .channelAlias name⟩ : Position) ≠ .root) = seen true :=
    hleaf .channelAlias name (by decide)
  rw [Indistinct, Position.forall_iff, Item.forall_iff]
  simp only [Option.bind_some, App.entity?_inside, App.entity?_own, hroot, hchannel, htype, halias,
    hinside]
  simp only [Indistinct, Bool.true_or]
  constructor
  · rintro ⟨⟨happ, hleaves⟩, hbelow⟩
    exact ⟨happ, hbelow, hleaves⟩
  · rintro ⟨happ, hbelow, hleaves⟩
    exact ⟨⟨happ, hleaves⟩, hbelow⟩

theorem leaves_eq_nil [LawfulLeaf α] {old new : App} (hscope : Scope.isScope path)
    (hold : old.Ordered) (hnew : new.Ordered) (hold' : old.Named path) (hnew' : new.Named path) :
    leaves α path (some old) (some new) = .ok [] ↔ IndistinctLeaves α old new := by
  have hnone (name : String) (ho : (Leaf.shelf old.own : Dict α).get? name = none)
      (hn : (Leaf.shelf new.own : Dict α).get? name = none) :
      leaf true (Scope.child path name) (old.own.leaf? α name) (new.own.leaf? α name) = [] := by
    rw [App.Own.leaf?, App.Own.leaf?, ho, hn]
    rfl
  rw [leaves_eq_ok hscope hold' hnew', Except.ok.injEq, leafRecords, List.flatMap_eq_nil_iff,
    Dict.forall_keyUnion_iff hnone]
  exact forall_congr' fun name => leaf_eq_nil hold.own hnew.own name

theorem subtree_eq_nil_iff (identity : Bool) (path : String) (old new : Option App) :
    subtree identity path old new = .ok [] ↔ own identity path old new = [] ∧
      (∀ key ∈ Dict.keyUnion (children old) (children new), (do
        let path ← Scope.append path key
        subtree true path ((children old).get? key) ((children new).get? key)) = .ok []) ∧
      leaves Channel path old new = .ok [] ∧ leaves ChannelType path old new = .ok [] ∧
        leaves ChannelAlias path old new = .ok [] := by
  rw [subtree_eq, ← Check.exists_flatten_eq_nil]
  simp only [Check.bind_eq_ok, Check.pure_eq_ok, List.append_eq_nil_iff]
  constructor
  · rintro ⟨logs, hlogs, _, hchannels, _, htypes, _, haliases, ⟨⟨⟨hown, hflatten⟩, rfl⟩, rfl⟩, rfl⟩
    exact ⟨hown, ⟨logs, hlogs, hflatten⟩, hchannels, htypes, haliases⟩
  · rintro ⟨hown, ⟨logs, hlogs, hflatten⟩, hchannels, htypes, haliases⟩
    exact ⟨logs, hlogs, [], hchannels, [], htypes, [], haliases,
      ⟨⟨⟨hown, hflatten⟩, rfl⟩, rfl⟩, rfl⟩

theorem subtree_eq_nil {old new : Option App} (hscope : Scope.isScope path)
    (hold : ∀ app, old = some app → app.Ordered ∧ app.Named path)
    (hnew : ∀ app, new = some app → app.Ordered ∧ app.Named path) (identity : Bool) :
    subtree identity path old new = .ok [] ↔ Indistinct identity old new := by
  induction old, new using subtree_induction generalizing path identity with
  | step old new ih =>
    cases old with
    | none =>
      cases new with
      | none => exact ⟨fun _ _ => rfl, fun _ => by rw [subtree_eq]; rfl⟩
      | some new =>
        rw [subtree_eq_nil_iff]
        exact ⟨fun h => (nomatch h.1), fun h => (nomatch h .root)⟩
    | some old =>
      cases new with
      | none =>
        rw [subtree_eq_nil_iff]
        exact ⟨fun h => (nomatch h.1), fun h => (nomatch h .root)⟩
      | some new =>
        obtain ⟨hold, hold'⟩ := hold old rfl
        obtain ⟨hnew, hnew'⟩ := hnew new rfl
        have hchild : ∀ key, (old.child? key).isSome ∨ (new.child? key).isSome → ((do
              let path ← Scope.append path key
              subtree true path (old.child? key) (new.child? key)) = Except.ok [] ↔
            Indistinct true (old.child? key) (new.child? key)) := by
          intro key hkey
          have hadmits : Scope.Admits path key := by
            rcases hkey with hkey | hkey
            · obtain ⟨child, hchild⟩ := Option.isSome_iff_exists.mp hkey
              exact hold'.admits_child hchild
            · obtain ⟨child, hchild⟩ := Option.isSome_iff_exists.mp hkey
              exact hnew'.admits_child hchild
          rw [hadmits.append hscope]
          exact ih key hkey (hadmits.isScope_child hscope)
            (fun child hchild => ⟨hold.of_mem (App.mem_of_child? hchild), hold'.below hchild⟩)
            (fun child hchild => ⟨hnew.of_mem (App.mem_of_child? hchild), hnew'.below hchild⟩) true
        have hbelow : (∀ key ∈ Dict.keyUnion old.apps new.apps, (do
              let path ← Scope.append path key
              subtree true path (old.child? key) (new.child? key)) = Except.ok []) ↔
            ∀ key, Indistinct true (old.child? key) (new.child? key) := by
          have hnone (key : String) (ho : old.apps.get? key = none)
              (hn : new.apps.get? key = none) :
              Indistinct true (old.child? key) (new.child? key) := by
            rw [App.child?, App.child?, ho, hn]
            exact fun _ => rfl
          exact (forall₂_congr fun key hkey => hchild key (Dict.mem_keyUnion.mp hkey)).trans
            (Dict.forall_keyUnion_iff hnone)
        rw [subtree_eq_nil_iff, own_eq_nil hold.own hnew.own,
          leaves_eq_nil hscope hold hnew hold' hnew', leaves_eq_nil hscope hold hnew hold' hnew',
          leaves_eq_nil hscope hold hnew hold' hnew', indistinct_iff, ← hbelow]
        rfl

theorem map_seen_eq_iff {old new : Option Entity} :
    old.map (seen identity) = new.map (seen identity) ↔
      (old.map Entity.declared).map Entity.joined = (new.map Entity.declared).map Entity.joined ∧
        (identity → (old.map Entity.info).map Metadata.uuid =
          (new.map Entity.info).map Metadata.uuid) := by
  cases old <;> cases new <;> cases identity <;> simp [seen]

theorem indistinct_iff_agreeUpTo {old new : App} :
    Indistinct false (some old) (some new) ↔ old.AgreeUpTo Entity.joined new := by
  simp only [Indistinct, Option.bind_some, map_seen_eq_iff, Bool.false_or, decide_eq_true_iff,
    ← App.info?_eq]
  exact ⟨fun h => ⟨fun p => (h p).1, fun p => (h p).2⟩, fun h p => ⟨h.content p, h.uuid p⟩⟩

/-- A comparison without records means that the trees agree, but for lists of brokers with one text
between them. -/
theorem trees_eq_nil_iff {old new : App} (hold : old.Ordered) (hnew : new.Ordered)
    (hkeys : old.KeysAreNames) (hkeys' : new.KeysAreNames) (hpath : new.info.path = .ok path) :
    (trees (some old) (some new) = .ok [] ↔ old.AgreeUpTo Entity.joined new) ∧
      (old.PlainPriorities → new.PlainPriorities →
        (trees (some old) (some new) = .ok [] ↔ old.Agree new)) := by
  have hjoined : trees (some old) (some new) = .ok [] ↔ old.AgreeUpTo Entity.joined new := by
    have htrees : trees (some old) (some new) = subtree false path (some old) (some new) := by
      rw [trees, hpath]
      rfl
    rw [htrees, ← indistinct_iff_agreeUpTo]
    apply subtree_eq_nil (Scope.isScope_append hpath)
    · rintro _ ⟨⟩
      exact ⟨hold, hkeys.named path⟩
    · rintro _ ⟨⟩
      exact ⟨hnew, hkeys'.named path⟩
  exact ⟨hjoined, fun hplain hplain' => hjoined.trans (App.agreeUpTo_joined_iff hplain hplain')⟩

def prioritised (brokers : List String) : App :=
  ({} : App).putLeaf "c" { brokerPriority := brokers : Channel }

theorem entity?_prioritised (brokers : List String) {p : Position} (hp : p ≠ .root) :
    (prioritised brokers).entity? p =
      if p = ⟨[], .channel "c"⟩ then some (.channel { brokerPriority := brokers }) else none := by
  obtain ⟨place, item⟩ := p
  cases place with
  | nil =>
    cases item with
    | app => exact absurd rfl hp
    | channel name =>
      change ((({} : Dict Channel).insert "c" { brokerPriority := brokers }).get? name).map
        Entity.channel = _
      by_cases hname : name = "c" <;> simp [hname]
    | channelType | channelAlias => rfl
  | cons key place => rfl

theorem keysAreNames_prioritised (brokers : List String) : (prioritised brokers).KeysAreNames := by
  intro p info hinfo hp
  rw [App.info?_eq, entity?_prioritised brokers hp] at hinfo
  split at hinfo
  · next heq => exact heq ▸ by decide
  · exact nomatch hinfo

theorem plainPriorities_prioritised {brokers : List String}
    (h : ∀ broker ∈ brokers, broker ≠ "" ∧ ',' ∉ broker.toList) :
    (prioritised brokers).PlainPriorities := by
  intro p entity hentity
  by_cases hp : p = .root
  · subst hp
    injection hentity with hentity
    exact hentity ▸ trivial
  · rw [entity?_prioritised brokers hp] at hentity
    split at hentity
    · injection hentity with hentity
      exact hentity ▸ h
    · exact nomatch hentity

theorem trees_eq_nil_prioritised :
    (trees (some (prioritised ["a,b"])) (some (prioritised ["a", "b"])) = .ok [] ∧
      ¬ (prioritised ["a,b"]).Agree (prioritised ["a", "b"])) ∧
    trees (some (prioritised ["b", "a"])) (some (prioritised ["a", "b"])) ≠ .ok [] := by
  have hordered (brokers : List String) : (prioritised brokers).Ordered :=
    have hinfo : (Leaf.info ({ brokerPriority := brokers } : Channel)).Ordered := Dict.ordered_empty
    App.Ordered.putLeaf (by decide) hinfo "c"
  have hdiffer {brokers brokers' : List String} (hne : brokers ≠ brokers') :
      ¬ (prioritised brokers).Agree (prioritised brokers') := by
    intro h
    have hcontent := h.content ⟨[], .channel "c"⟩
    simp only [entity?_prioritised _ (show (⟨[], .channel "c"⟩ : Position) ≠ .root by decide),
      if_true, Option.map_some, id, Option.some.injEq, Entity.declared,
      Entity.channel.injEq] at hcontent
    exact hne (congrArg Channel.brokerPriority hcontent)
  have hagree : (prioritised ["a,b"]).AgreeUpTo Entity.joined (prioritised ["a", "b"]) := by
    constructor
    · intro p
      by_cases hp : p = .root
      · subst hp
        rfl
      · rw [entity?_prioritised _ hp, entity?_prioritised _ hp]
        split <;> rfl
    · intro p hp
      rw [App.uuid?, App.uuid?, App.info?_eq, App.info?_eq, entity?_prioritised _ hp,
        entity?_prioritised _ hp]
      split <;> rfl
  have hempty (brokers brokers' : List String) :=
    trees_eq_nil_iff (hordered brokers) (hordered brokers') (keysAreNames_prioritised brokers)
      (keysAreNames_prioritised brokers') (show (prioritised brokers').info.path = .ok "" from rfl)
  refine ⟨⟨(hempty _ _).1.mpr hagree, hdiffer (by decide)⟩, ?_⟩
  have hplain := (hempty ["b", "a"] ["a", "b"]).2 (plainPriorities_prioritised (by decide))
    (plainPriorities_prioritised (by decide))
  exact mt hplain.mp (hdiffer (by decide))

end Diff

end AppTopology
