import AppTopology.Proofs.Agreement
import Mathlib.Data.List.Nodup

namespace AppTopology

inductive Field where
  | identity
  | annotated (key : String)
  | image
  | replicas
  | environment (key : String)
  | typeName
  | broker
  | priority
  | schema
  | target
  deriving DecidableEq

namespace Field

def stem : Field → String
  | identity => "Meta.UUID"
  | annotated _ => "Meta.Annotations"
  | image => "Spec.Node.Image"
  | replicas => "Spec.Node.Replicas"
  | environment _ => "Spec.Node.Environment"
  | typeName => "Spec.Type"
  | broker => "Spec.SelectedBroker"
  | priority => "Spec.BrokerPriorityList"
  | schema => "Schema"
  | target => "Target"

def label : Field → String
  | annotated key => s!"Meta.Annotations[{key}]"
  | environment key => s!"Spec.Node.Environment[{key}]"
  | field => field.stem

def changeKind (kind : Kind) : Field → ChangeKind
  | image | replicas | environment _ => .nodeUpdated
  | _ => .updated kind

theorem label_annotated (key : String) :
    (annotated key).label = "Meta.Annotations" ++ ("[" ++ (key ++ "]")) := by
  have h : "Meta.Annotations" ++ "[" = "Meta.Annotations[" := by decide
  rw [← String.append_assoc, h, ← String.append_assoc]
  rfl

theorem label_environment (key : String) :
    (environment key).label = "Spec.Node.Environment" ++ ("[" ++ (key ++ "]")) := by
  have h : "Spec.Node.Environment" ++ "[" = "Spec.Node.Environment[" := by decide
  rw [← String.append_assoc, h, ← String.append_assoc]
  rfl

theorem takeWhile_keyed {stem : String} (h : '[' ∉ stem.toList) (rest : String) :
    (stem ++ ("[" ++ rest)).toList.takeWhile (· ≠ '[') = stem.toList := by
  rw [String.toList_append, List.takeWhile_append_of_pos]
  · simp
  · intro c hc
    simpa using fun (heq : c = '[') => h (heq ▸ hc)

theorem takeWhile_label (field : Field) :
    field.label.toList.takeWhile (· ≠ '[') = field.stem.toList := by
  cases field with
  | annotated key =>
    rw [label_annotated, takeWhile_keyed (by decide)]
    rfl
  | environment key =>
    rw [label_environment, takeWhile_keyed (by decide)]
    rfl
  | _ => decide

theorem label_inj {field field' : Field} : field.label = field'.label ↔ field = field' := by
  refine ⟨fun h => ?_, congrArg label⟩
  have hstem : field.stem = field'.stem := by
    rw [← String.toList_inj, ← takeWhile_label, ← takeWhile_label, h]
  cases field with
  | annotated key =>
    cases field' with
    | annotated key' => simpa [label_annotated] using h
    | _ => simp [stem] at hstem
  | environment key =>
    cases field' with
    | environment key' => simpa [label_environment] using h
    | _ => simp [stem] at hstem
  | _ => cases field' <;> first | rfl | simp [stem] at hstem

end Field

namespace Entity

def kind : Entity → Kind
  | app .. => .app
  | channel _ => .channel
  | channelType _ => .channelType
  | channelAlias _ => .channelAlias

def boundary : Entity → Boundary
  | app _ boundary _ => boundary
  | _ => {}

def environment : Entity → Dict String
  | app _ _ node => (node.map Node.environment).getD {}
  | _ => {}

def text? : Entity → Field → Option String
  | entity, .identity => some entity.info.uuid
  | entity, .annotated key => entity.info.annotations.get? key
  | entity, .environment key => entity.environment.get? key
  | app _ _ node, .image => node.map Node.image
  | app _ _ node, .replicas => node.map fun node => toString node.replicas
  | channel c, .typeName => some c.typeName
  | channel c, .broker => some c.selectedBroker
  | channel c, .priority => some (",".intercalate c.brokerPriority)
  | channelType t, .schema => some t.schema
  | channelAlias a, .target => some a.target
  | _, _ => none

end Entity

def Kind.fields : Kind → List Field
  | app => [.image, .replicas]
  | channel => [.typeName, .broker, .priority]
  | channelType => [.schema]
  | channelAlias => [.target]

theorem Kind.nodup_fields (kind : Kind) : kind.fields.Nodup := by cases kind <;> decide

theorem Kind.ne_of_mem_fields {kind : Kind} {field : Field} (h : field ∈ kind.fields) :
    field ≠ .identity ∧ (∀ key, field ≠ .annotated key) ∧ ∀ key, field ≠ .environment key := by
  cases kind <;> simp only [fields, List.mem_cons, List.not_mem_nil, or_false] at h <;> grind

def ChangeKind.subject : ChangeKind → Kind
  | created kind | deleted kind | updated kind => kind
  | nodeUpdated | boundaryChanged => .app

inductive Aspect where
  | field (label : String)
  | direction (direction : Direction)
  deriving DecidableEq

def ChangeDetails.aspect : ChangeDetails → Option Aspect
  | none => .none
  | field label _ _ => some (.field label)
  | boundary direction _ _ => some (.direction direction)

def Change.about (change : Change) : ChangeKind × String × Option Aspect :=
  (change.kind, change.path, change.details.aspect)

namespace Diff

variable {identity : Bool} {path name : String} {old new : Entity} {field : Field} {change : Change}

def fields (identity : Bool) (old new : Entity) : List Field :=
  (if identity then [.identity] else []) ++
  (Dict.keyUnion old.info.annotations new.info.annotations).map .annotated ++
  old.kind.fields ++
  (Dict.keyUnion old.environment new.environment).map .environment

def fieldRecord (path : String) (old new : Entity) (field : Field) : Changelog :=
  fieldChange (field.changeKind old.kind) path field.label (old.text? field) (new.text? field)

def entity (identity : Bool) (path : String) : Option Entity → Option Entity → Changelog
  | none, none => []
  | none, some new => [⟨.created new.kind, path, .none⟩]
  | some old, none => [⟨.deleted old.kind, path, .none⟩]
  | some old, some new =>
    (fields identity old new).flatMap (fieldRecord path old new) ++
    [.input, .output].flatMap (boundaryChange path old.boundary new.boundary)

theorem flatMap_fields (identity : Bool) (path : String) (old new : Entity) :
    (fields identity old new).flatMap (fieldRecord path old new) =
      identityChange identity (.updated old.kind) path old.info new.info ++
      annotationChanges (.updated old.kind) path old.info new.info ++
      old.kind.fields.flatMap (fieldRecord path old new) ++
      entryChanges .nodeUpdated path (fun key => s!"Spec.Node.Environment[{key}]")
        old.environment new.environment := by
  have hidentity : (if identity then [Field.identity] else []).flatMap (fieldRecord path old new) =
      identityChange identity (.updated old.kind) path old.info new.info := by
    cases identity with
    | false => rfl
    | true => exact List.flatMap_singleton _ _
  simp only [fields, List.flatMap_append, List.flatMap_map, hidentity]
  rfl

theorem own_eq_entity (identity : Bool) (path : String) (old new : Option App) :
    own identity path old new = entity identity path (old.bind (·.own.entity? .app))
      (new.bind (·.own.entity? .app)) := by
  cases old with
  | none => cases new <;> rfl
  | some old =>
    cases new with
    | none => rfl
    | some new =>
      simp only [own, Option.bind_some, App.Own.entity?, entity, flatMap_fields, nodeChanges,
        Entity.kind, Kind.fields, List.flatMap_cons, List.flatMap_nil, List.append_nil,
        List.append_assoc]
      rfl

theorem entity_leaf (old new : Entity) (hold : old.boundary = {} ∧ old.environment = {})
    (hnew : new.boundary = {} ∧ new.environment = {}) :
    entity identity path (some old) (some new) =
      identityChange identity (.updated old.kind) path old.info new.info ++
      annotationChanges (.updated old.kind) path old.info new.info ++
      old.kind.fields.flatMap (fieldRecord path old new) := by
  rw [entity, flatMap_fields, hold.1, hold.2, hnew.1, hnew.2]
  exact (List.append_nil _).trans (List.append_nil _)

theorem exists_leaf_eq_entity (α : Type) [Leaf α] [LawfulLeaf α] : ∃ embed : α → Entity,
    Embeds α embed ∧ ∀ identity path old new,
      leaf identity path old new = entity identity path (old.map embed) (new.map embed) := by
  apply LawfulLeaf.elim (α := α) fun β _ => ∃ embed : β → Entity,
    Embeds β embed ∧ ∀ identity path old new,
      leaf identity path old new = entity identity path (old.map embed) (new.map embed)
  · refine ⟨_, embeds_channel, ?_⟩
    rintro identity path (_ | old) (_ | new)
    case some.some => exact (entity_leaf (.channel old) (.channel new) ⟨rfl, rfl⟩ ⟨rfl, rfl⟩).symm
    all_goals rfl
  · refine ⟨_, embeds_channelType, ?_⟩
    rintro identity path (_ | old) (_ | new)
    case some.some =>
      exact (entity_leaf (.channelType old) (.channelType new) ⟨rfl, rfl⟩ ⟨rfl, rfl⟩).symm
    all_goals rfl
  · refine ⟨_, embeds_channelAlias, ?_⟩
    rintro identity path (_ | old) (_ | new)
    case some.some =>
      exact (entity_leaf (.channelAlias old) (.channelAlias new) ⟨rfl, rfl⟩ ⟨rfl, rfl⟩).symm
    all_goals rfl

theorem leaf_eq_entity (α : Type) [Leaf α] [LawfulLeaf α] (identity : Bool) (path name : String)
    (old new : Option App) :
    leaf identity path ((shelf α old).get? name) ((shelf α new).get? name) =
      entity identity path (old.bind (·.own.entity? (.ofKind (Leaf.kind α) name)))
        (new.bind (·.own.entity? (.ofKind (Leaf.kind α) name))) := by
  obtain ⟨embed, hembed, hleaf⟩ := exists_leaf_eq_entity α
  have hentity (app : Option App) : app.bind (·.own.entity? (.ofKind (Leaf.kind α) name)) =
      ((shelf α app).get? name).map embed := by
    rw [get?_shelf, Option.map_bind]
    simp only [hembed.entity?]
    rfl
  rw [hentity, hentity, hleaf]

inductive Reports (identity : Bool) (old new : Entity) : ChangeKind → ChangeDetails → Prop
  | field (field : Field) : (field = .identity → identity) → old.text? field ≠ new.text? field →
      Reports identity old new (field.changeKind old.kind)
        (.field field.label (old.text? field) (new.text? field))
  | boundary (direction : Direction) (added removed : List String) :
      added = (new.boundary.names direction).without (old.boundary.names direction) →
      removed = (old.boundary.names direction).without (new.boundary.names direction) →
      ¬ (added = [] ∧ removed = []) →
      Reports identity old new .boundaryChanged (.boundary direction added removed)

theorem mem_fields_of_ne (hkind : old.kind = new.kind) (hfield : field = .identity → identity)
    (hne : old.text? field ≠ new.text? field) : field ∈ fields identity old new := by
  have hkeys {d e : Dict String} {key : String} (hne : d.get? key ≠ e.get? key) :
      key ∈ Dict.keyUnion d e := by
    rw [Dict.mem_keyUnion]
    by_contra hkey
    simp only [not_or, Option.not_isSome_iff_eq_none] at hkey
    exact hne (hkey.1.trans hkey.2.symm)
  cases field with
  | identity => simp [fields, hfield rfl]
  | annotated key => simp [fields, hkeys (d := old.info.annotations) hne]
  | environment key => simp [fields, hkeys (d := old.environment) hne]
  | _ => cases old <;> cases new <;> simp_all [Entity.kind, Entity.text?, fields, Kind.fields]

theorem identity_of_mem_fields (h : field ∈ fields identity old new) :
    field = .identity → identity := by
  rintro rfl
  have hkind : Field.identity ∉ old.kind.fields := fun h => (Kind.ne_of_mem_fields h).1 rfl
  simpa [fields, hkind] using h

theorem nodup_fields (identity : Bool) (old new : Entity) : (fields identity old new).Nodup := by
  have hkeyed {label : String → Field} (hlabel : Function.Injective label) (d e : Dict String) :
      ((Dict.keyUnion d e).map label).Nodup := (Dict.nodup_keyUnion d e).map hlabel
  have hkind {field : Field} (h : field ∈ old.kind.fields) := Kind.ne_of_mem_fields h
  simp only [fields, List.nodup_append]
  refine ⟨⟨⟨?_, hkeyed (fun _ _ => Field.annotated.inj) _ _, ?_⟩, old.kind.nodup_fields, ?_⟩,
    hkeyed (fun _ _ => Field.environment.inj) _ _, ?_⟩
  all_goals cases identity <;> grind

theorem mem_fieldRecord : change ∈ fieldRecord path old new field ↔
    old.text? field ≠ new.text? field ∧ change = ⟨field.changeKind old.kind, path,
      .field field.label (old.text? field) (new.text? field)⟩ := by
  rw [fieldRecord, fieldChange]
  split <;> simp_all

theorem mem_boundaryChange {old new : Boundary} {direction : Direction} :
    change ∈ boundaryChange path old new direction ↔
      ¬ ((new.names direction).without (old.names direction) = [] ∧
        (old.names direction).without (new.names direction) = []) ∧
      change = ⟨.boundaryChanged, path, .boundary direction
        ((new.names direction).without (old.names direction))
        ((old.names direction).without (new.names direction))⟩ := by
  rw [boundaryChange]
  split <;> simp_all

theorem mem_entity (hkind : old.kind = new.kind) :
    change ∈ entity identity path (some old) (some new) ↔
      change.path = path ∧ Reports identity old new change.kind change.details := by
  rw [entity, List.mem_append, List.mem_flatMap, List.mem_flatMap]
  constructor
  · rintro (⟨field, hfield, hmem⟩ | ⟨direction, -, hmem⟩)
    · obtain ⟨hne, rfl⟩ := mem_fieldRecord.mp hmem
      exact ⟨rfl, .field field (identity_of_mem_fields hfield) hne⟩
    · obtain ⟨hne, rfl⟩ := mem_boundaryChange.mp hmem
      exact ⟨rfl, .boundary direction _ _ rfl rfl hne⟩
  · obtain ⟨kind, _, details⟩ := change
    rintro ⟨rfl, hreports⟩
    cases hreports with
    | field field hfield hne =>
      exact Or.inl ⟨field, mem_fields_of_ne hkind hfield hne, mem_fieldRecord.mpr ⟨hne, rfl⟩⟩
    | boundary direction _ _ hadded hremoved hne =>
      subst hadded hremoved
      exact Or.inr ⟨direction, by cases direction <;> simp, mem_boundaryChange.mpr ⟨hne, rfl⟩⟩

theorem Reports.isUpdate {kind : ChangeKind} {details : ChangeDetails}
    (h : Reports identity old new kind details) : kind.isUpdate := by
  cases h with
  | field field _ _ => cases field <;> rfl
  | boundary => rfl

theorem Reports.subject {kind : ChangeKind} {details : ChangeDetails}
    (h : Reports identity old new kind details) (hkind : old.kind = new.kind) :
    kind.subject = old.kind := by
  cases h with
  | field field _ hne =>
    cases field <;> cases old <;> cases new <;>
      simp_all [Entity.kind, Entity.text?, Field.changeKind, ChangeKind.subject, Entity.environment]
  | boundary direction added removed hadded hremoved hne =>
    cases old with
    | app => rfl
    | _ => cases new <;> simp_all [Entity.kind, Entity.boundary, Boundary.names, NameSet.without]

section

variable {old new : Option Entity} {kind : Kind}

theorem mem_entity_some_none {old : Entity} :
    change ∈ entity identity path (some old) none ↔ change = ⟨.deleted old.kind, path, .none⟩ :=
  List.mem_singleton

theorem mem_entity_none_some {new : Entity} :
    change ∈ entity identity path none (some new) ↔ change = ⟨.created new.kind, path, .none⟩ :=
  List.mem_singleton

theorem path_and_subject_of_mem_entity (hold : ∀ e ∈ old, e.kind = kind)
    (hnew : ∀ e ∈ new, e.kind = kind) (h : change ∈ entity identity path old new) :
    change.path = path ∧ change.kind.subject = kind := by
  cases old with
  | none =>
    cases new with
    | none => exact absurd h List.not_mem_nil
    | some new =>
      rw [mem_entity_none_some.mp h]
      exact ⟨rfl, hnew new rfl⟩
  | some old =>
    cases new with
    | none =>
      rw [mem_entity_some_none.mp h]
      exact ⟨rfl, hold old rfl⟩
    | some new =>
      have hkind : old.kind = new.kind := (hold old rfl).trans (hnew new rfl).symm
      obtain ⟨hpath, hreports⟩ := (mem_entity hkind).mp h
      exact ⟨hpath, (hreports.subject hkind).trans (hold old rfl)⟩

theorem nodup_flatMap {α β : Type} {xs : List α} {f : α → List β} (hxs : xs.Nodup)
    (hf : ∀ x ∈ xs, (f x).Nodup) (hinj : ∀ x ∈ xs, ∀ y ∈ xs, ∀ b ∈ f x, b ∈ f y → x = y) :
    (xs.flatMap f).Nodup := by
  rw [List.nodup_flatMap]
  refine ⟨hf, hxs.imp_of_mem ?_⟩
  intro x y hx hy hne b hb hb'
  exact hne (hinj x hx y hy b hb hb')

theorem about_of_mem_fieldRecord {old new : Entity}
    {about : ChangeKind × String × Option Aspect}
    (h : about ∈ (fieldRecord path old new field).map Change.about) :
    about.2.2 = some (.field field.label) := by
  obtain ⟨change, hchange, rfl⟩ := List.mem_map.mp h
  rw [(mem_fieldRecord.mp hchange).2]
  rfl

theorem about_of_mem_boundaryChange {old new : Boundary} {direction : Direction}
    {about : ChangeKind × String × Option Aspect}
    (h : about ∈ (boundaryChange path old new direction).map Change.about) :
    about.2.2 = some (.direction direction) := by
  obtain ⟨change, hchange, rfl⟩ := List.mem_map.mp h
  rw [(mem_boundaryChange.mp hchange).2]
  rfl

theorem nodup_about_entity (identity : Bool) (path : String) (old new : Option Entity) :
    ((entity identity path old new).map Change.about).Nodup := by
  cases old with
  | none => cases new <;> simp [entity]
  | some old =>
    cases new with
    | none => simp [entity]
    | some new =>
      rw [entity, List.map_append, List.map_flatMap, List.map_flatMap, List.nodup_append]
      refine ⟨nodup_flatMap (nodup_fields identity old new) ?_ ?_,
        nodup_flatMap (by decide) ?_ ?_, ?_⟩
      · intro field _
        rw [fieldRecord, fieldChange]
        split <;> simp
      · intro field _ field' _ about habout habout'
        have hlabel := (about_of_mem_fieldRecord habout).symm.trans
          (about_of_mem_fieldRecord habout')
        exact Field.label_inj.mp (Aspect.field.inj (Option.some.inj hlabel))
      · intro direction _
        rw [boundaryChange]
        split <;> simp
      · intro direction _ direction' _ about habout habout'
        have hdirection := (about_of_mem_boundaryChange habout).symm.trans
          (about_of_mem_boundaryChange habout')
        exact Aspect.direction.inj (Option.some.inj hdirection)
      · intro about hfield about' hdirection heq
        obtain ⟨field, -, hfield⟩ := List.mem_flatMap.mp hfield
        obtain ⟨direction, -, hdirection⟩ := List.mem_flatMap.mp hdirection
        have hsame := (about_of_mem_fieldRecord hfield).symm.trans
          (heq ▸ about_of_mem_boundaryChange hdirection)
        simp at hsame

end

structure Same (identity : Bool) (old new : Entity) : Prop where
  fields : ∀ field, (field = .identity → identity) → old.text? field = new.text? field
  boundary : ∀ direction, old.boundary.names direction = new.boundary.names direction

theorem Same.trans {mid : Entity} (h : Same identity old mid) (h' : Same identity mid new) :
    Same identity old new where
  fields field hfield := (h.fields field hfield).trans (h'.fields field hfield)
  boundary direction := (h.boundary direction).trans (h'.boundary direction)

theorem entity_eq_nil_iff (hkind : old.kind = new.kind) :
    entity identity path (some old) (some new) = [] ↔ Same identity old new := by
  simp only [entity, List.append_eq_nil_iff, List.flatMap_eq_nil_iff, fieldRecord,
    fieldChange_eq_nil, boundaryChange_eq_nil]
  constructor
  · rintro ⟨hfields, hboundary⟩
    refine ⟨fun field hfield => ?_, fun direction => hboundary _ (by cases direction <;> simp)⟩
    by_contra hne
    exact hne (hfields field (mem_fields_of_ne hkind hfield hne))
  · intro hsame
    exact ⟨fun field hfield => hsame.fields field (identity_of_mem_fields hfield),
      fun direction _ => hsame.boundary direction⟩

end Diff

end AppTopology
