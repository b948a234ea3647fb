import AppTopology.Proofs.Declared

namespace AppTopology

inductive Entity where
  | app (info : Metadata) (boundary : Boundary) (node : Option Node)
  | channel (channel : Channel)
  | channelType (declared : ChannelType)
  | channelAlias (declared : ChannelAlias)
  deriving DecidableEq

namespace Entity

def info : Entity → Metadata
  | app info _ _ => info
  | channel c => c.info
  | channelType t => t.info
  | channelAlias a => a.info

def declared : Entity → Entity
  | app info boundary node => app info.declared boundary node
  | channel c => channel (Leaf.declared c)
  | channelType t => channelType (Leaf.declared t)
  | channelAlias a => channelAlias (Leaf.declared a)

def detached : Entity → Entity
  | app info boundary node => app info boundary node
  | channel c => channel (Leaf.detached c)
  | channelType t => channelType (Leaf.detached t)
  | channelAlias a => channelAlias (Leaf.detached a)

def mapInfo (f : Metadata → Metadata) : Entity → Entity
  | app info boundary node => app (f info) boundary node
  | channel c => channel (Leaf.withInfo c (f c.info))
  | channelType t => channelType (Leaf.withInfo t (f t.info))
  | channelAlias a => channelAlias (Leaf.withInfo a (f a.info))

@[simp] theorem info_mapInfo (f : Metadata → Metadata) (entity : Entity) :
    (entity.mapInfo f).info = f entity.info := by cases entity <;> rfl

theorem declared_mapInfo {f : Metadata → Metadata} {entity : Entity}
    (h : (f entity.info).annotations = entity.info.annotations) :
    (entity.mapInfo f).declared = entity.declared := by
  have hdeclared : (f entity.info).declared = entity.info.declared := by
    rw [Metadata.declared, Metadata.declared, h]
  cases entity with
  | app => exact congrArg (Entity.app · _ _) hdeclared
  | channel c => exact congrArg Entity.channel (Leaf.declared_withInfo h)
  | channelType t => exact congrArg Entity.channelType (Leaf.declared_withInfo h)
  | channelAlias a => exact congrArg Entity.channelAlias (Leaf.declared_withInfo h)

theorem mapInfo_eq_self {f : Metadata → Metadata} {entity : Entity}
    (h : f entity.info = entity.info) : entity.mapInfo f = entity := by
  cases entity with
  | app => exact congrArg (Entity.app · _ _) h
  | channel c => exact congrArg (fun info => Entity.channel { c with info }) h
  | channelType t => exact congrArg (fun info => Entity.channelType { t with info }) h
  | channelAlias a => exact congrArg (fun info => Entity.channelAlias { a with info }) h

theorem info_declared (entity : Entity) : entity.declared.info = entity.info.declared := by
  cases entity <;> rfl

theorem detached_mapInfo (f : Metadata → Metadata) (entity : Entity) :
    (entity.mapInfo f).detached = entity.declared.mapInfo fun _ => f entity.info := by
  cases entity <;> rfl

end Entity

theorem Item.forall_iff {P : Item → Prop} : (∀ item, P item) ↔
    P .app ∧ (∀ name, P (.channel name)) ∧ (∀ name, P (.channelType name)) ∧
      ∀ name, P (.channelAlias name) := by
  constructor
  · exact fun h => ⟨h _, fun _ => h _, fun _ => h _, fun _ => h _⟩
  · rintro ⟨happ, hchannel, htype, halias⟩ (_ | name | name | name)
    · exact happ
    · exact hchannel name
    · exact htype name
    · exact halias name

theorem Position.forall_iff {P : Position → Prop} :
    (∀ p, P p) ↔ (∀ item, P ⟨[], item⟩) ∧ ∀ key p, P (Position.inside key p) := by
  constructor
  · exact fun h => ⟨fun item => h _, fun key p => h _⟩
  · rintro ⟨hown, hbelow⟩ ⟨place, item⟩
    cases place with
    | nil => exact hown item
    | cons key place => exact hbelow key ⟨place, item⟩

namespace App

def Own.entity? (own : App.Own) : Item → Option Entity
  | .app => some (.app own.info own.boundary own.node)
  | .channel name => (own.channels.get? name).map .channel
  | .channelType name => (own.types.get? name).map .channelType
  | .channelAlias name => (own.aliases.get? name).map .channelAlias

def entity? (app : App) (p : Position) : Option Entity :=
  (app.at? p.place).bind fun other => other.own.entity? p.item

@[simp] theorem entity?_own (app : App) (item : Item) :
    app.entity? ⟨[], item⟩ = app.own.entity? item := rfl

theorem Own.info?_eq (own : App.Own) (item : Item) :
    own.info? item = (own.entity? item).map Entity.info := by
  cases item <;> simp [info?, entity?, Function.comp_def, Entity.info]

theorem info?_eq (app : App) (p : Position) : app.info? p = (app.entity? p).map Entity.info := by
  simp only [info?, entity?, Own.info?_eq, Option.map_bind, Function.comp_def]

theorem entity?_inside (app : App) (key : String) (p : Position) :
    app.entity? (p.inside key) = (app.child? key).bind (·.entity? p) := by
  rw [entity?, Position.inside, at?_cons, Option.bind_assoc]
  rfl

theorem entity?_append (app : App) (place rest : List String) (item : Item) :
    app.entity? ⟨place ++ rest, item⟩ = (app.at? place).bind (·.entity? ⟨rest, item⟩) := by
  rw [entity?, at?_append, Option.bind_assoc]
  rfl

theorem Own.entity?_declared (own : App.Own) (item : Item) :
    own.declared.entity? item = (own.entity? item).map Entity.declared := by
  cases item <;> simp [entity?, declared, Dict.declared, Function.comp_def, Entity.declared]

theorem entity?_declared (app : App) (p : Position) :
    app.declared.entity? p = (app.entity? p).map Entity.declared := by
  rw [entity?, entity?, at?_declared]
  cases app.at? p.place with
  | none => rfl
  | some other =>
    change other.declared.own.entity? p.item = _
    rw [own_declared, Own.entity?_declared]
    rfl

theorem Own.entity?_mapInfo (f : Item → Metadata → Metadata) (own : App.Own) (item : Item) :
    (own.mapInfo f).entity? item = (own.entity? item).map (Entity.mapInfo (f item)) := by
  cases item <;>
    simp [entity?, mapInfo, mapShelf, Function.comp_def, Entity.mapInfo, Leaf.info, Leaf.kind,
      Item.ofKind]

theorem entity?_mapInfo (f : Position → Metadata → Metadata) (app : App) (p : Position) :
    (app.mapInfo f).entity? p = (app.entity? p).map (Entity.mapInfo (f p)) := by
  rw [entity?, entity?, mapInfo, at?_mapOwn]
  cases app.at? p.place with
  | none => rfl
  | some other => simp [Own.entity?_mapInfo]

theorem Own.ext_entity? {own own' : App.Own} (hown : own.Ordered) (hown' : own'.Ordered)
    (h : ∀ item, own.entity? item = own'.entity? item) : own = own' := by
  obtain ⟨-, hchannels, htypes, haliases, -⟩ := hown
  obtain ⟨-, hchannels', htypes', haliases', -⟩ := hown'
  have happ := h .app
  simp only [entity?, Option.some.injEq, Entity.app.injEq] at happ
  have hchannel : own.channels = own'.channels := by
    refine Dict.ext_get? hchannels.1 hchannels'.1 fun name => ?_
    exact Option.map_injective (fun _ _ => Entity.channel.inj) (h (.channel name))
  have htype : own.types = own'.types := by
    refine Dict.ext_get? htypes.1 htypes'.1 fun name => ?_
    exact Option.map_injective (fun _ _ => Entity.channelType.inj) (h (.channelType name))
  have halias : own.aliases = own'.aliases := by
    refine Dict.ext_get? haliases.1 haliases'.1 fun name => ?_
    exact Option.map_injective (fun _ _ => Entity.channelAlias.inj) (h (.channelAlias name))
  obtain ⟨hinfo, hboundary, hnode⟩ := happ
  cases own
  cases own'
  simp_all

theorem ext_entity? {app other : App} (happ : app.Ordered) (hother : other.Ordered)
    (h : ∀ p, app.entity? p = other.entity? p) : app = other := by
  apply ext_at? happ hother
  intro place
  have hplace (item : Item) := h ⟨place, item⟩
  simp only [entity?] at hplace
  cases ha : app.at? place with
  | none =>
    cases ho : other.at? place with
    | none => rfl
    | some o =>
      rw [ha, ho] at hplace
      exact nomatch hplace .app
  | some a =>
    cases ho : other.at? place with
    | none =>
      rw [ha, ho] at hplace
      exact nomatch hplace .app
    | some o =>
      rw [ha, ho] at hplace
      rw [Option.map_some, Option.map_some,
        Own.ext_entity? (happ.at? ha).own (hother.at? ho).own hplace]

end App

structure Embeds (α : Type) [Leaf α] (embed : α → Entity) : Prop where
  entity? : ∀ (own : App.Own) name,
    own.entity? (.ofKind (Leaf.kind α) name) = (own.leaf? α name).map embed := by intros; rfl
  info : ∀ leaf, (embed leaf).info = Leaf.info leaf := by intros; rfl
  declared : ∀ leaf, (embed leaf).declared = embed (Leaf.declared leaf) := by intros; rfl

theorem embeds_channel : Embeds Channel .channel where

theorem embeds_channelType : Embeds ChannelType .channelType where

theorem embeds_channelAlias : Embeds ChannelAlias .channelAlias where

theorem exists_embeds (α : Type) [Leaf α] [LawfulLeaf α] :
    ∃ embed : α → Entity, Embeds α embed := by
  apply LawfulLeaf.elim (α := α) fun β _ => ∃ embed : β → Entity, Embeds β embed
  · exact ⟨_, embeds_channel⟩
  · exact ⟨_, embeds_channelType⟩
  · exact ⟨_, embeds_channelAlias⟩

end AppTopology
