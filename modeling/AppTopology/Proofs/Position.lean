import AppTopology.Proofs.Tree

namespace AppTopology

inductive Item where
  | app
  | channel (name : String)
  | channelType (name : String)
  | channelAlias (name : String)
  deriving DecidableEq

def Item.ofKind : Kind → String → Item
  | .app, _ => .app
  | .channel, name => .channel name
  | .channelType, name => .channelType name
  | .channelAlias, name => .channelAlias name

structure Position where
  place : List String
  item : Item
  deriving DecidableEq

def Position.inside (key : String) (p : Position) : Position := ⟨key :: p.place, p.item⟩

namespace App

variable {α : Type} [Leaf α]

namespace Own

def info? (own : App.Own) : Item → Option Metadata
  | .app => some own.info
  | .channel name => (own.channels.get? name).map Channel.info
  | .channelType name => (own.types.get? name).map ChannelType.info
  | .channelAlias name => (own.aliases.get? name).map ChannelAlias.info

def mapShelf (f : Item → Metadata → Metadata) (shelf : Dict α) : Dict α :=
  shelf.mapWithKey fun name leaf =>
    Leaf.withInfo leaf (f (Item.ofKind (Leaf.kind α) name) (Leaf.info leaf))

def mapInfo (f : Item → Metadata → Metadata) (own : App.Own) : App.Own :=
  { own with
    info := f .app own.info
    channels := mapShelf f own.channels
    types := mapShelf f own.types
    aliases := mapShelf f own.aliases }

end Own

def info? (app : App) (p : Position) : Option Metadata :=
  (app.at? p.place).bind fun other => other.own.info? p.item

def uuid? (app : App) (p : Position) : Option String := (app.info? p).map Metadata.uuid

def mapInfo (f : Position → Metadata → Metadata) (app : App) : App :=
  app.mapOwn fun place own => own.mapInfo fun item => f ⟨place, item⟩

variable {app child : App} {own : App.Own} {key : String} {p : Position}
variable {f g : Position → Metadata → Metadata}

namespace Own

variable {f g : Item → Metadata → Metadata}

theorem mapShelf_congr {shelf : Dict α} (hshelf : shelf.Ordered)
    (h : ∀ name leaf, shelf.get? name = some leaf →
      f (Item.ofKind (Leaf.kind α) name) (Leaf.info leaf) =
        g (Item.ofKind (Leaf.kind α) name) (Leaf.info leaf)) :
    mapShelf f shelf = mapShelf g shelf := by
  apply Dict.mapWithKey_congr
  intro name leaf hmem
  rw [h name leaf (hshelf.get?_of_mem hmem)]

theorem mapInfo_congr (hown : own.Ordered)
    (h : ∀ item info, own.info? item = some info → f item info = g item info) :
    own.mapInfo f = own.mapInfo g := by
  obtain ⟨-, hchannels, htypes, haliases, -⟩ := hown
  have hinfo : f .app own.info = g .app own.info := h .app own.info rfl
  have hchannel : mapShelf f own.channels = mapShelf g own.channels :=
    mapShelf_congr hchannels.1 fun name leaf hleaf =>
      h (.channel name) leaf.info (congrArg (Option.map Channel.info) hleaf)
  have htype : mapShelf f own.types = mapShelf g own.types :=
    mapShelf_congr htypes.1 fun name leaf hleaf =>
      h (.channelType name) leaf.info (congrArg (Option.map ChannelType.info) hleaf)
  have halias : mapShelf f own.aliases = mapShelf g own.aliases :=
    mapShelf_congr haliases.1 fun name leaf hleaf =>
      h (.channelAlias name) leaf.info (congrArg (Option.map ChannelAlias.info) hleaf)
  rw [mapInfo, mapInfo, hinfo, hchannel, htype, halias]

theorem mapInfo_id (own : App.Own) : (own.mapInfo fun _ info => info) = own := by
  simp [mapInfo, mapShelf, Leaf.withInfo, Leaf.info]

theorem mapInfo_mapInfo (f g : Item → Metadata → Metadata) (own : App.Own) :
    (own.mapInfo f).mapInfo g = own.mapInfo fun item info => g item (f item info) := by
  simp [mapInfo, mapShelf, Leaf.withInfo, Leaf.info, Leaf.kind, Item.ofKind]

theorem info?_mapInfo (f : Item → Metadata → Metadata) (own : App.Own) (item : Item) :
    (own.mapInfo f).info? item = (own.info? item).map (f item) := by
  cases item <;>
    simp [info?, mapInfo, mapShelf, Function.comp_def, Leaf.withInfo, Leaf.info, Leaf.kind,
      Item.ofKind]

end Own

@[simp] theorem info?_own (app : App) (item : Item) :
    app.info? ⟨[], item⟩ = app.own.info? item := rfl

theorem info?_inside (app : App) (key : String) (p : Position) :
    app.info? (p.inside key) = (app.child? key).bind (·.info? p) := by
  rw [info?, Position.inside, at?_cons, Option.bind_assoc]
  rfl

theorem info?_inside_of_child? (hchild : app.child? key = some child) (p : Position) :
    app.info? (p.inside key) = child.info? p := by
  rw [info?_inside, hchild, Option.bind_some]

theorem forall_info?_iff (app : App) {motive : Position → Metadata → Prop} :
    (∀ p info, app.info? p = some info → motive p info) ↔
      (∀ item info, app.own.info? item = some info → motive ⟨[], item⟩ info) ∧
      ∀ key child, app.child? key = some child →
        ∀ p info, child.info? p = some info → motive (p.inside key) info := by
  constructor
  · intro h
    refine ⟨fun item info hinfo => h ⟨[], item⟩ info hinfo, ?_⟩
    intro key child hchild p info hinfo
    apply h
    rw [info?_inside_of_child? hchild]
    exact hinfo
  · rintro ⟨hown, hbelow⟩ ⟨place, item⟩ info hinfo
    cases place with
    | nil => exact hown item info hinfo
    | cons key place =>
      have hinside : app.info? (Position.inside key ⟨place, item⟩) = some info := hinfo
      rw [info?_inside, Option.bind_eq_some_iff] at hinside
      obtain ⟨child, hchild, hinfo⟩ := hinside
      exact hbelow key child hchild ⟨place, item⟩ info hinfo

theorem uuid?_inside (app : App) (key : String) (p : Position) :
    app.uuid? (p.inside key) = (app.child? key).bind (·.uuid? p) := by
  rw [uuid?, info?_inside, Option.map_bind]
  rfl

theorem info?_append (app : App) (place rest : List String) (item : Item) :
    app.info? ⟨place ++ rest, item⟩ = (app.at? place).bind (·.info? ⟨rest, item⟩) := by
  rw [info?, at?_append, Option.bind_assoc]
  rfl

theorem info?_mapInfo (f : Position → Metadata → Metadata) (app : App) (p : Position) :
    (app.mapInfo f).info? p = (app.info? p).map (f p) := by
  rw [info?, info?, mapInfo, at?_mapOwn]
  cases app.at? p.place with
  | none => rfl
  | some other => simp [Own.info?_mapInfo]

theorem uuid?_mapInfo {f : Position → Metadata → Metadata}
    (hf : ∀ p info, (f p info).uuid = info.uuid) (app : App) (p : Position) :
    (app.mapInfo f).uuid? p = app.uuid? p := by
  rw [uuid?, info?_mapInfo, Option.map_map, uuid?]
  congr 1
  funext info
  exact hf p info

theorem mapInfo_mk (f : Position → Metadata → Metadata) (own : App.Own) (apps : Dict App) :
    mapInfo f ⟨own, apps⟩ =
      ⟨own.mapInfo fun item => f ⟨[], item⟩,
        apps.mapWithKey fun key child => child.mapInfo fun p => f (p.inside key)⟩ :=
  mapOwn_mk _ own apps

theorem mapInfo_congr (happ : app.Ordered)
    (h : ∀ p info, app.info? p = some info → f p info = g p info) :
    app.mapInfo f = app.mapInfo g := by
  apply mapOwn_congr happ
  intro place other hother
  apply Own.mapInfo_congr (happ.at? hother).own
  intro item info hinfo
  apply h ⟨place, item⟩ info
  rw [info?, hother]
  exact hinfo

theorem mapInfo_eq_self (happ : app.Ordered)
    (h : ∀ p info, app.info? p = some info → f p info = info) : app.mapInfo f = app := by
  rw [mapInfo_congr happ h, mapInfo]
  simp only [Own.mapInfo_id, mapOwn_id]

theorem mapInfo_mapInfo (f g : Position → Metadata → Metadata) (app : App) :
    (app.mapInfo f).mapInfo g = app.mapInfo fun p info => g p (f p info) := by
  simp only [mapInfo, mapOwn_mapOwn, Own.mapInfo_mapInfo]

theorem OrderedShelf.mapWithKey {shelf : Dict α} {f : String → α → α} (h : OrderedShelf shelf)
    (hf : ∀ name leaf, (Leaf.info (f name leaf)).annotations = (Leaf.info leaf).annotations) :
    OrderedShelf (shelf.mapWithKey f) := by
  refine ⟨h.1.mapWithKey _, ?_⟩
  intro next hnext
  obtain ⟨⟨name, _⟩, hmem, rfl⟩ := List.mem_map.mp hnext
  obtain ⟨leaf, hleaf, rfl⟩ := Dict.mem_entries_mapWithKey.mp hmem
  rw [Metadata.Ordered, hf]
  exact h.2 leaf (List.mem_map.mpr ⟨(name, leaf), hleaf, rfl⟩)

theorem Own.Ordered.mapInfo {f : Item → Metadata → Metadata} (h : own.Ordered)
    (hf : ∀ item info, (f item info).annotations = info.annotations) :
    (own.mapInfo f).Ordered := by
  obtain ⟨hinfo, hchannels, htypes, haliases, hnode⟩ := h
  refine ⟨?_, hchannels.mapWithKey fun _ _ => hf _ _, htypes.mapWithKey fun _ _ => hf _ _,
    haliases.mapWithKey fun _ _ => hf _ _, hnode⟩
  rw [Own.mapInfo, Metadata.Ordered, hf]
  exact hinfo

theorem Ordered.mapInfo (h : app.Ordered)
    (hf : ∀ p info, (f p info).annotations = info.annotations) : (app.mapInfo f).Ordered :=
  Ordered.mapOwn h fun place _ hown => hown.mapInfo fun item info => hf ⟨place, item⟩ info

end App

end AppTopology
