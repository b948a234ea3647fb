import AppTopology.Proofs.Position

namespace AppTopology

class LawfulLeaf (α : Type) [Leaf α] : Prop where
  info_withInfo (leaf : α) (info : Metadata) :
    Leaf.info (Leaf.withInfo leaf info) = info := by intros; rfl
  withInfo_withInfo (leaf : α) (info next : Metadata) :
    Leaf.withInfo (Leaf.withInfo leaf info) next = Leaf.withInfo leaf next := by intros; rfl
  detached_withInfo (leaf : α) (info : Metadata) :
    Leaf.detached (Leaf.withInfo leaf info) = Leaf.withInfo (Leaf.detached leaf) info := by
      intros; rfl
  fields_withInfo (leaf : α) (info : Metadata) :
    Leaf.fields (Leaf.withInfo leaf info) = Leaf.fields leaf := by intros; rfl
  fields_detached (leaf : α) : Leaf.fields (Leaf.detached leaf) = Leaf.fields leaf := by
    intros; rfl
  shelf_withShelf (own : App.Own) (shelf : Dict α) :
    Leaf.shelf (Leaf.withShelf own shelf) = shelf := by intros; rfl
  info_withShelf (own : App.Own) (shelf : Dict α) :
    (Leaf.withShelf own shelf).info = own.info := by intros; rfl
  node_withShelf (own : App.Own) (shelf : Dict α) :
    (Leaf.withShelf own shelf).node = own.node := by intros; rfl
  boundary_withShelf (own : App.Own) (shelf : Dict α) :
    (Leaf.withShelf own shelf).boundary = own.boundary := by intros; rfl
  info?_ofKind (own : App.Own) (name : String) :
    own.info? (Item.ofKind (Leaf.kind α) name) = (own.leaf? α name).map Leaf.info := by
      intros; rfl
  info?_withShelf (own : App.Own) (shelf : Dict α) {item : Item} :
    (∀ name, item ≠ Item.ofKind (Leaf.kind α) name) →
      (Leaf.withShelf own shelf).info? item = own.info? item
  ordered_shelf {own : App.Own} : own.Ordered → App.OrderedShelf (Leaf.shelf own : Dict α)
  ordered_withShelf {own : App.Own} {shelf : Dict α} :
    own.Ordered → App.OrderedShelf shelf → (Leaf.withShelf own shelf).Ordered
  elim (motive : (β : Type) → Leaf β → Prop) :
    motive Channel inferInstance → motive ChannelType inferInstance →
      motive ChannelAlias inferInstance → motive α inferInstance

instance : LawfulLeaf Channel where
  info?_withShelf _ _ item h := by
    cases item with
    | channel name => exact absurd rfl (h name)
    | app => rfl
    | channelType name => rfl
    | channelAlias name => rfl
  ordered_shelf h := h.2.1
  ordered_withShelf h hshelf := ⟨h.1, hshelf, h.2.2⟩
  elim _ h _ _ := h

instance : LawfulLeaf ChannelType where
  info?_withShelf _ _ item h := by
    cases item with
    | channelType name => exact absurd rfl (h name)
    | app => rfl
    | channel name => rfl
    | channelAlias name => rfl
  ordered_shelf h := h.2.2.1
  ordered_withShelf h hshelf := ⟨h.1, h.2.1, hshelf, h.2.2.2⟩
  elim _ _ h _ := h

instance : LawfulLeaf ChannelAlias where
  info?_withShelf _ _ item h := by
    cases item with
    | channelAlias name => exact absurd rfl (h name)
    | app => rfl
    | channel name => rfl
    | channelType name => rfl
  ordered_shelf h := h.2.2.2.1
  ordered_withShelf h hshelf := ⟨h.1, h.2.1, h.2.2.1, hshelf, h.2.2.2.2⟩
  elim _ _ _ h := h

theorem App.Own.Ordered.leaf? {α : Type} [Leaf α] [LawfulLeaf α] {own : App.Own} {name : String}
    {leaf : α} (h : own.Ordered) (hleaf : own.leaf? α name = some leaf) :
    (Leaf.info leaf).Ordered :=
  (LawfulLeaf.ordered_shelf h).2 leaf (List.mem_map.mpr ⟨_, Dict.mem_of_get? hleaf, rfl⟩)

end AppTopology
