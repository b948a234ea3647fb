import AppTopology.Proofs.Leaf

namespace AppTopology.App

variable {α : Type} [Leaf α] [LawfulLeaf α]
variable {app next child other : App} {edit : App → App} {key name : String} {leaf : α}
variable {place rest : List String}

namespace Own

variable {own : App.Own}

theorem leaf?_putLeaf (own : App.Own) (name name' : String) (leaf : α) :
    (own.putLeaf name leaf).leaf? α name' =
      if name' = name then some leaf else own.leaf? α name' := by
  rw [putLeaf, leaf?, LawfulLeaf.shelf_withShelf, Dict.get?_insert]
  rfl

theorem leaf?_dropLeaf (own : App.Own) (name name' : String) :
    (own.dropLeaf α name).leaf? α name' = if name' = name then none else own.leaf? α name' := by
  rw [dropLeaf, leaf?, LawfulLeaf.shelf_withShelf, Dict.get?_erase]
  rfl

theorem info?_withShelf_of_ne {shelf : Dict α} {item : Item}
    (hshelf : ∀ name', name' ≠ name → shelf.get? name' = own.leaf? α name')
    (hitem : item ≠ Item.ofKind (Leaf.kind α) name) :
    (Leaf.withShelf own shelf).info? item = own.info? item := by
  by_cases hkind : ∃ name', item = Item.ofKind (Leaf.kind α) name'
  · obtain ⟨name', rfl⟩ := hkind
    have hne : name' ≠ name := fun heq => hitem (congrArg _ heq)
    rw [LawfulLeaf.info?_ofKind, LawfulLeaf.info?_ofKind, leaf?, LawfulLeaf.shelf_withShelf,
      hshelf name' hne]
  · exact LawfulLeaf.info?_withShelf own shelf (not_exists.mp hkind)

theorem info?_putLeaf (own : App.Own) (name : String) (leaf : α) (item : Item) :
    (own.putLeaf name leaf).info? item =
      if item = Item.ofKind (Leaf.kind α) name then some (Leaf.info leaf) else own.info? item := by
  split
  · next hitem => rw [hitem, LawfulLeaf.info?_ofKind, leaf?_putLeaf, if_pos rfl, Option.map_some]
  · next hitem =>
    apply info?_withShelf_of_ne _ hitem
    intro name' hne
    rw [Dict.get?_insert, if_neg hne]
    rfl

theorem info?_dropLeaf (own : App.Own) (name : String) (item : Item) :
    (own.dropLeaf α name).info? item =
      if item = Item.ofKind (Leaf.kind α) name then none else own.info? item := by
  split
  · next hitem => rw [hitem, LawfulLeaf.info?_ofKind, leaf?_dropLeaf, if_pos rfl, Option.map_none]
  · next hitem =>
    apply info?_withShelf_of_ne _ hitem
    intro name' hne
    rw [Dict.get?_erase, if_neg hne]
    rfl

theorem Ordered.putLeaf (h : own.Ordered) (hleaf : (Leaf.info leaf).Ordered) (name : String) :
    (own.putLeaf name leaf).Ordered := by
  have hshelf := LawfulLeaf.ordered_shelf (α := α) h
  apply LawfulLeaf.ordered_withShelf h
  refine ⟨hshelf.1.insert name leaf, ?_⟩
  intro other hother
  obtain ⟨⟨name', _⟩, hmem, rfl⟩ := List.mem_map.mp hother
  have hget := (hshelf.1.insert name leaf).get?_of_mem hmem
  rw [Dict.get?_insert] at hget
  split at hget
  · injection hget with heq
    exact heq ▸ hleaf
  · exact hshelf.2 _ (List.mem_map.mpr ⟨_, Dict.mem_of_get? hget, rfl⟩)

theorem Ordered.dropLeaf (h : own.Ordered) (name : String) : (own.dropLeaf α name).Ordered := by
  have hshelf := LawfulLeaf.ordered_shelf (α := α) h
  apply LawfulLeaf.ordered_withShelf h
  refine ⟨hshelf.1.erase name, ?_⟩
  intro other hother
  obtain ⟨entry, hmem, rfl⟩ := List.mem_map.mp hother
  exact hshelf.2 _ (List.mem_map.mpr ⟨entry, (List.mem_filter.mp hmem).1, rfl⟩)

end Own

theorem child?_putChild (app : App) (key key' : String) (child : App) :
    (app.putChild key child).child? key' = if key' = key then some child else app.child? key' :=
  Dict.get?_insert _ _ _ _

theorem child?_dropChild (app : App) (key key' : String) :
    (app.dropChild key).child? key' = if key' = key then none else app.child? key' :=
  Dict.get?_erase _ _ _

theorem modifyAt?_cons_eq_some : app.modifyAt? edit (key :: place) = some next ↔
    ∃ child child', app.child? key = some child ∧ child.modifyAt? edit place = some child' ∧
      next = app.putChild key child' := by
  rw [modifyAt?]
  simp only [Option.bind_eq_bind, Option.bind_eq_some_iff]
  constructor
  · rintro ⟨child, hchild, child', hedit, hnext⟩
    injection hnext with hnext
    exact ⟨child, child', hchild, hedit, hnext.symm⟩
  · rintro ⟨child, child', hchild, hedit, rfl⟩
    exact ⟨child, hchild, child', hedit, rfl⟩

theorem exists_modifyAt? (h : app.at? place = some other) (edit : App → App) :
    ∃ next, app.modifyAt? edit place = some next := by
  induction place generalizing app with
  | nil => exact ⟨edit app, rfl⟩
  | cons key place ih =>
    rw [at?_cons, Option.bind_eq_some_iff] at h
    obtain ⟨child, hchild, hplace⟩ := h
    obtain ⟨child', hedit⟩ := ih hplace
    exact ⟨_, modifyAt?_cons_eq_some.mpr ⟨child, child', hchild, hedit, rfl⟩⟩

theorem at?_modifyAt? (h : app.modifyAt? edit place = some next)
    (hother : app.at? place = some other) : next.at? place = some (edit other) := by
  induction place generalizing app next with
  | nil =>
    injection h with h
    injection hother with hother
    rw [← h, hother]
    rfl
  | cons key place ih =>
    obtain ⟨child, child', hchild, hedit, rfl⟩ := modifyAt?_cons_eq_some.mp h
    rw [at?_cons, hchild] at hother
    rw [at?_cons, child?_putChild, if_pos rfl]
    exact ih hedit hother

theorem own_modifyAt?_outside (h : app.modifyAt? edit place = some next)
    (hrest : ¬ place <+: rest) :
    (next.at? rest).map App.own = (app.at? rest).map App.own := by
  induction place generalizing app next rest with
  | nil => exact absurd List.nil_prefix hrest
  | cons key place ih =>
    obtain ⟨child, child', hchild, hedit, rfl⟩ := modifyAt?_cons_eq_some.mp h
    cases rest with
    | nil => rfl
    | cons key' rest =>
      rw [at?_cons, at?_cons, child?_putChild]
      split
      · next heq =>
        subst heq
        rw [hchild]
        exact ih hedit fun hprefix => hrest ((List.prefix_cons_inj key').mpr hprefix)
      · rfl

theorem info?_modifyAt?_outside (h : app.modifyAt? edit place = some next) {p : Position}
    (hp : ¬ place <+: p.place) : next.info? p = app.info? p := by
  have hinfo (app : App) : app.info? p = ((app.at? p.place).map App.own).bind (·.info? p.item) := by
    rw [info?, Option.bind_map]
    rfl
  rw [hinfo, hinfo, own_modifyAt?_outside h hp]

theorem Ordered.putChild (h : app.Ordered) (hchild : child.Ordered) (key : String) :
    (app.putChild key child).Ordered := by
  refine ordered_iff.mpr ⟨h.own, h.apps.insert key child, ?_⟩
  rintro ⟨key', child'⟩ hmem
  have hget := (h.apps.insert key child).get?_of_mem hmem
  rw [Dict.get?_insert] at hget
  split at hget
  · injection hget with heq
    exact heq ▸ hchild
  · exact h.of_mem (Dict.mem_of_get? hget)

theorem Ordered.dropChild (h : app.Ordered) (key : String) : (app.dropChild key).Ordered := by
  refine ordered_iff.mpr ⟨h.own, h.apps.erase key, ?_⟩
  rintro ⟨key', child'⟩ hmem
  exact h.of_mem (List.mem_filter.mp hmem).1

theorem Ordered.putLeaf (h : app.Ordered) (hleaf : (Leaf.info leaf).Ordered) (name : String) :
    (app.putLeaf name leaf).Ordered :=
  ordered_iff.mpr ⟨h.own.putLeaf hleaf name, (ordered_iff.mp h).2⟩

theorem Ordered.dropLeaf (h : app.Ordered) (name : String) : (app.dropLeaf α name).Ordered :=
  ordered_iff.mpr ⟨h.own.dropLeaf name, (ordered_iff.mp h).2⟩

theorem Ordered.modifyAt? (happ : app.Ordered) (h : app.modifyAt? edit place = some next)
    (hedit : ∀ other, app.at? place = some other → (edit other).Ordered) : next.Ordered := by
  induction place generalizing app next with
  | nil =>
    injection h with h
    exact h ▸ hedit app rfl
  | cons key place ih =>
    obtain ⟨child, child', hchild, hmodify, rfl⟩ := modifyAt?_cons_eq_some.mp h
    apply happ.putChild
    apply ih (happ.of_mem (mem_of_child? hchild)) hmodify
    intro other hother
    apply hedit
    rw [at?_cons, hchild]
    exact hother

end AppTopology.App
