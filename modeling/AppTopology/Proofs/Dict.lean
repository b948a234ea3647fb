import AppTopology.Dict

namespace AppTopology.Dict

variable {α β γ : Type} {d e : Dict α} {key : String} {value : α}

theorem mem_of_lookup {entries : List (String × α)} (h : entries.lookup key = some value) :
    (key, value) ∈ entries := by
  obtain ⟨before, after, rfl, -⟩ := List.lookup_eq_some_iff.mp h
  simp

theorem mem_of_get? (h : d.get? key = some value) : (key, value) ∈ d.entries := mem_of_lookup h

theorem Ordered.get?_of_mem (hd : d.Ordered) (h : (key, value) ∈ d.entries) :
    d.get? key = some value := by
  obtain ⟨entries⟩ := d
  simp only [Ordered, keys, get?] at hd h ⊢
  induction entries with
  | nil => simp at h
  | cons entry rest ih =>
    obtain ⟨k, v⟩ := entry
    simp only [List.map_cons, List.pairwise_cons] at hd
    rw [lookup_entry]
    rcases List.mem_cons.mp h with heq | hrest
    · injection heq with hk hv
      simp [hk, hv]
    · have hlt : k < key := hd.1 key (List.mem_map.mpr ⟨_, hrest, rfl⟩)
      have hne : key ≠ k := fun heq => String.lt_irrefl k (heq ▸ hlt)
      rw [if_neg hne]
      exact ih hd.2 hrest

theorem mapWithKey_congr {f g : String → α → β}
    (h : ∀ key value, (key, value) ∈ d.entries → f key value = g key value) :
    d.mapWithKey f = d.mapWithKey g := by
  obtain ⟨entries⟩ := d
  simp only [mapWithKey, Dict.mk.injEq]
  apply List.map_congr_left
  rintro ⟨key, value⟩ hmem
  rw [h key value hmem]

@[simp] theorem mapWithKey_mapWithKey (f : String → α → β) (g : String → β → γ) (d : Dict α) :
    (d.mapWithKey f).mapWithKey g = d.mapWithKey fun key value => g key (f key value) := by
  simp [mapWithKey]

@[simp] theorem mapWithKey_id (d : Dict α) : (d.mapWithKey fun _ value => value) = d := by
  simp [mapWithKey]

theorem mapWithKey_eq_self {f : String → α → α}
    (h : ∀ key value, (key, value) ∈ d.entries → f key value = value) : d.mapWithKey f = d := by
  rw [mapWithKey_congr h, mapWithKey_id]

theorem mapWithKey_insert (f : String → α → β) (d : Dict α) (key : String) (value : α) :
    (d.insert key value).mapWithKey f = (d.mapWithKey f).insert key (f key value) := by
  obtain ⟨entries⟩ := d
  simp only [mapWithKey, insert, Dict.mk.injEq]
  induction entries with
  | nil => rfl
  | cons entry rest ih =>
    obtain ⟨k, v⟩ := entry
    simp only [insertEntry, List.map_cons]
    split
    · rfl
    · split
      · rfl
      · rw [List.map_cons, ih]

@[simp] theorem contains_mapWithKey (f : String → α → β) (d : Dict α) (key : String) :
    (d.mapWithKey f).contains key = d.contains key := by
  simp [contains]

theorem mem_entries_mapWithKey {f : String → α → β} {value : β} :
    (key, value) ∈ (d.mapWithKey f).entries ↔ ∃ v, (key, v) ∈ d.entries ∧ f key v = value := by
  simp only [mapWithKey, List.mem_map]
  constructor
  · rintro ⟨⟨k, v⟩, hmem, heq⟩
    injection heq with hk hv
    subst hk
    exact ⟨v, hmem, hv⟩
  · rintro ⟨v, hmem, rfl⟩
    exact ⟨(key, v), hmem, rfl⟩

theorem keyUnion_congr {d e : Dict α} {d' e' : Dict β}
    (h : ∀ key, (d.get? key).isSome ∨ (e.get? key).isSome ↔
      (d'.get? key).isSome ∨ (e'.get? key).isSome) : keyUnion d e = keyUnion d' e' := by
  rw [keyUnion, keyUnion]
  congr 1
  apply NameSet.ext_mem
  intro key
  have hkey := h key
  rwa [← mem_keyUnion, ← mem_keyUnion] at hkey

theorem keyUnion_comm (d e : Dict α) : keyUnion d e = keyUnion e d :=
  keyUnion_congr fun _ => or_comm

theorem forall_keyUnion_iff {d : Dict α} {e : Dict β} {p : String → Prop}
    (h : ∀ key, d.get? key = none → e.get? key = none → p key) :
    (∀ key ∈ keyUnion d e, p key) ↔ ∀ key, p key := by
  constructor
  · intro hall key
    by_cases hkey : key ∈ keyUnion d e
    · exact hall key hkey
    · simp only [mem_keyUnion, not_or, Option.not_isSome_iff_eq_none] at hkey
      exact h key hkey.1 hkey.2
  · exact fun hall key _ => hall key

theorem get?_ofList_map (keys : List String) (f : String → α) (key : String) :
    (ofList (keys.map fun k => (k, f k))).get? key = if key ∈ keys then some (f key) else none := by
  suffices ∀ d : Dict α, ((keys.map fun k => (k, f k)).foldl
      (fun d entry => d.insert entry.1 entry.2) d).get? key =
        if key ∈ keys then some (f key) else d.get? key from this {}
  induction keys with
  | nil => simp
  | cons k rest ih =>
    intro d
    rw [List.map_cons, List.foldl_cons, ih, get?_insert]
    grind

theorem nodup_keyUnion (d : Dict α) (e : Dict β) : (keyUnion d e).Nodup := by
  refine List.Pairwise.imp ?_ (NameSet.ofList (d.keys ++ e.keys)).increasing
  rintro a _ hlt rfl
  exact String.lt_irrefl a hlt

end AppTopology.Dict
