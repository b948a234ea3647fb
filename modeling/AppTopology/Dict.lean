import AppTopology.NameSet

/-!
A dictionary is its list of entries, in key order where it is `Ordered`; that is a predicate and not
a field because apps nest inside dictionaries of apps.
-/

namespace AppTopology

structure Dict (α : Type) where
  entries : List (String × α) := []
  deriving DecidableEq, Repr, Inhabited

namespace Dict

variable {α β : Type}

def keys (d : Dict α) : List String := d.entries.map Prod.fst

def values (d : Dict α) : List α := d.entries.map Prod.snd

def Ordered (d : Dict α) : Prop := d.keys.Pairwise (· < ·)

instance (d : Dict α) : Decidable d.Ordered :=
  inferInstanceAs (Decidable (d.keys.Pairwise (· < ·)))

def get? (d : Dict α) (key : String) : Option α := d.entries.lookup key

def contains (d : Dict α) (key : String) : Bool := (d.get? key).isSome

def insertEntry (key : String) (value : α) : List (String × α) → List (String × α)
  | [] => [(key, value)]
  | (k, v) :: rest =>
    if key < k then (key, value) :: (k, v) :: rest
    else if key = k then (key, value) :: rest
    else (k, v) :: insertEntry key value rest

def insert (d : Dict α) (key : String) (value : α) : Dict α :=
  ⟨insertEntry key value d.entries⟩

def erase (d : Dict α) (key : String) : Dict α :=
  ⟨d.entries.filter fun entry => entry.1 ≠ key⟩

def ofList (entries : List (String × α)) : Dict α :=
  entries.foldl (fun d entry => d.insert entry.1 entry.2) {}

def mapWithKey (f : String → α → β) (d : Dict α) : Dict β :=
  ⟨d.entries.map fun entry => (entry.1, f entry.1 entry.2)⟩

def keyUnion (d : Dict α) (e : Dict β) : List String := (NameSet.ofList (d.keys ++ e.keys)).names

@[simp] theorem get?_empty (key : String) : ({} : Dict α).get? key = none := rfl

theorem lookup_entry (key k : String) (v : α) (rest : List (String × α)) :
    ((k, v) :: rest).lookup key = if key = k then some v else rest.lookup key := by
  by_cases h : key = k
  · simp [h]
  · have : (key == k) = false := by simp [h]
    simp [List.lookup_cons, this, h]

theorem lookup_insertEntry (key key' : String) (value : α) (entries : List (String × α)) :
    (insertEntry key value entries).lookup key' =
      if key' = key then some value else entries.lookup key' := by
  induction entries with
  | nil => simp [insertEntry, lookup_entry]
  | cons entry rest ih =>
    obtain ⟨k, v⟩ := entry
    unfold insertEntry
    grind [lookup_entry]

@[simp] theorem get?_insert (d : Dict α) (key key' : String) (value : α) :
    (d.insert key value).get? key' = if key' = key then some value else d.get? key' :=
  lookup_insertEntry key key' value d.entries

@[simp] theorem get?_erase (d : Dict α) (key key' : String) :
    (d.erase key).get? key' = if key' = key then none else d.get? key' := by
  obtain ⟨entries⟩ := d
  simp only [get?, erase]
  induction entries with
  | nil => simp
  | cons entry rest ih =>
    obtain ⟨k, v⟩ := entry
    rw [List.filter_cons]
    grind [lookup_entry]

theorem lookup_map (f : String → α → β) (key : String) (entries : List (String × α)) :
    (entries.map fun entry => (entry.1, f entry.1 entry.2)).lookup key =
      (entries.lookup key).map (f key) := by
  induction entries with
  | nil => rfl
  | cons entry rest ih =>
    obtain ⟨k, v⟩ := entry
    rw [List.map_cons, lookup_entry, lookup_entry, ih]
    split <;> simp_all

@[simp] theorem get?_mapWithKey (f : String → α → β) (d : Dict α) (key : String) :
    (d.mapWithKey f).get? key = (d.get? key).map (f key) :=
  lookup_map f key d.entries

@[simp] theorem keys_mapWithKey (f : String → α → β) (d : Dict α) :
    (d.mapWithKey f).keys = d.keys := by
  simp [mapWithKey, keys]

theorem isSome_lookup_iff (key : String) (entries : List (String × α)) :
    (entries.lookup key).isSome ↔ key ∈ entries.map Prod.fst := by
  rw [List.lookup_isSome_iff, List.mem_map]
  exact exists_congr fun entry => and_congr_right fun _ => beq_iff_eq.trans eq_comm

theorem isSome_get?_iff (d : Dict α) (key : String) : (d.get? key).isSome ↔ key ∈ d.keys :=
  isSome_lookup_iff key d.entries

theorem mem_keyUnion {d : Dict α} {e : Dict β} {key : String} :
    key ∈ keyUnion d e ↔ (d.get? key).isSome ∨ (e.get? key).isSome := by
  simp [keyUnion, isSome_get?_iff]

theorem ordered_empty : ({} : Dict α).Ordered := List.Pairwise.nil

theorem mem_keys_insertEntry {key k : String} {value : α} {entries : List (String × α)} :
    k ∈ (insertEntry key value entries).map Prod.fst ↔ k = key ∨ k ∈ entries.map Prod.fst := by
  rw [← isSome_lookup_iff, lookup_insertEntry, ← isSome_lookup_iff]
  split <;> simp_all

theorem Ordered.insert {d : Dict α} (h : d.Ordered) (key : String) (value : α) :
    (d.insert key value).Ordered := by
  obtain ⟨entries⟩ := d
  simp only [Ordered, keys, Dict.insert] at *
  induction entries with
  | nil => simp [insertEntry]
  | cons entry rest ih =>
    obtain ⟨k, v⟩ := entry
    simp only [List.map_cons, List.pairwise_cons] at h
    unfold insertEntry
    split
    · simp only [List.map_cons, List.pairwise_cons]
      grind
    · split
      · subst_vars
        simpa using h
      · simp only [List.map_cons, List.pairwise_cons]
        refine ⟨fun k' hk' => ?_, ih h.2⟩
        rcases mem_keys_insertEntry.mp hk' with rfl | hk'
        · grind
        · exact h.1 k' hk'

theorem Ordered.erase {d : Dict α} (h : d.Ordered) (key : String) : (d.erase key).Ordered :=
  List.Pairwise.sublist (List.Sublist.map _ List.filter_sublist) h

theorem Ordered.mapWithKey {d : Dict α} (h : d.Ordered) (f : String → α → β) :
    (d.mapWithKey f).Ordered := by
  simpa [Ordered] using h

theorem ordered_ofList (entries : List (String × α)) : (ofList entries).Ordered := by
  suffices ∀ d : Dict α, d.Ordered →
      (entries.foldl (fun d entry => d.insert entry.1 entry.2) d).Ordered from
    this {} ordered_empty
  induction entries with
  | nil => exact fun d h => h
  | cons entry rest ih => exact fun d h => ih _ (h.insert _ _)

theorem lookup_eq_none_of_lt {key : String} (entries : List (String × α))
    (h : ∀ k ∈ entries.map Prod.fst, key < k) : entries.lookup key = none := by
  rw [← Option.not_isSome_iff_eq_none, isSome_lookup_iff]
  exact fun hmem => String.lt_irrefl key (h key hmem)

theorem ext_get? {d e : Dict α} (hd : d.Ordered) (he : e.Ordered)
    (h : ∀ key, d.get? key = e.get? key) : d = e := by
  obtain ⟨entries⟩ := d
  obtain ⟨others⟩ := e
  simp only [Ordered, keys, get?] at hd he h
  congr 1
  induction entries generalizing others with
  | nil =>
    cases others with
    | nil => rfl
    | cons entry rest =>
      obtain ⟨k, v⟩ := entry
      simpa [lookup_entry] using h k
  | cons entry rest ih =>
    obtain ⟨k, v⟩ := entry
    cases others with
    | nil => simpa [lookup_entry] using h k
    | cons entry' rest' =>
      obtain ⟨k', v'⟩ := entry'
      simp only [List.map_cons, List.pairwise_cons] at hd he
      have hk : k = k' := by
        have h1 := h k
        have h2 := h k'
        by_cases hlt : k < k'
        · rw [lookup_eq_none_of_lt ((k', v') :: rest') (by grind)] at h1
          simp at h1
        · by_cases hgt : k' < k
          · rw [lookup_eq_none_of_lt ((k, v) :: rest) (by grind)] at h2
            simp at h2
          · grind
      subst hk
      have hv : v = v' := by simpa [lookup_entry] using h k
      subst hv
      congr 1
      refine ih hd.2 rest' he.2 fun key => ?_
      by_cases hkey : key = k
      · subst hkey
        rw [lookup_eq_none_of_lt rest hd.1, lookup_eq_none_of_lt rest' he.1]
      · simpa [lookup_entry, hkey] using h key

end Dict

end AppTopology
