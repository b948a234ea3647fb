import AppTopology.Json
import AppTopology.Proofs.Check
import AppTopology.Proofs.Dict

namespace AppTopology

namespace Dict

variable {α : Type} {d : Dict α} {key : String} {value : α}

theorem insertEntry_of_lt {entries : List (String × α)} (h : ∀ k ∈ entries.map Prod.fst, k < key) :
    insertEntry key value entries = entries ++ [(key, value)] := by
  induction entries with
  | nil => rfl
  | cons entry rest ih =>
    obtain ⟨k, v⟩ := entry
    simp only [List.map_cons, List.mem_cons, forall_eq_or_imp] at h
    have hne : key ≠ k := fun heq => String.lt_irrefl k (heq ▸ h.1)
    rw [insertEntry, if_neg (String.lt_asymm h.1), if_neg hne, ih h.2, List.cons_append]

theorem foldl_insert_of_ordered {entries rest : List (String × α)}
    (h : ((entries ++ rest).map Prod.fst).Pairwise (· < ·)) :
    rest.foldl (fun d entry => d.insert entry.1 entry.2) ⟨entries⟩ =
      (⟨entries ++ rest⟩ : Dict α) := by
  induction rest generalizing entries with
  | nil => rw [List.append_nil, List.foldl_nil]
  | cons entry rest ih =>
    have hlt : ∀ k ∈ entries.map Prod.fst, k < entry.1 := by
      rw [List.map_append, List.map_cons, List.pairwise_append] at h
      exact fun k hk => h.2.2 k hk entry.1 List.mem_cons_self
    rw [List.append_cons] at h
    rw [List.foldl_cons, insert, insertEntry_of_lt hlt, ih h, List.append_assoc,
      List.singleton_append]

theorem Ordered.ofList_entries (h : d.Ordered) : ofList d.entries = d :=
  @foldl_insert_of_ordered α [] d.entries h

theorem mem_insertEntry {entries : List (String × α)} {entry : String × α}
    (h : entry ∈ insertEntry key value entries) : entry = (key, value) ∨ entry ∈ entries := by
  induction entries with
  | nil => exact .inl (List.mem_singleton.mp h)
  | cons first rest ih =>
    unfold insertEntry at h
    grind

theorem mem_foldl_insert {entries : List (String × α)} {entry : String × α}
    (h : entry ∈ (entries.foldl (fun d entry => d.insert entry.1 entry.2) d).entries) :
    entry ∈ d.entries ∨ entry ∈ entries := by
  induction entries generalizing d with
  | nil => exact .inl h
  | cons first rest ih =>
    rcases ih h with hmem | hmem
    · rcases mem_insertEntry hmem with rfl | hmem
      · exact .inr List.mem_cons_self
      · exact .inl hmem
    · exact .inr (List.mem_cons_of_mem first hmem)

theorem mem_entries_ofList {entries : List (String × α)} {entry : String × α}
    (h : entry ∈ (ofList entries).entries) : entry ∈ entries :=
  (mem_foldl_insert h).resolve_left List.not_mem_nil

end Dict

theorem NameSet.ofList_names (names : NameSet) : ofList names.names = names :=
  ext_mem fun _ => mem_ofList

namespace Json

variable {α β : Type} {read read' : Json → Option α} {write : α → Json} {P : α → Prop}

/-- What is fit to be written is read as it was, and whatever has been read is fit. -/
structure RoundTrips (P : α → Prop) (write : α → Json) (read : Json → Option α) : Prop where
  read_write : ∀ x, P x → read (write x) = some x
  fit_of_read : ∀ json x, read json = some x → P x
  reread : ∀ json x, read json = some x → read (write x) = some x :=
    fun json x h => read_write x (fit_of_read json x h)

def members : Json → List (String × Json)
  | object members => members
  | _ => []

theorem mapM_map {xs : List α} {f : β → Option α} {g : α → β} (h : ∀ x ∈ xs, f (g x) = some x) :
    (xs.map g).mapM f = some xs := by
  induction xs with
  | nil => rfl
  | cons x xs ih =>
    simp only [List.mem_cons, forall_eq_or_imp] at h
    simp [List.map_cons, List.mapM_cons, h.1, ih h.2]

theorem exists_of_mapM_eq_some {bs : List β} {xs : List α} {f : β → Option α}
    (h : bs.mapM f = some xs) {x : α} (hx : x ∈ xs) : ∃ b ∈ bs, f b = some x := by
  induction bs generalizing xs with
  | nil =>
    cases h
    exact absurd hx List.not_mem_nil
  | cons b bs ih =>
    simp only [List.mapM_cons, Option.bind_eq_bind, Option.bind_eq_some_iff, Option.pure_def,
      Option.some.injEq] at h
    obtain ⟨y, hy, ys, hys, rfl⟩ := h
    rcases List.mem_cons.mp hx with rfl | hx
    · exact ⟨b, List.mem_cons_self, hy⟩
    · obtain ⟨b', hb', hfound⟩ := ih hys hx
      exact ⟨b', List.mem_cons_of_mem b hb', hfound⟩

@[simp] theorem text?_text (s : String) : (text s).text? = some s := rfl

@[simp] theorem nullable?_null (read : Json → Option α) : nullable? read null = some none := rfl

@[simp] theorem dict?_empty (read : Json → Option α) : dict? read (object []) = some {} := rfl

theorem roundTrips_text : RoundTrips (fun _ => True) text text? where
  read_write _ _ := rfl
  fit_of_read _ _ _ := trivial

theorem RoundTrips.list (h : RoundTrips P write read) :
    RoundTrips (fun xs => ∀ x ∈ xs, P x) (ofList write) (list? read) where
  read_write _ hfit := mapM_map fun x hx => h.read_write x (hfit x hx)
  fit_of_read json xs hread x hx := by
    cases json with
    | array items =>
      obtain ⟨json, -, hjson⟩ := exists_of_mapM_eq_some hread hx
      exact h.fit_of_read json x hjson
    | _ => exact nomatch hread

@[simp] theorem names?_ofNames (names : List String) : (ofNames names).names? = some names :=
  roundTrips_text.list.read_write names fun _ _ => trivial

theorem dict?_ofDict {d : Dict α} (hd : d.Ordered)
    (h : ∀ key value, (key, value) ∈ d.entries → read (write value) = some value) :
    dict? read (ofDict write d) = some d := by
  rw [ofDict, dict?, mapM_map]
  · exact congrArg some hd.ofList_entries
  · rintro ⟨key, value⟩ hmem
    simp [h key value hmem]

theorem fit_of_dict? (h : ∀ json x, read json = some x → P x) {json : Json} {d : Dict α}
    (hread : dict? read json = some d) : d.Ordered ∧ ∀ value ∈ d.values, P value := by
  cases json with
  | object members =>
    obtain ⟨entries, hentries, heq⟩ := Option.bind_eq_some_iff.mp hread
    cases heq
    refine ⟨Dict.ordered_ofList entries, fun value hvalue => ?_⟩
    obtain ⟨⟨key, _⟩, hmem, rfl⟩ := List.mem_map.mp hvalue
    obtain ⟨⟨key', json⟩, -, hjson⟩ :=
      exists_of_mapM_eq_some hentries (Dict.mem_entries_ofList hmem)
    obtain ⟨value, hvalue, heq⟩ := Option.bind_eq_some_iff.mp hjson
    cases heq
    exact h json _ hvalue
  | _ => exact nomatch hread

theorem RoundTrips.dict (h : RoundTrips P write read) :
    RoundTrips (fun d => d.Ordered ∧ ∀ value ∈ d.values, P value) (ofDict write) (dict? read) where
  read_write _ hfit := dict?_ofDict hfit.1 fun key value hmem =>
    h.read_write value (hfit.2 value (List.mem_map.mpr ⟨(key, value), hmem, rfl⟩))
  fit_of_read _ _ := fit_of_dict? h.fit_of_read

theorem roundTrips_texts : RoundTrips Dict.Ordered (ofDict text) (dict? text?) where
  read_write _ hd := dict?_ofDict hd fun _ _ _ => rfl
  fit_of_read _ _ hread := (fit_of_dict? roundTrips_text.fit_of_read hread).1

theorem roundTrips_uint32 :
    RoundTrips (fun _ => True) (fun n : UInt32 => integer n.toNat) uint32? where
  read_write n _ := by
    have hlt : (n.toNat : Int) < 0x100000000 := by
      have := n.toNat_lt
      omega
    rw [uint32?, if_pos ⟨Int.natCast_nonneg _, hlt⟩, Int.toNat_natCast, UInt32.ofNat_toNat]
  fit_of_read _ _ _ := trivial

theorem roundTrips_option : RoundTrips (fun _ => True) (ofOption text) (nullable? text?) where
  read_write value _ := by cases value <;> rfl
  fit_of_read _ _ _ := trivial

theorem fit_of_nullable? (h : ∀ json x, read json = some x → P x) {json : Json} {value : Option α}
    (hread : nullable? read json = some value) : ∀ x ∈ value, P x := by
  cases json with
  | null =>
    cases hread
    exact nofun
  | _ =>
    obtain ⟨x, hx, rfl⟩ := Option.map_eq_some_iff.mp hread
    rintro _ ⟨⟩
    exact h _ x hx

theorem nullable?_eq_some {json : Json} {x : α} (hjson : json ≠ null) (h : read json = some x) :
    nullable? read json = some (some x) := by
  cases json with
  | null => exact absurd rfl hjson
  | _ => exact congrArg (Option.map some) h

variable {members : List (String × Json)} {fields : List String} {needed : Nat}
variable {name name' : String} {json value : Json} {record : Record} {absent x : α}

theorem record?_object (names : List String) (hnames : members.map Prod.fst = names)
    (hfields : ∀ name ∈ names, name ∈ fields) (hnodup : names.Nodup) (needed : Nat) :
    (object members).record? fields needed = some members := by
  have hknown : members.filter (·.1 ∈ fields) = members := by
    rw [List.filter_eq_self]
    intro member hmember
    exact decide_eq_true (hfields _ (hnames ▸ List.mem_map.mpr ⟨member, hmember, rfl⟩))
  rw [record?, hknown, hnames, if_pos hnodup]

@[simp] theorem Record.field_cons_self (record : Record) (name : String) (value : Json) (absent : α)
    (read : Json → Option α) :
    Record.field ((name, value) :: record) name absent read = read value := by
  rw [field, Dict.lookup_entry, if_pos rfl]

@[simp] theorem Record.field_cons_of_ne (h : name' ≠ name) (record : Record) (value : Json)
    (absent : α) (read : Json → Option α) :
    Record.field ((name, value) :: record) name' absent read = record.field name' absent read := by
  rw [field, field, Dict.lookup_entry, if_neg h]

@[simp] theorem Record.field_nil (name : String) (absent : α) (read : Json → Option α) :
    Record.field [] name absent read = some absent := rfl

theorem Record.field_of_lookup (h : record.lookup name = none) (absent : α)
    (read : Json → Option α) : record.field name absent read = some absent := by
  rw [field, h]

@[simp] theorem Record.required_cons_self (record : Record) (name : String) (value : Json)
    (read : Json → Option α) :
    Record.required ((name, value) :: record) name read = read value := by
  rw [required, Dict.lookup_entry, if_pos rfl]
  rfl

@[simp] theorem Record.required_cons_of_ne (h : name' ≠ name) (record : Record) (value : Json)
    (read : Json → Option α) :
    Record.required ((name, value) :: record) name' read = record.required name' read := by
  rw [required, required, Dict.lookup_entry, if_neg h]

theorem Record.fit_of_field (habsent : P absent) (hread : ∀ json x, read json = some x → P x)
    (h : record.field name absent read = some x) : P x := by
  unfold field at h
  split at h
  · cases h
    exact habsent
  · exact hread _ x h

theorem Record.fit_of_dict_field (hread : ∀ json x, read json = some x → P x) {d : Dict α}
    (h : record.field name {} (dict? read) = some d) : d.Ordered ∧ ∀ value ∈ d.values, P value :=
  fit_of_field (P := fun d => d.Ordered ∧ ∀ value ∈ d.values, P value)
    ⟨Dict.ordered_empty, fun _ h => absurd h List.not_mem_nil⟩ (fun _ _ => fit_of_dict? hread) h

theorem Record.field_congr
    (h : ∀ value, record.lookup name = some value → read value = read' value) :
    record.field name absent read = record.field name absent read' := by
  unfold field
  split
  · rfl
  · next value hvalue => exact h value hvalue

theorem height_lt_of_mem (h : (name, value) ∈ members) :
    value.height < (object members).height := by
  rw [height]
  induction members with
  | nil => exact absurd h List.not_mem_nil
  | cons member rest ih =>
    obtain ⟨name', value'⟩ := member
    rw [heightOfMembers]
    rcases List.mem_cons.mp h with heq | h
    · cases heq
      omega
    · have := ih h
      omega

theorem height_lt_of_mem_items {items : List Json} (h : value ∈ items) :
    value.height < (array items).height := by
  rw [height]
  induction items with
  | nil => exact absurd h List.not_mem_nil
  | cons item rest ih =>
    rw [heightOfItems]
    rcases List.mem_cons.mp h with rfl | h
    · omega
    · have := ih h
      omega

theorem height_lt_of_lookup (hrecord : json.record? fields needed = some record)
    (h : record.lookup name = some value) : value.height < json.height := by
  have hmem := Dict.mem_of_lookup h
  cases json with
  | object members =>
    obtain ⟨-, heq⟩ := Option.ite_none_right_eq_some.mp hrecord
    rw [← Option.some.inj heq] at hmem
    exact height_lt_of_mem (List.mem_filter.mp hmem).1
  | array items =>
    obtain ⟨-, heq⟩ := Option.ite_none_right_eq_some.mp hrecord
    rw [← Option.some.inj heq] at hmem
    exact height_lt_of_mem_items (List.of_mem_zip hmem).2
  | _ => exact nomatch hrecord

theorem dict?_congr (h : ∀ value, value.height < json.height → read value = read' value) :
    dict? read json = dict? read' json := by
  cases json with
  | object members =>
    refine congrArg (Option.bind · _) (Check.mapM_congr ?_)
    rintro ⟨key, value⟩ hmem
    simp only [h value (height_lt_of_mem hmem)]
  | _ => rfl

/-- A member that is missing counts as its default. -/
def FillsIn (defaults : List (String × Json)) (read : Json → Option α) : Prop :=
  ∀ members name value, (name, value) ∈ defaults → name ∉ members.map Prod.fst →
    read (object ((name, value) :: members)) = read (object members)

theorem record?_cons (hname : name ∈ fields) (hmissing : name ∉ members.map Prod.fst) :
    (object ((name, value) :: members)).record? fields needed =
      ((object members).record? fields needed).map ((name, value) :: ·) := by
  have hknown : name ∉ (members.filter (·.1 ∈ fields)).map Prod.fst :=
    fun h => hmissing ((List.filter_sublist.map Prod.fst).subset h)
  rw [record?, record?, List.filter_cons_of_pos (by simpa using hname)]
  simp only [List.map_cons, List.nodup_cons, hknown, not_false_eq_true, true_and]
  split <;> rfl

theorem record?_cons_of_notMem (hname : name ∉ fields) :
    (object ((name, value) :: members)).record? fields needed =
      (object members).record? fields needed := by
  rw [record?, record?, List.filter_cons_of_neg (by simpa using hname)]

theorem lookup_eq_none (hrecord : (object members).record? fields needed = some record)
    (hmissing : name ∉ members.map Prod.fst) : record.lookup name = none := by
  obtain ⟨-, heq⟩ := Option.ite_none_right_eq_some.mp hrecord
  rw [← Option.some.inj heq, ← Option.not_isSome_iff_eq_none, Dict.isSome_lookup_iff]
  exact fun h => hmissing ((List.filter_sublist.map Prod.fst).subset h)

theorem FillsIn.of_record {defaults : List (String × Json)} {body : Record → Option α}
    (hread : ∀ json, read json = (json.record? fields needed).bind body)
    (hdefaults : ∀ entry ∈ defaults, entry.1 ∈ fields ∧
      ∀ record : Record, record.lookup entry.1 = none → body (entry :: record) = body record) :
    FillsIn defaults read := by
  intro members name value hdefault hmissing
  obtain ⟨hname, hbody⟩ := hdefaults _ hdefault
  rw [hread, hread, record?_cons hname hmissing, Option.bind_map]
  cases hrecord : (object members).record? fields needed with
  | none => rfl
  | some record => exact hbody record (lookup_eq_none hrecord hmissing)

theorem tagged?_tag (hname : name ∉ members.map Prod.fst) (s : String) :
    ((object members).tag name s).tagged? name = some (s, object members) := by
  have h (member) (hmember : member ∈ members) : member.1 ≠ name :=
    fun heq => hname (List.mem_map.mpr ⟨member, hmember, heq⟩)
  have hothers : members.filter (·.1 = name) = [] := by
    rw [List.filter_eq_nil_iff]
    exact fun member hmember => by simpa using h member hmember
  have hmembers : members.filter (·.1 ≠ name) = members := by
    rw [List.filter_eq_self]
    exact fun member hmember => decide_eq_true (h member hmember)
  rw [tag, withMember, tagged?, List.filter_cons_of_pos (by simp), hothers,
    List.filter_cons_of_neg (by simp), hmembers]

theorem tagged?_cons (hname : name' ≠ name) : (object ((name', value) :: members)).tagged? name =
    ((object members).tagged? name).map fun (s, json) =>
      (s, object ((name', value) :: json.members)) := by
  rw [tagged?, tagged?, List.filter_cons_of_neg (by simpa using hname),
    List.filter_cons_of_pos (by simpa using hname)]
  split <;> rfl

theorem eq_of_tagged? {s : String} (h : (object members).tagged? name = some (s, json)) :
    json = object (members.filter (·.1 ≠ name)) := by
  rw [tagged?] at h
  split at h
  · cases h
    rfl
  · exact nomatch h

end Json

end AppTopology
