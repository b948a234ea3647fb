namespace AppTopology

theorem increasing_nil : ([] : List String).Pairwise (· < ·) := List.Pairwise.nil

structure NameSet where
  names : List String := []
  increasing : names.Pairwise (· < ·) := by exact increasing_nil
  deriving DecidableEq, Repr

namespace NameSet

instance : Inhabited NameSet := ⟨{}⟩

def place (name : String) : List String → List String
  | [] => [name]
  | n :: rest =>
    if name < n then name :: n :: rest
    else if name = n then n :: rest
    else n :: place name rest

@[simp] theorem mem_place {name n : String} {names : List String} :
    n ∈ place name names ↔ n = name ∨ n ∈ names := by
  induction names with
  | nil => simp [place]
  | cons m rest ih =>
    unfold place
    grind

theorem increasing_place (name : String) {names : List String} (h : names.Pairwise (· < ·)) :
    (place name names).Pairwise (· < ·) := by
  induction names with
  | nil => simp [place]
  | cons m rest ih =>
    rw [List.pairwise_cons] at h
    unfold place
    split
    · simp only [List.pairwise_cons]
      grind
    · split
      · simpa using h
      · rw [List.pairwise_cons]
        refine ⟨fun n hn => ?_, ih h.2⟩
        rcases mem_place.mp hn with rfl | hn
        · grind
        · exact h.1 n hn

def insert (s : NameSet) (name : String) : NameSet :=
  ⟨place name s.names, increasing_place name s.increasing⟩

def ofList (names : List String) : NameSet := names.foldr (fun name s => s.insert name) {}

def without (s t : NameSet) : List String := s.names.filter (· ∉ t.names)

@[simp] theorem mem_ofList {name : String} {names : List String} :
    name ∈ (ofList names).names ↔ name ∈ names := by
  induction names with
  | nil => simp [ofList]
  | cons n rest ih =>
    rw [ofList, List.foldr_cons, ← ofList, insert, mem_place, ih, List.mem_cons]

theorem ext_mem {s t : NameSet} (h : ∀ name, name ∈ s.names ↔ name ∈ t.names) : s = t := by
  obtain ⟨names, hs⟩ := s
  obtain ⟨others, ht⟩ := t
  congr 1
  induction names generalizing others with
  | nil => exact (List.eq_nil_iff_forall_not_mem.mpr fun n hn => by simpa using (h n).mpr hn).symm
  | cons m rest ih =>
    cases others with
    | nil => simpa using h m
    | cons m' rest' =>
      simp only [List.pairwise_cons, List.mem_cons] at hs ht h
      have hm : m = m' := by
        have h1 := h m
        have h2 := h m'
        grind
      subst hm
      congr 1
      exact ih hs.2 rest' ht.2 fun n => by grind

end NameSet

end AppTopology
