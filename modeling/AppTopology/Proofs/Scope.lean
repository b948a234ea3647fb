import AppTopology.Proofs.Check
import AppTopology.Scope.Checked
import Mathlib.Data.List.Basic
import Mathlib.Data.List.Induction
import Mathlib.Tactic.ByContra

namespace AppTopology

namespace Text

variable {separator : Char} {cs part : List Char}

theorem cutChars_ne_nil (separator : Char) (cs : List Char) : cutChars separator cs ≠ [] := by
  cases cs with
  | nil => simp [cutChars]
  | cons c rest =>
    unfold cutChars
    split
    · simp
    · split <;> simp

theorem cutChars_append_cons (separator : Char) (cs rest : List Char) :
    cutChars separator (cs ++ separator :: rest) =
      cutChars separator cs ++ cutChars separator rest := by
  induction cs with
  | nil => simp [cutChars]
  | cons c cs ih =>
    have hne := cutChars_ne_nil separator cs
    cases hparts : cutChars separator cs with
    | nil => exact absurd hparts hne
    | cons part parts =>
      rw [List.cons_append, cutChars, cutChars, ih, hparts]
      split <;> rfl

theorem cutChars_of_notMem (h : separator ∉ cs) : cutChars separator cs = [cs] := by
  induction cs with
  | nil => rfl
  | cons c cs ih =>
    simp only [List.mem_cons, not_or] at h
    rw [cutChars, if_neg (Ne.symm h.1), ih h.2]

theorem cutChars_append (h : separator ∉ cs) (rest : List Char) :
    cutChars separator (cs ++ separator :: rest) = cs :: cutChars separator rest := by
  rw [cutChars_append_cons, cutChars_of_notMem h, List.singleton_append]

theorem notMem_of_mem_cutChars (h : part ∈ cutChars separator cs) : separator ∉ part := by
  induction cs generalizing part with
  | nil =>
    rw [cutChars, List.mem_singleton] at h
    exact h ▸ List.not_mem_nil
  | cons c cs ih =>
    rw [cutChars] at h
    split at h
    · rcases List.mem_cons.mp h with rfl | h
      · exact List.not_mem_nil
      · exact ih h
    · next hc =>
      cases hparts : cutChars separator cs with
      | nil => exact absurd hparts (cutChars_ne_nil separator cs)
      | cons first parts =>
        rw [hparts] at h ih
        rcases List.mem_cons.mp h with rfl | h
        · rw [List.mem_cons, not_or]
          exact ⟨Ne.symm hc, ih List.mem_cons_self⟩
        · exact ih (List.mem_cons_of_mem _ h)

theorem intercalate_cutChars (separator : Char) (cs : List Char) :
    [separator].intercalate (cutChars separator cs) = cs := by
  induction cs with
  | nil => simp [cutChars]
  | cons c cs ih =>
    have hne := cutChars_ne_nil separator cs
    cases hparts : cutChars separator cs with
    | nil => exact absurd hparts hne
    | cons part parts =>
      rw [hparts] at ih
      rw [cutChars]
      split
      · next hc => rw [hparts, List.intercalate_cons_cons, ih, hc]; simp
      · rw [hparts]
        cases parts with
        | nil => simpa using ih
        | cons next parts => simpa [List.intercalate_cons_cons] using ih

theorem cut_intercalate {parts : List String} (hne : parts ≠ [])
    (h : ∀ part ∈ parts, separator ∉ part.toList) :
    cut separator ((String.singleton separator).intercalate parts) = parts := by
  rw [cut, String.toList_intercalate, String.toList_singleton]
  induction parts with
  | nil => exact absurd rfl hne
  | cons part parts ih =>
    simp only [List.mem_cons, forall_eq_or_imp] at h
    cases parts with
    | nil => simp [cutChars_of_notMem h.1]
    | cons next parts =>
      have hrest := ih (by simp) h.2
      simp only [List.map_cons, List.intercalate_cons_cons, List.append_assoc,
        List.singleton_append] at hrest ⊢
      rw [cutChars_append h.1, List.map_cons, hrest, String.ofList_toList]

theorem intercalate_inj {parts parts' : List String}
    (h : ∀ part ∈ parts, part ≠ "" ∧ separator ∉ part.toList)
    (h' : ∀ part ∈ parts', part ≠ "" ∧ separator ∉ part.toList) :
    (String.singleton separator).intercalate parts =
      (String.singleton separator).intercalate parts' ↔ parts = parts' := by
  -- The empty list and the list of one empty part have the same text, so empty parts are out.
  have hempty {parts : List String} (hparts : ∀ part ∈ parts, part ≠ "" ∧ separator ∉ part.toList)
      (heq : (String.singleton separator).intercalate parts = "") : parts = [] := by
    by_contra hne
    have hcut := cut_intercalate hne fun part hpart => (hparts part hpart).2
    rw [heq, show cut separator "" = [""] by simp [cut, cutChars]] at hcut
    exact (hparts "" (hcut ▸ List.mem_singleton_self "")).1 rfl
  constructor
  · intro heq
    by_cases hne : parts = []
    · rw [hne, String.intercalate_nil] at heq
      rw [hne, hempty h' heq.symm]
    · have hne' : parts' ≠ [] := by
        rintro rfl
        exact hne (hempty h heq)
      rw [← cut_intercalate hne fun part hpart => (h part hpart).2, heq,
        cut_intercalate hne' fun part hpart => (h' part hpart).2]
  · exact congrArg _

end Text

namespace Scope

variable {s scope name : String} {place : List String}

def under (scope : String) (place : List String) : String := place.foldl child scope

@[simp] theorem under_nil (scope : String) : under scope [] = scope := rfl

@[simp] theorem under_cons (scope name : String) (place : List String) :
    under scope (name :: place) = under (child scope name) place := rfl

theorem under_append (scope : String) (place rest : List String) :
    under scope (place ++ rest) = under (under scope place) rest := by
  simp [under]

theorem child_eq_empty : child scope name = "" ↔ scope = "" ∧ name = "" := by
  unfold child
  split
  · next h => simp [h]
  · next h => simp [h]

theorem isName_ne_empty (h : isName name) : name ≠ "" := by
  rintro rfl
  simp [isName] at h

theorem notMem_of_isName {c : Char} (hc : isNameRest c = false) (h : isName name) :
    c ∉ name.toList := by
  have hstart : isNameStart c = false := by
    simp only [isNameRest, isNameStart, Bool.or_eq_false_iff] at hc ⊢
    exact hc.1.1
  unfold isName at h
  split at h
  · exact absurd h (by simp)
  · next first rest heq =>
    simp only [Bool.and_eq_true, List.all_eq_true] at h
    rw [heq, List.mem_cons, not_or]
    constructor
    · rintro rfl
      rw [hstart] at h
      exact nomatch h.1.1
    · intro hmem
      have hrest := h.1.2 c hmem
      rw [hc] at hrest
      exact nomatch hrest

theorem dot_notMem_of_isName (h : isName name) : '.' ∉ name.toList :=
  notMem_of_isName (by decide) h

theorem join_nil : join [] = "" := by simp [join]

theorem join_singleton (name : String) : join [name] = name := by simp [join]

theorem join_append_singleton (h : place ≠ []) (name : String) :
    join (place ++ [name]) = join place ++ "." ++ name := by
  rw [join, String.intercalate_append_of_ne_nil h (by simp), String.intercalate_singleton]
  rfl

theorem join_append {rest : List String} (h : place ≠ []) (hrest : rest ≠ []) :
    join (place ++ rest) = join place ++ "." ++ join rest :=
  String.intercalate_append_of_ne_nil h hrest

theorem join_ne_empty (h : "" ∉ place) (hne : place ≠ []) : join place ≠ "" := by
  cases place with
  | nil => exact absurd rfl hne
  | cons key rest =>
    rw [List.mem_cons, not_or] at h
    by_cases hrest : rest = []
    · rw [hrest, join_singleton]
      exact Ne.symm h.1
    · rw [← List.singleton_append, join_append (by simp) hrest]
      simp

theorem join_parts (s : String) : join (parts s) = s := by
  apply String.toList_inj.mp
  rw [join, parts, Text.cut, String.toList_intercalate, List.map_map]
  have hid : String.toList ∘ String.ofList = id := by funext cs; simp
  rw [hid, List.map_id]
  exact Text.intercalate_cutChars '.' s.toList

theorem parts_join (hne : place ≠ []) (h : ∀ name ∈ place, '.' ∉ name.toList) :
    parts (join place) = place :=
  Text.cut_intercalate hne h

theorem dot_notMem_of_mem_parts (h : name ∈ parts s) : '.' ∉ name.toList := by
  obtain ⟨part, hpart, rfl⟩ := List.mem_map.mp h
  rw [String.toList_ofList]
  exact Text.notMem_of_mem_cutChars hpart

theorem parts_ne_nil (s : String) : parts s ≠ [] := by
  simpa [parts, Text.cut] using Text.cutChars_ne_nil '.' s.toList

theorem parts_of_bare (h : '.' ∉ s.toList) : parts s = [s] := by
  rw [parts, Text.cut, Text.cutChars_of_notMem h, List.map_singleton, String.ofList_toList]

theorem parts_empty : parts "" = [""] := parts_of_bare (by simp)

theorem parts_dotted (outer : String) (h : '.' ∉ name.toList) :
    parts (outer ++ "." ++ name) = parts outer ++ [name] := by
  have hchars : (outer ++ "." ++ name).toList = outer.toList ++ '.' :: name.toList := by simp
  rw [parts, Text.cut, hchars, Text.cutChars_append_cons, Text.cutChars_of_notMem h,
    List.map_append, List.map_singleton, String.ofList_toList]
  rfl

def IsPath (place : List String) : Prop := ∀ name ∈ place, isName name

theorem isPath_nil : IsPath [] := by simp [IsPath]

theorem isPath_append_singleton : IsPath (place ++ [name]) ↔ IsPath place ∧ isName name := by
  simp [IsPath, or_imp, forall_and]

theorem IsPath.parts_join (h : IsPath place) (hne : place ≠ []) : parts (join place) = place :=
  Scope.parts_join hne fun name hname => dot_notMem_of_isName (h name hname)

theorem IsPath.empty_notMem (h : IsPath place) : "" ∉ place :=
  fun hmem => isName_ne_empty (h "" hmem) rfl

theorem join_eq_empty (h : IsPath place) : join place = "" ↔ place = [] := by
  constructor
  · intro hjoin
    by_contra hne
    exact join_ne_empty h.empty_notMem hne hjoin
  · rintro rfl
    exact join_nil

theorem names_join (h : IsPath place) : names (join place) = place := by
  by_cases hne : place = []
  · subst hne
    simp [names, parts_empty, join_nil]
  · rw [names, h.parts_join hne, List.filter_eq_self]
    intro name hname
    simpa using isName_ne_empty (h name hname)

theorem isScope_join (h : IsPath place) : isScope (join place) := by
  by_cases hne : place = []
  · simp [hne, isScope, join_nil]
  · simp only [isScope, h.parts_join hne, Bool.or_eq_true, List.all_eq_true]
    exact Or.inr h

theorem isScope_iff : isScope s ↔ ∃ place, IsPath place ∧ s = join place := by
  constructor
  · intro h
    simp only [isScope, Bool.or_eq_true, decide_eq_true_eq, List.all_eq_true] at h
    rcases h with rfl | h
    · exact ⟨[], isPath_nil, join_nil.symm⟩
    · exact ⟨parts s, h, (join_parts s).symm⟩
  · rintro ⟨place, h, rfl⟩
    exact isScope_join h

theorem isPath_names (h : isScope s) : IsPath (names s) := by
  obtain ⟨place, hplace, rfl⟩ := isScope_iff.mp h
  rwa [names_join hplace]

theorem join_names (h : isScope s) : join (names s) = s := by
  obtain ⟨place, hplace, rfl⟩ := isScope_iff.mp h
  rw [names_join hplace]

theorem child_join_of_notMem (h : "" ∉ place) (name : String) :
    child (join place) name = join (place ++ [name]) := by
  by_cases hne : place = []
  · rw [hne, join_nil, child, if_pos rfl, List.nil_append, join_singleton]
  · rw [child, if_neg (join_ne_empty h hne), join_append_singleton hne]

theorem child_join (h : IsPath place) (name : String) :
    child (join place) name = join (place ++ [name]) :=
  child_join_of_notMem h.empty_notMem name

theorem under_empty_of_notMem (h : "" ∉ place) : under "" place = join place := by
  induction place using List.reverseRecOn with
  | nil => exact join_nil.symm
  | append_singleton place name ih =>
    have hplace : "" ∉ place := fun hmem => h (List.mem_append_left _ hmem)
    rw [under_append, ih hplace, under_cons, under_nil, child_join_of_notMem hplace]

theorem under_empty (h : IsPath place) : under "" place = join place :=
  under_empty_of_notMem h.empty_notMem

theorem IsPath.append {rest : List String} (h : IsPath place) (hrest : IsPath rest) :
    IsPath (place ++ rest) := by
  intro name hname
  rcases List.mem_append.mp hname with hname | hname
  · exact h name hname
  · exact hrest name hname

theorem under_names (h : isScope s) : under "" (names s) = s := by
  rw [under_empty (isPath_names h), join_names h]

theorem names_child (hscope : isScope scope) (hname : isName name) :
    names (child scope name) = names scope ++ [name] := by
  have hpath := isPath_append_singleton.mpr ⟨isPath_names hscope, hname⟩
  rw [← names_join hpath, ← child_join (isPath_names hscope), join_names hscope]

theorem isScope_child (hscope : isScope scope) (hname : isName name) :
    isScope (child scope name) := by
  have hpath := isPath_append_singleton.mpr ⟨isPath_names hscope, hname⟩
  have h := isScope_join hpath
  rwa [← child_join (isPath_names hscope), join_names hscope] at h

theorem isScope_under (hscope : isScope s) (hplace : IsPath place) : isScope (under s place) := by
  induction place generalizing s with
  | nil => exact hscope
  | cons name place ih =>
    simp only [IsPath, List.mem_cons, forall_eq_or_imp] at hplace
    exact ih (isScope_child hscope hplace.1) hplace.2

theorem names_under (hscope : isScope s) (hplace : IsPath place) :
    names (under s place) = names s ++ place := by
  induction place generalizing s with
  | nil => simp
  | cons name place ih =>
    simp only [IsPath, List.mem_cons, forall_eq_or_imp] at hplace
    rw [under_cons, ih (isScope_child hscope hplace.1) hplace.2, names_child hscope hplace.1,
      List.append_assoc, List.singleton_append]

theorem isScope_of_isName (h : isName name) : isScope name := by
  have hpath : IsPath [name] := by simpa [IsPath] using h
  simpa [join_singleton] using isScope_join hpath

theorem isScope_empty : isScope "" := by simp [isScope]

theorem names_empty : names "" = [] := by rw [← join_nil, names_join isPath_nil]

theorem parts_child (hscope : isScope scope) (hname : isName name) :
    parts (child scope name) = names scope ++ [name] := by
  have hpath := isPath_append_singleton.mpr ⟨isPath_names hscope, hname⟩
  rw [← hpath.parts_join (by simp), ← child_join (isPath_names hscope), join_names hscope]

theorem leaf_child (hscope : isScope scope) (hname : isName name) :
    leaf (child scope name) = name := by
  simp [leaf, parts_child hscope hname]

theorem getLastD_names (h : isScope s) : (names s).getLastD "" = leaf s := by
  by_cases hempty : s = ""
  · simp [hempty, names, leaf, parts_empty]
  · obtain ⟨place, hplace, rfl⟩ := isScope_iff.mp h
    have hne : place ≠ [] := fun hnil => hempty (hnil ▸ join_nil)
    rw [names_join hplace, leaf, hplace.parts_join hne]

theorem parent_child (hscope : isScope scope) (hname : isName name) :
    parent (child scope name) = scope := by
  rw [parent, parts_child hscope hname, List.dropLast_concat, join_names hscope]

theorem exists_child_of_isScope (h : isScope s) (hne : s ≠ "") :
    ∃ scope name, isScope scope ∧ isName name ∧ s = child scope name := by
  obtain ⟨place, hplace, rfl⟩ := isScope_iff.mp h
  obtain rfl | ⟨place, name, rfl⟩ := List.eq_nil_or_concat' place
  · exact absurd join_nil hne
  · obtain ⟨hpath, hname⟩ := isPath_append_singleton.mp hplace
    exact ⟨join place, name, isScope_join hpath, hname, (child_join hpath name).symm⟩

theorem names_parent (h : isScope s) (hne : s ≠ "") :
    names s = names (parent s) ++ [leaf s] := by
  obtain ⟨scope, name, hscope, hname, rfl⟩ := exists_child_of_isScope h hne
  rw [names_child hscope hname, parent_child hscope hname, leaf_child hscope hname]

theorem isScope_parent (h : isScope s) (hne : s ≠ "") : isScope (parent s) := by
  obtain ⟨scope, name, hscope, hname, rfl⟩ := exists_child_of_isScope h hne
  rwa [parent_child hscope hname]

theorem child_inj {scope scope' name name' : String} (hscope : isScope scope)
    (hscope' : isScope scope') (hname : isName name) (hname' : isName name') :
    child scope name = child scope' name' ↔ scope = scope' ∧ name = name' := by
  constructor
  · intro h
    have hparent := parent_child hscope hname
    have hleaf := leaf_child hscope hname
    rw [h, parent_child hscope' hname'] at hparent
    rw [h, leaf_child hscope' hname'] at hleaf
    exact ⟨hparent.symm, hleaf.symm⟩
  · rintro ⟨rfl, rfl⟩
    rfl

theorem enclosing_empty : enclosing "" = [""] := by
  simp [enclosing, parts_empty, around]

theorem enclosing_of_bare (hne : s ≠ "") (h : '.' ∉ s.toList) : enclosing s = [s, ""] := by
  rw [enclosing, parts_of_bare h, List.reverse_singleton, around, if_neg hne]

theorem enclosing_dotted (outer : String) (h : '.' ∉ name.toList) :
    enclosing (outer ++ "." ++ name) = (outer ++ "." ++ name) :: enclosing outer := by
  have hjoin : join (parts outer ++ [name]) = outer ++ "." ++ name := by
    rw [← parts_dotted outer h, join_parts]
  rw [enclosing, parts_dotted outer h, List.reverse_append, List.reverse_singleton,
    List.singleton_append, enclosing]
  cases hparts : (parts outer).reverse with
  | nil => exact absurd (List.reverse_eq_nil_iff.mp hparts) (parts_ne_nil outer)
  | cons next rest =>
    rw [around, ← hparts, List.reverse_cons, List.reverse_reverse, hjoin]

theorem enclosing_child (scope : String) (hname : isName name) :
    enclosing (child scope name) = child scope name :: enclosing scope := by
  have hbare := dot_notMem_of_isName hname
  unfold child
  split
  · next hroot => rw [enclosing_of_bare (isName_ne_empty hname) hbare, hroot, enclosing_empty]
  · exact enclosing_dotted scope hbare

theorem isScope_induction {motive : (s : String) → isScope s → Prop}
    (root : motive "" isScope_empty)
    (child : ∀ scope name (hscope : isScope scope) (hname : isName name), motive scope hscope →
      motive (child scope name) (isScope_child hscope hname)) :
    ∀ s (h : isScope s), motive s h := by
  intro s h
  obtain ⟨place, hplace, rfl⟩ := isScope_iff.mp h
  induction place using List.reverseRecOn with
  | nil =>
    simp only [join_nil]
    exact root
  | append_singleton place name ih =>
    obtain ⟨hpath, hname⟩ := isPath_append_singleton.mp hplace
    simp only [← child_join hpath]
    exact child _ name (isScope_join hpath) hname (ih hpath (isScope_join hpath))

theorem isScope_of_mem_enclosing {outer : String} (hscope : isScope scope)
    (h : outer ∈ enclosing scope) : isScope outer := by
  induction scope, hscope using isScope_induction with
  | root =>
    rw [enclosing_empty, List.mem_singleton] at h
    exact h ▸ isScope_empty
  | child scope name hscope hname ih =>
    rw [enclosing_child scope hname, List.mem_cons] at h
    rcases h with rfl | h
    · exact isScope_child hscope hname
    · exact ih h

theorem locate?_child (hscope : isScope scope) (hname : isName name) :
    locate? (child scope name) = some (names scope, name) := by
  rw [locate?, if_pos (isScope_child hscope hname), parent_child hscope hname,
    leaf_child hscope hname]

theorem locate?_eq_some {target : String} (hplace : IsPath place) (hname : isName name) :
    locate? target = some (place, name) ↔ target = join (place ++ [name]) := by
  constructor
  · intro h
    unfold locate? at h
    split at h
    · next hscope =>
      injection h with h
      injection h with hplace' hname'
      have hne : target ≠ "" := by
        rintro rfl
        have hempty : leaf "" = "" := by simp [leaf, parts_empty]
        exact isName_ne_empty hname (hname'.symm.trans hempty)
      obtain ⟨scope, name', hscope', hname'', rfl⟩ := exists_child_of_isScope hscope hne
      rw [parent_child hscope' hname''] at hplace'
      rw [leaf_child hscope' hname''] at hname'
      rw [← hplace', ← hname', ← child_join (isPath_names hscope'), join_names hscope']
    · simp at h
  · rintro rfl
    rw [← child_join hplace, locate?_child (isScope_join hplace) hname, names_join hplace]

variable {u : Unit} {path : String}

theorem checkName_eq_ok : checkName name = .ok u ↔ isName name := by
  unfold checkName
  split <;> simp [*]

theorem check_eq_ok : check scope = .ok u ↔ isScope scope := by
  unfold check
  split <;> simp [*]

theorem checkRequest_eq_ok : checkRequest scope = .ok u ↔ isScope scope := by
  unfold checkRequest
  split <;> simp [*]

theorem append_eq_ok : append scope name = .ok path ↔
    isScope scope ∧ isScope name ∧ path = if name = "" then scope else child scope name := by
  unfold append
  simp only [Check.bind_eq_ok, check_eq_ok, Check.pure_eq_ok]
  constructor
  · rintro ⟨_, hscope, _, hname, rfl⟩
    exact ⟨hscope, hname, rfl⟩
  · rintro ⟨hscope, hname, rfl⟩
    exact ⟨(), hscope, (), hname, rfl⟩

theorem append_join {rest : List String} (h : IsPath place) (hrest : IsPath rest) :
    append (join place) (join rest) = .ok (join (place ++ rest)) := by
  rw [append_eq_ok]
  refine ⟨isScope_join h, isScope_join hrest, ?_⟩
  by_cases hempty : rest = []
  · rw [hempty, List.append_nil, join_nil, if_pos rfl]
  · rw [if_neg ((join_eq_empty hrest).not.mpr hempty), child]
    split
    · next hjoin => rw [(join_eq_empty h).mp hjoin, List.nil_append]
    · next hjoin => rw [join_append ((join_eq_empty h).not.mp hjoin) hempty]

theorem exists_append (h : append scope name = .ok path) :
    ∃ place rest, IsPath place ∧ IsPath rest ∧ scope = join place ∧ name = join rest ∧
      path = join (place ++ rest) := by
  obtain ⟨hscope, hname, -⟩ := append_eq_ok.mp h
  obtain ⟨place, hplace, rfl⟩ := isScope_iff.mp hscope
  obtain ⟨rest, hrest, rfl⟩ := isScope_iff.mp hname
  rw [append_join hplace hrest, Except.ok.injEq] at h
  exact ⟨place, rest, hplace, hrest, rfl, rfl, h.symm⟩

theorem isScope_append (h : append scope name = .ok path) : isScope path := by
  obtain ⟨place, rest, hplace, hrest, -, -, rfl⟩ := exists_append h
  exact isScope_join (hplace.append hrest)

theorem names_append (h : append scope name = .ok path) :
    names path = names scope ++ names name := by
  obtain ⟨place, rest, hplace, hrest, rfl, rfl, rfl⟩ := exists_append h
  rw [names_join (hplace.append hrest), names_join hplace, names_join hrest]

theorem isInner_iff {outer inner : String} :
    isInner outer inner ↔ isScope outer ∧ isScope inner ∧ names outer <+: names inner := by
  simp only [isInner, Bool.and_eq_true, Bool.or_eq_true, decide_eq_true_iff,
    List.isPrefixOf_iff_prefix, and_assoc]
  refine and_congr_right fun houter => and_congr_right fun hinner => ?_
  obtain ⟨place, hplace, rfl⟩ := isScope_iff.mp houter
  obtain ⟨rest, hrest, rfl⟩ := isScope_iff.mp hinner
  rw [join_eq_empty hplace, names_join hplace, names_join hrest]
  by_cases hne : place = []
  · simp [hne]
  · rw [hplace.parts_join hne]
    by_cases hempty : rest = []
    · subst hempty
      obtain ⟨name, hname⟩ := List.exists_mem_of_ne_nil place hne
      have hprefix : ¬ place <+: parts (join []) := by
        intro h
        have hmem : name ∈ [""] := by
          simpa [join_nil, parts_empty] using h.subset hname
        exact isName_ne_empty (hplace name hname) (List.mem_singleton.mp hmem)
      simp [hne, hprefix]
    · simp [hne, hrest.parts_join hempty]

theorem isInner_self (h : isScope scope) : isInner scope scope :=
  isInner_iff.mpr ⟨h, h, List.prefix_rfl⟩

theorem isInner_append (h : append scope name = .ok path) : isInner scope path :=
  isInner_iff.mpr ⟨(append_eq_ok.mp h).1, isScope_append h, names_append h ▸ List.prefix_append _ _⟩

theorem isInner_trans {outer inner : String} (h : isInner outer scope) (h' : isInner scope inner) :
    isInner outer inner := by
  rw [isInner_iff] at h h' ⊢
  exact ⟨h.1, h'.2.1, h.2.2.trans h'.2.2⟩

/-- What may be filed under a key in a scope: an entity with a name, or else, at the root, the
empty key, which stays at the root. -/
def Admits (scope key : String) : Prop := isName key ∨ scope = "" ∧ key = ""

theorem Admits.isScope_child {key : String} (h : Admits scope key) (hscope : isScope scope) :
    isScope (child scope key) := by
  rcases h with hname | ⟨rfl, rfl⟩
  · exact Scope.isScope_child hscope hname
  · exact isScope_empty

theorem Admits.append {key : String} (h : Admits scope key) (hscope : isScope scope) :
    Scope.append scope key = .ok (child scope key) := by
  rw [append_eq_ok]
  rcases h with hname | ⟨rfl, rfl⟩
  · exact ⟨hscope, isScope_of_isName hname, by rw [if_neg (isName_ne_empty hname)]⟩
  · exact ⟨hscope, isScope_empty, rfl⟩

end Scope

end AppTopology
