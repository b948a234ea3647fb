import AppTopology.Proofs.Lookup
import Mathlib.Data.List.Infix
import Mathlib.Order.Defs.Unbundled

/-!
A text is a scope if there is a path of names that it spells, and then there is but one.
-/

namespace AppTopology

namespace Scope

variable {s t outer last name path : String} {place chain : List String}

/-- The text has the names of the path with dots between them, and nothing for the path to the
root. -/
def Spells (s : String) (place : List String) : Prop := IsPath place ∧ join place = s

theorem spells_iff : Spells s place ↔ isScope s ∧ names s = place := by
  constructor
  · rintro ⟨hplace, rfl⟩
    exact ⟨isScope_join hplace, names_join hplace⟩
  · rintro ⟨hscope, rfl⟩
    exact ⟨isPath_names hscope, join_names hscope⟩

theorem isScope_iff_existsUnique : isScope s ↔ ∃! place, Spells s place := by
  simp only [spells_iff]
  constructor
  · exact fun h => ⟨names s, ⟨h, rfl⟩, fun _ hplace => hplace.2.symm⟩
  · rintro ⟨place, ⟨h, -⟩, -⟩
    exact h

theorem spells_empty : Spells "" place ↔ place = [] := by
  rw [spells_iff, names_empty]
  exact ⟨fun h => h.2.symm, fun h => ⟨isScope_empty, h.symm⟩⟩

theorem append_eq_ok_iff_spells : append s t = .ok path ↔
    ∃ place rest, Spells s place ∧ Spells t rest ∧ Spells path (place ++ rest) := by
  constructor
  · intro h
    obtain ⟨place, rest, hplace, hrest, rfl, rfl, rfl⟩ := exists_append h
    exact ⟨place, rest, ⟨hplace, rfl⟩, ⟨hrest, rfl⟩, hplace.append hrest, rfl⟩
  · rintro ⟨place, rest, ⟨hplace, rfl⟩, ⟨hrest, rfl⟩, -, rfl⟩
    exact append_join hplace hrest

theorem exists_append_iff : (∃ path, append s t = .ok path) ↔ isScope s ∧ isScope t := by
  constructor
  · rintro ⟨path, h⟩
    obtain ⟨hs, ht, -⟩ := append_eq_ok.mp h
    exact ⟨hs, ht⟩
  · exact fun ⟨hs, ht⟩ => ⟨_, append_eq_ok.mpr ⟨hs, ht, rfl⟩⟩

theorem splitLast_eq_ok :
    splitLast s = .ok (outer, last) ↔ isScope s ∧ parent s = outer ∧ leaf s = last := by
  unfold splitLast
  simp only [Check.bind_eq_ok, check_eq_ok, Check.pure_eq_ok, Prod.mk.injEq]
  exact ⟨fun ⟨_, h⟩ => h, fun h => ⟨(), h⟩⟩

theorem splitLast_empty : splitLast "" = .ok ("", "") := by decide

theorem splitLast_child (hscope : isScope outer) (hname : isName last) :
    splitLast (child outer last) = .ok (outer, last) :=
  splitLast_eq_ok.mpr
    ⟨isScope_child hscope hname, parent_child hscope hname, leaf_child hscope hname⟩

theorem splitLast_eq_ok_iff_spells : splitLast s = .ok (outer, last) ↔
    s = "" ∧ outer = "" ∧ last = "" ∨
      ∃ place, Spells outer place ∧ Spells s (place ++ [last]) := by
  constructor
  · intro h
    by_cases hne : s = ""
    · rw [hne, splitLast_empty, Except.ok.injEq, Prod.mk.injEq] at h
      exact .inl ⟨hne, h.1.symm, h.2.symm⟩
    · obtain ⟨scope, name, hscope, hname, rfl⟩ :=
        exists_child_of_isScope (splitLast_eq_ok.mp h).1 hne
      rw [splitLast_child hscope hname, Except.ok.injEq, Prod.mk.injEq] at h
      obtain ⟨rfl, rfl⟩ := h
      refine .inr ⟨names scope, spells_iff.mpr ⟨hscope, rfl⟩, ?_⟩
      exact spells_iff.mpr ⟨isScope_child hscope hname, names_child hscope hname⟩
  · rintro (⟨rfl, rfl, rfl⟩ | ⟨place, ⟨hplace, rfl⟩, hlast, rfl⟩)
    · exact splitLast_empty
    · rw [← child_join hplace]
      exact splitLast_child (isScope_join hplace) (isPath_append_singleton.mp hlast).2

theorem append_of_splitLast (h : splitLast s = .ok (outer, last)) : append outer last = .ok s := by
  rcases splitLast_eq_ok_iff_spells.mp h with ⟨rfl, rfl, rfl⟩ | ⟨place, houter, hs⟩
  · exact append_eq_ok.mpr ⟨isScope_empty, isScope_empty, rfl⟩
  · have hlast : IsPath [last] := fun name hname => hs.1 name (List.mem_append_right place hname)
    exact append_eq_ok_iff_spells.mpr ⟨place, [last], houter, ⟨hlast, join_singleton last⟩, hs⟩

theorem exists_splitLast_iff : (∃ ends, splitLast s = .ok ends) ↔ isScope s := by
  constructor
  · rintro ⟨⟨outer, last⟩, h⟩
    exact (splitLast_eq_ok.mp h).1
  · exact fun h => ⟨_, splitLast_eq_ok.mpr ⟨h, rfl, rfl⟩⟩

theorem isInner_iff_spells :
    isInner s t ↔ ∃ place rest, Spells s place ∧ Spells t (place ++ rest) := by
  rw [isInner_iff]
  constructor
  · rintro ⟨hs, ht, rest, hrest⟩
    exact ⟨names s, rest, spells_iff.mpr ⟨hs, rfl⟩, spells_iff.mpr ⟨ht, hrest.symm⟩⟩
  · rintro ⟨place, rest, hs, ht⟩
    rw [spells_iff] at hs ht
    exact ⟨hs.1, ht.1, rest, by rw [hs.2, ht.2]⟩

theorem isInner_antisymm (h : isInner s t) (h' : isInner t s) : s = t := by
  obtain ⟨hs, ht, hprefix⟩ := isInner_iff.mp h
  obtain ⟨-, -, hprefix'⟩ := isInner_iff.mp h'
  have hnames : names s = names t := hprefix.eq_of_length_le hprefix'.length_le
  rw [← join_names hs, hnames, join_names ht]

theorem isPartialOrder_isInner :
    IsPartialOrder {s // isScope s} fun outer inner => isInner outer inner where
  refl s := isInner_self s.2
  trans _ _ _ := isInner_trans
  antisymm _ _ h h' := Subtype.ext (isInner_antisymm h h')

theorem isInner_empty : isInner "" s ↔ isScope s := by
  rw [isInner_iff, names_empty]
  exact ⟨fun h => h.2.1, fun h => ⟨isScope_empty, h, List.nil_prefix⟩⟩

/-- Each text is followed by what stands before its last dot, one without a dot by the empty text,
and there the way ends. -/
inductive LeadsOut : String → List String → Prop
  | root : LeadsOut "" [""]
  | bare {s : String} {chain : List String} : s ≠ "" → '.' ∉ s.toList → LeadsOut "" chain →
      LeadsOut s (s :: chain)
  | dotted {outer last : String} {chain : List String} : '.' ∉ last.toList →
      LeadsOut outer chain → LeadsOut (outer ++ "." ++ last) ((outer ++ "." ++ last) :: chain)

theorem exists_leadsOut (s : String) : ∃ chain, LeadsOut s chain := by
  suffices ∀ place ≠ [], (∀ name ∈ place, '.' ∉ name.toList) →
      ∃ chain, LeadsOut (join place) chain by
    simpa only [join_parts] using this (parts s) (parts_ne_nil s) fun _ => dot_notMem_of_mem_parts
  intro place hne hbare
  induction place using List.reverseRecOn with
  | nil => exact absurd rfl hne
  | append_singleton place last ih =>
    have hlast : '.' ∉ last.toList := hbare last (by simp)
    by_cases hplace : place = []
    · rw [hplace, List.nil_append, join_singleton]
      by_cases hempty : last = ""
      · subst hempty
        exact ⟨_, .root⟩
      · exact ⟨_, .bare hempty hlast .root⟩
    · obtain ⟨chain, hchain⟩ := ih hplace fun name hname => hbare name (by simp [hname])
      rw [join_append_singleton hplace]
      exact ⟨_, .dotted hlast hchain⟩

theorem LeadsOut.eq_enclosing (h : LeadsOut s chain) : chain = enclosing s := by
  induction h with
  | root => exact enclosing_empty.symm
  | bare hne hbare _ ih => rw [ih, enclosing_empty, enclosing_of_bare hne hbare]
  | dotted hlast _ ih => rw [ih, enclosing_dotted _ hlast]

theorem leadsOut_iff : LeadsOut s chain ↔ chain = enclosing s := by
  refine ⟨LeadsOut.eq_enclosing, ?_⟩
  rintro rfl
  obtain ⟨chain, hchain⟩ := exists_leadsOut s
  exact hchain.eq_enclosing ▸ hchain

theorem enclosing_join (h : IsPath place) :
    enclosing (join place) = (place.inits.map join).reverse := by
  induction place using List.reverseRecOn with
  | nil => simp [join_nil, enclosing_empty]
  | append_singleton place name ih =>
    obtain ⟨hplace, hname⟩ := isPath_append_singleton.mp h
    rw [← child_join hplace, enclosing_child _ hname, ih hplace,
      child_join hplace, List.inits_append]
    simp

theorem nodup_enclosing (hscope : isScope s) : (enclosing s).Nodup := by
  induction s, hscope using isScope_induction with
  | root => simp [enclosing_empty]
  | child scope name hscope hname ih =>
    rw [enclosing_child _ hname, List.nodup_cons]
    refine ⟨fun hmem => ?_, ih⟩
    have hprefix := (isInner_iff.mp (isInner_of_mem_enclosing hscope hmem)).2.2
    have hle := hprefix.length_le
    rw [names_child hscope hname, List.length_append, List.length_singleton] at hle
    omega

/-- Scopes are the texts of paths, one for each path, and every function on scopes is one on the
paths. -/
theorem scopes_are_paths (s t : String) :
    ((isScope s ↔ ∃! place, Spells s place) ∧
      (∀ place, Spells s place ↔ isScope s ∧ names s = place) ∧
      ∀ place, Spells "" place ↔ place = []) ∧
    (((∃ path, append s t = .ok path) ↔ isScope s ∧ isScope t) ∧
      ∀ path, append s t = .ok path ↔
        ∃ place rest, Spells s place ∧ Spells t rest ∧ Spells path (place ++ rest)) ∧
    (((∃ ends, splitLast s = .ok ends) ↔ isScope s) ∧
      ∀ outer last, (splitLast s = .ok (outer, last) ↔
          s = "" ∧ outer = "" ∧ last = "" ∨
            ∃ place, Spells outer place ∧ Spells s (place ++ [last])) ∧
        (splitLast s = .ok (outer, last) → append outer last = .ok s)) ∧
    ((isInner s t ↔ ∃ place rest, Spells s place ∧ Spells t (place ++ rest)) ∧
      IsPartialOrder {s // isScope s} (fun outer inner => isInner outer inner) ∧
      (isInner "" s ↔ isScope s)) ∧
    (∀ chain, LeadsOut s chain ↔ chain = enclosing s) ∧
    ∀ place, Spells s place →
      enclosing s = (place.inits.map join).reverse ∧ (enclosing s).Nodup := by
  refine ⟨⟨isScope_iff_existsUnique, fun _ => spells_iff, fun _ => spells_empty⟩,
    ⟨exists_append_iff, fun _ => append_eq_ok_iff_spells⟩, ⟨exists_splitLast_iff, ?_⟩,
    ⟨isInner_iff_spells, isPartialOrder_isInner, isInner_empty⟩, fun _ => leadsOut_iff, ?_⟩
  · exact fun outer last => ⟨splitLast_eq_ok_iff_spells, append_of_splitLast⟩
  · rintro place ⟨hplace, rfl⟩
    exact ⟨enclosing_join hplace, nodup_enclosing (isScope_join hplace)⟩

theorem scopes_are_paths_billing :
    Spells "billing.printer" ["billing", "printer"] ∧
      splitLast "billing.printer" = .ok ("billing", "printer") ∧
      append "billing" "printer" = .ok "billing.printer" ∧
      enclosing "billing.printer" = ["billing.printer", "billing", ""] ∧
      (∀ place, ¬ Spells "billing..printer" place) ∧
      LeadsOut "billing..printer" ["billing..printer", "billing.", "billing", ""] := by
  obtain ⟨⟨-, hspells, -⟩, -, ⟨-, hsplit⟩, -, -, hout⟩ := scopes_are_paths "billing.printer" ""
  obtain ⟨⟨-, hspells', -⟩, -, -, -, hleads, -⟩ := scopes_are_paths "billing..printer" ""
  have hbilling : Spells "billing.printer" ["billing", "printer"] :=
    (hspells _).mpr (by decide +kernel)
  have hends : splitLast "billing.printer" = .ok ("billing", "printer") := by decide +kernel
  refine ⟨hbilling, hends, (hsplit "billing" "printer").2 hends, ?_, ?_, ?_⟩
  · exact (hout _ hbilling).1.trans (by decide +kernel)
  · intro place hplace
    have hscope : ¬ isScope "billing..printer" := by decide +kernel
    exact hscope ((hspells' place).mp hplace).1
  · exact (hleads _).mpr (by decide +kernel)

end Scope

end AppTopology
