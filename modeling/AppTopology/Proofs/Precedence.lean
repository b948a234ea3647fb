import AppTopology.Entity.Build
import AppTopology.Proofs.Arrangement

/-!
One sort honours all demands together: an inner scope is at least as deep as the scope around it,
and where the depths agree the kind decides.
-/

namespace AppTopology

theorem Scope.depth_le_of_isInner {outer inner : String} (h : Scope.isInner outer inner) :
    Scope.depth outer ≤ Scope.depth inner :=
  (Scope.isInner_iff.mp h).2.2.length_le

namespace Component

variable {a b : Component} {components : List Component}

inductive Precedes (a b : Component) : Prop where
  | houses (h : a.Houses b)
  | types (h : a.kind = .channelType) (h' : b.kind = .channel)
    (hinner : Scope.isInner a.info.parent b.info.parent)
  | serves (h : a.kind = .channelType ∨ a.kind = .channel) (h' : b.kind = .app)
    (hinner : Scope.isInner a.info.parent b.info.parent)
  | leads (h : a.kind ≠ .channelAlias) (h' : b.kind = .channelAlias)

theorem Houses.depth_lt (h : a.Houses b) (hscope : Scope.isScope a.info.parent)
    (hname : Scope.isName a.info.name) :
    Scope.depth a.info.parent < Scope.depth b.info.parent := by
  have hdepth := Scope.depth_le_of_isInner h.2
  rw [Scope.depth, Scope.names_child hscope hname, List.length_append,
    List.length_singleton] at hdepth
  exact hdepth

theorem not_before_of_lt (ha : a.kind ≠ .channelAlias)
    (h : Scope.depth a.info.parent < Scope.depth b.info.parent ∨
      Scope.depth a.info.parent ≤ Scope.depth b.info.parent ∧ a.kind.rank < b.kind.rank) :
    ¬ b.before a := by
  rw [before_iff]
  rintro (⟨-, halias⟩ | ⟨-, hdepth⟩)
  · exact ha halias
  · omega

theorem Precedes.not_before (h : a.Precedes b) (hscope : Scope.isScope a.info.parent)
    (hname : Scope.isName a.info.name) : ¬ b.before a := by
  cases h with
  | houses h =>
    have happ : a.kind ≠ .channelAlias := by rw [h.1]; nofun
    exact not_before_of_lt happ (.inl (h.depth_lt hscope hname))
  | types h h' hinner =>
    refine not_before_of_lt (by rw [h]; nofun) (.inr ⟨Scope.depth_le_of_isInner hinner, ?_⟩)
    rw [h, h']
    decide
  | serves h h' hinner =>
    have hkind : a.kind ≠ .channelAlias := by rcases h with h | h <;> (rw [h]; nofun)
    refine not_before_of_lt hkind (.inr ⟨Scope.depth_le_of_isInner hinner, ?_⟩)
    rcases h with h | h <;> (rw [h, h']; decide)
  | leads h h' =>
    rw [before_iff]
    rintro (⟨hb, -⟩ | ⟨halias, -⟩)
    · exact hb h'
    · exact h (halias.mp h')

theorem index_lt_of_not_before {sorted : List Component}
    (hsorted : sorted.Pairwise fun a b => a.before b) {i j : Nat} (hi : i < sorted.length)
    (hj : j < sorted.length) (h : ¬ sorted[j].before sorted[i]) : i < j := by
  by_contra hle
  rcases Nat.eq_or_lt_of_le (Nat.not_lt.mp hle) with rfl | hlt
  · exact h (by simpa using before_total sorted[j] sorted[j])
  · exact h (List.pairwise_iff_getElem.mp hsorted j i hj hi hlt)

theorem filter_ordered (components : List Component) (kind : Kind) (depth : Nat) :
    (ordered components).filter (fun c => c.kind = kind ∧ Scope.depth c.info.parent = depth) =
      components.filter fun c => c.kind = kind ∧ Scope.depth c.info.parent = depth := by
  let alike (c : Component) : Bool := c.kind = kind ∧ Scope.depth c.info.parent = depth
  change (ordered components).filter alike = components.filter alike
  have htied : (components.filter alike).Pairwise fun a b => a.before b := by
    apply List.pairwise_of_forall_mem_list
    intro a ha b hb
    simp only [alike, List.mem_filter, decide_eq_true_eq] at ha hb
    rw [before_iff]
    grind
  -- The sort keeps tied components as they are, and there are no others of their kind and depth.
  have hkept := List.sublist_mergeSort before_trans before_total htied List.filter_sublist
  have hsublist := hkept.filter alike
  rw [List.filter_eq_self.mpr fun c hc => (List.mem_filter.mp hc).2] at hsublist
  have hlength := ((List.mergeSort_perm components before).filter alike).length_eq
  exact (hsublist.eq_of_length hlength.symm).symm

theorem ordered_respects (components : List Component)
    (hscopes : ∀ component ∈ components, Scope.isScope component.info.parent)
    (hnames : ∀ component ∈ components, Scope.isName component.info.name) :
    (ordered components).Perm components ∧
      (∀ i j (hi : i < (ordered components).length) (hj : j < (ordered components).length),
        (ordered components)[i].Precedes (ordered components)[j] → i < j) ∧
      ∀ kind depth,
        (ordered components).filter (fun c => c.kind = kind ∧ Scope.depth c.info.parent = depth) =
          components.filter fun c => c.kind = kind ∧ Scope.depth c.info.parent = depth := by
  have hperm : (ordered components).Perm components := List.mergeSort_perm components _
  refine ⟨hperm, fun i j hi hj hprecedes => ?_, filter_ordered components⟩
  have hmem := hperm.mem_iff.mp (List.getElem_mem hi)
  exact index_lt_of_not_before (pairwise_ordered components) hi hj
    (hprecedes.not_before (hscopes _ hmem) (hnames _ hmem))

theorem ordered_respects_billing :
    let billing : Component := .app (.named "billing")
    let invoices : Component :=
      .channel { info := { name := "invoices", parent := "billing" }, typeName := "Invoice" }
    let printer : Component :=
      .app { own := { info := { name := "printer", parent := "billing" } } }
    let components :=
      [.channelAlias (.named "bills" "billing.invoices"), printer, invoices, billing]
    (ordered components).Perm components ∧
      ∀ i j (hi : i < (ordered components).length) (hj : j < (ordered components).length),
        (ordered components)[j] = printer →
          (ordered components)[i] = billing ∨ (ordered components)[i] = invoices → i < j := by
  intro billing invoices printer components
  obtain ⟨hperm, hindex, -⟩ :=
    ordered_respects components (by decide +kernel) (by decide +kernel)
  refine ⟨hperm, fun i j hi hj hprinter h => hindex i j hi hj ?_⟩
  rw [hprinter]
  rcases h with h | h
  · exact .houses (by rw [h]; decide +kernel)
  · exact .serves (by rw [h]; exact .inr rfl) rfl (by rw [h]; decide +kernel)

end Component

end AppTopology
