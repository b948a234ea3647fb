import AppTopology.Proofs.Severance

/-!
What others live in comes before them, and aliases come last; so what a component lays over an app
is seen until a component inside that app is applied, and no later.
-/

namespace AppTopology

namespace Component

variable {registry : Registry} {a b component : Component} {done rest : List Component}
variable {contents : Contents} {place : List String} {p : Position}

theorem before_iff : a.before b ↔ (a.kind ≠ .channelAlias ∧ b.kind = .channelAlias) ∨
    (a.kind = .channelAlias ↔ b.kind = .channelAlias) ∧
      (Scope.depth a.info.parent < Scope.depth b.info.parent ∨
        Scope.depth a.info.parent = Scope.depth b.info.parent ∧ a.kind.rank ≤ b.kind.rank) := by
  unfold before
  by_cases ha : a.kind = .channelAlias <;> by_cases hb : b.kind = .channelAlias <;> simp [ha, hb]

theorem depth_le_of_before (h : a.before b) (hb : b.kind ≠ .channelAlias) :
    a.kind ≠ .channelAlias ∧ Scope.depth a.info.parent ≤ Scope.depth b.info.parent := by
  rcases before_iff.mp h with ⟨-, halias⟩ | ⟨halias, hdepth⟩
  · exact absurd halias hb
  · exact ⟨fun ha => hb (halias.mp ha), by omega⟩

theorem before_trans (a b c : Component) (h : a.before b) (h' : b.before c) : a.before c := by
  rw [before_iff] at *
  grind

theorem before_total (a b : Component) : a.before b || b.before a := by
  rw [Bool.or_eq_true, before_iff, before_iff]
  grind

theorem pairwise_ordered (components : List Component) :
    (ordered components).Pairwise fun a b => a.before b :=
  List.pairwise_mergeSort before_trans before_total components

def key (component : Component) : Kind × String × String :=
  (component.kind, component.info.parent, component.info.name)

/-- Each has a scope to stand in and a name of its own there, and none comes before what it may live
in or refer to. -/
structure Arranged (components : List Component) : Prop where
  inScope : ∀ component ∈ components, Scope.isScope component.info.parent
  hasName : ∀ component ∈ components, Scope.isName component.info.name
  sorted : components.Pairwise fun a b => a.before b
  distinct : (components.map key).Nodup

theorem key_eq_of_position (ha : Scope.isScope a.info.parent) (hb : Scope.isScope b.info.parent)
    (hkind : a.kind ≠ .app) (hkind' : b.kind ≠ .app) (h : a.site.position = b.site.position) :
    a.key = b.key := by
  have hitem {kind kind' : Kind} {name name' : String} (hkind : kind ≠ .app) (hkind' : kind' ≠ .app)
      (h : Item.ofKind kind name = .ofKind kind' name') : kind = kind' ∧ name = name' := by
    cases kind <;> cases kind' <;> simp_all [Item.ofKind]
  rw [site_of_ne_app hkind, site_of_ne_app hkind', Position.mk.injEq] at h
  obtain ⟨hsame, hname⟩ := hitem hkind hkind' h.2
  rw [key, key, hsame, hname, ← Scope.join_names ha, h.1, Scope.join_names hb]

theorem place_app (hscope : Scope.isScope a.info.parent) (hname : Scope.isName a.info.name)
    (h : a.kind = .app) : a.site.place = Scope.names a.info.parent ++ [a.info.name] := by
  rw [site_app h, Target.place, Scope.names_child hscope hname]

theorem key_eq_of_place (ha : Scope.isScope a.info.parent) (hb : Scope.isScope b.info.parent)
    (hname : Scope.isName a.info.name) (hname' : Scope.isName b.info.name) (hkind : a.kind = .app)
    (hkind' : b.kind = .app) (h : a.site.place = b.site.place) : a.key = b.key := by
  rw [place_app ha hname hkind, place_app hb hname' hkind'] at h
  obtain ⟨hparent, hlast⟩ := List.append_inj' h rfl
  rw [key, key, hkind, hkind', ← Scope.join_names ha, hparent, Scope.join_names hb,
    List.singleton_inj.mp hlast]

theorem covers_app (h : a.kind = .app) : a.site.Covers p ↔ a.site.place <+: p.place := by
  rw [site_app h]
  rfl

theorem not_prefix_parent (h : a.before b ∨ a = b) (hscope : Scope.isScope b.info.parent)
    (hname : Scope.isName b.info.name) (hb : b.kind = .app) :
    ¬ b.site.place <+: Scope.names a.info.parent := by
  -- An app around the parent of the component would be declared less deep.
  intro hinner
  have hlength := hinner.length_le
  rw [place_app hscope hname hb, List.length_append, List.length_singleton] at hlength
  have hdepth : Scope.depth a.info.parent ≤ Scope.depth b.info.parent := by
    rcases h with h | rfl
    · exact (depth_le_of_before h (by rw [hb]; nofun)).2
    · exact Nat.le_refl _
  unfold Scope.depth at hdepth
  omega

namespace Arranged

variable (h : Arranged (done ++ rest))

include h

theorem of_append : Arranged done where
  inScope a ha := h.inScope a (List.mem_append_left rest ha)
  hasName a ha := h.hasName a (List.mem_append_left rest ha)
  sorted := (List.pairwise_append.mp h.sorted).1
  distinct := by
    have hdistinct := h.distinct
    rw [List.map_append, List.nodup_append] at hdistinct
    exact hdistinct.1

theorem before (ha : a ∈ done) (hb : b ∈ rest) : a.before b :=
  (List.pairwise_append.mp h.sorted).2.2 a ha b hb

theorem key_ne (ha : a ∈ done) (hb : b ∈ rest) : a.key ≠ b.key := by
  have hdistinct := h.distinct
  rw [List.map_append, List.nodup_append] at hdistinct
  exact hdistinct.2.2 _ (List.mem_map_of_mem ha) _ (List.mem_map_of_mem hb)

theorem place_prefix (ha : a ∈ done) (hb : b ∈ rest) (hkind : a.kind = .app)
    (hkind' : b.kind = .app) (hplace : a.site.place <+: place) (hplace' : b.site.place <+: place) :
    a.site.place <+: b.site.place := by
  have hmem := List.mem_append_left rest ha
  have hmem' := List.mem_append_right done hb
  -- Of two apps on the way to one place the outer one comes first.
  apply List.prefix_of_prefix_length_le hplace hplace'
  have hdepth := (depth_le_of_before (h.before ha hb) (by rw [hkind']; nofun)).2
  unfold Scope.depth at hdepth
  rw [place_app (h.inScope a hmem) (h.hasName a hmem) hkind,
    place_app (h.inScope b hmem') (h.hasName b hmem') hkind', List.length_append, List.length_append]
  exact Nat.add_le_add_right hdepth _

theorem not_covers_of_leaf (ha : a ∈ done) (hkind : a.kind ≠ .app) (hp : a.site.Covers p)
    (hb : b ∈ rest) : ¬ b.site.Covers p := by
  have hmem := List.mem_append_left rest ha
  have hmem' := List.mem_append_right done hb
  intro hp'
  rw [covers_of_ne_app hkind] at hp
  by_cases hkind' : b.kind = .app
  · rw [covers_app hkind', hp, site_of_ne_app hkind] at hp'
    exact not_prefix_parent (.inl (h.before ha hb)) (h.inScope b hmem') (h.hasName b hmem') hkind' hp'
  · rw [covers_of_ne_app hkind', hp] at hp'
    exact h.key_ne ha hb
      (key_eq_of_position (h.inScope a hmem) (h.inScope b hmem') hkind hkind' hp')

end Arranged

def Houses (component inner : Component) : Prop :=
  component.kind = .app ∧
    Scope.isInner (Scope.child component.info.parent component.info.name) inner.info.parent

instance (component inner : Component) : Decidable (component.Houses inner) :=
  inferInstanceAs (Decidable (_ ∧ _))

namespace Arranged

variable (h : Arranged (done ++ component :: rest))

include h

theorem houses (hkind : component.kind = .app) (hb : b ∈ rest)
    (hinner : component.site.place <+: Scope.names b.info.parent) : component.Houses b := by
  have hscope := h.inScope component (by simp)
  have hname := h.hasName component (by simp)
  refine ⟨hkind, Scope.isInner_iff.mpr ⟨Scope.isScope_child hscope hname,
    h.inScope b (by simp [hb]), ?_⟩⟩
  rwa [site_app hkind] at hinner

theorem not_covers_of_free (hfree : ∀ b ∈ rest, ¬ component.Houses b) (hp : component.site.Covers p)
    (hb : b ∈ rest) : ¬ b.site.Covers p := by
  have hmem : component ∈ done ++ [component] := by simp
  have h' := h
  rw [List.append_cons] at h'
  by_cases hkind : component.kind = .app
  · intro hp'
    have hfree := fun hinner => hfree b hb (h.houses hkind hb hinner)
    rw [covers_app hkind] at hp
    by_cases hkind' : b.kind = .app
    · rw [covers_app hkind'] at hp'
      have hscope := h.inScope component (by simp)
      have hname := h.hasName component (by simp)
      have hscope' := h.inScope b (by simp [hb])
      have hname' := h.hasName b (by simp [hb])
      have hinner := h'.place_prefix hmem hb hkind hkind' hp hp'
      rw [place_app hscope' hname' hkind', List.prefix_concat_iff] at hinner
      refine hinner.elim (fun hsame => h'.key_ne hmem hb ?_) hfree
      rw [← place_app hscope' hname' hkind'] at hsame
      exact key_eq_of_place hscope hscope' hname hname' hkind hkind' hsame
    · rw [covers_of_ne_app hkind'] at hp'
      rw [hp', site_of_ne_app hkind'] at hp
      exact hfree hp
  · exact h'.not_covers_of_leaf hmem hkind hp hb

end Arranged

section

variable {xs ys done' rest' : List Component}

theorem Arranged.not_swapped (h : Arranged (done ++ rest)) (h' : Arranged (done' ++ rest'))
    (ha : a ∈ done) (hb : b ∈ rest) (hb' : b ∈ done') (hp : a.site.Covers p)
    (hp' : b.site.Covers p) : a ∉ rest' := by
  intro ha'
  -- A leaf is last over its position, so both are apps, and each is inside the other.
  have hkind : a.kind = .app := by
    by_contra hkind
    exact h.not_covers_of_leaf ha hkind hp hb hp'
  have hkind' : b.kind = .app := by
    by_contra hkind'
    exact h'.not_covers_of_leaf hb' hkind' hp' ha' hp
  have hplace := (covers_app hkind).mp hp
  have hplace' := (covers_app hkind').mp hp'
  have hinner := h.place_prefix ha hb hkind hkind' hplace hplace'
  have hinner' := h'.place_prefix hb' ha' hkind' hkind hplace' hplace
  have hsame := hinner.eq_of_length_le hinner'.length_le
  have hmem := List.mem_append_left rest ha
  have hmem' := List.mem_append_right done hb
  exact h.key_ne ha hb (key_eq_of_place (h.inScope a hmem) (h.inScope b hmem') (h.hasName a hmem)
    (h.hasName b hmem') hkind hkind' hsame)

theorem Arranged.overlay_congr (hxs : Arranged xs) (hys : Arranged ys)
    (hmem : ∀ a, a.site.Covers p → (a ∈ xs ↔ a ∈ ys)) :
    overlay registry contents xs p = overlay registry contents ys p := by
  by_cases hcovered : ∃ a ∈ xs, a.site.Covers p
  · obtain ⟨a, ha, hp⟩ := hcovered
    obtain ⟨done, x, rest, rfl, hx, hlater⟩ := exists_last ⟨a, ha, hp⟩
    obtain ⟨done', y, rest', rfl, hy, hlater'⟩ := exists_last ⟨a, (hmem a hp).mp ha, hp⟩
    rw [overlay_of_last hx hlater, overlay_of_last hy hlater']
    suffices hsame : x = y by rw [hsame]
    by_contra hne
    have hydone : y ∈ done := by
      have hymem := (hmem y hy).mpr (by simp)
      simp only [List.mem_append, List.mem_cons] at hymem
      exact hymem.resolve_right fun hrest => hlater y (hrest.resolve_left (Ne.symm hne)) hy
    have hxdone : x ∈ done' := by
      have hxmem := (hmem x hx).mp (by simp)
      simp only [List.mem_append, List.mem_cons] at hxmem
      exact hxmem.resolve_right fun hrest => hlater' x (hrest.resolve_left hne) hx
    exact hxs.not_swapped hys hydone List.mem_cons_self hxdone hy hx List.mem_cons_self
  · rw [overlay_of_not_covers fun a ha hp => hcovered ⟨a, ha, hp⟩,
      overlay_of_not_covers fun a ha hp => hcovered ⟨a, (hmem a hp).mpr ha, hp⟩]

theorem Arranged.mem_of_mem (h : Arranged (done ++ component :: rest))
    (h' : Arranged (done' ++ component :: rest'))
    (hsub : ∀ b ∈ done, b ∈ done' ++ component :: rest') (hp : component.site.Covers p)
    (hb : b.site.Covers p) (hmem : b ∈ done) : b ∈ done' := by
  have hmem' := hsub b hmem
  simp only [List.mem_append, List.mem_cons] at hmem'
  obtain hdone | rfl | hrest := hmem'
  · exact hdone
  · exact absurd rfl (h.key_ne hmem List.mem_cons_self)
  · rw [List.append_cons] at h'
    exact absurd hrest (h.not_swapped h' hmem List.mem_cons_self (by simp) hb hp)

theorem Arranged.overlay_before (h : Arranged (done ++ component :: rest))
    (h' : Arranged (done' ++ component :: rest'))
    (hperm : (done ++ component :: rest).Perm (done' ++ component :: rest'))
    (hp : component.site.Covers p) :
    overlay registry contents done p = overlay registry contents done' p := by
  refine Arranged.overlay_congr h.of_append h'.of_append fun b hb => ⟨?_, ?_⟩
  · refine h.mem_of_mem h' (fun b hmem => hperm.mem_iff.mp ?_) hp hb
    exact List.mem_append_left _ hmem
  · refine h'.mem_of_mem h (fun b hmem => hperm.mem_iff.mpr ?_) hp hb
    exact List.mem_append_left _ hmem

end

section

variable {contents again : Contents} {scope : String}

theorem overlay_again_of_covers (hp : ∃ a ∈ done, a.site.Covers p) :
    overlay registry (overlay registry contents (done ++ rest)) done p =
      overlay registry contents done p :=
  overlay_of_covers hp

theorem overlay_again_of_not_covers (hp : ¬ ∃ a ∈ done, a.site.Covers p) :
    overlay registry (overlay registry contents (done ++ rest)) done p =
      overlay registry contents (done ++ rest) p :=
  overlay_of_not_covers fun a ha hcovers => hp ⟨a, ha, hcovers⟩

namespace Arranged

variable (h : Arranged (done ++ rest))

include h

theorem around_inside (ha : a ∈ done) (hkind : a.kind = .app)
    (hinside : a.site.place <+: Scope.names scope) :
    Around (overlay registry (overlay registry contents (done ++ rest)) done)
      (overlay registry contents done) scope := by
  intro outer item houter hsome
  by_cases hp : ∃ a ∈ done, a.site.Covers ⟨Scope.names outer, item⟩
  · rwa [overlay_again_of_covers hp]
  · rw [overlay_again_of_not_covers hp, overlay_append]
    apply isSome_overlay hsome
    -- A later app that could have taken something away here lies inside the app in question.
    intro b hb hcovers hkind'
    rw [covers_app hkind'] at hcovers
    have hinner := h.place_prefix ha hb hkind hkind' hinside
      (hcovers.trans (Scope.isInner_iff.mp houter).2.2)
    exact hp ⟨a, ha, (covers_app hkind).mpr (hinner.trans hcovers)⟩

omit h in
theorem around_outside (houtside : ∀ a ∈ done, a.kind = .app → ¬ a.site.place <+: Scope.names scope) :
    Around (overlay registry (overlay registry contents (done ++ rest)) done)
      (overlay registry contents (done ++ rest)) scope := by
  intro outer item houter hsome
  apply isSome_overlay hsome
  intro a ha hcovers hkind
  rw [covers_app hkind] at hcovers
  exact houtside a ha hkind (hcovers.trans (Scope.isInner_iff.mp houter).2.2)

theorem overlay_outside (houtside : ∀ a ∈ done, a.kind = .app → ¬ a.site.Covers p) :
    overlay registry (overlay registry contents (done ++ rest)) done p =
      overlay registry contents (done ++ rest) p := by
  by_cases hp : ∃ a ∈ done, a.site.Covers p
  · obtain ⟨a, ha, hcovers⟩ := hp
    have hkind : a.kind ≠ .app := fun hkind => houtside a ha hkind hcovers
    rw [overlay_again_of_covers ⟨a, ha, hcovers⟩, overlay_append,
      overlay_of_not_covers fun b hb => h.not_covers_of_leaf ha hkind hcovers hb]
  · exact overlay_again_of_not_covers hp

end Arranged

theorem hasChannel_overlay {contents' : Contents} {target : String}
    (h : (overlay registry contents components).HasChannel target)
    (h' : contents'.HasChannel target) :
    (overlay registry contents' components).HasChannel target := by
  refine ⟨h.1, ?_⟩
  by_cases hq : ∃ a ∈ components,
      a.site.Covers ⟨Scope.names (Scope.parent target), .channel (Scope.leaf target)⟩
  · rw [overlay_of_covers hq]
    exact h.2
  · rw [overlay_of_not_covers fun a ha hcovers => hq ⟨a, ha, hcovers⟩]
    exact h'.2

theorem hasChannel_lay {contents' : Contents} {target : String}
    (h : (lay registry contents component).HasChannel target)
    (h' : contents'.HasChannel target) : (lay registry contents' component).HasChannel target := by
  have hoverlay (contents : Contents) :
      overlay registry contents [component] = lay registry contents component := rfl
  rw [← hoverlay] at h ⊢
  exact hasChannel_overlay h h'

namespace Arranged

variable (h : Arranged (done ++ component :: rest))

include h

theorem isSome_parent_again
    (hparent : (overlay registry contents done
      ⟨Scope.names component.info.parent, .app⟩).isSome) :
    (overlay registry (overlay registry contents (done ++ component :: rest)) done
      ⟨Scope.names component.info.parent, .app⟩).isSome := by
  by_cases hp : ∃ a ∈ done, a.site.Covers ⟨Scope.names component.info.parent, .app⟩
  · rwa [overlay_again_of_covers hp]
  · rw [overlay_again_of_not_covers hp, overlay_append]
    apply isSome_overlay hparent
    intro b hb hcovers hkind
    rw [covers_app hkind] at hcovers
    have hmem : b ∈ done ++ component :: rest := List.mem_append_right done hb
    refine not_prefix_parent ?_ (h.inScope b hmem) (h.hasName b hmem) hkind hcovers
    rcases List.mem_cons.mp hb with rfl | hb
    · exact .inr rfl
    · rw [List.append_cons] at h
      exact .inl (h.before (by simp) hb)

theorem lay_again (registry : Registry) (contents : Contents)
    (hfree : ∀ b ∈ rest, ¬ component.Houses b) :
    lay registry (overlay registry contents (done ++ component :: rest)) component =
      overlay registry contents (done ++ component :: rest) := by
  funext p
  rw [lay]
  split
  · next hp =>
    exact (overlay_of_last hp fun b hb => h.not_covers_of_free hfree hp hb).symm
  · rfl

theorem unsevered_again (hfree : ∀ b ∈ rest, ¬ component.Houses b)
    (hfirst : (overlay registry contents (done ++ [component])).Unsevered)
    (hlast : (overlay registry contents (done ++ component :: rest)).Unsevered)
    (hagain : (overlay registry (overlay registry contents (done ++ component :: rest))
      done).Unsevered) :
    (overlay registry (overlay registry contents (done ++ component :: rest))
      (done ++ [component])).Unsevered := by
  have hrests := h.lay_again registry contents hfree
  generalize overlay registry contents (done ++ component :: rest) = last at *
  rw [overlay_concat]
  intro p target hdotted
  have hdotted {other : Contents}
      (hsame : other p = lay registry (overlay registry last done) component p) :
      other.Dotted p target := by
    rw [Contents.Dotted, hsame]
    exact hdotted
  by_cases hp : component.site.Covers p
  · -- The alias is in the component, so its channel was there at once and also in the end.
    rw [← overlay_concat]
    apply hasChannel_overlay (hfirst p target (hdotted ?_)) (hlast p target (hdotted ?_))
    · rw [overlay_concat, lay, lay, if_pos hp, if_pos hp]
    · rw [← congrFun hrests p, lay, lay, if_pos hp, if_pos hp]
  · -- Elsewhere its channel was there still, or the component brings it back.
    have hagain := hagain p target (hdotted (if_neg hp).symm)
    by_cases hp' : ∃ a ∈ done, a.site.Covers p
    · rw [overlay_concat] at hfirst
      apply hasChannel_lay (hfirst p target (hdotted ?_)) hagain
      rw [lay, lay, if_neg hp, if_neg hp, overlay_of_covers hp']
    · rw [← hrests] at hlast
      apply hasChannel_lay (hlast p target (hdotted ?_)) hagain
      have houtside : ∀ a ∈ done, ¬ a.site.Covers p := fun a ha hcovers => hp' ⟨a, ha, hcovers⟩
      rw [lay, lay, if_neg hp, if_neg hp, overlay_of_not_covers houtside]

end Arranged

end

end Component

end AppTopology
