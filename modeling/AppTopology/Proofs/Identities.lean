import AppTopology.Fixture
import AppTopology.Proofs.Steps

namespace AppTopology

namespace App

def UniquelyIdentified (app : App) : Prop :=
  ∀ p q u, app.uuid? p = some u → app.uuid? q = some u → u ≠ "" → p = q

variable {app before after : App} {p : Position} {u : String}

theorem uuid?_empty (h : ({} : App).uuid? p = some u) : u = "" := by
  obtain ⟨info, hinfo, rfl⟩ := Option.map_eq_some_iff.mp h
  obtain ⟨place, item⟩ := p
  cases place with
  | nil =>
    cases item with
    | app =>
      injection hinfo with hinfo
      rw [← hinfo]
    | channel name => exact nomatch hinfo
    | channelType name => exact nomatch hinfo
    | channelAlias name => exact nomatch hinfo
  | cons key place => exact nomatch hinfo

end App

namespace Store

variable {store store' store'' opened : Store} {staged : App} {p q : Position} {u : String}

def Unissued (store : Store) (u : String) : Prop :=
  ∀ n, store.supply.next ≤ n → store.supply.mint n ≠ u

structure Distinct (store : Store) : Prop where
  identified : ∀ p u, store.tree.uuid? p = some u → u ≠ ""
  unique : ∀ p q u, store.tree.uuid? p = some u → store.tree.uuid? q = some u → p = q
  unissued : ∀ p u, store.tree.uuid? p = some u → store.Unissued u

theorem distinct_commit (hmint : Function.Injective store.supply.mint) (hstaged : staged.Ordered)
    (hunique : staged.UniquelyIdentified)
    (hunissued : ∀ p u, staged.uuid? p = some u → store.Unissued u) :
    (store.commit staged).Distinct := by
  obtain ⟨num, huuid, hnum⟩ := store.uuid?_commit hstaged
  have hcases : ∀ p u, (store.commit staged).tree.uuid? p = some u →
      staged.uuid? p = some u ∧ u ≠ "" ∨
        staged.uuid? p = some "" ∧ u = store.supply.mint (num p) := by
    intro p u hu
    rw [huuid, Option.map_eq_some_iff] at hu
    obtain ⟨old, hold, rfl⟩ := hu
    by_cases hempty : old = ""
    · rw [if_pos hempty]
      exact Or.inr ⟨hempty ▸ hold, rfl⟩
    · rw [if_neg hempty]
      exact Or.inl ⟨hold, hempty⟩
  constructor
  · intro p u hu
    rcases hcases p u hu with ⟨-, hne⟩ | ⟨-, rfl⟩
    · exact hne
    · exact store.supply.mint_ne_empty _
  · intro p q u hp hq
    rcases hcases p u hp with ⟨hp, hne⟩ | ⟨hp, hpu⟩
    · rcases hcases q u hq with ⟨hq, -⟩ | ⟨hq, hqu⟩
      · exact hunique p q u hp hq hne
      · exact absurd hqu.symm (hunissued p u hp _ (hnum.range q hq).1)
    · rcases hcases q u hq with ⟨hq, -⟩ | ⟨hq, hqu⟩
      · exact absurd hpu.symm (hunissued q u hq _ (hnum.range p hp).1)
      · exact hnum.injective p q hp hq (hmint (hpu.symm.trans hqu))
  · intro p u hu n hn
    have hle := hnum.le
    rcases hcases p u hu with ⟨hp, -⟩ | ⟨hp, rfl⟩
    · exact hunissued p u hp n (Nat.le_trans hle hn)
    · intro heq
      have hlt := (hnum.range p hp).2
      have hsame : n = num p := hmint heq
      omega

structure Renews (store store' : Store) : Prop where
  mint_eq : store'.supply.mint = store.supply.mint
  next_le : store.supply.next ≤ store'.supply.next
  uuid? : ∀ p u, store'.tree.uuid? p = some u → store.tree.uuid? p = some u ∨
    store.tree.uuid? p = none ∧ ∃ n, store.supply.next ≤ n ∧ store.supply.mint n = u

theorem renews_commit (hstore : store.tree.Committed) (hstaged : staged.Ordered)
    (hcarries : store.tree.Carries staged) : Renews store (store.commit staged) := by
  obtain ⟨num, huuid, hnum⟩ := store.uuid?_commit hstaged
  refine ⟨rfl, hnum.le, ?_⟩
  intro p u hu
  rw [huuid, Option.map_eq_some_iff] at hu
  obtain ⟨old, hold, rfl⟩ := hu
  by_cases hempty : old = ""
  · subst hempty
    rw [if_pos rfl]
    refine Or.inr ⟨?_, num p, (hnum.range p hold).1, rfl⟩
    have hcarried := hcarries.uuid? hold
    cases htree : store.tree.uuid? p with
    | none => rfl
    | some u =>
      obtain ⟨info, hinfo, rfl⟩ := Option.map_eq_some_iff.mp htree
      rw [htree] at hcarried
      exact absurd hcarried.symm (hstore.identified p info hinfo)
  · rw [if_neg hempty]
    exact Or.inl (hcarries.uuid?_of_ne_empty hold hempty)

theorem Step.renews (h : Step store store') (hstore : store.tree.Committed) :
    Renews store store' := by
  obtain ⟨htree, hsupply⟩ | ⟨target, edited, log, haccepted, rfl⟩ := h.commit_or_eq hstore.ordered
  · refine ⟨by rw [hsupply], Nat.le_of_eq (by rw [hsupply]), ?_⟩
    intro p u hu
    rw [htree] at hu
    exact .inl hu
  · exact renews_commit hstore (haccepted.checked hstore.ordered).ordered
      (haccepted.edit.carries.mapInfo fun _ _ => rfl)

theorem Step.distinct (h : Step store store') (hmint : Function.Injective store.supply.mint)
    (hstore : store.tree.Committed) (hdistinct : store.Distinct) : store'.Distinct := by
  obtain ⟨htree, hsupply⟩ | ⟨target, edited, log, haccepted, rfl⟩ := h.commit_or_eq hstore.ordered
  · constructor
    · rw [htree]
      exact hdistinct.identified
    · rw [htree]
      exact hdistinct.unique
    · rw [htree]
      simp only [Unissued, hsupply]
      exact hdistinct.unissued
  · -- Whatever callers gave as an identity is gone: an edit carries over, or leaves none.
    have hcarries := haccepted.edit.carries
    apply distinct_commit hmint (haccepted.checked hstore.ordered).ordered
    · intro p q u hp hq hne
      rw [App.uuid?_filed] at hp hq
      exact hdistinct.unique p q u (hcarries.uuid?_of_ne_empty hp hne)
        (hcarries.uuid?_of_ne_empty hq hne)
    · intro p u hp n hn
      rw [App.uuid?_filed] at hp
      by_cases hempty : u = ""
      · rw [hempty]
        exact store.supply.mint_ne_empty n
      · exact hdistinct.unissued p u (hcarries.uuid?_of_ne_empty hp hempty) n hn

theorem Renews.keeps (h : Renews store store') {u' : String} (hu : store.tree.uuid? p = some u)
    (hu' : store'.tree.uuid? p = some u') : u' = u := by
  rcases h.uuid? p u' hu' with hsame | ⟨hnone, -⟩
  · rw [hu] at hsame
    exact (Option.some.inj hsame).symm
  · rw [hu] at hnone
    simp at hnone

def Gone (store : Store) (u : String) : Prop :=
  (∀ q, store.tree.uuid? q ≠ some u) ∧ store.Unissued u

theorem Renews.unissued (h : Renews store store') (hu : store.Unissued u) :
    store'.Unissued u := by
  intro n hn
  rw [h.mint_eq]
  exact hu n (Nat.le_trans h.next_le hn)

theorem Renews.gone (h : Renews store store') (hu : store.Gone u) : store'.Gone u := by
  refine ⟨?_, h.unissued hu.2⟩
  intro q hq
  rcases h.uuid? q u hq with hsame | ⟨-, n, hn, hmint⟩
  · exact hu.1 q hsame
  · exact hu.2 n hn hmint

theorem Renews.gone_of_none (h : Renews store store') (hdistinct : store.Distinct)
    (hu : store.tree.uuid? p = some u) (hnone : store'.tree.uuid? p = none) : store'.Gone u := by
  have hunissued := hdistinct.unissued p u hu
  refine ⟨?_, h.unissued hunissued⟩
  intro q hq
  rcases h.uuid? q u hq with hsame | ⟨-, n, hn, hmint⟩
  · have hpq := hdistinct.unique p q u hu hsame
    rw [← hpq, hnone] at hq
    simp at hq
  · exact hunissued n hn hmint

structure Sound (store : Store) : Prop where
  mint : Function.Injective store.supply.mint
  committed : store.tree.Committed
  distinct : store.Distinct

theorem Step.sound (h : Step store store') (hstore : store.Sound) : store'.Sound where
  mint := by
    rw [(h.renews hstore.committed).mint_eq]
    exact hstore.mint
  committed := h.committed hstore.committed
  distinct := h.distinct hstore.mint hstore.committed hstore.distinct

theorem Steps.sound (h : Steps store store') (hstore : store.Sound) : store'.Sound := by
  induction h with
  | refl => exact hstore
  | tail _ hstep ih => exact hstep.sound ih

theorem Steps.gone (h : Steps store store') (hstore : store.Sound) (hu : store.Gone u) :
    store'.Gone u := by
  induction h with
  | refl => exact hu
  | tail hsteps hstep ih =>
    have hsound := Steps.sound hsteps hstore
    exact (hstep.renews hsound.committed).gone ih

theorem Steps.uuid?_or_gone (h : Steps store store') (hstore : store.Sound)
    (hu : store.tree.uuid? p = some u) : store'.tree.uuid? p = some u ∨ store'.Gone u := by
  induction h with
  | refl => exact .inl hu
  | @tail middle last hsteps hstep ih =>
    have hsound := Steps.sound hsteps hstore
    have hrenews := hstep.renews hsound.committed
    rcases ih with hu | hgone
    · cases hlast : last.tree.uuid? p with
      | none => exact .inr (hrenews.gone_of_none hsound.distinct hu hlast)
      | some u' => exact .inl (congrArg some (hrenews.keeps hu hlast))
    · exact .inr (hrenews.gone hgone)

/-- Opened over nothing, or over a tree whose identities are unique and not among those that the
supply gives. -/
inductive OpenedUnique : Store → Prop where
  | empty (registry : Registry) {supply : Supply} : Function.Injective supply.mint →
    OpenedUnique (Store.empty registry supply)
  | restore {root : App} {registry : Registry} {supply : Supply} {store : Store} :
    Function.Injective supply.mint → root.Ordered → root.UniquelyIdentified →
    (∀ p u, root.uuid? p = some u → ∀ n, supply.next ≤ n → supply.mint n ≠ u) →
    Store.restore root registry supply = .ok store → OpenedUnique store

theorem OpenedUnique.sound (h : OpenedUnique store) : store.Sound := by
  cases h with
  | @empty registry supply hmint =>
    refine ⟨hmint, (Opened.empty registry supply).committed, ?_⟩
    apply distinct_commit hmint App.ordered_empty
    · intro p q u hp _ hne
      exact absurd (App.uuid?_empty hp) hne
    · intro p u hp n _
      rw [App.uuid?_empty hp]
      exact supply.mint_ne_empty n
  | @restore root registry supply store hmint hroot hunique hunissued hrestore =>
    have hcommitted := (Opened.restore hroot hrestore).committed
    obtain ⟨-, -, rfl⟩ := (restore_eq_ok hroot).mp hrestore
    refine ⟨hmint, hcommitted, ?_⟩
    apply distinct_commit hmint hroot.filed
    · intro p q u hp hq hne
      rw [App.uuid?_filed] at hp hq
      exact hunique p q u hp hq hne
    · intro p u hp
      rw [App.uuid?_filed] at hp
      exact hunissued p u hp

/-- No two entities share an identity, what stays keeps its own, and that of what is gone does not
come back. -/
theorem identities (h : OpenedUnique opened) :
    (∀ calls : List Call, (∀ call ∈ calls, call.Ordered) → Steps opened (opened.run calls)) ∧
    ∀ store, Steps opened store →
      (∀ p u, store.tree.uuid? p = some u → u ≠ "") ∧
      (∀ p q u, store.tree.uuid? p = some u → store.tree.uuid? q = some u → p = q) ∧
      (∀ next p u u', Step store next → store.tree.uuid? p = some u →
        next.tree.uuid? p = some u' → u' = u) ∧
      (∀ later last p u, Steps store later → Steps later last → store.tree.uuid? p = some u →
        later.tree.uuid? p = none → ∀ q, last.tree.uuid? q ≠ some u) := by
  refine ⟨fun calls hcalls => opened.steps_run hcalls, ?_⟩
  intro store hsteps
  have hsound := Steps.sound hsteps h.sound
  refine ⟨hsound.distinct.identified, hsound.distinct.unique, ?_, ?_⟩
  · intro next p u u' hstep hu hu'
    exact (hstep.renews hsound.committed).keeps hu hu'
  · intro later last p u hlater hlast hu hnone
    rcases Steps.uuid?_or_gone hlater hsound hu with hsame | hgone
    · rw [hnone] at hsame
      simp at hsame
    · exact (Steps.gone hlast (Steps.sound hlater hsound) hgone).1

theorem identities_billing :
    let created := (Store.empty {} .unary).run [.mutate (.create "" (.app Fixture.billing)) {}]
    let deleted := created.run [.mutate (.delete (.app "billing")) {}]
    let recreated := deleted.run [.mutate (.create "" (.app Fixture.billing)) {}]
    ∀ p u, created.tree.uuid? p = some u → deleted.tree.uuid? p = none →
      ∀ q, recreated.tree.uuid? q ≠ some u := by
  intro created deleted recreated p u hcreated hdeleted
  have hbilling : Fixture.billing.Ordered := by decide +kernel
  have hopened : OpenedUnique (Store.empty {} .unary) := .empty {} Supply.mint_unary_injective
  have hcreate : ∀ call ∈ [Call.mutate (.create "" (.app Fixture.billing)) {}], call.Ordered :=
    List.forall_mem_singleton.mpr hbilling
  have hdelete : ∀ call ∈ [Call.mutate (.delete (.app "billing")) {}], call.Ordered :=
    List.forall_mem_singleton.mpr trivial
  obtain ⟨hcalls, hstates⟩ := identities hopened
  obtain ⟨-, -, -, hgone⟩ := hstates created (hcalls _ hcreate)
  exact hgone deleted recreated p u (created.steps_run hdelete) (deleted.steps_run hcreate)
    hcreated hdeleted

end Store

end AppTopology
