import AppTopology.Proofs.Frame
import AppTopology.Proofs.Listing
import Mathlib.Data.List.Lex
import Mathlib.Data.List.Sort

namespace AppTopology

instance : Std.Asymm Position.Earlier where
  asymm := by
    rintro step next (hturn | ⟨hkind, hname⟩) (hturn' | ⟨hkind', hname'⟩)
    · omega
    · rw [hkind'] at hturn
      omega
    · rw [hkind] at hturn'
      omega
    · exact String.lt_asymm hname hname'

instance : Std.Asymm Position.Before where
  asymm p q :=
    have hlex : Std.Asymm (List.Lex Position.Earlier) := inferInstance
    hlex.asymm p.steps q.steps

namespace Diff

variable {identity : Bool} {path scope : String} {p : Position}

theorem text?_declared (entity : Entity) {field : Field} (h : field ≠ .identity) :
    entity.declared.text? field = entity.text? field := by
  cases entity <;> cases field <;> first | rfl | exact absurd rfl h

theorem kind_declared (entity : Entity) : entity.declared.kind = entity.kind := by
  cases entity <;> rfl

theorem kind_eq {entity entity' : Entity} (h : entity.declared = entity'.declared) :
    entity.kind = entity'.kind := by
  rw [← kind_declared, h, kind_declared]

theorem boundary_declared (entity : Entity) : entity.declared.boundary = entity.boundary := by
  cases entity <;> rfl

theorem fields_declared (identity : Bool) (old new : Entity) :
    fields identity old.declared new.declared = fields identity old new := by
  have hannotations (entity : Entity) :
      entity.declared.info.annotations = entity.info.annotations := by
    rw [entity.info_declared]
    rfl
  have henvironment (entity : Entity) : entity.declared.environment = entity.environment := by
    cases entity <;> rfl
  simp only [fields, kind_declared, hannotations, henvironment]

theorem entity_congr {old old' new new' : Entity} (hold : old'.declared = old.declared)
    (hnew : new'.declared = new.declared) (hkept : new.info.uuid = old.info.uuid)
    (hkept' : new'.info.uuid = old'.info.uuid) :
    entity identity path (some old) (some new) = entity identity path (some old') (some new') := by
  have hfields : fields identity old new = fields identity old' new' := by
    rw [← fields_declared, ← hold, ← hnew, fields_declared]
  have hboundary : old'.boundary = old.boundary := by
    rw [← boundary_declared, hold, boundary_declared]
  have hboundary' : new'.boundary = new.boundary := by
    rw [← boundary_declared, hnew, boundary_declared]
  have hrecord : fieldRecord path old new = fieldRecord path old' new' := by
    funext field
    rw [fieldRecord, fieldRecord, kind_eq hold]
    by_cases hfield : field = .identity
    · subst hfield
      simp only [Entity.text?, hkept, hkept', fieldChange, if_true]
    · rw [← text?_declared old hfield, ← text?_declared new hfield, ← hold, ← hnew,
        text?_declared old' hfield, text?_declared new' hfield]
  rw [entity, entity, hfields, hboundary, hboundary', hrecord]

end Diff

def App.KeptAt (before after : App) (p : Position) : Prop :=
  ∀ u u', before.uuid? p = some u → after.uuid? p = some u' → u' = u

theorem App.SameAt.keptAt {before after : App} {p : Position} (h : before.SameAt after p) :
    before.KeptAt after p := by
  intro u u' hu hu'
  rw [h.uuid, hu, Option.some.injEq] at hu'
  exact hu'.symm

namespace Diff

variable {identity : Bool} {scope : String} {p : Position} {old old' new new' : App}

theorem recordsAt_congr
    (hold : (old'.entity? p).map Entity.declared = (old.entity? p).map Entity.declared)
    (hnew : (new'.entity? p).map Entity.declared = (new.entity? p).map Entity.declared)
    (hkept : old.KeptAt new p) (hkept' : old'.KeptAt new' p) :
    recordsAt identity scope (some old) (some new) p =
      recordsAt identity scope (some old') (some new') p := by
  have huuid {root : App} {entity : Entity} (hentity : root.entity? p = some entity) :
      root.uuid? p = some entity.info.uuid := by
    rw [App.uuid?, App.info?_eq, hentity]
    rfl
  simp only [recordsAt, Option.bind_some]
  cases ho : old.entity? p with
  | none =>
    rw [ho, Option.map_none, Option.map_eq_none_iff] at hold
    rw [hold]
    cases hn : new.entity? p with
    | none =>
      rw [hn, Option.map_none, Option.map_eq_none_iff] at hnew
      rw [hnew]
    | some n =>
      rw [hn, Option.map_some] at hnew
      obtain ⟨n', hn', hsame⟩ := Option.map_eq_some_iff.mp hnew
      rw [hn', entity, entity, kind_eq hsame]
  | some o =>
    rw [ho, Option.map_some] at hold
    obtain ⟨o', ho', hsame⟩ := Option.map_eq_some_iff.mp hold
    rw [ho']
    cases hn : new.entity? p with
    | none =>
      rw [hn, Option.map_none, Option.map_eq_none_iff] at hnew
      rw [hnew, entity, entity, kind_eq hsame]
    | some n =>
      rw [hn, Option.map_some] at hnew
      obtain ⟨n', hn', hsame'⟩ := Option.map_eq_some_iff.mp hnew
      rw [hn']
      exact entity_congr hsame hsame' (hkept _ _ (huuid ho) (huuid hn))
        (hkept' _ _ (huuid ho') (huuid hn'))

theorem recordsAt_eq_nil (h : old.SameAt new p) :
    recordsAt identity scope (some old) (some new) p = [] := by
  have hself : recordsAt identity scope (some old) (some old) p = [] := by
    rw [recordsAt, Option.bind_some]
    cases old.entity? p with
    | none => rfl
    | some o => exact (entity_eq_nil_iff rfl).mpr ⟨fun _ _ => rfl, fun _ => rfl⟩
  have hsame : old.SameAt old p := ⟨rfl, rfl⟩
  rw [← hself]
  exact recordsAt_congr rfl h.content.symm h.keptAt hsame.keptAt

theorem flatMap_filter_ne_nil {α β : Type} [DecidableEq β] (f : α → List β) (xs : List α) :
    (xs.filter (f · ≠ [])).flatMap f = xs.flatMap f := by
  induction xs with
  | nil => rfl
  | cons x xs ih =>
    rw [List.filter_cons, List.flatMap_cons, ← ih]
    split
    · rw [List.flatMap_cons]
    · next hnone =>
      have hnil : f x = [] := by simpa using hnone
      rw [hnil, List.nil_append]

theorem mem_of_recordsAt_ne_nil {positions : List Position}
    (hlisting : Listing (some old) (some new) positions)
    (hp : recordsAt identity scope (some old) (some new) p ≠ []) : p ∈ positions := by
  obtain ⟨change, hchange⟩ := List.exists_mem_of_ne_nil _ hp
  exact hlisting.covers p (stands_of_mem_recordsAt hchange)

theorem flatMap_recordsAt_eq {positions positions' : List Position}
    (hlisting : Listing (some old) (some new) positions)
    (hlisting' : Listing (some old') (some new') positions')
    (h : ∀ p, recordsAt identity scope (some old) (some new) p =
      recordsAt identity scope (some old') (some new') p) :
    positions.flatMap (recordsAt identity scope (some old) (some new)) =
      positions'.flatMap (recordsAt identity scope (some old') (some new')) := by
  -- Positions without records do not matter; of those that have some, both lists have the same.
  rw [← flatMap_filter_ne_nil, ← flatMap_filter_ne_nil _ positions', ← funext h]
  congr 1
  apply List.Pairwise.eq_of_mem_iff (hlisting.sorted.filter _) (hlisting'.sorted.filter _)
  intro p
  simp only [List.mem_filter, decide_eq_true_eq]
  constructor
  · exact fun ⟨_, hp⟩ => ⟨mem_of_recordsAt_ne_nil hlisting' (h p ▸ hp), hp⟩
  · exact fun ⟨_, hp⟩ => ⟨mem_of_recordsAt_ne_nil hlisting hp, hp⟩

end Diff

end AppTopology
