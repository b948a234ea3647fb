import AppTopology.Proofs.Putting
import AppTopology.Proofs.Rules

/-!
A creation can be refused for what is wrong with the new entity, or because an alias that leads
nowhere hides what an app reads. Whatever else stood in the tree passes its check as before, so that
it is enough to check the new entity at its place.
-/

namespace AppTopology

namespace Component

def adopt (scope : String) : Component → Except TopologyError Component
  | .channelType declared => do
    return .channelType { declared with info := ← declared.info.adopt declared.info.name scope }
  | .channel declared => do
    return .channel { declared with info := ← declared.info.adopt declared.info.name scope }
  | .app declared => do
    let info ← declared.info.adopt declared.info.name scope
    let below ← declared.adoptBelow (Scope.child scope declared.info.name)
    return .app (below.withInfo info)
  | .channelAlias declared => do
    return .channelAlias { declared with info := ← declared.info.adopt declared.info.name scope }

def validate (root : App) (scope : String) : Component → Except TopologyError Unit
  | .channelType declared => App.validateType scope declared.info.name declared
  | .channel declared => root.validateChannel scope declared.info.name declared
  | .app declared => root.validateAt (Scope.child scope declared.info.name) declared
  | .channelAlias declared => root.validateAlias scope declared.info.name declared

end Component

namespace App

def Extends (before after : App) : Prop :=
  ∀ p entity, before.entity? p = some entity → after.entity? p = some entity

namespace Extends

variable {before after : App} {scope target : String}

theorem isSome_contents (h : before.Extends after) {p : Position}
    (hsome : (before.contents p).isSome) : (after.contents p).isSome := by
  rw [App.isSome_contents] at hsome ⊢
  obtain ⟨entity, hentity⟩ := Option.isSome_iff_exists.mp hsome
  rw [h p entity hentity]
  rfl

theorem around (h : before.Extends after) (scope : String) :
    Around after.contents before.contents scope :=
  fun _ _ _ hsome => h.isSome_contents hsome

theorem isSome_resolveTarget (h : before.Extends after) (hscope : Scope.isScope scope)
    (hsome : (before.resolveTarget scope target).isSome) :
    (after.resolveTarget scope target).isSome := by
  by_cases hdot : '.' ∈ target.toList
  · rw [isSome_resolveTarget_dotted hdot] at hsome ⊢
    exact ⟨hsome.1, h.isSome_contents hsome.2⟩
  · exact isSome_resolveTarget_of_around (h.around scope) hscope hdot hsome

theorem validate (h : before.Extends after) (hbefore : before.Checked)
    (hnames : before.PlacedByNames) {p : Position} {entity : Entity}
    (hentity : before.entity? p = some entity)
    (hnew : ∀ place name declared, place <+: p.place → (before.at? place).isSome →
      entity.Binds name → before.entity? ⟨place, .channelAlias name⟩ = none →
      after.entity? ⟨place, .channelAlias name⟩ = some (.channelAlias declared) →
        (after.resolveTarget (Scope.under "" place) declared.target).isSome) :
    entity.validate after (Scope.under "" p.place) p.name = .ok () := by
  have hvalid := (validateAt_iff hbefore.ordered).mp hbefore.valid
  obtain ⟨app, happ, -⟩ := Option.bind_eq_some_iff.mp hentity
  have hscope := hbefore.isScope_under happ
  refine Entity.validate_transfer
    (fun name hbinds => isSome_resolveBoundary_of_around (h.around _) hscope ?_)
    (fun name => isSome_resolveType_of_around (h.around _) hscope)
    (fun target => h.isSome_resolveTarget hscope) (hvalid p entity hentity)
  intro outer declared houter halias
  obtain ⟨houterScope, -, rest, hrest⟩ := Scope.isInner_iff.mp houter
  rw [Scope.under_empty (hnames _ _ happ), Scope.names_join (hnames _ _ happ)] at hrest
  -- The scopes around an app of the earlier tree are apps of the earlier tree.
  have hplace : (before.at? (Scope.names outer)).isSome := by
    rw [← hrest, at?_append] at happ
    exact Option.isSome_of_isSome_bind (Option.isSome_of_eq_some happ)
  have hafter : after.entity? ⟨Scope.names outer, .channelAlias name⟩ =
      some (.channelAlias declared) :=
    (entity?_eq_leafIn? embeds_channelAlias after outer name).trans (congrArg _ halias)
  cases hold : before.entity? ⟨Scope.names outer, .channelAlias name⟩ with
  | none =>
    have hsome := hnew _ name declared ⟨rest, hrest⟩ hplace hbinds hold hafter
    rwa [Scope.under_names houterScope] at hsome
  | some old =>
    rw [h _ old hold] at hafter
    obtain rfl := Option.some.inj hafter
    have hsome := (validateAlias_eq_ok.mp (hvalid _ _ hold)).2.2
    rw [Scope.under_names houterScope] at hsome
    exact h.isSome_resolveTarget houterScope hsome

end Extends

end App

namespace Component

variable {registry : Registry} {component adopted : Component} {tree : App} {scope : String}

theorem exists_adopted (hkind : component.kind ≠ .app) (scope : String) :
    ∃ adopted entity, component.adopt scope = .ok adopted ∧
      (∀ p, component.entity? p = some entity) ∧ entity.info = component.info ∧
        ∀ root, adopted.validate root scope =
          entity.validate root scope component.info.name := by
  let filed (info : Metadata) : Metadata :=
    { info with parent := scope, reference := Scope.child scope info.name }
  have hadopt (info : Metadata) : info.adopt info.name scope = .ok (filed info) := if_pos (.inr rfl)
  cases component with
  | channelType declared =>
    refine ⟨.channelType { declared with info := filed declared.info }, .channelType declared, ?_,
      fun _ => rfl, rfl, fun _ => rfl⟩
    rw [adopt, hadopt]
    rfl
  | channel declared =>
    refine ⟨.channel { declared with info := filed declared.info }, .channel declared, ?_,
      fun _ => rfl, rfl, fun _ => rfl⟩
    rw [adopt, hadopt]
    rfl
  | app => exact absurd rfl hkind
  | channelAlias declared =>
    refine ⟨.channelAlias { declared with info := filed declared.info }, .channelAlias declared, ?_,
      fun _ => rfl, rfl, fun _ => rfl⟩
    rw [adopt, hadopt]
    rfl

end Component

namespace Position

variable {p : Position}

end Position

namespace Mutation

variable {component : Component} {scope : String}

variable {registry : Registry} {tree edited : App} {adopted : Component} {p : Position}

section

variable (hcomponent : component.Ordered) (htree : tree.Checked)
variable (hedit : ((create scope component).route registry).edit tree = .ok edited)

include hcomponent htree hedit

omit hcomponent htree in
theorem exists_created_leaf (hscope : Scope.isScope scope) (hkind : component.kind ≠ .app)
    (hadopt : component.adopt scope = .ok adopted) :
    ∃ q found, (∀ p, (create scope component).target.Covers p ↔ p = q) ∧
      edited.filed.entity? q = some found ∧
        found.validate edited.filed (Scope.under "" q.place) q.name =
          adopted.validate edited.filed scope := by
  obtain ⟨_, entity, hadopt', hentity, hinfo, hvalidate⟩ := component.exists_adopted hkind scope
  obtain rfl := Except.ok.inj (hadopt.symm.trans hadopt')
  obtain ⟨q, hplace, hname, hcovers⟩ : ∃ q : Position, q.place = Scope.names scope ∧
      q.name = component.info.name ∧ ∀ p, (create scope component).target.Covers p ↔ p = q := by
    cases component with
    | app => exact absurd rfl hkind
    | channelType | channel | channelAlias => exact ⟨_, rfl, rfl, fun _ => Iff.rfl⟩
  have hdeclared := declared_of_edit hedit ((hcovers q).mpr rfl)
  have hsubmitted : (create scope component).submitted q = some entity := hentity _
  rw [hsubmitted, Option.map_some, Option.map_eq_some_iff] at hdeclared
  obtain ⟨found, hfound, hdeclared⟩ := hdeclared
  have hfiled : found.info.name = entity.info.name := by
    rw [App.filed, App.entity?_mapInfo, Option.map_eq_some_iff] at hfound
    obtain ⟨_, -, rfl⟩ := hfound
    rw [Entity.info_mapInfo, hinfo, ← hname]
    rfl
  refine ⟨q, found, hcovers, hfound, ?_⟩
  rw [hvalidate, Entity.validate_congr hdeclared hfiled, hplace, Scope.under_names hscope, hname]

end

end Mutation

namespace App

variable {root next app : App} {scope : String}

end App

namespace Mutation

variable {registry : Registry} {tree edited staged app : App} {component adopted : Component}
variable {scope : String}

section

variable (hcomponent : component.Ordered) (htree : tree.Checked)
variable (hedit : ((create scope component).route registry).edit tree = .ok edited)
variable (hscope : Scope.isScope scope) (hname : Scope.isName component.info.name)

include hcomponent htree hedit hscope hname

end

end Mutation

namespace Store

variable {store : Store} {mutation : Mutation} {mode : Mode} {component : Component}
variable {scope : String} {edited : App}

end Store

end AppTopology
