import AppTopology.Proofs.Severance

/-!
The check of an entity asks of the rest of the tree only where names lead.
-/

namespace AppTopology

def Entity.validate (root : App) (path name : String) : Entity → Except TopologyError Unit
  | app info boundary node => root.validateOwn path { info, boundary, node }
  | channel c => root.validateChannel path name c
  | channelType t => App.validateType path name t
  | channelAlias a => root.validateAlias path name a

def Entity.Binds (name : String) : Entity → Prop
  | app _ boundary _ => ∃ direction, (direction, name) ∈ boundary.entries
  | channel _ | channelType _ | channelAlias _ => False

namespace App

variable {root root' app inner : App} {own : App.Own} {path : String} {u : Unit}
variable {place : List String}

theorem Own.valid_iff (place : List String) : own.Valid root path ↔
    ∀ item entity, own.entity? item = some entity →
      entity.validate root path (Position.name ⟨place, item⟩) = .ok () := by
  constructor
  · intro h item entity hentity
    cases item with
    | app =>
      obtain rfl := Option.some.inj hentity
      exact validateOwn_eq_ok.mpr ⟨h.name, h.node, h.boundary⟩
    | channel name =>
      obtain ⟨channel, hget, rfl⟩ := Option.map_eq_some_iff.mp hentity
      exact validateChannel_eq_ok.mpr (h.channel name channel hget)
    | channelType name =>
      obtain ⟨channelType, hget, rfl⟩ := Option.map_eq_some_iff.mp hentity
      exact validateType_eq_ok.mpr (h.channelType name channelType hget)
    | channelAlias name =>
      obtain ⟨declared, hget, rfl⟩ := Option.map_eq_some_iff.mp hentity
      exact validateAlias_eq_ok.mpr (h.channelAlias name declared hget)
  · intro h
    obtain ⟨hname, hnode, hboundary⟩ := validateOwn_eq_ok.mp (h .app _ rfl)
    refine ⟨hname, hnode, hboundary, ?_, ?_, ?_⟩
    · exact fun name channel hget =>
        validateChannel_eq_ok.mp (h (.channel name) _ (congrArg (Option.map Entity.channel) hget))
    · exact fun name channelType hget => validateType_eq_ok.mp
        (h (.channelType name) _ (congrArg (Option.map Entity.channelType) hget))
    · exact fun name declared hget => validateAlias_eq_ok.mp
        (h (.channelAlias name) _ (congrArg (Option.map Entity.channelAlias) hget))

theorem validateAt_iff (happ : app.Ordered) : validateAt root path app = .ok u ↔
    ∀ p entity, app.entity? p = some entity →
      entity.validate root (Scope.under path p.place) p.name = .ok () := by
  rw [validateAt_eq_ok happ]
  constructor
  · rintro h ⟨place, item⟩ entity hentity
    obtain ⟨other, hother, hitem⟩ := Option.bind_eq_some_iff.mp hentity
    exact (Own.valid_iff place).mp (h place other hother) item entity hitem
  · intro h place other hother
    refine (Own.valid_iff place).mpr fun item entity hitem => h ⟨place, item⟩ entity ?_
    exact Option.bind_eq_some_iff.mpr ⟨other, hother, hitem⟩

end App

namespace Entity

variable {root root' : App} {path name : String} {entity other : Entity} {registry : Registry}

theorem validate_transfer
    (hboundary : ∀ name, entity.Binds name → (root.resolveBoundary path name).isSome →
      (root'.resolveBoundary path name).isSome)
    (htype : ∀ name, (root.resolveType path name).isSome → (root'.resolveType path name).isSome)
    (htarget : ∀ target, (root.resolveTarget path target).isSome →
      (root'.resolveTarget path target).isSome)
    (h : entity.validate root path name = .ok ()) : entity.validate root' path name = .ok () := by
  cases entity with
  | app info boundary node =>
    obtain ⟨hname, hnode, hbound⟩ := App.validateOwn_eq_ok.mp h
    refine App.validateOwn_eq_ok.mpr ⟨hname, hnode, fun direction name hmem => ?_⟩
    exact hboundary name ⟨direction, hmem⟩ (hbound direction name hmem)
  | channel channel =>
    obtain ⟨hname, htyped, hsome⟩ := App.validateChannel_eq_ok.mp h
    exact App.validateChannel_eq_ok.mpr ⟨hname, htyped, htype _ hsome⟩
  | channelType => exact h
  | channelAlias declared =>
    obtain ⟨hname, htargeted, hsome⟩ := App.validateAlias_eq_ok.mp h
    exact App.validateAlias_eq_ok.mpr ⟨hname, htargeted, htarget _ hsome⟩

theorem validate_congr (h : other.declared = (registry.routeEntity entity).declared)
    (hname : other.info.name = entity.info.name) :
    other.validate root path name = entity.validate root path name := by
  cases entity with
  | app info boundary node =>
    cases other with
    | app info' boundary' node' =>
      obtain ⟨-, rfl, rfl⟩ := Entity.app.inj h
      change App.validateOwn root path _ = App.validateOwn root path _
      unfold App.validateOwn
      rw [show info'.name = info.name from hname]
    | _ => cases h
  | channel channel =>
    cases other with
    | channel channel' =>
      have hdeclared : Leaf.declared channel' = Leaf.declared (registry.route channel) :=
        Entity.channel.inj h
      have htype := congrArg Channel.typeName hdeclared
      change channel'.typeName = (registry.route channel).typeName at htype
      rw [registry.typeName_route] at htype
      rw [validate, validate, App.validateChannel, App.validateChannel, htype]
    | _ => cases h
  | channelType declared =>
    cases other with
    | channelType declared' =>
      have hdeclared : Leaf.declared declared' = Leaf.declared declared :=
        Entity.channelType.inj h
      have hschema := congrArg ChannelType.schema hdeclared
      change declared'.schema = declared.schema at hschema
      rw [validate, validate, App.validateType, App.validateType, hschema]
    | _ => cases h
  | channelAlias declared =>
    cases other with
    | channelAlias declared' =>
      have hdeclared : Leaf.declared declared' = Leaf.declared declared :=
        Entity.channelAlias.inj h
      have htarget := congrArg ChannelAlias.target hdeclared
      change declared'.target = declared.target at htarget
      rw [validate, validate, App.validateAlias, App.validateAlias, htarget]
    | _ => cases h

end Entity

namespace App

variable {root app inner child : App} {path key : String} {place : List String}
variable {children : List (String × App)}

end App

end AppTopology
