import AppTopology.Proofs.Bindings
import AppTopology.Proofs.Overlay

/-!
A tree may be put together from trees that were checked. Where all is still around a place that was
around it then, every bare name there leads somewhere; only an alias with a path may have lost its
channel.
-/

namespace AppTopology

def Around (contents contents' : Contents) (scope : String) : Prop :=
  ∀ outer item, Scope.isInner outer scope → (contents' ⟨Scope.names outer, item⟩).isSome →
    (contents ⟨Scope.names outer, item⟩).isSome

namespace Contents

def Dotted (contents : Contents) (p : Position) (target : String) : Prop :=
  '.' ∈ target.toList ∧
    ∃ declared, contents p = some (.channelAlias declared) ∧ declared.target = target

def HasChannel (contents : Contents) (path : String) : Prop :=
  Scope.isScope path ∧
    (contents ⟨Scope.names (Scope.parent path), .channel (Scope.leaf path)⟩).isSome

def Unsevered (contents : Contents) : Prop :=
  ∀ p target, contents.Dotted p target → contents.HasChannel target

end Contents

def TopologyError.IsDangling : TopologyError → Prop
  | danglingBoundary .. | danglingTarget .. => True
  | _ => False

theorem TopologyError.IsDangling.kind_eq {error : TopologyError} (h : error.IsDangling) :
    error.kind = .invalidAlias ∨ error.kind = .invalidApp := by
  cases error with
  | danglingTarget => exact .inl rfl
  | danglingBoundary => exact .inr rfl
  | _ => cases h

namespace App

variable {α : Type} [Leaf α] {root other app : App} {scope name target : String} {p : Position}
variable {place : List String}

/-- An alias names by its path a channel that is not there. -/
def Severed (root : App) : Prop :=
  ∃ place app name declared, root.at? place = some app ∧
    app.own.aliases.get? name = some declared ∧ '.' ∈ declared.target.toList ∧
    root.resolveTarget (Scope.under "" place) declared.target = none

theorem isSome_resolveTarget_dotted (hdot : '.' ∈ target.toList) :
    (root.resolveTarget scope target).isSome ↔ root.contents.HasChannel target := by
  rw [resolveTarget_dotted hdot, Contents.HasChannel]
  split
  · next htarget =>
    rw [isSome_pathIn?, isSome_leafIn?, ← isSome_contents]
    exact ⟨fun hsome => ⟨htarget, hsome⟩, And.right⟩
  · next htarget => exact ⟨nofun, fun h => absurd h.1 htarget⟩

theorem dotted_contents : root.contents.Dotted p target ↔ '.' ∈ target.toList ∧
    ∃ app name declared, root.at? p.place = some app ∧ p.item = .channelAlias name ∧
      app.own.aliases.get? name = some declared ∧ declared.target = target := by
  refine and_congr_right fun _ => ?_
  rw [contents, entity?]
  constructor
  · rintro ⟨_, hcontents, rfl⟩
    obtain ⟨entity, hentity, hdeclared⟩ := Option.map_eq_some_iff.mp hcontents
    obtain ⟨app, happ, hentity⟩ := Option.bind_eq_some_iff.mp hentity
    cases hitem : p.item with
    | channelAlias name =>
      rw [hitem] at hentity
      obtain ⟨declared, halias, rfl⟩ := Option.map_eq_some_iff.mp hentity
      exact ⟨app, name, declared, happ, rfl, halias, (Entity.channelAlias.inj hdeclared) ▸ rfl⟩
    | app =>
      rw [hitem] at hentity
      obtain rfl := Option.some.inj hentity
      cases hdeclared
    | channel name | channelType name =>
      rw [hitem] at hentity
      obtain ⟨_, -, rfl⟩ := Option.map_eq_some_iff.mp hentity
      cases hdeclared
  · rintro ⟨app, name, declared, happ, hitem, halias, rfl⟩
    refine ⟨Leaf.declared declared, ?_, rfl⟩
    rw [happ, hitem, Option.bind_some, Own.entity?, halias]
    rfl

theorem severed_iff : root.Severed ↔ ¬ root.contents.Unsevered := by
  constructor
  · rintro ⟨place, app, name, declared, happ, halias, hdot, hnone⟩ hunsevered
    have hchannel := hunsevered ⟨place, .channelAlias name⟩ declared.target
      (dotted_contents.mpr ⟨hdot, app, name, declared, happ, rfl, halias, rfl⟩)
    rw [← isSome_resolveTarget_dotted hdot, hnone] at hchannel
    exact nomatch hchannel
  · intro h
    simp only [Contents.Unsevered, not_forall] at h
    obtain ⟨p, target, hdotted, hlost⟩ := h
    obtain ⟨hdot, app, name, declared, happ, -, halias, rfl⟩ := dotted_contents.mp hdotted
    refine ⟨p.place, app, name, declared, happ, halias, hdot, ?_⟩
    rwa [← isSome_resolveTarget_dotted hdot, Option.not_isSome_iff_eq_none] at hlost

theorem Checked.unsevered (h : root.Checked) : root.contents.Unsevered := by
  by_contra hsevered
  obtain ⟨place, app, name, declared, happ, halias, -, hnone⟩ := severed_iff.mpr hsevered
  have hsome := ((h.valid_under happ).channelAlias name declared halias).2.2
  rw [hnone] at hsome
  exact nomatch hsome

section

variable (h : Around root.contents other.contents scope) (hscope : Scope.isScope scope)

include h hscope

theorem isSome_nearest_of_around [LawfulLeaf α]
    (hsome : ((Scope.enclosing scope).findSome? (other.pathIn? α name)).isSome) :
    ((Scope.enclosing scope).findSome? (root.pathIn? α name)).isSome := by
  rw [List.isSome_findSome?, List.any_eq_true] at hsome ⊢
  obtain ⟨outer, houter, hpath⟩ := hsome
  refine ⟨outer, houter, ?_⟩
  rw [isSome_pathIn?, isSome_leafIn?, ← isSome_contents] at hpath ⊢
  exact h outer _ (Scope.isInner_of_mem_enclosing hscope houter) hpath

theorem isSome_resolveType_of_around (hsome : (other.resolveType scope name).isSome) :
    (root.resolveType scope name).isSome := by
  rw [resolveType_eq] at hsome ⊢
  exact isSome_nearest_of_around h hscope hsome

theorem isSome_resolveTarget_of_around (hdot : '.' ∉ target.toList)
    (hsome : (other.resolveTarget scope target).isSome) :
    (root.resolveTarget scope target).isSome := by
  rw [resolveTarget, if_neg hdot] at hsome ⊢
  split at hsome
  · next hname =>
    rw [if_pos hname]
    rw [resolveChannel_eq] at hsome ⊢
    exact isSome_nearest_of_around h hscope hsome
  · cases hsome

theorem isSome_resolveBoundary_of_around
    (haliases : ∀ outer declared, Scope.isInner outer scope →
      root.leafIn? ChannelAlias outer name = some declared →
        (root.resolveTarget outer declared.target).isSome)
    (hsome : (other.resolveBoundary scope name).isSome) :
    (root.resolveBoundary scope name).isSome := by
  rw [resolveBoundary_eq] at hsome ⊢
  have hfound : ((Scope.enclosing scope).findSome? (root.boundIn? name)).isSome := by
    obtain ⟨path, hpath⟩ := Option.isSome_iff_exists.mp hsome
    have hother := Option.isSome_of_eq_some (Option.join_eq_some_iff.mp hpath)
    rw [List.isSome_findSome?, List.any_eq_true] at hother ⊢
    obtain ⟨outer, houter, hbound⟩ := hother
    have hinner := Scope.isInner_of_mem_enclosing hscope houter
    refine ⟨outer, houter, ?_⟩
    rw [isSome_boundIn?, isSome_leafIn?, isSome_leafIn?, ← isSome_contents, ← isSome_contents,
      Bool.or_eq_true] at hbound ⊢
    exact hbound.imp (h outer _ hinner) (h outer _ hinner)
  obtain ⟨found, hfound⟩ := Option.isSome_iff_exists.mp hfound
  obtain ⟨inner, outer, rest, henclosing, hbound, -⟩ := List.findSome?_eq_some_iff.mp hfound
  rw [hfound, Option.join_some]
  rw [boundIn?, Option.or_eq_some_iff] at hbound
  rcases hbound with hchannel | ⟨-, halias⟩
  · obtain ⟨path, -, rfl⟩ := Option.map_eq_some_iff.mp hchannel
    rfl
  · obtain ⟨declared, hleaf, rfl⟩ := Option.map_eq_some_iff.mp halias
    have houter : outer ∈ Scope.enclosing scope := by simp [henclosing]
    exact haliases outer declared (Scope.isInner_of_mem_enclosing hscope houter) hleaf

end

/-- At each place is what a checked tree has there, with everything around it that is around it in
that tree. -/
def Patched (root : App) : Prop :=
  ∀ place app, root.at? place = some app → ∃ other : App, other.Checked ∧
    (∀ item, root.contents ⟨place, item⟩ = other.contents ⟨place, item⟩) ∧
    Around root.contents other.contents (Scope.under "" place)

namespace Patched

variable (h : root.Patched) (hordered : root.Ordered) (hfiled : root.filed = root)

include h hordered hfiled

theorem exists_patch (happ : root.at? place = some app) :
    ∃ other app' : App, other.Checked ∧ other.at? place = some app' ∧
      app'.own.declared = app.own.declared ∧ app'.own.info.name = app.own.info.name ∧
      Around root.contents other.contents (Scope.under "" place) := by
  obtain ⟨other, hother, hcontents, haround⟩ := h place app happ
  obtain ⟨app', happ', hown⟩ :=
    exists_at?_of_content hordered hother.ordered (fun item => (hcontents item).symm) happ
  refine ⟨other, app', hother, happ', hown, ?_, haround⟩
  rw [name_of_filed hother.ordered hother.filed happ', name_of_filed hordered hfiled happ]

theorem isSome_resolveTarget (hsevered : ¬ root.Severed) {declared : ChannelAlias}
    (happ : root.at? place = some app) (halias : app.own.aliases.get? name = some declared) :
    (root.resolveTarget (Scope.under "" place) declared.target).isSome := by
  by_cases hdot : '.' ∈ declared.target.toList
  · rw [Option.isSome_iff_ne_none]
    exact fun hnone => hsevered ⟨place, app, name, declared, happ, halias, hdot, hnone⟩
  · obtain ⟨other, app', hother, happ', hown, -, haround⟩ := h.exists_patch hordered hfiled happ
    obtain ⟨declared', halias', htarget⟩ := Own.exists_channelAlias hown halias
    have hsome := ((hother.valid_under happ').channelAlias name declared' halias').2.2
    rw [htarget] at hsome
    exact isSome_resolveTarget_of_around haround (hother.isScope_under happ') hdot hsome

theorem valid (hsevered : ¬ root.Severed) : root.validate = .ok () := by
  rw [validate_eq_ok hordered]
  intro place app happ
  obtain ⟨other, app', hother, happ', hown, hname, haround⟩ :=
    h.exists_patch hordered hfiled happ
  have hscope := hother.isScope_under happ'
  apply (hother.valid_under happ').transfer hown hname
  · intro name
    apply isSome_resolveBoundary_of_around haround hscope
    intro outer declared houter halias
    obtain ⟨app, happ, halias⟩ := Option.bind_eq_some_iff.mp halias
    have hsome := h.isSome_resolveTarget hordered hfiled hsevered happ halias
    rwa [Scope.under_names (Scope.isInner_iff.mp houter).1] at hsome
  · exact fun name => isSome_resolveType_of_around haround hscope
  · exact fun name declared halias _ => h.isSome_resolveTarget hordered hfiled hsevered happ halias

theorem valid_iff : root.validate = .ok () ↔ ¬ root.Severed := by
  refine ⟨fun hvalid => ?_, h.valid hordered hfiled⟩
  rw [severed_iff, not_not]
  exact Checked.unsevered ⟨hordered, hfiled, hvalid⟩

theorem failsWith_own (happ : root.at? place = some app) :
    app.own.FailsWith TopologyError.IsDangling root (Scope.under "" place) := by
  obtain ⟨other, app', hother, happ', hown, hname, haround⟩ :=
    h.exists_patch hordered hfiled happ
  have hvalid := hother.valid_under happ'
  have hscope := hother.isScope_under happ'
  obtain ⟨-, hchannels, htypes, haliases, -⟩ := (hordered.at? happ).own
  obtain ⟨-, hnode, -⟩ := Own.eq_of_declared hown
  -- A rule that only reads what is declared here is obeyed as in the tree that is patched in.
  constructor
  · have hcheck (hpath : Scope.under "" place ≠ "") : Scope.checkName app.own.info.name = .ok () :=
      Scope.checkName_eq_ok.mpr (hname ▸ hvalid.name hpath)
    refine .ite (fun hpath => .bind (.of_eq_ok (hcheck hpath)) fun _ => ?_) fun _ => ?_
    all_goals
      refine .ite (fun hblank => ?_) fun _ => .forM fun _ _ =>
        .ite (fun _ => .error trivial) fun _ => .ok ()
      obtain ⟨node, hsome, hblank⟩ := (Option.any_eq_true _ _).mp hblank
      rw [hvalid.node node (hnode.trans hsome)] at hblank
      exact nomatch hblank
  · rintro ⟨name, channel⟩ hmem
    obtain ⟨channel', hchannel, htype⟩ := Own.exists_channel hown (hchannels.1.get?_of_mem hmem)
    obtain ⟨hkey, htyped, hsome⟩ := hvalid.channel name channel' hchannel
    rw [htype] at htyped hsome
    have hcheck : validateChannel root (Scope.under "" place) name channel = .ok () :=
      validateChannel_eq_ok.mpr
        ⟨hkey, htyped, isSome_resolveType_of_around haround hscope hsome⟩
    exact .of_eq_ok hcheck
  · rintro ⟨name, channelType⟩ hmem
    obtain ⟨type', htype, hschema⟩ := Own.exists_channelType hown (htypes.1.get?_of_mem hmem)
    have hrules := hvalid.channelType name type' htype
    rw [hschema] at hrules
    have hcheck : validateType (Scope.under "" place) name channelType = .ok () :=
      validateType_eq_ok.mpr hrules
    exact .of_eq_ok hcheck
  · rintro ⟨name, declared⟩ hmem
    obtain ⟨alias', halias, htarget⟩ :=
      Own.exists_channelAlias hown (haliases.1.get?_of_mem hmem)
    obtain ⟨hkey, htargeted, -⟩ := hvalid.channelAlias name alias' halias
    rw [htarget] at htargeted
    have hcheck : Scope.checkName name = .ok () := Scope.checkName_eq_ok.mpr hkey
    exact .bind (.of_eq_ok hcheck) fun _ =>
      .ite (fun hempty => absurd hempty htargeted) fun _ =>
        .ite (fun _ => .error trivial) fun _ => .ok ()

theorem isDangling {error : TopologyError}
    (herror : root.validate = .error error) : error.IsDangling :=
  failsWith_validateAt hordered (fun _ _ => h.failsWith_own hordered hfiled) error herror

end Patched

end App

end AppTopology
