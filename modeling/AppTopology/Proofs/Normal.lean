import AppTopology.Proofs.Check
import AppTopology.Proofs.Leaf
import AppTopology.Proofs.Scope
import AppTopology.Staging.Normalize

namespace AppTopology

namespace Position

variable {α : Type} [Leaf α] [LawfulLeaf α] {p : Position} {key : String}

def name : Position → String
  | ⟨place, .app⟩ => place.getLastD ""
  | ⟨_, .channel name⟩ => name
  | ⟨_, .channelType name⟩ => name
  | ⟨_, .channelAlias name⟩ => name

def owner : Position → List String
  | ⟨place, .app⟩ => place.dropLast
  | ⟨place, _⟩ => place

def root : Position := ⟨[], .app⟩

theorem name_leaf (place : List String) (n : String) :
    name ⟨place, .ofKind (Leaf.kind α) n⟩ = n := by
  apply LawfulLeaf.elim (α := α) fun β _ => name ⟨place, .ofKind (Leaf.kind β) n⟩ = n
  all_goals rfl

theorem owner_leaf (place : List String) (n : String) :
    owner ⟨place, .ofKind (Leaf.kind α) n⟩ = place := by
  apply LawfulLeaf.elim (α := α) fun β _ => owner ⟨place, .ofKind (Leaf.kind β) n⟩ = place
  all_goals rfl

theorem leaf_ne_root (place : List String) (n : String) :
    (⟨place, .ofKind (Leaf.kind α) n⟩ : Position) ≠ root := by
  apply LawfulLeaf.elim (α := α) fun β _ =>
    (⟨place, .ofKind (Leaf.kind β) n⟩ : Position) ≠ root
  all_goals exact nofun

theorem inside_ne_root (key : String) (p : Position) : p.inside key ≠ root := by
  simp [inside, root]

theorem name_inside (h : p ≠ root) (key : String) : (p.inside key).name = p.name := by
  obtain ⟨place, item⟩ := p
  cases item with
  | app =>
    cases place with
    | nil => exact absurd rfl h
    | cons next place => simp [inside, name]
  | channel n => rfl
  | channelType n => rfl
  | channelAlias n => rfl

theorem owner_inside (h : p ≠ root) (key : String) : (p.inside key).owner = key :: p.owner := by
  obtain ⟨place, item⟩ := p
  cases item with
  | app =>
    cases place with
    | nil => exact absurd rfl h
    | cons next place => simp [inside, owner]
  | channel n => rfl
  | channelType n => rfl
  | channelAlias n => rfl

end Position

namespace Metadata

variable {info next : Metadata} {p : Position} {key scope : String}

def filedAt (scope : String) (p : Position) (info : Metadata) : Metadata :=
  let parent := Scope.under scope p.owner
  { info with name := p.name, parent, reference := Scope.child parent p.name }

def FitsAt (p : Position) (info : Metadata) : Prop := info.name = "" ∨ info.name = p.name

theorem fitsAt_inside (h : p ≠ .root) : info.FitsAt (p.inside key) ↔ info.FitsAt p := by
  rw [FitsAt, FitsAt, Position.name_inside h]

theorem adopt_eq_ok : info.adopt key scope = .ok next ↔
    info.FitsAt (Position.root.inside key) ∧
      next = info.filedAt scope (Position.root.inside key) := by
  unfold adopt
  split
  · next h =>
    rw [Except.ok.injEq]
    exact ⟨fun heq => ⟨h, heq.symm⟩, fun heq => heq.2.symm⟩
  · next h => exact ⟨nofun, fun ⟨hfits, _⟩ => absurd hfits h⟩

end Metadata

namespace App

variable {α : Type} [Leaf α]
variable {app next root : App} {own : App.Own} {scope : String}

def fileBelow (scope : String) (p : Position) (info : Metadata) : Metadata :=
  if p = .root then info else info.filedAt scope p

theorem adoptShelf_eq_ok {shelf shelf' : Dict α} (hshelf : shelf.Ordered) :
    adoptShelf scope shelf = .ok shelf' ↔
      (∀ name leaf, shelf.get? name = some leaf →
        (Leaf.info leaf).name = "" ∨ (Leaf.info leaf).name = name) ∧
      shelf' = shelf.mapWithKey fun name leaf => Leaf.withInfo leaf
        { Leaf.info leaf with name, parent := scope, reference := Scope.child scope name } := by
  have hstep : ∀ entry ∈ shelf.entries, ∀ entry',
      (do
        let info ← (Leaf.info entry.2).adopt entry.1 scope
        return (entry.1, Leaf.withInfo entry.2 info)) = Except.ok entry' ↔
      ((Leaf.info entry.2).name = "" ∨ (Leaf.info entry.2).name = entry.1) ∧
        entry' = (entry.1, Leaf.withInfo entry.2
          { Leaf.info entry.2 with
            name := entry.1, parent := scope, reference := Scope.child scope entry.1 }) := by
    intro entry _ entry'
    simp only [Check.bind_eq_ok, Metadata.adopt_eq_ok, Check.pure_eq_ok]
    constructor
    · rintro ⟨info, ⟨hfits, rfl⟩, rfl⟩
      exact ⟨hfits, rfl⟩
    · rintro ⟨hfits, rfl⟩
      exact ⟨_, ⟨hfits, rfl⟩, rfl⟩
  rw [adoptShelf, Check.bind_eq_ok]
  simp only [Check.mapM_eq_ok hstep, Check.pure_eq_ok]
  constructor
  · rintro ⟨entries, ⟨hall, rfl⟩, rfl⟩
    exact ⟨fun name leaf hleaf => hall _ (Dict.mem_of_get? hleaf), rfl⟩
  · rintro ⟨hall, rfl⟩
    exact ⟨_, ⟨fun entry hmem => hall _ _ (hshelf.get?_of_mem hmem), rfl⟩, rfl⟩

theorem adoptLeaves_eq_ok {own' : App.Own} (hown : own.Ordered) :
    adoptLeaves scope own = .ok own' ↔
      (∀ item info, item ≠ .app → own.info? item = some info → info.FitsAt ⟨[], item⟩) ∧
      own' = own.mapInfo fun item => fileBelow scope ⟨[], item⟩ := by
  obtain ⟨-, hchannels, htypes, haliases, -⟩ := hown
  rw [adoptLeaves]
  simp only [Check.bind_eq_ok, adoptShelf_eq_ok hchannels.1, adoptShelf_eq_ok htypes.1,
    adoptShelf_eq_ok haliases.1, Check.pure_eq_ok]
  constructor
  · rintro ⟨channels, ⟨hfit, rfl⟩, types, ⟨hfit', rfl⟩, aliases, ⟨hfit'', rfl⟩, rfl⟩
    refine ⟨?_, rfl⟩
    intro item info hitem hinfo
    cases item with
    | app => exact absurd rfl hitem
    | channel name =>
      obtain ⟨leaf, hleaf, rfl⟩ := Option.map_eq_some_iff.mp hinfo
      exact hfit name leaf hleaf
    | channelType name =>
      obtain ⟨leaf, hleaf, rfl⟩ := Option.map_eq_some_iff.mp hinfo
      exact hfit' name leaf hleaf
    | channelAlias name =>
      obtain ⟨leaf, hleaf, rfl⟩ := Option.map_eq_some_iff.mp hinfo
      exact hfit'' name leaf hleaf
  · rintro ⟨hfit, rfl⟩
    have hchannel name leaf (h : own.channels.get? name = some leaf) :=
      hfit (.channel name) leaf.info nofun (congrArg (Option.map Channel.info) h)
    have htype name leaf (h : own.types.get? name = some leaf) :=
      hfit (.channelType name) leaf.info nofun (congrArg (Option.map ChannelType.info) h)
    have halias name leaf (h : own.aliases.get? name = some leaf) :=
      hfit (.channelAlias name) leaf.info nofun (congrArg (Option.map ChannelAlias.info) h)
    exact ⟨_, ⟨hchannel, rfl⟩, _, ⟨htype, rfl⟩, _, ⟨halias, rfl⟩, rfl⟩

theorem withInfo_mapInfo_fileBelow (scope key : String) (child : App) :
    (child.mapInfo (fileBelow (Scope.child scope key))).withInfo
        (child.info.filedAt scope (Position.root.inside key)) =
      child.mapInfo fun p => Metadata.filedAt scope (p.inside key) := by
  obtain ⟨own, apps⟩ := child
  rw [mapInfo_mk, mapInfo_mk]
  rfl

theorem adoptChildren_eq (scope : String) (children : List (String × App)) :
    adoptChildren scope children = children.mapM fun entry => do
      let info ← entry.2.info.adopt entry.1 scope
      let app ← entry.2.adoptBelow (Scope.child scope entry.1)
      return (entry.1, app.withInfo info) := by
  induction children with
  | nil => rfl
  | cons entry rest ih =>
    rw [adoptChildren, List.mapM_cons, ih]
    simp only [bind_assoc, pure_bind]

theorem adoptBelow_eq_ok (happ : app.Ordered) : app.adoptBelow scope = .ok next ↔
    (∀ p info, app.info? p = some info → p ≠ .root → info.FitsAt p) ∧
      next = app.mapInfo (fileBelow scope) := by
  induction app using App.induction generalizing scope next with
  | node own apps ih =>
    have hstep : ∀ entry ∈ apps.entries, ∀ entry',
        (do
          let info ← entry.2.info.adopt entry.1 scope
          let app ← entry.2.adoptBelow (Scope.child scope entry.1)
          return (entry.1, app.withInfo info)) = Except.ok entry' ↔
        (∀ p info, entry.2.info? p = some info → info.FitsAt (p.inside entry.1)) ∧
          entry' =
            (entry.1, entry.2.mapInfo fun p => Metadata.filedAt scope (p.inside entry.1)) := by
      rintro ⟨key, child⟩ hmem entry'
      simp only [Check.bind_eq_ok, Metadata.adopt_eq_ok, Check.pure_eq_ok,
        ih key child hmem (happ.of_mem hmem)]
      constructor
      · rintro ⟨info, ⟨hfits, rfl⟩, app, ⟨hbelow, rfl⟩, rfl⟩
        rw [withInfo_mapInfo_fileBelow]
        refine ⟨?_, rfl⟩
        intro p info hinfo
        by_cases hp : p = .root
        · subst hp
          injection hinfo with hinfo
          exact hinfo ▸ hfits
        · exact (Metadata.fitsAt_inside hp).mpr (hbelow p info hinfo hp)
      · rintro ⟨hfits, rfl⟩
        refine ⟨_, ⟨hfits .root child.info rfl, rfl⟩, _, ⟨?_, rfl⟩, ?_⟩
        · intro p info hinfo hp
          exact (Metadata.fitsAt_inside hp).mp (hfits p info hinfo)
        · rw [withInfo_mapInfo_fileBelow]
    obtain ⟨children⟩ := apps
    rw [adoptBelow, adoptChildren_eq]
    simp only [Check.bind_eq_ok, Check.mapM_eq_ok hstep, adoptLeaves_eq_ok happ.own,
      Check.pure_eq_ok, forall_info?_iff (⟨own, ⟨children⟩⟩ : App)]
    have hnext (p : Position) (key : String) :
        fileBelow scope (p.inside key) = Metadata.filedAt scope (p.inside key) := by
      funext info
      rw [fileBelow, if_neg (Position.inside_ne_root key p)]
    constructor
    · rintro ⟨_, ⟨hbelow, rfl⟩, _, ⟨hown, rfl⟩, rfl⟩
      refine ⟨⟨?_, ?_⟩, ?_⟩
      · intro item info hinfo hroot
        exact hown item info (fun hitem => hroot (by rw [hitem]; rfl)) hinfo
      · intro key child hchild p info hinfo _
        exact hbelow _ (mem_of_child? hchild) p info hinfo
      · rw [mapInfo_mk]
        simp only [hnext]
        rfl
    · rintro ⟨⟨hown, hbelow⟩, rfl⟩
      refine ⟨_, ⟨?_, rfl⟩, _, ⟨?_, rfl⟩, ?_⟩
      · rintro ⟨key, child⟩ hmem p info hinfo
        exact hbelow key child (happ.child? hmem) p info hinfo (Position.inside_ne_root key p)
      · intro item info hitem hinfo
        exact hown item info hinfo fun hroot => hitem (congrArg Position.item hroot)
      · rw [mapInfo_mk]
        simp only [hnext]
        rfl

theorem adoptBelow_withInfo (app : App) (info : Metadata) (path : String) :
    (app.withInfo info).adoptBelow path = (·.withInfo info) <$> app.adoptBelow path := by
  obtain ⟨own, children⟩ := app
  simp only [withInfo, adoptBelow, adoptLeaves, map_eq_pure_bind, bind_assoc, pure_bind]

def filed (root : App) : App := root.mapInfo (Metadata.filedAt "")

theorem uuid?_filed (app : App) (p : Position) : app.filed.uuid? p = app.uuid? p :=
  uuid?_mapInfo (f := Metadata.filedAt "") (fun _ _ => rfl) app p

theorem normalize_eq_ok (hroot : root.Ordered) : root.normalize = .ok next ↔
    (∀ p info, root.info? p = some info → info.FitsAt p) ∧ next = root.filed := by
  have hmap : (root.mapInfo (fileBelow "")).withInfo (root.info.filedAt "" .root) = root.filed := by
    obtain ⟨own, apps⟩ := root
    rw [filed, mapInfo_mk, mapInfo_mk]
    rfl
  have hinfo (hname : root.info.name = "") :
      { root.info with parent := "", reference := "" } = root.info.filedAt "" .root := by
    simp [Metadata.filedAt, Position.name, Position.owner, Position.root, hname, Scope.child]
  rw [normalize]
  simp only [Check.refuse_eq_ok, ne_eq, not_not, adoptBelow_withInfo, map_eq_pure_bind,
    Check.bind_eq_ok, Check.pure_eq_ok, adoptBelow_eq_ok hroot]
  constructor
  · rintro ⟨hname, _, ⟨hbelow, rfl⟩, rfl⟩
    rw [hinfo hname, hmap]
    refine ⟨?_, rfl⟩
    intro p info hp
    by_cases hroot : p = .root
    · subst hroot
      injection hp with hp
      exact Or.inl (hp ▸ hname)
    · exact hbelow p info hp hroot
  · rintro ⟨hfits, rfl⟩
    have hname : root.info.name = "" := by
      simpa [Metadata.FitsAt, Position.root, Position.name] using hfits .root root.info rfl
    refine ⟨hname, _, ⟨fun p info hp _ => hfits p info hp, rfl⟩, ?_⟩
    rw [hinfo hname, hmap]

end App

end AppTopology
