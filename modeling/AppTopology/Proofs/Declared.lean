import AppTopology.Proofs.Edit
import AppTopology.Proofs.Identification
import AppTopology.Proofs.Normal
import AppTopology.Staging.Connection

namespace AppTopology

variable {α : Type} [Leaf α]

def Metadata.declared (info : Metadata) : Metadata := { annotations := info.annotations }

def Leaf.declared (leaf : α) : α := Leaf.withInfo (Leaf.detached leaf) (Leaf.info leaf).declared

def Dict.declared (shelf : Dict α) : Dict α := shelf.mapWithKey fun _ => Leaf.declared

namespace App

def Own.declared (own : App.Own) : App.Own :=
  { own with
    info := own.info.declared
    channels := own.channels.declared
    types := own.types.declared
    aliases := own.aliases.declared }

def declared (app : App) : App := app.mapOwn fun _ => Own.declared

/-- What the rules read of what an app holds, names aside. -/
def Own.outline (own : App.Own) : App.Own where
  channels := own.channels.mapWithKey fun _ channel => { typeName := channel.typeName }
  types := own.types.mapWithKey fun _ channelType => { schema := channelType.schema }
  aliases := own.aliases.mapWithKey fun _ declared => { target := declared.target }
  boundary := own.boundary
  node := own.node

def resolveLeaf (α : Type) [Leaf α] (root : App) (scope name : String) : Option String :=
  (Scope.enclosing scope).findSome? fun outer =>
    (root.find? outer).bind fun app =>
      if (Leaf.shelf app.own : Dict α).contains name then some (Scope.child outer name) else none

theorem resolveChannel_eq_resolveLeaf (root : App) :
    root.resolveChannel = root.resolveLeaf Channel := rfl

def Own.connected (links : Links) (place : List String) (own : App.Own) : App.Own :=
  { own with
    channels := own.channels.mapWithKey (Channel.connect links place)
    types := own.types.mapWithKey (ChannelType.connect links place) }

end App

section

variable [LawfulLeaf α] {leaf : α} {info : Metadata}

theorem Leaf.declared_withInfo (h : info.annotations = (Leaf.info leaf).annotations) :
    Leaf.declared (Leaf.withInfo leaf info) = Leaf.declared leaf := by
  rw [declared, declared, LawfulLeaf.detached_withInfo, LawfulLeaf.withInfo_withInfo,
    LawfulLeaf.info_withInfo, Metadata.declared, Metadata.declared, h]

theorem Leaf.info_declared (leaf : α) :
    Leaf.info (Leaf.declared leaf) = (Leaf.info leaf).declared := by
  rw [declared, LawfulLeaf.info_withInfo]

theorem Leaf.info_detached (leaf : α) : Leaf.info (Leaf.detached leaf) = Leaf.info leaf := by
  apply LawfulLeaf.elim (α := α) fun β _ =>
    ∀ leaf : β, Leaf.info (Leaf.detached leaf) = Leaf.info leaf
  all_goals exact fun _ => rfl

theorem Leaf.declared_detached (leaf : α) :
    Leaf.declared (Leaf.detached leaf) = Leaf.declared leaf := by
  apply LawfulLeaf.elim (α := α) fun β _ =>
    ∀ leaf : β, Leaf.declared (Leaf.detached leaf) = Leaf.declared leaf
  all_goals exact fun _ => rfl

theorem Leaf.fields_declared (leaf : α) : Leaf.fields (Leaf.declared leaf) = Leaf.fields leaf := by
  rw [declared, LawfulLeaf.fields_withInfo, LawfulLeaf.fields_detached]

end

theorem Metadata.filedAt_congr {info info' : Metadata} (h : info.declared = info'.declared)
    (huuid : info.uuid = info'.uuid) (scope : String) (p : Position) :
    info.filedAt scope p = info'.filedAt scope p := by
  have hannotations : info.annotations = info'.annotations :=
    show info.declared.annotations = info'.declared.annotations by rw [h]
  rw [filedAt, filedAt, hannotations, huuid]

namespace App

variable [LawfulLeaf α] {app other root : App} {own : App.Own} {scope name path target : String}

theorem Own.declared_mapInfo {f : Item → Metadata → Metadata}
    (hf : ∀ item info, (f item info).annotations = info.annotations) (own : App.Own) :
    (own.mapInfo f).declared = own.declared := by
  have hinfo : (f .app own.info).declared = own.info.declared := by
    rw [Metadata.declared, Metadata.declared, hf]
  simp only [declared, mapInfo, mapShelf, Dict.declared, Dict.mapWithKey_mapWithKey, hf, hinfo,
    Leaf.declared_withInfo]

theorem Own.declared_connected (links : Links) (place : List String) (own : App.Own) :
    (own.connected links place).declared = own.declared := by
  simp only [declared, connected, Dict.declared, Dict.mapWithKey_mapWithKey]
  rfl

theorem declared_mapOwn {f : List String → App.Own → App.Own}
    (hf : ∀ place own, (f place own).declared = own.declared) (app : App) :
    (app.mapOwn f).declared = app.declared := by
  simp only [declared, mapOwn_mapOwn, hf]

theorem declared_mapInfo {f : Position → Metadata → Metadata}
    (hf : ∀ p info, (f p info).annotations = info.annotations) (app : App) :
    (app.mapInfo f).declared = app.declared :=
  declared_mapOwn (fun place own => own.declared_mapInfo fun item info => hf ⟨place, item⟩ info) app

theorem connectAll_eq (links : Links) (place : List String) (children : List (String × App)) :
    connectAll links place children =
      children.map fun entry => (entry.1, entry.2.connectAt links (place ++ [entry.1])) := by
  induction children with
  | nil => rfl
  | cons entry rest ih => rw [connectAll, ih, List.map_cons]

theorem connectAt_eq (links : Links) (place : List String) (app : App) :
    app.connectAt links place = app.mapOwn fun rest => Own.connected links (place ++ rest) := by
  induction app using App.induction generalizing place with
  | node own apps ih =>
    obtain ⟨children⟩ := apps
    rw [connectAt, connectAll_eq, mapOwn_mk, Dict.mapWithKey, List.append_nil]
    congr 2
    apply List.map_congr_left
    rintro ⟨key, child⟩ hmem
    rw [ih key child hmem]
    simp only [List.append_assoc, List.singleton_append]

theorem connect_eq (root : App) : root.connect = root.mapOwn (Own.connected (Links.ofTree root)) :=
  connectAt_eq _ [] root

theorem Ordered.declared (h : app.Ordered) : app.declared.Ordered := by
  apply h.mapOwn
  rintro place own ⟨hinfo, hchannels, htypes, haliases, hnode⟩
  exact ⟨hinfo, hchannels.mapWithKey fun _ _ => rfl, htypes.mapWithKey fun _ _ => rfl,
    haliases.mapWithKey fun _ _ => rfl, hnode⟩

theorem own_declared (app : App) : app.declared.own = app.own.declared := own_mapOwn _ app

theorem Own.eq_of_declared {own own' : App.Own} (h : own.declared = own'.declared) :
    own.info.annotations = own'.info.annotations ∧ own.node = own'.node ∧
      own.boundary = own'.boundary := by
  refine ⟨?_, ?_, ?_⟩
  · exact show own.declared.info.annotations = own'.declared.info.annotations by rw [h]
  · exact show own.declared.node = own'.declared.node by rw [h]
  · exact show own.declared.boundary = own'.declared.boundary by rw [h]

theorem child?_declared (app : App) (key : String) :
    app.declared.child? key = (app.child? key).map declared := child?_mapOwn _ app key

theorem at?_declared (app : App) (place : List String) :
    app.declared.at? place = (app.at? place).map declared := at?_mapOwn _ app place

theorem Own.leaf?_declared (own : App.Own) (name : String) :
    own.declared.leaf? α name = (own.leaf? α name).map Leaf.declared := by
  apply LawfulLeaf.elim (α := α) fun β _ =>
    own.declared.leaf? β name = (own.leaf? β name).map Leaf.declared
  all_goals exact Dict.get?_mapWithKey _ _ _

section

variable {own own' : App.Own}

theorem Own.outline_declared (own : App.Own) : own.declared.outline = own.outline := by
  simp only [outline, declared, Dict.declared, Dict.mapWithKey_mapWithKey]
  rfl

theorem Own.outline_connected (links : Links) (place : List String) (own : App.Own) :
    (own.connected links place).outline = own.outline := by
  simp only [outline, connected, Dict.mapWithKey_mapWithKey]
  rfl

theorem Own.outline_mapInfo (f : Item → Metadata → Metadata) (own : App.Own) :
    (own.mapInfo f).outline = own.outline := by
  simp only [outline, mapInfo, mapShelf, Dict.mapWithKey_mapWithKey]
  rfl

theorem Own.contains_outline (own : App.Own) (name : String) :
    (Leaf.shelf own.outline : Dict α).contains name =
      (Leaf.shelf own : Dict α).contains name := by
  apply LawfulLeaf.elim (α := α) fun β _ =>
    (Leaf.shelf own.outline : Dict β).contains name = (Leaf.shelf own : Dict β).contains name
  all_goals exact Dict.contains_mapWithKey _ _ _

variable (h : own.outline = own'.outline)

include h

theorem Own.contains_shelf (name : String) : (Leaf.shelf own : Dict α).contains name =
    (Leaf.shelf own' : Dict α).contains name := by
  rw [← own.contains_outline, h, own'.contains_outline]

theorem Own.map_target (name : String) : (own.aliases.get? name).map ChannelAlias.target =
    (own'.aliases.get? name).map ChannelAlias.target := by
  have htarget := congrArg (fun own => (own.aliases.get? name).map ChannelAlias.target) h
  simpa [outline, Function.comp_def] using htarget

end

section

variable {f : List String → App.Own → App.Own}
variable (hf : ∀ place own, (f place own).outline = own.outline) (root : App)

include hf

theorem exists_find?_mapOwn (scope : String) :
    (root.mapOwn f).find? scope = none ∧ root.find? scope = none ∨
      ∃ app app', (root.mapOwn f).find? scope = some app' ∧ root.find? scope = some app ∧
        app'.own.outline = app.own.outline := by
  rw [find?, find?, at?_mapOwn]
  cases root.at? (Scope.names scope) with
  | none => exact .inl ⟨rfl, rfl⟩
  | some app => exact .inr ⟨app, _, rfl, rfl, by rw [own_mapOwn, hf]⟩

theorem resolveLeaf_mapOwn (scope name : String) :
    (root.mapOwn f).resolveLeaf α scope name = root.resolveLeaf α scope name := by
  unfold resolveLeaf
  congr 1
  funext outer
  obtain ⟨hmap, hroot⟩ | ⟨app, app', hmap, hroot, houtline⟩ := exists_find?_mapOwn hf root outer
  · rw [hmap, hroot]
  · rw [hmap, hroot, Option.bind_some, Option.bind_some, Own.contains_shelf houtline]

theorem isSome_leafAt?_mapOwn (path : String) :
    ((root.mapOwn f).leafAt? Channel path).isSome = (root.leafAt? Channel path).isSome := by
  unfold leafAt?
  cases Scope.locate? path with
  | none => rfl
  | some located =>
    change (((root.mapOwn f).at? located.1).bind fun app => app.own.leaf? Channel located.2).isSome =
      ((root.at? located.1).bind fun app => app.own.leaf? Channel located.2).isSome
    rw [at?_mapOwn]
    cases root.at? located.1 with
    | none => rfl
    | some app =>
      rw [Option.map_some, Option.bind_some, Option.bind_some, own_mapOwn]
      exact Own.contains_shelf (hf _ _) located.2

theorem resolveTarget_mapOwn (scope target : String) :
    (root.mapOwn f).resolveTarget scope target = root.resolveTarget scope target := by
  have hleaf := isSome_leafAt?_mapOwn hf root target
  unfold resolveTarget
  rw [resolveChannel_eq_resolveLeaf, resolveLeaf_mapOwn hf, ← resolveChannel_eq_resolveLeaf]
  cases hmap : (root.mapOwn f).leafAt? Channel target <;>
    cases hroot : root.leafAt? Channel target <;> simp_all

theorem resolveBoundaryIn_mapOwn (name : String) (scopes : List String) :
    (root.mapOwn f).resolveBoundaryIn name scopes = root.resolveBoundaryIn name scopes := by
  induction scopes with
  | nil => rfl
  | cons scope outer ih =>
    rw [resolveBoundaryIn, resolveBoundaryIn, ih]
    obtain ⟨hmap, hroot⟩ | ⟨app, app', hmap, hroot, houtline⟩ := exists_find?_mapOwn hf root scope
    · rw [hmap, hroot]
    · have htarget := Own.map_target houtline name
      rw [hmap, hroot]
      dsimp only
      rw [show app'.own.channels.contains name = app.own.channels.contains name from
        Own.contains_shelf houtline name]
      cases halias' : app'.own.aliases.get? name <;> cases halias : app.own.aliases.get? name <;>
        simp_all [resolveTarget_mapOwn hf]

theorem resolve_mapOwn : (root.mapOwn f).resolveBoundary = root.resolveBoundary ∧
    (root.mapOwn f).resolveType = root.resolveType ∧
      (root.mapOwn f).resolveTarget = root.resolveTarget := by
  refine ⟨?_, ?_, ?_⟩
  · funext scope name
    exact resolveBoundaryIn_mapOwn hf root name _
  · funext scope name
    exact resolveLeaf_mapOwn hf root scope name
  · funext scope target
    exact resolveTarget_mapOwn hf root scope target

end

end App

end AppTopology
