import AppTopology.Fixture
import AppTopology.Proofs.Addresses
import Mathlib.Data.List.Basic

namespace AppTopology

namespace App

variable {app other : App} {path s : String} {place : List String}

theorem withPathsAll_eq (path : String) (children : List (String × App)) :
    withPathsAll path children =
      children.flatMap fun entry => entry.2.withPaths (Scope.child path entry.1) := by
  induction children with
  | nil => rfl
  | cons entry rest ih => rw [withPathsAll, ih, List.flatMap_cons]

theorem withPaths_mk (path : String) (own : App.Own) (apps : Dict App) :
    withPaths path ⟨own, apps⟩ = (path, ⟨own, apps⟩) ::
      apps.entries.flatMap fun entry => entry.2.withPaths (Scope.child path entry.1) := by
  obtain ⟨children⟩ := apps
  rw [withPaths, withPathsAll_eq]

theorem mem_withPaths (happ : app.Ordered) : (s, other) ∈ app.withPaths path ↔
    ∃ place, app.at? place = some other ∧ s = Scope.under path place := by
  induction app using App.induction generalizing path with
  | node own apps ih =>
    rw [withPaths_mk, List.mem_cons, List.mem_flatMap]
    constructor
    · rintro (heq | ⟨⟨key, child⟩, hmem, hbelow⟩)
      · injection heq with hpath hother
        exact ⟨[], by rw [hother, at?_nil], hpath⟩
      · obtain ⟨place, hplace, rfl⟩ := (ih key child hmem (happ.of_mem hmem)).mp hbelow
        refine ⟨key :: place, ?_, rfl⟩
        rw [at?_cons, happ.child? hmem]
        exact hplace
    · rintro ⟨place, hplace, rfl⟩
      cases place with
      | nil =>
        injection hplace with hplace
        exact .inl (by rw [hplace, Scope.under_nil])
      | cons key place =>
        rw [at?_cons, Option.bind_eq_some_iff] at hplace
        obtain ⟨child, hchild, hplace⟩ := hplace
        have hmem := mem_of_child? hchild
        have hbelow := (ih key child hmem (happ.of_mem hmem)).mpr ⟨place, hplace, rfl⟩
        exact .inr ⟨(key, child), hmem, hbelow⟩

theorem flatMap_withPaths_mapOwn {β : Type} {f : List String → App.Own → App.Own}
    {g g' : String → App → List β}
    (h : ∀ path place app, g' path (app.mapOwn fun rest => f (place ++ rest)) = g path app)
    (path : String) (app : App) :
    ((app.mapOwn f).withPaths path).flatMap (fun entry => g' entry.1 entry.2) =
      (app.withPaths path).flatMap fun entry => g entry.1 entry.2 := by
  induction app using App.induction generalizing f path with
  | node own apps ih =>
    have hhead := h path [] ⟨own, apps⟩
    simp only [List.nil_append, mapOwn_mk] at hhead
    rw [mapOwn_mk, withPaths_mk, withPaths_mk, List.flatMap_cons, List.flatMap_cons, hhead,
      List.flatMap_assoc, List.flatMap_assoc, Dict.mapWithKey, List.flatMap_map]
    congr 1
    apply List.flatMap_congr
    rintro ⟨key, child⟩ hmem
    exact ih key child hmem (fun path place => h path (key :: place)) _

def PlacedByNames (app : App) : Prop :=
  ∀ place other, app.at? place = some other → Scope.IsPath place

theorem Checked.placedByNames {root : App} (h : root.Checked) (hchild : root.child? "" = none) :
    root.PlacedByNames :=
  fun _ _ happ => h.isPath happ (h.notMem_of_child? hchild happ)

theorem pairwise_withPaths (happ : app.Ordered) (hnames : app.PlacedByNames)
    (hscope : Scope.isScope path) :
    (app.withPaths path).Pairwise fun entry entry' => entry.1 ≠ entry'.1 := by
  induction app using App.induction generalizing path with
  | node own apps ih =>
    have hplace {key : String} {child : App} (hmem : (key, child) ∈ apps.entries) {place other}
        (hother : child.at? place = some other) : Scope.IsPath (key :: place) := by
      apply hnames (key :: place) other
      rw [at?_cons, happ.child? hmem]
      exact hother
    have hkey {key : String} {child : App} (hmem : (key, child) ∈ apps.entries) :
        Scope.isName key := by
      simpa [Scope.IsPath] using hplace hmem (at?_nil child)
    -- A path of a child app continues the path of its parent with the key of the child.
    have hbelow {key : String} {child : App} (hmem : (key, child) ∈ apps.entries) {entry}
        (hentry : entry ∈ child.withPaths (Scope.child path key)) :
        ∃ place, Scope.names entry.1 = Scope.names path ++ key :: place := by
      obtain ⟨place, hother, hs⟩ := (mem_withPaths (happ.of_mem hmem)).mp hentry
      refine ⟨place, ?_⟩
      rw [hs, ← Scope.under_cons, Scope.names_under hscope (hplace hmem hother)]
    rw [withPaths_mk, List.pairwise_cons, List.pairwise_flatMap]
    refine ⟨?_, ?_, ?_⟩
    · intro entry hentry heq
      obtain ⟨⟨key, child⟩, hmem, hentry⟩ := List.mem_flatMap.mp hentry
      obtain ⟨place, hpath⟩ := hbelow hmem hentry
      rw [← heq] at hpath
      simp at hpath
    · rintro ⟨key, child⟩ hmem
      apply ih key child hmem (happ.of_mem hmem) _ (Scope.isScope_child hscope (hkey hmem))
      intro place other hother name hname
      exact hplace hmem hother name (List.mem_cons_of_mem key hname)
    · apply (List.pairwise_map.mp happ.apps).imp_of_mem
      rintro ⟨key, child⟩ ⟨key', child'⟩ hmem hmem' hlt entry hentry entry' hentry' heq
      obtain ⟨place, hpath⟩ := hbelow hmem hentry
      obtain ⟨place', hpath'⟩ := hbelow hmem' hentry'
      rw [heq, hpath', List.append_cancel_left_eq, List.cons.injEq] at hpath
      exact String.lt_irrefl key (hpath.1 ▸ hlt)

end App

structure Lists (users : List String) (uses : String → Prop) : Prop where
  increasing : users.Pairwise (· < ·)
  mem_iff : ∀ user, user ∈ users ↔ uses user

theorem increasing_mergeSort {users : List String} (h : users.Nodup) :
    users.mergeSort.Pairwise (· < ·) := by
  have hsorted : users.mergeSort.Pairwise fun a b => decide (a ≤ b) = true :=
    List.pairwise_mergeSort
      (fun a b c hab hbc =>
        by simpa using String.le_trans (by simpa using hab) (by simpa using hbc))
      (fun a b => by simpa using String.le_total a b) users
  have hnodup : users.mergeSort.Nodup := (List.mergeSort_perm users _).nodup_iff.mpr h
  exact hsorted.imp₂ (fun a b hab hne =>
    String.not_le.mp fun hba => hne (String.le_antisymm (by simpa using hab) hba)) hnodup

theorem mem_usersAt {links : List (String × String)} {place : List String} {name user : String} :
    user ∈ usersAt links place name ↔
      ∃ target, (target, user) ∈ links ∧ Scope.locate? target = some (place, name) := by
  simp only [usersAt, List.mem_filterMap, Option.ite_none_right_eq_some, Option.some.injEq,
    Prod.exists]
  constructor
  · rintro ⟨target, _, hmem, htarget, rfl⟩
    exact ⟨target, hmem, htarget⟩
  · rintro ⟨target, hmem, htarget⟩
    exact ⟨target, user, hmem, htarget, rfl⟩

theorem nodup_usersAt {links : List (String × String)}
    (h : links.Pairwise fun link link' => link.2 ≠ link'.2) (place : List String) (name : String) :
    (usersAt links place name).Nodup := by
  rw [usersAt, List.nodup_iff_pairwise_ne, List.pairwise_filterMap]
  apply h.imp
  rintro ⟨target, user⟩ ⟨target', user'⟩ hne _ huser _ huser'
  dsimp only at huser huser'
  rw [Option.ite_none_right_eq_some, Option.some.injEq] at huser huser'
  rw [← huser.2, ← huser'.2]
  exact hne

namespace Links

variable {α : Type} [Leaf α] [LawfulLeaf α] {root : App} {place : List String}
variable {name target user : String}

def ofLeaves (resolve : String → α → Option String) (path : String) (app : App) :
    List (String × String) :=
  (Leaf.shelf app.own : Dict α).entries.filterMap fun (name, leaf) =>
    (resolve path leaf).map (·, Scope.child path name)

theorem mem_ofLeaves_under (hroot : root.Ordered) (resolve : String → α → Option String) :
    (target, user) ∈ (root.withPaths "").flatMap (fun (path, app) => ofLeaves resolve path app) ↔
      ∃ place app name leaf, root.at? place = some app ∧ app.own.leaf? α name = some leaf ∧
        user = Scope.child (Scope.under "" place) name ∧
        resolve (Scope.under "" place) leaf = some target := by
  simp only [List.mem_flatMap, Prod.exists, App.mem_withPaths hroot, ofLeaves, List.mem_filterMap,
    Option.map_eq_some_iff, Prod.mk.injEq]
  constructor
  · rintro ⟨_, app, ⟨place, happ, rfl⟩, name, leaf, hmem, _, hresolve, rfl, rfl⟩
    have hshelf := LawfulLeaf.ordered_shelf (α := α) (hroot.at? happ).own
    exact ⟨place, app, name, leaf, happ, hshelf.1.get?_of_mem hmem, rfl, hresolve⟩
  · rintro ⟨place, app, name, leaf, happ, hleaf, rfl, hresolve⟩
    exact ⟨_, app, ⟨place, happ, rfl⟩, name, leaf, Dict.mem_of_get? hleaf, target, hresolve, rfl,
      rfl⟩

theorem mem_ofLeaves (hroot : root.Ordered) (hnames : root.PlacedByNames)
    (resolve : String → α → Option String) :
    (target, user) ∈ (root.withPaths "").flatMap (fun (path, app) => ofLeaves resolve path app) ↔
      ∃ place app name leaf, root.at? place = some app ∧ app.own.leaf? α name = some leaf ∧
        user = Scope.join (place ++ [name]) ∧ resolve (Scope.join place) leaf = some target := by
  rw [mem_ofLeaves_under hroot]
  refine exists_congr fun place => exists_congr fun app => exists_congr fun name =>
    exists_congr fun leaf => and_congr_right fun happ => ?_
  have hpath := hnames place app happ
  rw [Scope.under_empty hpath, Scope.child_join hpath]

theorem mem_apps_ofTree (hroot : root.Ordered) : (target, user) ∈ (ofTree root).apps ↔
    ∃ place app direction bound, root.at? place = some app ∧ user = Scope.under "" place ∧
      (direction, bound) ∈ app.own.boundary.entries ∧
      root.resolveBoundary user bound = some target := by
  simp only [ofTree, List.mem_flatMap, Prod.exists, App.mem_withPaths hroot, ofBoundary,
    List.mem_filterMap, Option.map_eq_some_iff, Prod.mk.injEq]
  constructor
  · rintro ⟨_, app, ⟨place, happ, rfl⟩, direction, bound, hbound, _, hresolve, rfl, rfl⟩
    exact ⟨place, app, direction, bound, happ, rfl, hbound, hresolve⟩
  · rintro ⟨place, app, direction, bound, happ, rfl, hbound, hresolve⟩
    exact ⟨_, app, ⟨place, happ, rfl⟩, direction, bound, hbound, _, hresolve, rfl, rfl⟩

theorem pairwise_ofLeaves (h : root.Checked) (hnames : root.PlacedByNames)
    (resolve : String → α → Option String) :
    ((root.withPaths "").flatMap fun (path, app) => ofLeaves resolve path app).Pairwise
      fun link link' => link.2 ≠ link'.2 := by
  have hscope {path : String} {app : App} (hmem : (path, app) ∈ root.withPaths "") :
      Scope.isScope path := by
    obtain ⟨place, happ, rfl⟩ := (App.mem_withPaths h.ordered).mp hmem
    exact Scope.isScope_under Scope.isScope_empty (hnames place app happ)
  have hname {path : String} {app : App} (hmem : (path, app) ∈ root.withPaths "") {name : String}
      {leaf : α} (hleaf : (name, leaf) ∈ (Leaf.shelf app.own : Dict α).entries) :
      Scope.isName name := by
    obtain ⟨place, happ, rfl⟩ := (App.mem_withPaths h.ordered).mp hmem
    exact (h.valid_under happ).isName_leaf
      ((LawfulLeaf.ordered_shelf (h.ordered.at? happ).own).1.get?_of_mem hleaf)
  rw [List.pairwise_flatMap]
  constructor
  · rintro ⟨path, app⟩ hmem
    obtain ⟨place, happ, -⟩ := (App.mem_withPaths h.ordered).mp hmem
    have hkeys := (LawfulLeaf.ordered_shelf (α := α) (h.ordered.at? happ).own).1
    dsimp only [ofLeaves]
    rw [List.pairwise_filterMap]
    apply (List.pairwise_map.mp hkeys).imp_of_mem
    rintro ⟨name, leaf⟩ ⟨name', leaf'⟩ hleaf hleaf' hlt link hlink link' hlink' heq
    obtain ⟨_, -, rfl⟩ := Option.map_eq_some_iff.mp hlink
    obtain ⟨_, -, rfl⟩ := Option.map_eq_some_iff.mp hlink'
    have hsame := ((Scope.child_inj (hscope hmem) (hscope hmem) (hname hmem hleaf)
      (hname hmem hleaf')).mp heq).2
    exact String.lt_irrefl name (hsame ▸ hlt)
  · apply (App.pairwise_withPaths h.ordered hnames Scope.isScope_empty).imp_of_mem
    rintro ⟨path, app⟩ ⟨path', app'⟩ hmem hmem' hne link hlink link' hlink' heq
    obtain ⟨⟨name, leaf⟩, hleaf, hlink⟩ := List.mem_filterMap.mp hlink
    obtain ⟨⟨name', leaf'⟩, hleaf', hlink'⟩ := List.mem_filterMap.mp hlink'
    obtain ⟨_, -, rfl⟩ := Option.map_eq_some_iff.mp hlink
    obtain ⟨_, -, rfl⟩ := Option.map_eq_some_iff.mp hlink'
    exact hne ((Scope.child_inj (hscope hmem) (hscope hmem') (hname hmem hleaf)
      (hname hmem' hleaf')).mp heq).1

theorem lists_ofLeaves (h : root.Checked) (hnames : root.PlacedByNames)
    (hplace : Scope.IsPath place) (hname : Scope.isName name)
    (resolve : String → α → Option String) :
    Lists (usersAt ((root.withPaths "").flatMap fun (path, app) => ofLeaves resolve path app)
        place name).mergeSort
      fun user => ∃ place' app name' leaf, root.at? place' = some app ∧
        app.own.leaf? α name' = some leaf ∧ user = Scope.join (place' ++ [name']) ∧
        resolve (Scope.join place') leaf = some (Scope.join (place ++ [name])) := by
  constructor
  · exact increasing_mergeSort (nodup_usersAt (pairwise_ofLeaves h hnames resolve) place name)
  · intro user
    simp only [List.mem_mergeSort, mem_usersAt, mem_ofLeaves h.ordered hnames,
      Scope.locate?_eq_some hplace hname]
    constructor
    · rintro ⟨_, hlink, rfl⟩
      exact hlink
    · exact fun hlink => ⟨_, hlink, rfl⟩

theorem lists_ofBoundary (hroot : root.Ordered) (hnames : root.PlacedByNames)
    (hplace : Scope.IsPath place) (hname : Scope.isName name) :
    Lists (NameSet.ofList (usersAt (ofTree root).apps place name)).names
      fun user => ∃ place' app direction bound, root.at? place' = some app ∧
        user = Scope.join place' ∧ (direction, bound) ∈ app.own.boundary.entries ∧
        root.resolveBoundary user bound = some (Scope.join (place ++ [name])) := by
  refine ⟨NameSet.increasing _, ?_⟩
  intro user
  simp only [NameSet.mem_ofList, mem_usersAt, mem_apps_ofTree hroot,
    Scope.locate?_eq_some hplace hname]
  constructor
  · rintro ⟨_, ⟨place', app, direction, bound, happ, rfl, hbound, hresolve⟩, rfl⟩
    have hpath := hnames place' app happ
    rw [Scope.under_empty hpath] at hresolve ⊢
    exact ⟨place', app, direction, bound, happ, rfl, hbound, hresolve⟩
  · rintro ⟨place', app, direction, bound, happ, rfl, hbound, hresolve⟩
    have hpath := hnames place' app happ
    exact ⟨_, ⟨place', app, direction, bound, happ, (Scope.under_empty hpath).symm, hbound,
      hresolve⟩, rfl⟩

theorem ofTree_mapOwn {f : List String → App.Own → App.Own}
    (hf : ∀ place own, (f place own).outline = own.outline) (root : App) :
    ofTree (root.mapOwn f) = ofTree root := by
  obtain ⟨hboundary, htype, htarget⟩ := App.resolve_mapOwn hf root
  have houtline (place : List String) (app : App) :
      (app.mapOwn fun rest => f (place ++ rest)).own.outline = app.own.outline := by
    rw [App.own_mapOwn, hf]
  have hboundaries (path : String) (place : List String) (app : App) :
      ofBoundary (root.mapOwn f) path (app.mapOwn fun rest => f (place ++ rest)) =
        ofBoundary root path app := by
    have hsame := congrArg (fun own : App.Own => own.boundary) (houtline place app)
    dsimp only [App.Own.outline] at hsame
    rw [ofBoundary, ofBoundary, hsame, hboundary]
  have haliases (path : String) (place : List String) (app : App) :
      ofAliases (root.mapOwn f) path (app.mapOwn fun rest => f (place ++ rest)) =
        ofAliases root path app := by
    have hread (root app : App) : ofAliases root path app =
        app.own.outline.aliases.entries.filterMap fun entry =>
          (root.resolveTarget path entry.2.target).map (·, Scope.child path entry.1) := by
      simp only [ofAliases, App.Own.outline, Dict.mapWithKey, List.filterMap_map]
      rfl
    rw [hread, hread, houtline, htarget]
  have hchannels (path : String) (place : List String) (app : App) :
      ofChannels (root.mapOwn f) path (app.mapOwn fun rest => f (place ++ rest)) =
        ofChannels root path app := by
    have hread (root app : App) : ofChannels root path app =
        app.own.outline.channels.entries.filterMap fun entry =>
          (root.resolveType path entry.2.typeName).map (·, Scope.child path entry.1) := by
      simp only [ofChannels, App.Own.outline, Dict.mapWithKey, List.filterMap_map]
      rfl
    rw [hread, hread, houtline, htype]
  rw [ofTree, ofTree]
  congr 1
  · exact App.flatMap_withPaths_mapOwn hboundaries "" root
  · exact App.flatMap_withPaths_mapOwn haliases "" root
  · exact App.flatMap_withPaths_mapOwn hchannels "" root

end Links

namespace App

theorem Own.connected_connected (links : Links) (place : List String) (own : App.Own) :
    (own.connected links place).connected links place = own.connected links place := by
  simp only [connected, Dict.mapWithKey_mapWithKey]
  rfl

theorem connect_connect (root : App) : root.connect.connect = root.connect := by
  rw [connect_eq root.connect, connect_eq root, Links.ofTree_mapOwn (Own.outline_connected _),
    mapOwn_mapOwn]
  simp only [Own.connected_connected]

theorem own_connected {root app : App} {place : List String} (hconnect : root.connect = root)
    (happ : root.at? place = some app) : app.own = app.own.connected (Links.ofTree root) place := by
  have hat := at?_mapOwn (Own.connected (Links.ofTree root)) root place
  rw [← connect_eq, hconnect, happ, Option.map_some, Option.some.injEq] at hat
  have hown := congrArg App.own hat
  rwa [own_mapOwn, List.append_nil] at hown

theorem exists_connect {α : Type} [Leaf α] {root app : App} {place : List String} {name : String}
    {leaf : α} {connect : String → α → α} (hconnect : root.connect = root)
    (happ : root.at? place = some app) (hleaf : app.own.leaf? α name = some leaf)
    (hshelf : Leaf.shelf (app.own.connected (Links.ofTree root) place) =
      (Leaf.shelf app.own : Dict α).mapWithKey connect) : ∃ leaf', leaf = connect name leaf' := by
  rw [own_connected hconnect happ, Own.leaf?, hshelf, Dict.get?_mapWithKey] at hleaf
  obtain ⟨leaf', -, heq⟩ := Option.map_eq_some_iff.mp hleaf
  exact ⟨leaf', heq.symm⟩

/-- The lists at a place are those that follow from the tree as it is. -/
structure ConnectedAt (root : App) (place : List String) (app : App) : Prop where
  apps : ∀ name channel, app.own.channels.get? name = some channel →
    Lists channel.connectedApps fun user => ∃ place' app' direction bound,
      root.at? place' = some app' ∧ user = Scope.join place' ∧
      (direction, bound) ∈ app'.own.boundary.entries ∧
      root.resolveBoundary user bound = some (Scope.join (place ++ [name]))
  aliases : ∀ name channel, app.own.channels.get? name = some channel →
    Lists channel.connectedAliases fun user => ∃ place' app' name' declared,
      root.at? place' = some app' ∧ app'.own.aliases.get? name' = some declared ∧
      user = Scope.join (place' ++ [name']) ∧
      root.resolveTarget (Scope.join place') declared.target = some (Scope.join (place ++ [name]))
  channels : ∀ name channelType, app.own.types.get? name = some channelType →
    Lists channelType.connectedChannels fun user => ∃ place' app' name' channel,
      root.at? place' = some app' ∧ app'.own.channels.get? name' = some channel ∧
      user = Scope.join (place' ++ [name']) ∧
      root.resolveType (Scope.join place') channel.typeName = some (Scope.join (place ++ [name]))

theorem Checked.connectedAt {root app : App} {place : List String} (h : root.Checked)
    (hconnect : root.connect = root) (hnames : root.PlacedByNames)
    (happ : root.at? place = some app) : root.ConnectedAt place app := by
  have hplace := hnames place app happ
  have hvalid := h.valid_under happ
  constructor
  · intro name channel hget
    have hname : Scope.isName name := (hvalid.channel name channel hget).1
    obtain ⟨channel', rfl⟩ := exists_connect hconnect happ hget rfl
    exact Links.lists_ofBoundary h.ordered hnames hplace hname
  · intro name channel hget
    have hname : Scope.isName name := (hvalid.channel name channel hget).1
    obtain ⟨channel', rfl⟩ := exists_connect hconnect happ hget rfl
    exact Links.lists_ofLeaves h hnames hplace hname fun path (declared : ChannelAlias) =>
      root.resolveTarget path declared.target
  · intro name channelType hget
    have hname : Scope.isName name := (hvalid.channelType name channelType hget).1
    obtain ⟨channelType', rfl⟩ := exists_connect hconnect happ hget rfl
    exact Links.lists_ofLeaves h hnames hplace hname fun path (channel : Channel) =>
      root.resolveType path channel.typeName

end App

namespace Store

variable {store store' : Store}

theorem connect_commit (store : Store) (staged : App) :
    (store.commit staged).tree.connect = (store.commit staged).tree :=
  App.connect_connect _

theorem Opened.connected (h : Opened store) : store.tree.connect = store.tree := by
  cases h with
  | empty registry supply => exact connect_commit _ _
  | restore hroot hrestore =>
    obtain ⟨-, -, rfl⟩ := (restore_eq_ok hroot).mp hrestore
    exact connect_commit _ _

theorem Step.connected (h : Step store store') (hstore : store.tree.Ordered)
    (hconnect : store.tree.connect = store.tree) : store'.tree.connect = store'.tree := by
  obtain ⟨htree, -⟩ | ⟨target, edited, log, -, rfl⟩ := h.commit_or_eq hstore
  · rw [htree, hconnect]
  · exact connect_commit _ _

theorem Steps.connected (h : Steps store store') (hstore : store.tree.Committed)
    (hconnect : store.tree.connect = store.tree) : store'.tree.connect = store'.tree := by
  induction h with
  | refl => exact hconnect
  | tail hsteps hstep ih => exact hstep.connected (Steps.committed hsteps hstore).ordered ih

theorem Reachable.connected (h : Reachable store) : store.tree.connect = store.tree := by
  obtain ⟨opened, hopened, hsteps⟩ := h.exists_steps
  exact Steps.connected hsteps hopened.committed hopened.connected

theorem Reachable.connections_exact (h : Reachable store) (hnames : store.tree.PlacedByNames)
    {place : List String} {app : App} (happ : store.tree.at? place = some app) :
    store.tree.ConnectedAt place app :=
  h.committed.connectedAt h.connected hnames happ

theorem connections_exact_billing : ∃ store app channel, Reachable store ∧ store.tree.PlacedByNames ∧
    store.tree.at? ["billing"] = some app ∧ app.own.channels.get? "invoices" = some channel ∧
    channel.connectedApps = ["billing.printer"] ∧ store.tree.ConnectedAt ["billing"] app := by
  let users (store : Store) : Option (List String) :=
    (store.tree.at? ["billing"]).bind fun app =>
      (app.own.channels.get? "invoices").map Channel.connectedApps
  have hfound : (restore (({} : App).withApp Fixture.billing) {} .unary).toOption.map
      (fun store => ((store.tree.child? "").isNone, users store)) =
        some (true, some ["billing.printer"]) := by decide +kernel
  obtain ⟨store, hreachable, hquery⟩ := exists_restored (by decide +kernel) hfound
  obtain ⟨hunnamed, husers⟩ := Prod.mk.inj hquery
  have hnames := hreachable.committed.placedByNames (Option.isNone_iff_eq_none.mp hunnamed)
  obtain ⟨app, happ, hget⟩ := Option.bind_eq_some_iff.mp husers
  obtain ⟨channel, hchannel, hconnected⟩ := Option.map_eq_some_iff.mp hget
  exact ⟨store, app, channel, hreachable, hnames, happ, hchannel, hconnected,
    hreachable.connections_exact hnames happ⟩

end Store

end AppTopology
