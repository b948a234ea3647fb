import AppTopology.Proofs.Exactness
import AppTopology.Proofs.Lookup

namespace AppTopology

variable {α β : Type}

namespace Scope

variable {scope : String} {inner : List String}

theorem findSome?_enclosing (hscope : isScope scope) {f : String → Option β} {b : β} :
    (enclosing scope).findSome? f = some b ↔ ∃ inner, inner <+: names scope ∧
      f (join inner) = some b ∧ ∀ deeper, deeper <+: names scope → inner.length < deeper.length →
        f (join deeper) = none := by
  induction scope, hscope using isScope_induction with
  | root =>
    simp only [enclosing_empty, names_empty, List.prefix_nil, exists_eq_left, forall_eq, join_nil,
      List.length_nil, Nat.lt_irrefl, false_imp_iff, and_true]
    rw [List.findSome?_singleton]
  | child scope name hscope hname ih =>
    have hpath : join (names scope ++ [name]) = child scope name := by
      rw [← child_join (isPath_names hscope), join_names hscope]
    simp only [enclosing_child scope hname, List.findSome?_cons, names_child hscope hname,
      List.prefix_concat_iff]
    cases hself : f (child scope name) with
    | some b' =>
      -- An answer at the scope itself leaves no room for one further out.
      constructor
      · rintro ⟨⟩
        refine ⟨_, .inl rfl, by rw [hpath, hself], ?_⟩
        rintro deeper (rfl | hdeeper) hlt
        · exact absurd hlt (Nat.lt_irrefl _)
        · have hle := hdeeper.length_le
          rw [List.length_append, List.length_singleton] at hlt
          omega
      · rintro ⟨inner, rfl | hinner, hfound, hdeepest⟩
        · rw [← hself, ← hpath, hfound]
        · have hle := hinner.length_le
          have hnone := hdeepest _ (.inl rfl) (by
            rw [List.length_append, List.length_singleton]
            omega)
          rw [hpath, hself] at hnone
          exact nomatch hnone
    | none =>
      rw [ih]
      constructor
      · rintro ⟨inner, hinner, hfound, hdeepest⟩
        refine ⟨inner, .inr hinner, hfound, ?_⟩
        rintro deeper (rfl | hdeeper) hlt
        · rw [hpath, hself]
        · exact hdeepest deeper hdeeper hlt
      · rintro ⟨inner, rfl | hinner, hfound, hdeepest⟩
        · rw [hpath, hself] at hfound
          exact nomatch hfound
        · exact ⟨inner, hinner, hfound, fun deeper hdeeper => hdeepest deeper (.inr hdeeper)⟩

theorem IsPath.of_start {place : List String} (h : IsPath place) (hinner : inner <+: place) :
    IsPath inner := fun name hname => h name (hinner.subset hname)

end Scope

namespace App

variable [Leaf α] {root app : App} {scope name target path : String} {place inner : List String}

structure IsNearest (root : App) (wanted : App → Prop) (place inner : List String) (app : App) :
    Prop where
  encloses : inner <+: place
  stands : root.at? inner = some app
  found : wanted app
  deepest : ∀ deeper other, deeper <+: place → inner.length < deeper.length →
    root.at? deeper = some other → ¬ wanted other

def Owns (α : Type) [Leaf α] (name : String) (app : App) : Prop :=
  ∃ leaf, app.own.leaf? α name = some leaf

def IsNearestPath (α : Type) [Leaf α] (root : App) (place : List String) (name path : String) :
    Prop :=
  ∃ inner app, root.IsNearest (Owns α name) place inner app ∧ path = Scope.join (inner ++ [name])

/-- Where the target of an alias leads that is declared at a place: a dotted one to the channel at
that very path, a bare one to the nearest channel of the name. -/
inductive LeadsTo (root : App) (place : List String) (target : String) : String → Prop
  | dotted {outer : List String} {app : App} {name : String} : '.' ∈ target.toList →
      target = Scope.join (outer ++ [name]) → root.at? outer = some app → Owns Channel name app →
      LeadsTo root place target target
  | bare {path : String} : '.' ∉ target.toList → root.IsNearestPath Channel place target path →
      LeadsTo root place target path

/-- Where a name leads that an app at a place binds: the nearest app decides that has a channel or
an alias of the name, and the channel goes first. -/
inductive BoundTo (root : App) (place : List String) (name : String) : String → Prop
  | channel {inner : List String} {app : App} :
      root.IsNearest (fun app => Owns Channel name app ∨ Owns ChannelAlias name app) place inner
        app →
      Owns Channel name app → BoundTo root place name (Scope.join (inner ++ [name]))
  | channelAlias {inner : List String} {app : App} {declared : ChannelAlias} {path : String} :
      root.IsNearest (fun app => Owns Channel name app ∨ Owns ChannelAlias name app) place inner
        app →
      ¬ Owns Channel name app → app.own.leaf? ChannelAlias name = some declared →
      root.LeadsTo inner declared.target path → BoundTo root place name path

theorem leafIn?_join (hinner : Scope.IsPath inner) (root : App) (name : String) :
    root.leafIn? α (Scope.join inner) name = (root.at? inner).bind (·.own.leaf? α name) := by
  rw [leafIn?, find?, Scope.names_join hinner]

theorem isSome_leafIn?_join (hinner : Scope.IsPath inner) :
    (root.leafIn? α (Scope.join inner) name).isSome ↔
      ∃ app, root.at? inner = some app ∧ Owns α name app := by
  rw [leafIn?_join hinner, Option.isSome_iff_exists]
  simp only [Option.bind_eq_some_iff, Owns]
  exact exists_comm.trans (exists_congr fun _ => exists_and_left)

theorem pathIn?_join (hinner : Scope.IsPath inner) (hstands : root.at? inner = some app)
    (howns : Owns α name app) :
    root.pathIn? α name (Scope.join inner) = some (Scope.join (inner ++ [name])) := by
  rw [pathIn?, if_pos ((isSome_leafIn?_join hinner).mpr ⟨app, hstands, howns⟩),
    Scope.child_join hinner]

theorem boundIn?_of_channel (hinner : Scope.IsPath inner) (hstands : root.at? inner = some app)
    (howns : Owns Channel name app) :
    root.boundIn? name (Scope.join inner) = some (some (Scope.join (inner ++ [name]))) := by
  rw [boundIn?, pathIn?_join hinner hstands howns]
  rfl

theorem boundIn?_of_alias {declared : ChannelAlias} (hinner : Scope.IsPath inner)
    (hstands : root.at? inner = some app) (hnone : ¬ Owns Channel name app)
    (halias : app.own.leaf? ChannelAlias name = some declared) :
    root.boundIn? name (Scope.join inner) =
      some (root.resolveTarget (Scope.join inner) declared.target) := by
  have hchannel : root.leafIn? Channel (Scope.join inner) name = none := by
    rw [leafIn?_join hinner, hstands, Option.bind_some, Option.eq_none_iff_forall_ne_some]
    exact fun leaf hleaf => hnone ⟨leaf, hleaf⟩
  rw [boundIn?, pathIn?, hchannel, leafIn?_join hinner, hstands, Option.bind_some, halias]
  rfl

theorem findSome?_enclosing_eq_some (hscope : Scope.isScope scope) {f : String → Option β} {b : β}
    {wanted : App → Prop} (hanswers : ∀ inner, Scope.IsPath inner →
      ((f (Scope.join inner)).isSome ↔ ∃ app, root.at? inner = some app ∧ wanted app)) :
    (Scope.enclosing scope).findSome? f = some b ↔
      ∃ inner app, root.IsNearest wanted (Scope.names scope) inner app ∧
        f (Scope.join inner) = some b := by
  have hpath {inner : List String} (hinner : inner <+: Scope.names scope) :=
    hanswers inner ((Scope.isPath_names hscope).of_start hinner)
  rw [Scope.findSome?_enclosing hscope]
  constructor
  · rintro ⟨inner, hinner, hfound, hdeepest⟩
    obtain ⟨app, hstands, hwanted⟩ := (hpath hinner).mp (by rw [hfound]; rfl)
    refine ⟨inner, app, ⟨hinner, hstands, hwanted, ?_⟩, hfound⟩
    intro deeper other hdeeper hlt hother hwanted'
    have hsome := (hpath hdeeper).mpr ⟨other, hother, hwanted'⟩
    rw [hdeepest deeper hdeeper hlt] at hsome
    exact nomatch hsome
  · rintro ⟨inner, app, hnearest, hfound⟩
    refine ⟨inner, hnearest.encloses, hfound, ?_⟩
    intro deeper hdeeper hlt
    rw [← Option.not_isSome_iff_eq_none, hpath hdeeper]
    rintro ⟨other, hother, hwanted⟩
    exact hnearest.deepest deeper other hdeeper hlt hother hwanted

theorem resolveLeaf_eq_some_iff (hscope : Scope.isScope scope) :
    root.resolveLeaf α scope name = some path ↔
      root.IsNearestPath α (Scope.names scope) name path := by
  rw [resolveLeaf_eq, findSome?_enclosing_eq_some hscope fun inner hinner => by
    rw [isSome_pathIn?, isSome_leafIn?_join hinner]]
  refine exists_congr fun inner => exists_congr fun app => and_congr_right fun hnearest => ?_
  have hinner := (Scope.isPath_names hscope).of_start hnearest.encloses
  rw [pathIn?_join hinner hnearest.stands hnearest.found, Option.some.injEq]
  exact eq_comm

theorem KeysAreNames.isName_of_owns [LawfulLeaf α] (hroot : root.KeysAreNames)
    (hstands : root.at? inner = some app) (howns : Owns α name app) : Scope.isName name := by
  obtain ⟨leaf, hleaf⟩ := howns
  have hinfo : root.info? ⟨inner, .ofKind (Leaf.kind α) name⟩ = some (Leaf.info leaf) := by
    rw [info?, hstands, Option.bind_some, LawfulLeaf.info?_ofKind, hleaf, Option.map_some]
  have hname := hroot _ _ hinfo (Position.leaf_ne_root (α := α) inner name)
  rwa [Position.name_leaf] at hname

theorem KeysAreNames.isPath_of_at? (hroot : root.KeysAreNames)
    (hstands : root.at? inner = some app) : Scope.IsPath inner := by
  induction inner generalizing root with
  | nil => exact Scope.isPath_nil
  | cons key inner ih =>
    rw [at?_cons, Option.bind_eq_some_iff] at hstands
    obtain ⟨child, hchild, hstands⟩ := hstands
    obtain ⟨hkey, hbelow⟩ := hroot.of_child? hchild
    intro name hname
    rcases List.mem_cons.mp hname with rfl | hname
    · exact hkey
    · exact ih hbelow hstands name hname

theorem isSome_leafAt?_iff [LawfulLeaf α] (hroot : root.KeysAreNames) :
    (root.leafAt? α path).isSome ↔ ∃ outer app name, path = Scope.join (outer ++ [name]) ∧
      root.at? outer = some app ∧ Owns α name app := by
  constructor
  · intro hsome
    by_cases hscope : Scope.isScope path
    · by_cases hne : path = ""
      · -- The root as a path stands for the empty key in it, which is no name.
        have hleaf : root.leafAt? α path = root.own.leaf? α "" := by
          rw [hne, leafAt?, Scope.locate?, if_pos Scope.isScope_empty]
          rfl
        have howns : Owns α "" root := Option.isSome_iff_exists.mp (hleaf ▸ hsome)
        exact absurd rfl (Scope.isName_ne_empty (hroot.isName_of_owns (at?_nil root) howns))
      · obtain ⟨outer, name, houter, hname, rfl⟩ := Scope.exists_child_of_isScope hscope hne
        rw [leafAt?_child root houter hname, Option.isSome_iff_exists] at hsome
        obtain ⟨leaf, hleaf⟩ := hsome
        obtain ⟨app, happ, hleaf⟩ := Option.bind_eq_some_iff.mp hleaf
        refine ⟨Scope.names outer, app, name, ?_, happ, leaf, hleaf⟩
        rw [← Scope.child_join (Scope.isPath_names houter), Scope.join_names houter]
    · rw [leafAt?, Scope.locate?, if_neg hscope] at hsome
      cases hsome
  · rintro ⟨outer, app, name, rfl, hstands, howns⟩
    have houter := hroot.isPath_of_at? hstands
    have hname := hroot.isName_of_owns hstands howns
    rw [← Scope.child_join houter, leafAt?_child root (Scope.isScope_join houter) hname, find?,
      Scope.names_join houter, hstands]
    exact Option.isSome_iff_exists.mpr howns

theorem IsNearestPath.isSome_leafAt? [LawfulLeaf α] (hroot : root.KeysAreNames)
    (h : root.IsNearestPath α place name path) : (root.leafAt? α path).isSome := by
  obtain ⟨inner, app, hnearest, rfl⟩ := h
  exact (isSome_leafAt?_iff hroot).mpr ⟨inner, app, name, rfl, hnearest.stands, hnearest.found⟩

theorem LeadsTo.isSome_leafAt? (hroot : root.KeysAreNames) (h : root.LeadsTo place target path) :
    (root.leafAt? Channel path).isSome := by
  cases h with
  | dotted _ htarget hstands howns =>
    exact (isSome_leafAt?_iff hroot).mpr ⟨_, _, _, htarget, hstands, howns⟩
  | bare _ hnearest => exact hnearest.isSome_leafAt? hroot

theorem BoundTo.isSome_leafAt? (hroot : root.KeysAreNames) (h : root.BoundTo place name path) :
    (root.leafAt? Channel path).isSome := by
  cases h with
  | channel hnearest howns =>
    exact (isSome_leafAt?_iff hroot).mpr ⟨_, _, _, rfl, hnearest.stands, howns⟩
  | channelAlias _ _ _ hleads => exact hleads.isSome_leafAt? hroot

theorem resolveTarget_eq_some_iff (hroot : root.KeysAreNames) (hscope : Scope.isScope scope) :
    root.resolveTarget scope target = some path ↔
      root.LeadsTo (Scope.names scope) target path := by
  unfold resolveTarget
  split
  · next hdot =>
    have hfound : ((root.leafAt? Channel target).map fun _ => target) = some path ↔
        (root.leafAt? Channel target).isSome ∧ target = path := by
      cases root.leafAt? Channel target <;> simp
    rw [hfound, isSome_leafAt?_iff hroot]
    constructor
    · rintro ⟨⟨outer, app, name, htarget, hstands, howns⟩, rfl⟩
      exact .dotted hdot htarget hstands howns
    · rintro (⟨_, htarget, hstands, howns⟩ | ⟨hbare, _⟩)
      · exact ⟨⟨_, _, _, htarget, hstands, howns⟩, rfl⟩
      · exact absurd hdot hbare
  · next hbare =>
    have hleads : root.LeadsTo (Scope.names scope) target path ↔
        root.IsNearestPath Channel (Scope.names scope) target path := by
      constructor
      · rintro (⟨hdot, _⟩ | ⟨_, hnearest⟩)
        · exact absurd hdot hbare
        · exact hnearest
      · exact .bare hbare
    rw [hleads]
    split
    · exact resolveLeaf_eq_some_iff (α := Channel) hscope
    · next hname =>
      -- What is no name is the key of no channel.
      refine iff_of_false nofun ?_
      rintro ⟨inner, app, hnearest, -⟩
      exact hname (hroot.isName_of_owns hnearest.stands hnearest.found)

theorem resolveBoundary_eq_some_iff (hroot : root.KeysAreNames) (hscope : Scope.isScope scope) :
    root.resolveBoundary scope name = some path ↔ root.BoundTo (Scope.names scope) name path := by
  have hanswers (inner : List String) (hinner : Scope.IsPath inner) :
      (root.boundIn? name (Scope.join inner)).isSome ↔
        ∃ app, root.at? inner = some app ∧
          (Owns Channel name app ∨ Owns ChannelAlias name app) := by
    rw [isSome_boundIn?, Bool.or_eq_true, isSome_leafIn?_join hinner,
      isSome_leafIn?_join hinner, ← exists_or]
    simp only [and_or_left]
  rw [resolveBoundary_eq, Option.join_eq_some_iff, findSome?_enclosing_eq_some hscope hanswers]
  constructor
  · rintro ⟨inner, app, hnearest, hfound⟩
    have hinner := (Scope.isPath_names hscope).of_start hnearest.encloses
    by_cases hchannel : Owns Channel name app
    · rw [boundIn?_of_channel hinner hnearest.stands hchannel, Option.some.injEq,
        Option.some.injEq] at hfound
      exact hfound ▸ .channel hnearest hchannel
    · obtain ⟨declared, halias⟩ := hnearest.found.resolve_left hchannel
      rw [boundIn?_of_alias hinner hnearest.stands hchannel halias, Option.some.injEq,
        resolveTarget_eq_some_iff hroot (Scope.isScope_join hinner),
        Scope.names_join hinner] at hfound
      exact .channelAlias hnearest hchannel halias hfound
  · intro hbound
    cases hbound with
    | channel hnearest hchannel =>
      have hinner := (Scope.isPath_names hscope).of_start hnearest.encloses
      exact ⟨_, _, hnearest, boundIn?_of_channel hinner hnearest.stands hchannel⟩
    | @channelAlias inner app declared _ hnearest hchannel halias hleads =>
      have hinner := (Scope.isPath_names hscope).of_start hnearest.encloses
      refine ⟨inner, app, hnearest, ?_⟩
      rw [boundIn?_of_alias hinner hnearest.stands hchannel halias, Option.some.injEq,
        resolveTarget_eq_some_iff hroot (Scope.isScope_join hinner), Scope.names_join hinner]
      exact hleads

/-- In a tree filed by valid names a name means in a scope what the nearest app says that has the
name. -/
theorem resolves_nearest (hroot : root.KeysAreNames) (hscope : Scope.isScope scope)
    (name path : String) :
    (root.resolveBoundary scope name = some path ↔
        root.BoundTo (Scope.names scope) name path) ∧
      (root.resolveTarget scope name = some path ↔
        root.LeadsTo (Scope.names scope) name path) ∧
      (root.resolveType scope name = some path ↔
        root.IsNearestPath ChannelType (Scope.names scope) name path) ∧
      (root.resolveChannel scope name = some path ↔
        root.IsNearestPath Channel (Scope.names scope) name path) ∧
      (root.resolveBoundary scope name = some path ∨ root.resolveTarget scope name = some path ∨
          root.resolveChannel scope name = some path →
        ∃ channel, root.leafAt? Channel path = some channel) := by
  have hboundary : root.resolveBoundary scope name = some path ↔
      root.BoundTo (Scope.names scope) name path := resolveBoundary_eq_some_iff hroot hscope
  have htarget : root.resolveTarget scope name = some path ↔
      root.LeadsTo (Scope.names scope) name path := resolveTarget_eq_some_iff hroot hscope
  have hchannel : root.resolveChannel scope name = some path ↔
      root.IsNearestPath Channel (Scope.names scope) name path :=
    resolveLeaf_eq_some_iff (α := Channel) hscope
  refine ⟨hboundary, htarget, resolveLeaf_eq_some_iff (α := ChannelType) hscope, hchannel, ?_⟩
  rw [hboundary, htarget, hchannel, ← Option.isSome_iff_exists]
  rintro (hbound | hleads | hnearest)
  · exact hbound.isSome_leafAt? hroot
  · exact hleads.isSome_leafAt? hroot
  · exact hnearest.isSome_leafAt? hroot

theorem resolves_nearest_billing :
    let billing := (Fixture.billing.withLeaf (ChannelAlias.named "bills" "invoices")).withLeaf
      (ChannelAlias.named "log" "ledger")
    let root : App := ((({} : App).withLeaf (Channel.named "invoices" "Event")).withLeaf
      (Channel.named "log" "Event")).withApp billing
    let place := ["billing", "printer", "tray"]
    root.at? place = none ∧
      root.BoundTo place "bills" "billing.invoices" ∧ (∀ path, ¬ root.BoundTo place "log" path) ∧
      root.IsNearestPath Channel place "log" "log" := by
  intro billing root place
  have hprinter : Fixture.printer.KeysAreNames := keysAreNames_of_keys (by decide +kernel) nofun
  have hbilling : billing.KeysAreNames := by
    refine keysAreNames_of_keys (by decide +kernel) ?_
    intro entry hentry
    rw [List.mem_singleton.mp (show entry ∈ [("printer", Fixture.printer)] from hentry)]
    exact ⟨by decide, hprinter⟩
  have hroot : root.KeysAreNames := by
    refine keysAreNames_of_keys (by decide +kernel) ?_
    intro entry hentry
    rw [List.mem_singleton.mp (show entry ∈ [("billing", billing)] from hentry)]
    exact ⟨by decide, hbilling⟩
  have hscope : Scope.isScope "billing.printer.tray" := by decide +kernel
  have hplace : Scope.names "billing.printer.tray" = place := by decide +kernel
  have hnearest (name path : String) := resolves_nearest hroot hscope name path
  rw [hplace] at hnearest
  refine ⟨by rw [← Option.not_isSome_iff_eq_none]; decide +kernel, ?_, ?_, ?_⟩
  · exact (hnearest "bills" "billing.invoices").1.mp (by decide +kernel)
  · intro path hbound
    have hnone : root.resolveBoundary "billing.printer.tray" "log" = none := by decide +kernel
    rw [← (hnearest "log" path).1, hnone] at hbound
    exact nomatch hbound
  · exact (hnearest "log" "log").2.2.2.1.mp (by decide +kernel)

end App

end AppTopology
