import AppTopology.Proofs.Declared
import AppTopology.Validation

namespace AppTopology.App

structure Own.Valid (root : App) (path : String) (own : App.Own) : Prop where
  name : path ≠ "" → Scope.isName own.info.name
  node : ∀ node, own.node = some node → Text.isBlank node.image = false
  boundary : ∀ direction name, (direction, name) ∈ own.boundary.entries →
    (root.resolveBoundary path name).isSome
  channel : ∀ name channel, own.channels.get? name = some channel → Scope.isName name ∧
    channel.typeName ≠ "" ∧ (root.resolveType path channel.typeName).isSome
  channelType : ∀ name channelType, own.types.get? name = some channelType →
    Scope.isName name ∧ Text.isBlank channelType.schema = false
  channelAlias : ∀ name declared, own.aliases.get? name = some declared → Scope.isName name ∧
    declared.target ≠ "" ∧ (root.resolveTarget path declared.target).isSome

variable {app root root' : App} {own own' : App.Own} {path scope name : String} {u : Unit}

theorem Own.Valid.isName_leaf {α : Type} [Leaf α] [LawfulLeaf α] {leaf : α}
    (h : own.Valid root path) (hleaf : own.leaf? α name = some leaf) : Scope.isName name := by
  revert leaf
  apply LawfulLeaf.elim (α := α) fun β _ =>
    ∀ {leaf : β}, own.leaf? β name = some leaf → Scope.isName name
  · exact fun hleaf => (h.channel name _ hleaf).1
  · exact fun hleaf => (h.channelType name _ hleaf).1
  · exact fun hleaf => (h.channelAlias name _ hleaf).1

theorem validateOwn_eq_ok : validateOwn root path own = .ok u ↔
    (path ≠ "" → Scope.isName own.info.name) ∧
      (∀ node, own.node = some node → Text.isBlank node.image = false) ∧
      ∀ direction name, (direction, name) ∈ own.boundary.entries →
        (root.resolveBoundary path name).isSome := by
  unfold validateOwn
  simp only [Check.checkIf_eq_ok, Scope.checkName_eq_ok, Check.forM_eq_ok, Check.throw_ne_ok,
    Check.throwIf_eq_ok, Option.any_eq_true, Prod.forall, not_exists, not_and,
    Bool.not_eq_true, Option.isNone_eq_false_iff, imp_false]

theorem validateChannel_eq_ok {channel : Channel} :
    validateChannel root scope name channel = .ok u ↔ Scope.isName name ∧
      channel.typeName ≠ "" ∧ (root.resolveType scope channel.typeName).isSome := by
  unfold validateChannel
  simp only [Check.bind_eq_ok, Check.refuse_eq_ok, Scope.checkName_eq_ok, Check.throwIf_eq_ok,
    Bool.not_eq_true, Option.isNone_eq_false_iff]
  exact ⟨fun ⟨_, h⟩ => h, fun h => ⟨(), h⟩⟩

theorem validateType_eq_ok {channelType : ChannelType} :
    validateType scope name channelType = .ok u ↔
      Scope.isName name ∧ Text.isBlank channelType.schema = false := by
  unfold validateType
  simp only [Check.bind_eq_ok, Scope.checkName_eq_ok, Check.throwIf_eq_ok, Bool.not_eq_true]
  exact ⟨fun ⟨_, h⟩ => h, fun h => ⟨(), h⟩⟩

theorem validateAlias_eq_ok {declared : ChannelAlias} :
    validateAlias root scope name declared = .ok u ↔ Scope.isName name ∧
      declared.target ≠ "" ∧ (root.resolveTarget scope declared.target).isSome := by
  unfold validateAlias
  simp only [Check.bind_eq_ok, Check.refuse_eq_ok, Scope.checkName_eq_ok, Check.throwIf_eq_ok,
    Bool.not_eq_true, Option.isNone_eq_false_iff]
  exact ⟨fun ⟨_, h⟩ => h, fun h => ⟨(), h⟩⟩

theorem validateAll_eq_ok {children : List (String × App)} :
    validateAll root path children = .ok u ↔
      ∀ key child, (key, child) ∈ children →
        validateAt root (Scope.child path key) child = .ok () := by
  induction children with
  | nil => simp [validateAll, Check.pure_eq_ok]
  | cons entry rest ih =>
    obtain ⟨key, child⟩ := entry
    simp only [validateAll, Check.bind_eq_ok, ih, List.mem_cons]
    constructor
    · rintro ⟨_, hchild, hrest⟩ key' child' (heq | hmem)
      · injection heq with hkey heq
        exact hkey ▸ heq ▸ hchild
      · exact hrest key' child' hmem
    · intro h
      exact ⟨(), h key child (Or.inl rfl), fun key' child' hmem => h key' child' (Or.inr hmem)⟩

theorem validateAt_eq_ok (happ : app.Ordered) : validateAt root path app = .ok u ↔
    ∀ place other, app.at? place = some other →
      other.own.Valid root (Scope.under path place) := by
  induction app using App.induction generalizing path with
  | node own apps ih =>
    obtain ⟨-, hchannels, htypes, haliases, -⟩ := happ.own
    obtain ⟨children⟩ := apps
    simp only [validateAt, Check.bind_eq_ok, validateOwn_eq_ok, validateAll_eq_ok,
      Check.forM_eq_ok, validateChannel_eq_ok, validateType_eq_ok, validateAlias_eq_ok]
    constructor
    · rintro ⟨_, ⟨hname, hnode, hboundary⟩, _, hbelow, _, hchannel, _, htype, halias⟩
      intro place other hother
      cases place with
      | nil =>
        injection hother with hother
        subst hother
        refine ⟨hname, hnode, hboundary, ?_, ?_, ?_⟩
        · intro name channel hget
          exact hchannel _ (Dict.mem_of_get? hget)
        · intro name channelType hget
          exact htype _ (Dict.mem_of_get? hget)
        · intro name declared hget
          exact halias _ (Dict.mem_of_get? hget)
      | cons key place =>
        rw [at?_cons, Option.bind_eq_some_iff] at hother
        obtain ⟨child, hchild, hother⟩ := hother
        have hmem := mem_of_child? hchild
        exact (ih key child hmem (happ.of_mem hmem)).mp (hbelow key child hmem) place other hother
    · intro h
      have hown := h [] _ rfl
      refine ⟨(), ⟨hown.name, hown.node, hown.boundary⟩, (), ?_, (), ?_, (), ?_, ?_⟩
      · intro key child hmem
        apply (ih key child hmem (happ.of_mem hmem)).mpr
        intro place other hother
        apply h (key :: place)
        rw [at?_cons, happ.child? hmem]
        exact hother
      · rintro ⟨name, channel⟩ hmem
        exact hown.channel name channel (hchannels.1.get?_of_mem hmem)
      · rintro ⟨name, channelType⟩ hmem
        exact hown.channelType name channelType (htypes.1.get?_of_mem hmem)
      · rintro ⟨name, declared⟩ hmem
        exact hown.channelAlias name declared (haliases.1.get?_of_mem hmem)

theorem validate_eq_ok (hroot : root.Ordered) : root.validate = .ok () ↔
    ∀ place app, root.at? place = some app → app.own.Valid root (Scope.under "" place) :=
  validateAt_eq_ok hroot

structure Own.FailsWith (p : TopologyError → Prop) (root : App) (path : String) (own : App.Own) :
    Prop where
  itself : Check.FailsWith p (validateOwn root path own)
  channel : ∀ entry ∈ own.channels.entries,
    Check.FailsWith p (validateChannel root path entry.1 entry.2)
  channelType : ∀ entry ∈ own.types.entries,
    Check.FailsWith p (validateType path entry.1 entry.2)
  channelAlias : ∀ entry ∈ own.aliases.entries,
    Check.FailsWith p (validateAlias root path entry.1 entry.2)

theorem failsWith_validateAll {p : TopologyError → Prop} {children : List (String × App)}
    (h : ∀ key child, (key, child) ∈ children →
      Check.FailsWith p (validateAt root (Scope.child path key) child)) :
    Check.FailsWith p (validateAll root path children) := by
  induction children with
  | nil => exact .ok ()
  | cons entry rest ih =>
    refine .bind (h entry.1 entry.2 List.mem_cons_self) fun _ => ih ?_
    exact fun key child hmem => h key child (List.mem_cons_of_mem _ hmem)

theorem failsWith_validateAt {p : TopologyError → Prop} (happ : app.Ordered)
    (h : ∀ place other, app.at? place = some other →
      other.own.FailsWith p root (Scope.under path place)) :
    Check.FailsWith p (validateAt root path app) := by
  induction app using App.induction generalizing path with
  | node own apps ih =>
    obtain ⟨children⟩ := apps
    obtain ⟨hown, hchannel, htype, halias⟩ := h [] _ rfl
    have hchild (key : String) (child : App) (hmem : (key, child) ∈ children) :
        Check.FailsWith p (validateAt root (Scope.child path key) child) := by
      apply ih key child hmem (happ.of_mem hmem)
      intro place other hother
      apply h (key :: place)
      rw [at?_cons, happ.child? hmem]
      exact hother
    rw [validateAt]
    exact .bind hown fun _ => .bind (failsWith_validateAll hchild) fun _ =>
      .bind (.forM hchannel) fun _ => .bind (.forM htype) fun _ => .forM halias

theorem failsWith_checkName (name : String) :
    Check.FailsWith (TopologyError.isValidation · = true) (Scope.checkName name) :=
  .ite (fun _ => .ok ()) fun _ => .error rfl

theorem Own.failsWith_isValidation (root : App) (path : String) (own : App.Own) :
    own.FailsWith (TopologyError.isValidation · = true) root path := by
  constructor
  · refine .ite (fun _ => .bind (failsWith_checkName _) fun _ => ?_) fun _ => ?_
    all_goals
      refine .ite (fun _ => .error rfl) fun _ => .forM ?_
      exact fun _ _ => .ite (fun _ => .error rfl) fun _ => .ok ()
  · exact fun _ _ => .bind (failsWith_checkName _) fun _ =>
      .ite (fun _ => .error rfl) fun _ => .ite (fun _ => .error rfl) fun _ => .ok ()
  · exact fun _ _ => .bind (failsWith_checkName _) fun _ =>
      .ite (fun _ => .error rfl) fun _ => .ok ()
  · exact fun _ _ => .bind (failsWith_checkName _) fun _ =>
      .ite (fun _ => .error rfl) fun _ => .ite (fun _ => .error rfl) fun _ => .ok ()

theorem isValidation_of_validate (hroot : root.Ordered) {error : TopologyError}
    (h : root.validate = .error error) : error.isValidation :=
  failsWith_validateAt hroot (fun _ other _ => other.own.failsWith_isValidation root _) error h

theorem exists_get?_of_declared {α : Type} [Leaf α] {shelf shelf' : Dict α}
    (h : shelf.declared = shelf'.declared) {leaf' : α} (hleaf : shelf'.get? name = some leaf') :
    ∃ leaf, shelf.get? name = some leaf ∧ Leaf.declared leaf = Leaf.declared leaf' := by
  have hget := congrArg (Dict.get? · name) h
  simp only [Dict.declared, Dict.get?_mapWithKey, hleaf, Option.map_some,
    Option.map_eq_some_iff] at hget
  exact hget

section

variable (h : own.declared = own'.declared)

include h

theorem Own.exists_channel {channel' : Channel} (hchannel' : own'.channels.get? name = some channel') :
    ∃ channel, own.channels.get? name = some channel ∧ channel.typeName = channel'.typeName := by
  obtain ⟨channel, hchannel, heq⟩ := exists_get?_of_declared (congrArg Own.channels h) hchannel'
  have hname := congrArg Channel.typeName heq
  exact ⟨channel, hchannel, hname⟩

theorem Own.exists_channelType {type' : ChannelType} (htype' : own'.types.get? name = some type') :
    ∃ channelType, own.types.get? name = some channelType ∧
      channelType.schema = type'.schema := by
  obtain ⟨channelType, htype, heq⟩ := exists_get?_of_declared (congrArg Own.types h) htype'
  have hschema := congrArg ChannelType.schema heq
  exact ⟨channelType, htype, hschema⟩

theorem Own.exists_channelAlias {alias' : ChannelAlias}
    (halias' : own'.aliases.get? name = some alias') :
    ∃ declared, own.aliases.get? name = some declared ∧ declared.target = alias'.target := by
  obtain ⟨declared, halias, heq⟩ := exists_get?_of_declared (congrArg Own.aliases h) halias'
  have htarget := congrArg ChannelAlias.target heq
  exact ⟨declared, halias, htarget⟩

end

theorem resolve_congr (h : root.declared = root'.declared) :
    root.resolveBoundary = root'.resolveBoundary ∧ root.resolveType = root'.resolveType ∧
      root.resolveTarget = root'.resolveTarget := by
  have hdeclared (root : App) := resolve_mapOwn (fun _ => Own.outline_declared) root
  obtain ⟨hboundary, htype, htarget⟩ := hdeclared root
  obtain ⟨hboundary', htype', htarget'⟩ := hdeclared root'
  rw [← declared] at hboundary htype htarget hboundary' htype' htarget'
  rw [← hboundary, ← htype, ← htarget, h]
  exact ⟨hboundary', htype', htarget'⟩

theorem Own.Valid.transfer (h : own.Valid root path) (hown : own.declared = own'.declared)
    (hname : own.info.name = own'.info.name)
    (hboundary : ∀ name, (root.resolveBoundary path name).isSome →
      (root'.resolveBoundary path name).isSome)
    (htypes : ∀ name, (root.resolveType path name).isSome → (root'.resolveType path name).isSome)
    (htargets : ∀ name declared, own'.aliases.get? name = some declared →
      (root.resolveTarget path declared.target).isSome →
        (root'.resolveTarget path declared.target).isSome) : own'.Valid root' path := by
  obtain ⟨-, hnode, hsame⟩ := Own.eq_of_declared hown
  constructor
  · rw [← hname]
    exact h.name
  · rw [← hnode]
    exact h.node
  · rw [← hsame]
    exact fun direction name hbound => hboundary name (h.boundary direction name hbound)
  · intro name channel' hchannel'
    obtain ⟨channel, hchannel, htype⟩ := exists_channel hown hchannel'
    obtain ⟨hkey, htyped, hsome⟩ := h.channel name channel hchannel
    rw [htype] at htyped hsome
    exact ⟨hkey, htyped, htypes _ hsome⟩
  · intro name type' htype'
    obtain ⟨channelType, htype, hschema⟩ := exists_channelType hown htype'
    rw [← hschema]
    exact h.channelType name channelType htype
  · intro name alias' halias'
    obtain ⟨declared, halias, htarget⟩ := exists_channelAlias hown halias'
    obtain ⟨hkey, htargeted, hsome⟩ := h.channelAlias name declared halias
    rw [htarget] at htargeted hsome
    exact ⟨hkey, htargeted, htargets name alias' halias' hsome⟩

section

variable (hboundary : root'.resolveBoundary = root.resolveBoundary)
variable (htype : root'.resolveType = root.resolveType)
variable (htarget : root'.resolveTarget = root.resolveTarget)

include hboundary in
theorem validateOwn_congr (h : own'.outline = own.outline) (hname : own'.info.name = own.info.name) :
    validateOwn root' path own' = validateOwn root path own := by
  have hbound : own'.outline.boundary = own.outline.boundary := by rw [h]
  have hnode : own'.outline.node = own.outline.node := by rw [h]
  change own'.boundary = own.boundary at hbound
  change own'.node = own.node at hnode
  rw [validateOwn, validateOwn, hname, hbound, hnode, hboundary]

include hboundary htype htarget

theorem validateAt_mapOwn {f : List String → App.Own → App.Own}
    (hf : ∀ place own, (f place own).outline = own.outline)
    (hname : ∀ place own, (f place own).info.name = own.info.name) (path : String) (app : App) :
    validateAt root' path (app.mapOwn f) = validateAt root path app := by
  induction app using App.induction generalizing f path with
  | node own apps ih =>
    obtain ⟨children⟩ := apps
    have hbelow : validateAll root' path (children.map fun entry =>
        (entry.1, entry.2.mapOwn fun place => f (entry.1 :: place))) =
          validateAll root path children := by
      clear own
      induction children with
      | nil => rfl
      | cons entry rest ihrest =>
        rw [List.map_cons, validateAll, validateAll,
          ih entry.1 entry.2 List.mem_cons_self (fun place => hf _) fun place => hname _,
          ihrest fun key child hmem => ih key child (List.mem_cons_of_mem _ hmem)]
    have hchannels (root : App) (own : App.Own) :
        own.channels.entries.forM (fun entry => validateChannel root path entry.1 entry.2) =
          own.outline.channels.entries.forM fun entry =>
            validateChannel root path entry.1 entry.2 := by
      simp only [Own.outline, Dict.mapWithKey, List.forM_eq_forM, List.forM_map]
      rfl
    have htypes (own : App.Own) :
        own.types.entries.forM (fun entry => validateType path entry.1 entry.2) =
          own.outline.types.entries.forM fun entry => validateType path entry.1 entry.2 := by
      simp only [Own.outline, Dict.mapWithKey, List.forM_eq_forM, List.forM_map]
      rfl
    have haliases (root : App) (own : App.Own) :
        own.aliases.entries.forM (fun entry => validateAlias root path entry.1 entry.2) =
          own.outline.aliases.entries.forM fun entry =>
            validateAlias root path entry.1 entry.2 := by
      simp only [Own.outline, Dict.mapWithKey, List.forM_eq_forM, List.forM_map]
      rfl
    have hmk : mapOwn f ⟨own, ⟨children⟩⟩ = ⟨f [] own, ⟨children.map fun entry =>
        (entry.1, entry.2.mapOwn fun place => f (entry.1 :: place))⟩⟩ := mapOwn_mk f own _
    rw [hmk, validateAt, validateAt, hbelow, validateOwn_congr hboundary (hf [] own) (hname [] own),
      hchannels, htypes, haliases, hf, ← hchannels, ← htypes, ← haliases]
    simp only [validateChannel, validateAlias, htype, htarget]

end

theorem validate_mapOwn {f : List String → App.Own → App.Own}
    (hf : ∀ place own, (f place own).outline = own.outline)
    (hname : ∀ place own, (f place own).info.name = own.info.name) (root : App) :
    (root.mapOwn f).validate = root.validate := by
  obtain ⟨hboundary, htype, htarget⟩ := resolve_mapOwn hf root
  exact validateAt_mapOwn hboundary htype htarget hf hname "" root

end AppTopology.App
