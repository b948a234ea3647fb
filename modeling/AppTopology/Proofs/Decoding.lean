import AppTopology.Change.Codec
import AppTopology.Proofs.Reading
import AppTopology.Proofs.Tree
import AppTopology.Store.History

namespace AppTopology

open Json

namespace NameSet

theorem ofJson?_ofNames (names : List String) : ofJson? (ofNames names) = some (ofList names) := by
  rw [ofJson?, names?_ofNames]
  rfl

theorem roundTrips : RoundTrips (fun _ => True) toJson ofJson? where
  read_write names _ := by rw [toJson, ofJson?_ofNames, ofList_names]
  fit_of_read _ _ _ := trivial

end NameSet

namespace Metadata

theorem ordered_empty : ({} : Metadata).Ordered := Dict.ordered_empty

theorem roundTrips : RoundTrips Metadata.Ordered toJson ofJson? where
  read_write info hinfo := by
    have hannotations := roundTrips_texts.read_write info.annotations hinfo
    rw [ofJson?, toJson, record?_object ["name", "parent", "reference", "annotations", "uuid"] rfl
      (by decide) (by decide)]
    simp [hannotations]
  fit_of_read json info h := by
    simp only [ofJson?, Option.bind_eq_bind, Option.bind_eq_some_iff, Option.pure_def,
      Option.some.injEq] at h
    obtain ⟨record, -, _, -, _, -, _, -, annotations, hannotations, _, -, rfl⟩ := h
    exact Record.fit_of_field (P := Dict.Ordered) Dict.ordered_empty roundTrips_texts.fit_of_read
      hannotations

theorem fillsIn : FillsIn (toJson {}).members ofJson? := by
  refine .of_record (fun _ => rfl) ?_
  simp only [toJson, Json.members, List.forall_mem_cons]
  refine ⟨?_, ?_, ?_, ?_, ?_, List.forall_mem_nil _⟩
  all_goals
    refine ⟨by decide, fun record hrecord => ?_⟩
    simp [Record.field_of_lookup hrecord, ofDict]

end Metadata

namespace Channel

def spec (channel : Channel) : Json :=
  object [("type", text channel.typeName), ("selected_broker", text channel.selectedBroker),
    ("broker_priority_list", ofNames channel.brokerPriority)]

theorem readSpec?_spec (base channel : Channel) : base.readSpec? channel.spec =
    some { base with
      typeName := channel.typeName
      selectedBroker := channel.selectedBroker
      brokerPriority := channel.brokerPriority } := by
  rw [readSpec?, spec, record?_object ["type", "selected_broker", "broker_priority_list"] rfl
    (by decide) (by decide)]
  simp

theorem toJson_eq (channel : Channel) : channel.toJson = object [("meta", channel.info.toJson),
    ("spec", channel.spec), ("connected_apps", ofNames channel.connectedApps),
    ("connected_aliases", ofNames channel.connectedAliases)] := rfl

theorem info_of_readSpec? {channel read : Channel} {json : Json}
    (h : channel.readSpec? json = some read) : read.info = channel.info := by
  simp only [readSpec?, Option.bind_eq_bind, Option.bind_eq_some_iff, Option.pure_def,
    Option.some.injEq] at h
  obtain ⟨record, -, _, -, _, -, _, -, rfl⟩ := h
  rfl

theorem roundTrips : RoundTrips (fun channel => channel.info.Ordered) toJson ofJson? where
  read_write channel hinfo := by
    have hmeta := Metadata.roundTrips.read_write channel.info hinfo
    rw [ofJson?, toJson_eq, record?_object ["meta", "spec", "connected_apps", "connected_aliases"]
      rfl (by decide) (by decide)]
    simp [hmeta, readSpec?_spec]
  fit_of_read json channel h := by
    simp only [ofJson?, Option.bind_eq_bind, Option.bind_eq_some_iff] at h
    obtain ⟨record, -, info, hinfo, _, -, _, -, h⟩ := h
    have hordered : info.Ordered :=
      Record.fit_of_field Metadata.ordered_empty Metadata.roundTrips.fit_of_read hinfo
    refine Record.fit_of_field (P := fun channel => channel.info.Ordered) hordered ?_ h
    intro json read hread
    rw [info_of_readSpec? hread]
    exact hordered

theorem fillsIn : FillsIn (toJson {}).members ofJson? := by
  refine .of_record (fun _ => rfl) ?_
  simp only [toJson_eq, Json.members, List.forall_mem_cons]
  refine ⟨?_, ?_, ?_, ?_, List.forall_mem_nil _⟩
  all_goals
    refine ⟨by decide, fun record hrecord => ?_⟩
    simp [Record.field_of_lookup hrecord, Metadata.roundTrips.read_write {} Metadata.ordered_empty,
      readSpec?_spec]

theorem spec_fillsIn (base : Channel) : FillsIn (spec {}).members base.readSpec? := by
  refine .of_record (fun _ => rfl) ?_
  simp only [spec, Json.members, List.forall_mem_cons]
  refine ⟨?_, ?_, ?_, List.forall_mem_nil _⟩
  all_goals
    refine ⟨by decide, fun record hrecord => ?_⟩
    simp [Record.field_of_lookup hrecord]

end Channel

namespace ChannelType

theorem roundTrips : RoundTrips (fun declared => declared.info.Ordered) toJson ofJson? where
  read_write declared hinfo := by
    have hmeta := Metadata.roundTrips.read_write declared.info hinfo
    rw [ofJson?, toJson, record?_object ["meta", "schema", "connected_channels"] rfl (by decide)
      (by decide)]
    simp [hmeta]
  fit_of_read json declared h := by
    simp only [ofJson?, Option.bind_eq_bind, Option.bind_eq_some_iff, Option.pure_def,
      Option.some.injEq] at h
    obtain ⟨record, -, info, hinfo, _, -, _, -, rfl⟩ := h
    exact Record.fit_of_field Metadata.ordered_empty Metadata.roundTrips.fit_of_read hinfo

theorem fillsIn : FillsIn (toJson {}).members ofJson? := by
  refine .of_record (fun _ => rfl) ?_
  simp only [toJson, Json.members, List.forall_mem_cons]
  refine ⟨?_, ?_, ?_, List.forall_mem_nil _⟩
  all_goals
    refine ⟨by decide, fun record hrecord => ?_⟩
    simp [Record.field_of_lookup hrecord, Metadata.roundTrips.read_write {} Metadata.ordered_empty]

end ChannelType

namespace ChannelAlias

theorem roundTrips : RoundTrips (fun declared => declared.info.Ordered) toJson ofJson? where
  read_write declared hinfo := by
    have hmeta := Metadata.roundTrips.read_write declared.info hinfo
    rw [ofJson?, toJson, record?_object ["meta", "target"] rfl (by decide) (by decide)]
    simp [hmeta]
  fit_of_read json declared h := by
    simp only [ofJson?, Option.bind_eq_bind, Option.bind_eq_some_iff, Option.pure_def,
      Option.some.injEq] at h
    obtain ⟨record, -, info, hinfo, _, -, rfl⟩ := h
    exact Record.fit_of_field Metadata.ordered_empty Metadata.roundTrips.fit_of_read hinfo

theorem fillsIn : FillsIn (toJson {}).members ofJson? := by
  refine .of_record (fun _ => rfl) ?_
  simp only [toJson, Json.members, List.forall_mem_cons]
  refine ⟨?_, ?_, List.forall_mem_nil _⟩
  all_goals
    refine ⟨by decide, fun record hrecord => ?_⟩
    simp [Record.field_of_lookup hrecord, Metadata.roundTrips.read_write {} Metadata.ordered_empty]

end ChannelAlias

namespace Boundary

theorem roundTrips : RoundTrips (fun _ => True) toJson ofJson? where
  read_write boundary _ := by
    rw [ofJson?, toJson, record?_object ["input", "output"] rfl (by decide) (by decide)]
    simp [NameSet.roundTrips.read_write]
  fit_of_read _ _ _ := trivial

theorem fillsIn : FillsIn (toJson {}).members ofJson? := by
  refine .of_record (fun _ => rfl) ?_
  simp only [toJson, Json.members, List.forall_mem_cons]
  refine ⟨?_, ?_, List.forall_mem_nil _⟩
  all_goals
    refine ⟨by decide, fun record hrecord => ?_⟩
    simp [Record.field_of_lookup hrecord, NameSet.roundTrips.read_write]

end Boundary

namespace Node

theorem roundTrips : RoundTrips (fun node => node.environment.Ordered) toJson ofJson? where
  read_write node henvironment := by
    -- The steps are given one by one: `simp` would have the kernel evaluate the bound on replicas.
    rw [ofJson?, toJson, record?_object ["image", "replicas", "environment"] rfl (by decide)
      (by decide)]
    refine Option.bind_eq_some_iff.mpr ⟨_, rfl, ?_⟩
    refine Option.bind_eq_some_iff.mpr ⟨node.image, rfl, ?_⟩
    have hreplicas := roundTrips_uint32.read_write node.replicas trivial
    refine Option.bind_eq_some_iff.mpr ⟨node.replicas, hreplicas, ?_⟩
    have hvariables := roundTrips_texts.read_write node.environment henvironment
    exact Option.bind_eq_some_iff.mpr ⟨node.environment, hvariables, rfl⟩
  fit_of_read json node h := by
    simp only [ofJson?, Option.bind_eq_bind, Option.bind_eq_some_iff, Option.pure_def,
      Option.some.injEq] at h
    obtain ⟨record, -, _, -, _, -, environment, henvironment, rfl⟩ := h
    exact Record.fit_of_field (P := Dict.Ordered) Dict.ordered_empty roundTrips_texts.fit_of_read
      henvironment

theorem fillsIn : FillsIn (toJson {}).members ofJson? := by
  have hreplicas : uint32? (integer 0) = some 0 := by decide
  refine .of_record (fun _ => rfl) ?_
  simp only [toJson, Json.members, List.forall_mem_cons]
  refine ⟨?_, ?_, ?_, List.forall_mem_nil _⟩
  all_goals
    refine ⟨by decide, fun record hrecord => ?_⟩
    simp [Record.field_of_lookup hrecord, ofDict, hreplicas]

end Node

namespace App

variable {info : Metadata} {json : Json} {read read' : Json → Option App} {app : App}

def readSpec? (read : Json → Option App) (info : Metadata) (json : Json) : Option App := do
  let record ← json.record? ["apps", "channels", "types", "aliases", "boundary", "node"] 0
  return {
    apps := ← record.field "apps" {} (dict? read)
    own := {
      info
      channels := ← record.field "channels" {} (dict? Channel.ofJson?)
      types := ← record.field "types" {} (dict? ChannelType.ofJson?)
      aliases := ← record.field "aliases" {} (dict? ChannelAlias.ofJson?)
      boundary := ← record.field "boundary" {} Boundary.ofJson?
      node := ← record.field "node" none (nullable? Node.ofJson?) } }

def readWith? (read : Json → Option App) (json : Json) : Option App := do
  let record ← json.record? ["meta", "spec"] 0
  let info ← record.field "meta" {} Metadata.ofJson?
  record.field "spec" { own := { info } } (readSpec? read info)

theorem read?_succ (fuel : Nat) (json : Json) :
    read? (fuel + 1) json = readWith? (read? fuel) json := rfl

theorem readSpec?_congr (h : ∀ child, child.height < json.height → read child = read' child) :
    readSpec? read info json = readSpec? read' info json := by
  rw [readSpec?, readSpec?]
  cases hrecord : json.record? ["apps", "channels", "types", "aliases", "boundary", "node"] 0 with
  | none => rfl
  | some record =>
    have happs : record.field "apps" {} (dict? read) = record.field "apps" {} (dict? read') := by
      apply Record.field_congr
      intro value hvalue
      apply dict?_congr
      intro child hchild
      exact h child (Nat.lt_trans hchild (height_lt_of_lookup hrecord hvalue))
    simp [happs]

theorem readWith?_congr (h : ∀ child, child.height < json.height → read child = read' child) :
    readWith? read json = readWith? read' json := by
  rw [readWith?, readWith?]
  cases hrecord : json.record? ["meta", "spec"] 0 with
  | none => rfl
  | some record =>
    have hspec (info : Metadata) : record.field "spec" { own := { info } } (readSpec? read info) =
        record.field "spec" { own := { info } } (readSpec? read' info) := by
      apply Record.field_congr
      intro spec hspec
      apply readSpec?_congr
      intro child hchild
      exact h child (Nat.lt_trans hchild (height_lt_of_lookup hrecord hspec))
    simp [hspec]

theorem read?_congr {fuel fuel' : Nat} (h : json.height < fuel) (h' : json.height < fuel') :
    read? fuel json = read? fuel' json := by
  induction fuel generalizing fuel' json with
  | zero => exact absurd h (Nat.not_lt_zero _)
  | succ fuel ih =>
    obtain ⟨fuel', rfl⟩ : ∃ n, fuel' = n + 1 := ⟨fuel' - 1, by omega⟩
    rw [read?_succ, read?_succ]
    apply readWith?_congr
    intro child hchild
    exact ih (by omega) (by omega)

theorem ofJson?_eq (json : Json) : ofJson? json = readWith? ofJson? json := by
  rw [ofJson?, read?_succ]
  apply readWith?_congr
  intro child hchild
  exact read?_congr hchild (Nat.lt_succ_self _)

theorem toJsonAll_eq (children : List (String × App)) :
    toJsonAll children = children.map fun (key, child) => (key, child.toJson) := by
  induction children with
  | nil => rfl
  | cons entry rest ih => rw [toJsonAll, ih, List.map_cons]

def spec (app : App) : Json := object (("apps", ofDict toJson app.apps) :: app.own.members)

theorem toJson_eq (app : App) :
    app.toJson = object [("meta", app.own.info.toJson), ("spec", app.spec)] := by
  obtain ⟨own, ⟨children⟩⟩ := app
  rw [toJson, toJsonAll_eq]
  rfl

theorem readSpec?_spec (hown : app.own.Ordered)
    (happs : dict? read (ofDict toJson app.apps) = some app.apps) (info : Metadata) :
    readSpec? read info app.spec = some { app with own := { app.own with info } } := by
  obtain ⟨own, apps⟩ := app
  obtain ⟨_, channels, types, aliases, boundary, node⟩ := own
  obtain ⟨-, hchannels, htypes, haliases, hnode⟩ := hown
  have hchannel := Channel.roundTrips.dict.read_write channels hchannels
  have htype := ChannelType.roundTrips.dict.read_write types htypes
  have halias := ChannelAlias.roundTrips.dict.read_write aliases haliases
  have hboundary := Boundary.roundTrips.read_write boundary trivial
  rw [readSpec?, spec]
  cases node with
  | none =>
    rw [record?_object ["apps", "channels", "types", "aliases", "boundary"] rfl (by decide)
      (by decide)]
    simp [happs, hchannel, htype, halias, hboundary, Own.members]
  | some node =>
    have hnode : nullable? Node.ofJson? node.toJson = some (some node) :=
      nullable?_eq_some (by simp [Node.toJson]) (Node.roundTrips.read_write node (hnode node rfl))
    rw [record?_object ["apps", "channels", "types", "aliases", "boundary", "node"] rfl (by decide)
      (by decide)]
    simp [happs, hchannel, htype, halias, hboundary, hnode, Own.members]

theorem ordered_of_readSpec? (hinfo : info.Ordered)
    (hread : ∀ child app, read child = some app → app.Ordered)
    (h : readSpec? read info json = some app) : app.Ordered := by
  simp only [readSpec?, Option.bind_eq_bind, Option.bind_eq_some_iff, Option.pure_def,
    Option.some.injEq] at h
  obtain ⟨record, -, apps, happs, channels, hchannels, types, htypes, aliases, haliases, boundary,
    -, node, hnode, rfl⟩ := h
  obtain ⟨happs, hbelow⟩ := Record.fit_of_dict_field hread happs
  refine ordered_iff.mpr ⟨⟨hinfo, ?_, ?_, ?_, ?_⟩, happs, ?_⟩
  · exact Record.fit_of_dict_field Channel.roundTrips.fit_of_read hchannels
  · exact Record.fit_of_dict_field ChannelType.roundTrips.fit_of_read htypes
  · exact Record.fit_of_dict_field ChannelAlias.roundTrips.fit_of_read haliases
  · exact Record.fit_of_field (P := fun node => ∀ n ∈ node, n.environment.Ordered) (by simp)
      (fun _ _ => fit_of_nullable? Node.roundTrips.fit_of_read) hnode
  · exact fun entry hentry => hbelow entry.2 (List.mem_map.mpr ⟨entry, hentry, rfl⟩)

theorem ordered_of_read? {fuel : Nat} (h : read? fuel json = some app) : app.Ordered := by
  induction fuel generalizing json app with
  | zero => cases h
  | succ fuel ih =>
    rw [read?_succ, readWith?] at h
    simp only [Option.bind_eq_bind, Option.bind_eq_some_iff] at h
    obtain ⟨record, -, info, hinfo, hspec⟩ := h
    have hordered : info.Ordered :=
      Record.fit_of_field Metadata.ordered_empty Metadata.roundTrips.fit_of_read hinfo
    have habsent : Ordered { own := { info } } :=
      ordered_iff.mpr ⟨⟨hordered, ordered_empty.own.2⟩, (ordered_iff.mp ordered_empty).2⟩
    refine Record.fit_of_field habsent (fun spec app hread => ?_) hspec
    exact ordered_of_readSpec? hordered (fun _ _ => ih) hread

theorem roundTrips : RoundTrips Ordered toJson ofJson? where
  read_write app happ := by
    induction app using App.induction with
    | node own apps ih =>
      have hmeta := Metadata.roundTrips.read_write own.info happ.own.1
      have happs : dict? ofJson? (ofDict toJson apps) = some apps :=
        dict?_ofDict happ.apps fun key child hmem => ih key child hmem (happ.of_mem hmem)
      rw [ofJson?_eq, readWith?, toJson_eq, record?_object ["meta", "spec"] rfl (by decide)
        (by decide)]
      have hspec := readSpec?_spec happ.own happs own.info
      simp [hmeta, hspec]
  fit_of_read _ _ := ordered_of_read?

theorem fillsIn : FillsIn (toJson {}).members ofJson? := by
  refine .of_record ofJson?_eq ?_
  have hmeta := Metadata.roundTrips.read_write {} Metadata.ordered_empty
  have hspec (info : Metadata) : readSpec? ofJson? info (spec {}) = some { own := { info } } :=
    readSpec?_spec ordered_empty.own (dict?_empty _) info
  simp only [toJson_eq, Json.members, List.forall_mem_cons]
  refine ⟨?_, ?_, List.forall_mem_nil _⟩
  all_goals
    refine ⟨by decide, fun record hrecord => ?_⟩
    simp [Record.field_of_lookup hrecord, hmeta, hspec]

theorem spec_fillsIn (read : Json → Option App) (info : Metadata) :
    FillsIn (("node", null) :: (spec {}).members) (readSpec? read info) := by
  refine .of_record (fun _ => rfl) ?_
  have hboundary := Boundary.roundTrips.read_write {} trivial
  simp only [spec, Json.members, Own.members, List.forall_mem_cons, Option.map_none,
    Option.toList_none, List.append_nil]
  refine ⟨?_, ?_, ?_, ?_, ?_, ?_, List.forall_mem_nil _⟩
  all_goals
    refine ⟨by decide, fun record hrecord => ?_⟩
    simp [Record.field_of_lookup hrecord, ofDict, hboundary]

end App

namespace Component

theorem ofJson?_tag {json : Json}
    (hjson : ∃ members, json = object members ∧ "kind" ∉ members.map Prod.fst) (kind : Kind) :
    ofJson? (json.tag "kind" kind.noun) =
      match kind with
      | .channelType => channelType <$> ChannelType.ofJson? json
      | .channel => channel <$> Channel.ofJson? json
      | .app => app <$> App.ofJson? json
      | .channelAlias => channelAlias <$> ChannelAlias.ofJson? json := by
  obtain ⟨members, rfl, hkind⟩ := hjson
  rw [ofJson?, tagged?_tag hkind]
  cases kind <;> rfl

theorem roundTrips : RoundTrips Component.Ordered toJson ofJson? where
  read_write component hcomponent := by
    cases component with
    | channelType declared =>
      have hread := ChannelType.roundTrips.read_write declared hcomponent
      exact (ofJson?_tag ⟨_, rfl, by simp⟩ .channelType).trans
        (congrArg (Option.map channelType) hread)
    | channel declared =>
      have hread := Channel.roundTrips.read_write declared hcomponent
      exact (ofJson?_tag ⟨_, rfl, by simp⟩ .channel).trans (congrArg (Option.map channel) hread)
    | app declared =>
      have hread := App.roundTrips.read_write declared hcomponent
      exact (ofJson?_tag ⟨_, App.toJson_eq declared, by simp⟩ .app).trans
        (congrArg (Option.map app) hread)
    | channelAlias declared =>
      have hread := ChannelAlias.roundTrips.read_write declared hcomponent
      exact (ofJson?_tag ⟨_, rfl, by simp⟩ .channelAlias).trans
        (congrArg (Option.map channelAlias) hread)
  fit_of_read json component h := by
    simp only [ofJson?, Option.bind_eq_bind, Option.bind_eq_some_iff] at h
    obtain ⟨⟨noun, json⟩, -, kind, -, h⟩ := h
    cases kind with
    | channelType =>
      obtain ⟨declared, hread, rfl⟩ := Option.map_eq_some_iff.mp h
      exact ChannelType.roundTrips.fit_of_read json declared hread
    | channel =>
      obtain ⟨declared, hread, rfl⟩ := Option.map_eq_some_iff.mp h
      exact Channel.roundTrips.fit_of_read json declared hread
    | app =>
      obtain ⟨declared, hread, rfl⟩ := Option.map_eq_some_iff.mp h
      exact App.roundTrips.fit_of_read json declared hread
    | channelAlias =>
      obtain ⟨declared, hread, rfl⟩ := Option.map_eq_some_iff.mp h
      exact ChannelAlias.roundTrips.fit_of_read json declared hread

end Component

theorem ChangeKind.ofJson?_name (kind : ChangeKind) : ofJson? (text kind.name) = some kind :=
  ofName?_name kind

theorem Direction.ofJson?_noun (direction : Direction) :
    ofJson? (text direction.noun) = some direction := ofNoun?_noun direction

theorem ChangeDetails.roundTrips : RoundTrips (fun _ => True) toJson ofJson? where
  read_write details _ := by
    cases details with
    | none => rfl
    | field name before after =>
      have htag : (field name before after).toJson = (object [
          ("field", text name), ("before", ofOption text before),
          ("after", ofOption text after)]).tag "type" "field" := rfl
      rw [htag, ofJson?, tagged?_tag (by simp)]
      simp only [Option.bind_eq_bind, Option.bind_some]
      rw [record?_object ["field", "before", "after"] rfl (by decide) (by decide)]
      simp [roundTrips_option.read_write]
    | boundary direction added removed =>
      have htag : (boundary direction added removed).toJson = (object [
          ("direction", text direction.noun), ("added", ofNames added),
          ("removed", ofNames removed)]).tag "type" "boundary" := rfl
      rw [htag, ofJson?, tagged?_tag (by simp)]
      simp only [Option.bind_eq_bind, Option.bind_some]
      rw [record?_object ["direction", "added", "removed"] rfl (by decide) (by decide)]
      simp [Direction.ofJson?_noun]
  fit_of_read _ _ _ := trivial

def ChangeDetails.readField? (json : Json) : Option ChangeDetails := do
  let record ← json.record? ["field", "before", "after"] 3
  return field (← record.required "field" text?)
    (← record.field "before" Option.none (nullable? text?))
    (← record.field "after" Option.none (nullable? text?))

theorem ChangeDetails.readField_fillsIn :
    FillsIn [("before", null), ("after", null)] readField? := by
  refine .of_record (fun _ => rfl) ?_
  simp only [List.forall_mem_cons]
  refine ⟨?_, ?_, List.forall_mem_nil _⟩
  all_goals
    refine ⟨by decide, fun record hrecord => ?_⟩
    simp [Record.field_of_lookup hrecord]

theorem ChangeDetails.fillsIn : FillsIn [("before", null), ("after", null)] ofJson? := by
  intro members name value hdefault hmissing
  have hname : name ≠ "type" ∧ name ∉ ["direction", "added", "removed"] := by
    simp only [List.mem_cons, Prod.mk.injEq, List.not_mem_nil, or_false] at hdefault
    rcases hdefault with ⟨rfl, -⟩ | ⟨rfl, -⟩ <;> decide
  rw [ofJson?, ofJson?, tagged?_cons hname.1]
  cases htagged : (object members).tagged? "type" with
  | none => rfl
  | some tagged =>
    obtain ⟨form, json⟩ := tagged
    have hmissing' : name ∉ (members.filter (·.1 ≠ "type")).map Prod.fst :=
      fun h => hmissing ((List.filter_sublist.map Prod.fst).subset h)
    rw [eq_of_tagged? htagged]
    generalize members.filter (·.1 ≠ "type") = others at hmissing'
    simp only [Option.map_some, Option.bind_eq_bind, Option.bind_some, Json.members]
    split
    · rfl
    · exact readField_fillsIn others name value hdefault hmissing'
    · rw [record?_cons_of_notMem hname.2]
    · rfl

theorem Change.roundTrips : RoundTrips (fun _ => True) toJson ofJson? where
  read_write change _ := by
    have hdetails := ChangeDetails.roundTrips.read_write change.details trivial
    rw [ofJson?, toJson, record?_object ["kind", "path", "details"] rfl (by decide) (by decide)]
    simp [ChangeKind.ofJson?_name, hdetails]
  fit_of_read _ _ _ := trivial

theorem Change.fillsIn : FillsIn [("details", ChangeDetails.none.toJson)] ofJson? := by
  refine .of_record (fun _ => rfl) ?_
  have hdetails := ChangeDetails.roundTrips.read_write .none trivial
  simp only [List.forall_mem_cons]
  refine ⟨⟨by decide, fun record hrecord => ?_⟩, List.forall_mem_nil _⟩
  simp [Record.field_of_lookup hrecord, hdetails]

theorem Changelog.roundTrips : RoundTrips (fun _ => True) toJson ofJson? where
  read_write log _ := Change.roundTrips.list.read_write log fun _ _ => trivial
  fit_of_read _ _ _ := trivial

/-- Whatever is in key order is decoded as it was, and whatever can be decoded can be written and
read again. -/
theorem decoding_undoes_encoding :
    (RoundTrips App.Ordered App.toJson App.ofJson? ∧
      RoundTrips (fun channel => channel.info.Ordered) Channel.toJson Channel.ofJson? ∧
      RoundTrips (fun declared => declared.info.Ordered) ChannelType.toJson ChannelType.ofJson? ∧
      RoundTrips (fun declared => declared.info.Ordered) ChannelAlias.toJson ChannelAlias.ofJson? ∧
      RoundTrips Component.Ordered Component.toJson Component.ofJson? ∧
      RoundTrips (fun components => ∀ component ∈ components, component.Ordered)
        Component.listToJson Component.listOfJson? ∧
      RoundTrips (fun _ => True) Changelog.toJson Changelog.ofJson?) ∧
    (FillsIn (App.toJson {}).members App.ofJson? ∧
      (∀ read info, FillsIn (("node", null) :: (App.spec {}).members) (App.readSpec? read info)) ∧
      FillsIn (Boundary.toJson {}).members Boundary.ofJson? ∧
      FillsIn (Node.toJson {}).members Node.ofJson? ∧
      FillsIn (Channel.toJson {}).members Channel.ofJson? ∧
      (∀ base, FillsIn (Channel.spec {}).members (Channel.readSpec? base)) ∧
      FillsIn (ChannelType.toJson {}).members ChannelType.ofJson? ∧
      FillsIn (ChannelAlias.toJson {}).members ChannelAlias.ofJson? ∧
      FillsIn (Metadata.toJson {}).members Metadata.ofJson? ∧
      FillsIn [("details", ChangeDetails.none.toJson)] Change.ofJson? ∧
      FillsIn [("before", null), ("after", null)] ChangeDetails.ofJson?) ∧
    (∀ json, App.ofJson? json = App.readWith? App.ofJson? json) ∧
    ∀ names, NameSet.ofJson? (ofNames names) = some (.ofList names) :=
  ⟨⟨App.roundTrips, Channel.roundTrips, ChannelType.roundTrips, ChannelAlias.roundTrips,
      Component.roundTrips, Component.roundTrips.list, Changelog.roundTrips⟩,
    ⟨App.fillsIn, App.spec_fillsIn, Boundary.fillsIn, Node.fillsIn, Channel.fillsIn,
      Channel.spec_fillsIn, ChannelType.fillsIn, ChannelAlias.fillsIn, Metadata.fillsIn,
      Change.fillsIn, ChangeDetails.fillsIn⟩,
    App.ofJson?_eq, NameSet.ofJson?_ofNames⟩

example :
    let json := object [("spec", object [
      ("boundary", object [("input", ofNames ["b", "a", "b"])]), ("node", object [])])]
    App.ofJson? json =
      some { own := { boundary := { inputs := .ofList ["a", "b"] }, node := some {} } } := by
  decide +kernel

end AppTopology
