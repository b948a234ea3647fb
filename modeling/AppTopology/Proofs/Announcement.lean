import AppTopology.Proofs.Changes
import AppTopology.Proofs.Forgery
import AppTopology.Proofs.Listing
import AppTopology.Proofs.Settlement

/-!
Identities are given along the new tree, and records are found along both trees at once; the two
walks meet what is new in the same order.
-/

namespace AppTopology

namespace Dict

variable {α β γ : Type} {d : Dict α} {e : Dict β}

theorem filter_keyUnion (he : e.Ordered) :
    (keyUnion d e).filter (fun key => (e.get? key).isSome) = e.keys := by
  let filtered : NameSet :=
    ⟨(keyUnion d e).filter fun key => (e.get? key).isSome,
      (NameSet.ofList (d.keys ++ e.keys)).increasing.filter _⟩
  have hsame : filtered = ⟨e.keys, he⟩ := by
    apply NameSet.ext_mem
    intro key
    rw [List.mem_filter, mem_keyUnion, ← isSome_get?_iff]
    exact ⟨And.right, fun hkey => ⟨.inr hkey, hkey⟩⟩
  exact congrArg NameSet.names hsame

theorem flatMap_keyUnion (he : e.Ordered) (f : String → β → List γ) :
    (keyUnion d e).flatMap (fun key => ((e.get? key).map (f key)).getD []) =
      e.entries.flatMap fun entry => f entry.1 entry.2 := by
  have hskip (keys : List String) :
      keys.flatMap (fun key => ((e.get? key).map (f key)).getD []) =
        (keys.filter fun key => (e.get? key).isSome).flatMap
          fun key => ((e.get? key).map (f key)).getD [] := by
    induction keys with
    | nil => rfl
    | cons key rest ih =>
      rw [List.flatMap_cons, List.filter_cons, ih]
      cases hkey : e.get? key <;> simp [hkey]
  rw [hskip, filter_keyUnion he, keys, List.flatMap_map]
  apply List.flatMap_congr
  rintro ⟨key, value⟩ hmem
  rw [he.get?_of_mem hmem]
  rfl

end Dict

def Changelog.created (log : Changelog) : List String :=
  Changelog.paths (log.filter (·.kind.isCreation))

namespace Changelog

@[simp] theorem created_append (log log' : Changelog) :
    created (log ++ log') = created log ++ created log' := by
  simp [created, paths]

theorem created_flatMap {α : Type} (xs : List α) (f : α → Changelog) :
    created (xs.flatMap f) = xs.flatMap fun x => created (f x) := by
  induction xs with
  | nil => rfl
  | cons x xs ih => rw [List.flatMap_cons, created_append, ih, List.flatMap_cons]

end Changelog

namespace Diff

variable {α : Type} [Leaf α] [LawfulLeaf α]
variable {identity : Bool} {path key name : String} {old new : Option App}

theorem created_entity (identity : Bool) (path : String) (old new : Option Entity)
    (hkind : ∀ o n, old = some o → new = some n → o.kind = n.kind) :
    (entity identity path old new).created = if old.isNone ∧ new.isSome then [path] else [] := by
  cases old with
  | none => cases new <;> rfl
  | some o =>
    cases new with
    | none => rfl
    | some n =>
      have hupdates : (entity identity path (some o) (some n)).filter (·.kind.isCreation) = [] := by
        rw [List.filter_eq_nil_iff]
        intro change hchange hcreation
        have hupdate := ((mem_entity (hkind o n rfl rfl)).mp hchange).2.isUpdate
        rw [ChangeKind.isUpdate, hcreation] at hupdate
        exact nomatch hupdate
      rw [Changelog.created, hupdates]
      rfl

variable {scope : String} {p : Position}

theorem created_recordsAt (identity : Bool) (scope : String) (old new : Option App) (p : Position) :
    (recordsAt identity scope old new p).created =
      if (old.bind (·.entity? p)).isNone ∧ (new.bind (·.entity? p)).isSome then [p.path scope]
      else [] :=
  created_entity _ _ _ _ fun o n ho hn =>
    (kind_of_bind_entity? old p o ho).trans (kind_of_bind_entity? new p n hn).symm

structure Fresh (scope : String) (old new : Option App) : Prop where
  ordered : ∀ app ∈ new, app.Ordered
  reference : ∀ p info, new.bind (·.info? p) = some info → info.reference = p.path scope
  identity : ∀ p info, new.bind (·.info? p) = some info →
    (info.hasIdentity ↔ (old.bind (·.info? p)).isSome)

theorem info?_children (side : Option App) (key : String) (p : Position) :
    ((children side).get? key).bind (·.info? p) = side.bind (·.info? (p.inside key)) := by
  cases side with
  | none => rfl
  | some app => exact (app.info?_inside key p).symm

namespace Fresh

variable (h : Fresh scope old new)

include h

theorem child (key : String) :
    Fresh (Scope.child scope key) ((children old).get? key) ((children new).get? key) := by
  constructor
  · intro child hchild
    rw [get?_children] at hchild
    obtain ⟨app, happ, hchild⟩ := Option.bind_eq_some_iff.mp hchild
    exact (h.ordered app happ).of_mem (App.mem_of_child? hchild)
  · intro p info hinfo
    rw [info?_children] at hinfo
    exact h.reference _ info hinfo
  · intro p info hinfo
    rw [info?_children] at hinfo ⊢
    exact h.identity _ info hinfo

theorem created_recordsAt (identity : Bool) (p : Position) :
    (recordsAt identity scope old new p).created =
      ((new.bind (·.info? p)).map App.unidentifiedInfo).getD [] := by
  have hsome (side : Option App) :
      (side.bind (·.entity? p)).isSome = (side.bind (·.info? p)).isSome := by
    cases side with
    | none => rfl
    | some app => rw [Option.bind_some, Option.bind_some, App.info?_eq, Option.isSome_map]
  rw [Diff.created_recordsAt, ← Option.not_isSome, hsome, hsome]
  cases hinfo : new.bind (·.info? p) with
  | none => simp
  | some info =>
    have hidentity : info.hasIdentity = (old.bind (·.info? p)).isSome :=
      Bool.eq_iff_iff.mpr (h.identity p info hinfo)
    rw [Option.map_some, Option.getD_some, App.unidentifiedInfo, h.reference p info hinfo,
      hidentity]
    generalize (old.bind (·.info? p)).isSome = stands
    cases stands <;> simp

theorem created_own (identity : Bool) : (own identity scope old new).created =
    (new.map fun app => App.unidentifiedInfo app.info).getD [] := by
  rw [own_eq_recordsAt, h.created_recordsAt]
  cases new <;> rfl

theorem ordered_shelf (α : Type) [Leaf α] [LawfulLeaf α] : (shelf α new).Ordered := by
  cases new with
  | none => exact Dict.ordered_empty
  | some app => exact (LawfulLeaf.ordered_shelf (h.ordered app rfl).own).1

theorem ordered_children : (children new).Ordered := by
  cases new with
  | none => exact Dict.ordered_empty
  | some app => exact (h.ordered app rfl).apps

theorem created_leaves (α : Type) [Leaf α] [LawfulLeaf α] :
    Changelog.created ((Dict.keyUnion (shelf α old) (shelf α new)).flatMap fun name =>
      leaf true (Scope.child scope name) ((shelf α old).get? name) ((shelf α new).get? name)) =
      App.unidentifiedShelf (shelf α new) := by
  have hinfo (name : String) : new.bind (·.info? ⟨[], .ofKind (Leaf.kind α) name⟩) =
      ((shelf α new).get? name).map Leaf.info := by
    rw [get?_shelf, Option.map_bind]
    simp only [App.info?_own, LawfulLeaf.info?_ofKind]
    rfl
  rw [Changelog.created_flatMap]
  simp only [leaf_eq_recordsAt α true, h.created_recordsAt, hinfo, Option.map_map]
  rw [Dict.flatMap_keyUnion (h.ordered_shelf α), App.unidentifiedShelf, Dict.values,
    List.flatMap_map]
  rfl

end Fresh

theorem created_subtree (hscope : Scope.isScope scope) (hold : ∀ app ∈ old, app.Named scope)
    (hnew : ∀ app ∈ new, app.Named scope) (h : Fresh scope old new) (identity : Bool) :
    ∃ log, subtree identity scope old new = .ok log ∧
      log.created = (new.map App.unidentified).getD [] := by
  induction old, new using subtree_induction generalizing scope identity with
  | step old new ih =>
    have hbelow (key : String) : ∃ log : Changelog,
        (((children old).get? key).isSome ∨ ((children new).get? key).isSome →
          subtree true (Scope.child scope key) ((children old).get? key)
            ((children new).get? key) = .ok log) ∧
        log.created = (((children new).get? key).map App.unidentified).getD [] := by
      by_cases hkey : ((children old).get? key).isSome ∨ ((children new).get? key).isSome
      · have hadmits : Scope.Admits scope key :=
          hkey.elim (admits_of_isSome_children hold) (admits_of_isSome_children hnew)
        obtain ⟨log, hlog, hcreated⟩ := ih key hkey (hadmits.isScope_child hscope)
          (named_children hold) (named_children hnew) (h.child key) true
        exact ⟨log, fun _ => hlog, hcreated⟩
      · rw [not_or, Option.not_isSome_iff_eq_none, Option.not_isSome_iff_eq_none] at hkey
        exact ⟨[], fun hsome => by simp [hkey] at hsome, by rw [hkey.2]; rfl⟩
    choose below hbelow hcreated using hbelow
    refine ⟨_, subtree_ok hscope hold hnew hbelow (leaves_ok hscope hold hnew)
      (leaves_ok hscope hold hnew) (leaves_ok hscope hold hnew), ?_⟩
    simp only [Changelog.created_append, Changelog.created_flatMap _ below, h.created_own,
      h.created_leaves, hcreated]
    rw [Dict.flatMap_keyUnion h.ordered_children fun _ => App.unidentified]
    cases new with
    | none => rfl
    | some app =>
      obtain ⟨own, ⟨children⟩⟩ := app
      rw [Option.map_some, Option.map_some, Option.getD_some, Option.getD_some, App.unidentified,
        App.unidentifiedAll_eq]
      rfl

end Diff

namespace Event

def assigned? : Event → Option String
  | identityAssigned reference _ => some reference
  | _ => none

def committed? : Event → Option (Nat × Nat)
  | treeCommitted changes assigned => some (changes, assigned)
  | _ => none

def IsRouting : Event → Prop
  | brokerSelected .. | defaultSelected _ => True
  | _ => False

theorem IsRouting.assigned? {event : Event} (h : event.IsRouting) : event.assigned? = none := by
  cases event <;> first | rfl | cases h

theorem IsRouting.committed? {event : Event} (h : event.IsRouting) : event.committed? = none := by
  cases event <;> first | rfl | cases h

end Event

namespace Registry

variable (registry : Registry)

theorem isRouting_routeEvents (channel : Channel) :
    ∀ event ∈ registry.routeEvents channel, event.IsRouting := by
  intro event hevent
  rcases List.mem_append.mp hevent with hdefault | hselected
  · rw [selectEvents] at hdefault
    split at hdefault
    · cases hdefault
    · rw [List.mem_singleton.mp hdefault]
      trivial
  · rw [Option.mem_toList, Option.map_eq_some_iff] at hselected
    obtain ⟨broker, -, rfl⟩ := hselected
    trivial

theorem isRouting_eventsBelow (app : App) :
    ∀ event ∈ registry.eventsBelow app, event.IsRouting := by
  induction app using App.induction with
  | node own apps ih =>
    obtain ⟨children⟩ := apps
    intro event hevent
    rw [eventsBelow, List.mem_append, List.mem_flatMap] at hevent
    rcases hevent with ⟨channel, -, hevent⟩ | hevent
    · exact registry.isRouting_routeEvents channel event hevent
    · rw [eventsAll_eq, List.mem_flatMap] at hevent
      obtain ⟨⟨key, child⟩, hmem, hevent⟩ := hevent
      exact ih key child hmem event hevent

end Registry

theorem Mutation.isRouting_routeEvents (mutation : Mutation) (registry : Registry) :
    ∀ event ∈ mutation.routeEvents registry, event.IsRouting := by
  have hcomponent (component : Component) :
      ∀ event ∈ registry.componentEvents component, event.IsRouting := by
    cases component with
    | channel channel => exact registry.isRouting_routeEvents channel
    | app app =>
      intro event hevent
      rw [Registry.componentEvents] at hevent
      split at hevent
      · cases hevent
      · exact registry.isRouting_eventsBelow app event hevent
    | channelType declared | channelAlias declared =>
      exact fun _ hevent => absurd hevent List.not_mem_nil
  cases mutation with
  | create scope component | update scope component => exact hcomponent component
  | delete target => exact fun _ hevent => absurd hevent List.not_mem_nil

theorem Metadata.reference_filedAt (info : Metadata) (p : Position) :
    (info.filedAt "" p).reference = p.path "" := by
  obtain ⟨place, item⟩ := p
  have hnames (item : Item) : Position.names ⟨place, item⟩ = place ++ item.steps.map Prod.snd := by
    simp [Position.names, Position.steps, Function.comp_def]
  cases item with
  | app =>
    obtain rfl | ⟨place, key, rfl⟩ := List.eq_nil_or_concat' place
    · rfl
    · rw [Position.path, hnames, Scope.under_append, Scope.under_append]
      simp [filedAt, Position.owner, Position.name, Item.steps]
  | channel name | channelType name | channelAlias name =>
    rw [Position.path, hnames, Scope.under_append]
    rfl

namespace Store

variable {store : Store} {mutation : Mutation} {mode : Mode} {log : Changelog} {edited : App}

theorem fresh_of_accepted {target : Target} (hstore : store.tree.Committed)
    (h : Accepted store.tree target edited log) :
    Diff.Fresh "" (some store.tree) (some edited.filed) := by
  have hchecked := h.checked hstore.ordered
  constructor
  · intro app happ
    rw [← Option.some.inj happ]
    exact hchecked.ordered
  · intro p info hinfo
    rw [← hchecked.info_eq hinfo]
    exact info.reference_filedAt p
  · intro p info hinfo
    have huuid : edited.filed.uuid? p = some info.uuid := congrArg (Option.map Metadata.uuid) hinfo
    rw [App.uuid?_filed] at huuid
    have hcarried := h.edit.carries.uuid? huuid
    rw [Metadata.hasIdentity, decide_eq_true_eq, hcarried, Option.bind_some, App.uuid?]
    cases hold : store.tree.info? p with
    | none => simp
    | some old => simpa using hstore.identified p old hold

theorem created_of_accepted {target : Target} (hstore : store.tree.Committed)
    (h : Accepted store.tree target edited log) : log.created = edited.filed.unidentified := by
  have hchecked := h.checked hstore.ordered
  have hlog := subtree_of_edited hstore.toChecked hchecked h.edit h.log
  rw [Diff.subtree_congr (Diff.alike_filed (some store.tree) edited)] at hlog
  obtain ⟨log', hlog', hcreated⟩ := Diff.created_subtree Scope.isScope_empty
    (fun app happ => (rooted hstore.toChecked app happ).1)
    (fun app happ => Option.some.inj happ ▸ hchecked.named) (fresh_of_accepted hstore h) false
  rw [hlog, Except.ok.injEq] at hlog'
  rw [hlog', hcreated]
  rfl

theorem assigned_commitEvents (store : Store) (staged : App) :
    (store.commitEvents staged).filterMap Event.assigned? = staged.unidentified := by
  rw [commitEvents, Supply.issues, List.map_map, List.filterMap_map]
  change (staged.unidentified.zipIdx store.supply.next).filterMap (some ∘ Prod.fst) = _
  rw [List.filterMap_eq_map, List.zipIdx_map_fst]

theorem committed_commitEvents (store : Store) (staged : App) :
    (store.commitEvents staged).filterMap Event.committed? = [] := by
  rw [List.filterMap_eq_nil_iff]
  intro event hevent
  obtain ⟨issue, -, rfl⟩ := List.mem_map.mp hevent
  rfl

theorem length_commitEvents (store : Store) (staged : App) :
    (store.commitEvents staged).length = staged.unidentified.length := by
  rw [commitEvents, Supply.issues, List.length_map, List.length_map, List.length_zipIdx]

theorem events_of_settled {staged : App} (hcancelled : mode.cancelled = false)
    (hmode : mode.dryRun = false)
    (hedit : (mutation.route store.registry).edit store.tree = .ok edited)
    (hsettle : store.tree.settle edited mutation.target = .ok (staged, log)) :
    (store.mutate mutation mode).events =
      .mutationRequested (mutation.request false) ::
        (mutation.routeEvents store.registry ++ store.commitEvents staged ++
            [.treeCommitted log.length (store.commitEvents staged).length] ++
          [.mutationSucceeded (mutation.request false) log.length]) := by
  unfold mutate Outcome.conclude Outcome.announce attempt
  simp only [hcancelled, hmode, hedit, hsettle, Bool.false_eq_true, if_false, List.cons_append]

theorem assigned_eq_nil (h : mode.dryRun ∨ ∃ error,
    (store.mutate mutation mode).result = .error error) :
    (store.mutate mutation mode).events.filterMap Event.assigned? = [] := by
  have hrouting : (mutation.routeEvents store.registry).filterMap Event.assigned? = [] :=
    List.filterMap_eq_nil_iff.mpr fun event hevent =>
      (mutation.isRouting_routeEvents store.registry event hevent).assigned?
  revert h
  unfold mutate Outcome.conclude Outcome.announce
  cases mode.cancelled with
  | true => exact fun _ => rfl
  | false =>
    simp only [attempt, Bool.false_eq_true, if_false]
    cases (mutation.route store.registry).edit store.tree with
    | error error => exact fun _ => rfl
    | ok edited =>
      dsimp only
      cases store.tree.settle edited mutation.target with
      | error error =>
        intro _
        dsimp only [List.cons_append]
        rw [List.filterMap_cons_none rfl, List.filterMap_append, hrouting]
        rfl
      | ok settled =>
        dsimp only
        cases mode.dryRun with
        | true =>
          intro _
          rw [if_pos rfl, List.cons_append, List.filterMap_cons_none rfl, List.append_assoc,
            List.filterMap_append, hrouting]
          rfl
        | false => simp

/-- A commit announces an identity for each creation that it returns, in the order of the records;
nothing else announces any. -/
theorem Reachable.announces_creations (h : Reachable store) (hmutation : mutation.Ordered) :
    (∀ log, mode.dryRun = false → (store.mutate mutation mode).result = .ok log →
      (store.mutate mutation mode).events.filterMap Event.assigned? = log.created ∧
        (store.mutate mutation mode).events.filterMap Event.committed? =
          [(log.length, log.created.length)]) ∧
    ((mode.dryRun ∨ ∃ error, (store.mutate mutation mode).result = .error error) →
      (store.mutate mutation mode).events.filterMap Event.assigned? = []) := by
  refine ⟨?_, assigned_eq_nil⟩
  intro log hmode hresult
  have hstore := h.committed
  obtain ⟨hcancelled, edited, staged, hedit, hsettle⟩ := exists_settled hresult
  have hstaged := staged_of_settled hstore.ordered hmutation hedit hsettle
  have hcreated := created_of_accepted hstore (hstaged.accepted hmutation)
  obtain ⟨-, rfl, -⟩ := (App.settle_eq_ok
    ((edited_of_edit hmutation hedit).ordered hstore.ordered)).mp hsettle
  have hrouting := mutation.isRouting_routeEvents store.registry
  have hassigned : (mutation.routeEvents store.registry).filterMap Event.assigned? = [] :=
    List.filterMap_eq_nil_iff.mpr fun event hevent => (hrouting event hevent).assigned?
  have hcommitted : (mutation.routeEvents store.registry).filterMap Event.committed? = [] :=
    List.filterMap_eq_nil_iff.mpr fun event hevent => (hrouting event hevent).committed?
  rw [events_of_settled hcancelled hmode hedit hsettle, hcreated, length_commitEvents]
  constructor
  · rw [List.filterMap_cons_none rfl, List.filterMap_append, List.filterMap_append,
      List.filterMap_append, hassigned, assigned_commitEvents]
    simp [Event.assigned?]
  · rw [List.filterMap_cons_none rfl, List.filterMap_append, List.filterMap_append,
      List.filterMap_append, hcommitted, committed_commitEvents]
    rfl

theorem announces_creations_billing :
    let store := (Fixture.billingStore .unary).1
    let archive := (App.named "archive").withLeaf (Channel.named "inbox" "Invoice")
    let billing := (((App.named "billing").withLeaf Fixture.invoiceType).withLeaf
      Fixture.invoices).withApp archive
    let outcome := store.mutate (.update "billing" (.app billing)) {}
    ∃ log, outcome.result = .ok log ∧
      log.created = ["billing.archive", "billing.archive.inbox"] ∧
      outcome.events.filterMap Event.assigned? = log.created ∧
      outcome.events.filterMap Event.committed? = [(log.length, log.created.length)] := by
  intro store archive billing outcome
  have hbilling : Mutation.Ordered (.update "billing" (.app billing)) :=
    show billing.Ordered by decide +kernel
  have hcreated : outcome.result.toOption.map Changelog.created =
      some ["billing.archive", "billing.archive.inbox"] := by decide +kernel
  obtain ⟨log, hlog, hcreated⟩ := Option.map_eq_some_iff.mp hcreated
  have hresult : outcome.result = .ok log := by
    cases hresult : outcome.result with
    | error error =>
      rw [hresult] at hlog
      exact nomatch hlog
    | ok log' =>
      rw [hresult] at hlog
      rw [Option.some.inj hlog]
  exact ⟨log, hresult, hcreated,
    ((reachable_billing .unary).announces_creations hbilling).1 log rfl hresult⟩

end Store

end AppTopology
