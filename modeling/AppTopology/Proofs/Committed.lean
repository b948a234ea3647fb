import AppTopology.Proofs.Mutation
import AppTopology.Proofs.Validity

namespace AppTopology

namespace App

variable {root next : App} {p : Position} {info : Metadata}

theorem filed_eq_self_iff (hroot : root.Ordered) : root.filed = root ↔
    ∀ p info, root.info? p = some info → info.filedAt "" p = info := by
  constructor
  · intro h p info hinfo
    have hmap := info?_mapInfo (Metadata.filedAt "") root p
    rw [← filed, h, hinfo, Option.map_some, Option.some.injEq] at hmap
    exact hmap.symm
  · exact mapInfo_eq_self hroot

theorem name_of_filed {place : List String} {app : App} (hroot : root.Ordered)
    (h : root.filed = root) (happ : root.at? place = some app) :
    app.own.info.name = place.getLastD "" := by
  have hinfo : root.info? ⟨place, .app⟩ = some app.own.info := by
    rw [info?, happ]
    rfl
  rw [← (filed_eq_self_iff hroot).mp h _ _ hinfo]
  rfl

theorem filed_filed (root : App) : root.filed.filed = root.filed := by
  rw [filed, filed, mapInfo_mapInfo]
  rfl

theorem Ordered.filed (h : root.Ordered) : root.filed.Ordered := h.mapInfo fun _ _ => rfl

theorem declared_filed (root : App) : root.filed.declared = root.declared :=
  declared_mapInfo (f := Metadata.filedAt "") (fun _ _ => rfl) root

theorem Own.info?_connected (links : Links) (place : List String) (own : App.Own) (item : Item) :
    (own.connected links place).info? item = own.info? item := by
  cases item <;> simp [info?, connected, Function.comp_def, Channel.connect, ChannelType.connect]

theorem info?_connected (links : Links) (app : App) (p : Position) :
    (app.mapOwn (Own.connected links)).info? p = app.info? p := by
  rw [info?, info?, at?_mapOwn]
  cases app.at? p.place with
  | none => rfl
  | some other =>
    rw [Option.map_some, Option.bind_some, own_mapOwn, Own.info?_connected]
    rfl

theorem Ordered.connected {app : App} (h : app.Ordered) (links : Links) :
    (app.mapOwn (Own.connected links)).Ordered := by
  apply h.mapOwn
  rintro place own ⟨hinfo, hchannels, htypes, hrest⟩
  exact ⟨hinfo, hchannels.mapWithKey fun _ _ => rfl, htypes.mapWithKey fun _ _ => rfl, hrest⟩

structure Checked (tree : App) : Prop where
  ordered : tree.Ordered
  filed : tree.filed = tree
  valid : tree.validate = .ok ()

structure Committed (tree : App) : Prop extends tree.Checked where
  identified : ∀ p info, tree.info? p = some info → info.uuid ≠ ""

namespace Checked

variable {app : App} {key : String} {place : List String}

theorem info_eq (h : root.Checked) (hinfo : root.info? p = some info) :
    info.filedAt "" p = info :=
  (filed_eq_self_iff h.ordered).mp h.filed p info hinfo

theorem valid_under (h : root.Checked) (happ : root.at? place = some app) :
    app.own.Valid root (Scope.under "" place) :=
  (validate_eq_ok h.ordered).mp h.valid place app happ

theorem valid_at {scope : String} (h : root.Checked) (hscope : Scope.isScope scope)
    (happ : root.find? scope = some app) : app.own.Valid root scope := by
  have hvalid := h.valid_under happ
  rwa [Scope.under_names hscope] at hvalid

theorem name_eq (h : root.Checked) (happ : root.at? (place ++ [key]) = some app) :
    app.own.info.name = key := by
  rw [name_of_filed h.ordered h.filed happ, List.getLastD_concat]

theorem admits (h : root.Checked) (happ : root.at? (place ++ [key]) = some app) :
    Scope.Admits (Scope.under "" place) key := by
  have hvalid := h.valid_under happ
  rw [Scope.under_append, Scope.under_cons, Scope.under_nil] at hvalid
  by_cases hpath : Scope.child (Scope.under "" place) key = ""
  · exact Or.inr (Scope.child_eq_empty.mp hpath)
  · have hname := hvalid.name hpath
    rw [h.name_eq happ] at hname
    exact Or.inl hname

theorem name_of_find? (h : root.Checked) (hscope : Scope.isScope scope)
    (happ : root.find? scope = some app) : app.info.name = Scope.leaf scope :=
  (name_of_filed h.ordered h.filed happ).trans (Scope.getLastD_names hscope)

end Checked

end App

theorem Metadata.identifiedAs_annotations (uuid : String) (info : Metadata) :
    (info.identifiedAs uuid).annotations = info.annotations := by
  unfold identifiedAs
  split <;> rfl

theorem Metadata.identifiedAs_name (uuid : String) (info : Metadata) :
    (info.identifiedAs uuid).name = info.name := by
  unfold identifiedAs
  split <;> rfl

theorem Metadata.filedAt_identifiedAs (uuid scope : String) (p : Position) (info : Metadata) :
    (info.identifiedAs uuid).filedAt scope p = (info.filedAt scope p).identifiedAs uuid := by
  have huuid : (info.filedAt scope p).hasIdentity = info.hasIdentity := rfl
  unfold identifiedAs
  rw [huuid]
  split <;> rfl

theorem Metadata.uuid_identifiedAs (uuid : String) (info : Metadata) :
    (info.identifiedAs uuid).uuid = if info.uuid = "" then uuid else info.uuid := by
  unfold identifiedAs hasIdentity
  by_cases h : info.uuid = "" <;> simp [h]

namespace Store

variable {store : Store} {staged : App} {mutation : Mutation} {mode : Mode} {log : Changelog}

theorem exists_numbers_commit (store : Store) (hstaged : staged.Ordered) :
    ∃ (num : Position → Nat) (links : Links),
      (store.commit staged).tree =
        (staged.mapInfo fun p => Metadata.identifiedAs (store.supply.mint (num p))).mapOwn
          (App.Own.connected links) ∧
      Numbers num (fun p => ∃ info, staged.info? p = some info ∧ ¬ info.hasIdentity)
        store.supply.next (store.commit staged).supply.next := by
  obtain ⟨num, next, hrun, hnum⟩ :=
    App.run_identify store.supply.mint hstaged store.supply.next
  refine ⟨num, Links.ofTree (staged.mapInfo fun p =>
    Metadata.identifiedAs (store.supply.mint (num p))), ?_, ?_⟩
  · simp only [commit, Supply.identify, hrun, App.connect_eq]
  · simp only [commit, Supply.identify, hrun]
    exact hnum

theorem uuid?_commit (store : Store) (hstaged : staged.Ordered) :
    ∃ num : Position → Nat,
      (∀ p, (store.commit staged).tree.uuid? p =
        (staged.uuid? p).map fun u => if u = "" then store.supply.mint (num p) else u) ∧
      Numbers num (fun p => staged.uuid? p = some "") store.supply.next
        (store.commit staged).supply.next := by
  obtain ⟨num, links, htree, hnum⟩ := store.exists_numbers_commit hstaged
  refine ⟨num, ?_, hnum.mono ?_⟩
  · intro p
    rw [htree, App.uuid?, App.info?_connected, App.info?_mapInfo, App.uuid?, Option.map_map,
      Option.map_map]
    congr 1
    funext info
    exact info.uuid_identifiedAs _
  · intro p hp
    obtain ⟨info, hinfo, hempty⟩ := Option.map_eq_some_iff.mp hp
    exact ⟨info, hinfo, by simp [Metadata.hasIdentity, hempty]⟩

theorem declared_commit (store : Store) (hstaged : staged.Ordered) :
    (store.commit staged).tree.declared = staged.declared := by
  obtain ⟨num, links, htree, -⟩ := store.exists_numbers_commit hstaged
  rw [htree, App.declared_mapOwn (App.Own.declared_connected links),
    App.declared_mapInfo fun p => Metadata.identifiedAs_annotations _]

theorem committed_commit (store : Store) (hstaged : staged.Checked) :
    (store.commit staged).tree.Committed := by
  obtain ⟨num, links, htree, -⟩ := store.exists_numbers_commit hstaged.ordered
  have hidentified : (staged.mapInfo fun p =>
      Metadata.identifiedAs (store.supply.mint (num p))).Ordered :=
    hstaged.ordered.mapInfo fun p => Metadata.identifiedAs_annotations _
  have hordered := hidentified.connected links
  rw [htree]
  refine ⟨⟨hordered, ?_, ?_⟩, ?_⟩
  · rw [App.filed_eq_self_iff hordered]
    intro p info hinfo
    rw [App.info?_connected, App.info?_mapInfo, Option.map_eq_some_iff] at hinfo
    obtain ⟨info, hinfo, rfl⟩ := hinfo
    rw [Metadata.filedAt_identifiedAs, hstaged.info_eq hinfo]
  · rw [App.validate_mapOwn (App.Own.outline_connected links) fun _ _ => rfl]
    refine (App.validate_mapOwn (fun _ own => own.outline_mapInfo _) ?_ staged).trans hstaged.valid
    exact fun place own => Metadata.identifiedAs_name _ _
  · intro p info hinfo
    rw [App.info?_connected, App.info?_mapInfo, Option.map_eq_some_iff] at hinfo
    obtain ⟨info, -, rfl⟩ := hinfo
    rw [Metadata.uuid_identifiedAs]
    split
    · exact store.supply.mint_ne_empty _
    · assumption

end Store

theorem App.settle_eq_ok {tree edited staged : App} {target : Target} {log : Changelog}
    (hedited : edited.Ordered) : tree.settle edited target = .ok (staged, log) ↔
      (∀ p info, edited.info? p = some info → info.FitsAt p) ∧ staged = edited.filed ∧
        staged.validate = .ok () ∧ target.changes tree staged = .ok log := by
  unfold settle
  simp only [Check.bind_eq_ok, normalize_eq_ok hedited, Check.pure_eq_ok, Prod.mk.injEq]
  constructor
  · rintro ⟨_, ⟨hfits, rfl⟩, _, hvalid, _, hlog, rfl, rfl⟩
    exact ⟨hfits, rfl, hvalid, hlog⟩
  · rintro ⟨hfits, rfl, hvalid, hlog⟩
    exact ⟨_, ⟨hfits, rfl⟩, (), hvalid, log, hlog, rfl, rfl⟩

structure Accepted (tree : App) (target : Target) (next : App) (log : Changelog) : Prop where
  edit : Edited tree target next
  valid : next.filed.validate = .ok ()
  log : target.changes tree next.filed = .ok log

theorem Accepted.checked {tree next : App} {target : Target} {log : Changelog}
    (h : Accepted tree target next log) (htree : tree.Ordered) : next.filed.Checked :=
  ⟨(h.edit.ordered htree).filed, next.filed_filed, h.valid⟩

namespace Store

variable {store : Store} {mutation : Mutation} {mode : Mode} {log : Changelog}

theorem mutate_of_settled {edited staged : App} (hmode : mode.cancelled = false)
    (hedit : (mutation.route store.registry).edit store.tree = .ok edited)
    (hsettle : store.tree.settle edited mutation.target = .ok (staged, log)) :
    (store.mutate mutation mode).result = .ok log ∧
      (store.mutate mutation mode).store = if mode.dryRun then store else store.commit staged := by
  unfold mutate Outcome.conclude Outcome.announce attempt
  simp only [hmode, hedit, hsettle, Bool.false_eq_true, if_false]
  cases mode.dryRun <;> exact ⟨rfl, rfl⟩

theorem refused_or_settled (store : Store) (mutation : Mutation) (mode : Mode) :
    (∃ error, (store.mutate mutation mode).result = .error error ∧
      (store.mutate mutation mode).store = store) ∨
    mode.cancelled = false ∧ ∃ edited staged log,
      (mutation.route store.registry).edit store.tree = .ok edited ∧
        store.tree.settle edited mutation.target = .ok (staged, log) := by
  unfold mutate Outcome.conclude Outcome.announce
  cases mode.cancelled with
  | true => exact .inl ⟨_, rfl, rfl⟩
  | false =>
    simp only [attempt, Bool.false_eq_true, if_false]
    cases hedit : (mutation.route store.registry).edit store.tree with
    | error error => exact .inl ⟨error, rfl, rfl⟩
    | ok edited =>
      dsimp only
      cases hsettle : store.tree.settle edited mutation.target with
      | error error => exact .inl ⟨error, rfl, rfl⟩
      | ok settled => exact .inr ⟨trivial, edited, settled.1, settled.2, rfl, hsettle⟩

theorem store_of_refused {error : TopologyError}
    (hresult : (store.mutate mutation mode).result = .error error) :
    (store.mutate mutation mode).store = store := by
  obtain ⟨-, -, hsame⟩ | ⟨hmode, edited, staged, log, hedit, hsettle⟩ :=
    refused_or_settled store mutation mode
  · exact hsame
  · rw [(mutate_of_settled hmode hedit hsettle).1] at hresult
    exact nomatch hresult

theorem exists_settled (hresult : (store.mutate mutation mode).result = .ok log) :
    mode.cancelled = false ∧ ∃ edited staged,
      (mutation.route store.registry).edit store.tree = .ok edited ∧
        store.tree.settle edited mutation.target = .ok (staged, log) := by
  obtain ⟨error, herror, -⟩ | ⟨hmode, edited, staged, log', hedit, hsettle⟩ :=
    refused_or_settled store mutation mode
  · rw [hresult] at herror
    exact nomatch herror
  · obtain ⟨hresult', -⟩ := mutate_of_settled hmode hedit hsettle
    rw [hresult, Except.ok.injEq] at hresult'
    subst hresult'
    exact ⟨hmode, edited, staged, hedit, hsettle⟩

structure Staged (store : Store) (mutation : Mutation) (edited : App) (log : Changelog) : Prop where
  edit : (mutation.route store.registry).edit store.tree = .ok edited
  fits : ∀ p info, edited.info? p = some info → info.FitsAt p
  valid : edited.filed.validate = .ok ()
  log : mutation.target.changes store.tree edited.filed = .ok log

variable {edited staged : App}

theorem edited_of_edit (hmutation : mutation.Ordered)
    (hedit : (mutation.route store.registry).edit store.tree = .ok edited) :
    Edited store.tree mutation.target edited :=
  Mutation.edited_of_route hmutation hedit

theorem Staged.accepted (h : Staged store mutation edited log) (hmutation : mutation.Ordered) :
    Accepted store.tree mutation.target edited log :=
  ⟨edited_of_edit hmutation h.edit, h.valid, h.log⟩

theorem staged_of_settled (hstore : store.tree.Ordered) (hmutation : mutation.Ordered)
    (hedit : (mutation.route store.registry).edit store.tree = .ok edited)
    (hsettle : store.tree.settle edited mutation.target = .ok (staged, log)) :
    Staged store mutation edited log := by
  have hedited := (edited_of_edit hmutation hedit).ordered hstore
  obtain ⟨hfits, rfl, hvalid, hlog⟩ := (App.settle_eq_ok hedited).mp hsettle
  exact ⟨hedit, hfits, hvalid, hlog⟩

theorem mutate_of_staged (hstore : store.tree.Ordered) (hmutation : mutation.Ordered)
    (h : Staged store mutation edited log) (hmode : mode.cancelled = false) :
    (store.mutate mutation mode).result = .ok log ∧
      (store.mutate mutation mode).store =
        if mode.dryRun then store else store.commit edited.filed := by
  have hedited := (edited_of_edit hmutation h.edit).ordered hstore
  exact mutate_of_settled hmode h.edit
    ((App.settle_eq_ok hedited).mpr ⟨h.fits, rfl, h.valid, h.log⟩)

theorem exists_staged (hstore : store.tree.Ordered) (hmutation : mutation.Ordered)
    (hresult : (store.mutate mutation mode).result = .ok log) :
    mode.cancelled = false ∧ ∃ edited, Staged store mutation edited log := by
  obtain ⟨hmode, edited, staged, hedit, hsettle⟩ := exists_settled hresult
  exact ⟨hmode, edited, staged_of_settled hstore hmutation hedit hsettle⟩

theorem exists_commit (hstore : store.tree.Ordered) (hmutation : mutation.Ordered)
    (hmode : mode.dryRun = false) (hresult : (store.mutate mutation mode).result = .ok log) :
    mode.cancelled = false ∧ ∃ edited, Staged store mutation edited log ∧
      (store.mutate mutation mode).store = store.commit edited.filed := by
  obtain ⟨hcancelled, edited, hstaged⟩ := exists_staged hstore hmutation hresult
  obtain ⟨-, hafter⟩ := mutate_of_staged hstore hmutation hstaged hcancelled
  rw [hmode, if_neg Bool.false_ne_true] at hafter
  exact ⟨hcancelled, edited, hstaged, hafter⟩

theorem mutate_cases (hstore : store.tree.Ordered) (hmutation : mutation.Ordered) (mode : Mode) :
    (∃ error, (store.mutate mutation mode).result = .error error ∧
      (store.mutate mutation mode).store = store) ∨
    ∃ edited log, Accepted store.tree mutation.target edited log ∧
      (store.mutate mutation mode).result = .ok log ∧
      (store.mutate mutation mode).store =
        if mode.dryRun then store else store.commit edited.filed := by
  obtain hrefused | ⟨hmode, edited, staged, log, hedit, hsettle⟩ :=
    refused_or_settled store mutation mode
  · exact .inl hrefused
  · have hstaged := staged_of_settled hstore hmutation hedit hsettle
    exact .inr ⟨edited, log, hstaged.accepted hmutation,
      mutate_of_staged hstore hmutation hstaged hmode⟩

end Store

end AppTopology
