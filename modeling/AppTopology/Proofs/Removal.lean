import AppTopology.Proofs.Connection
import AppTopology.Proofs.Deletion
import AppTopology.Proofs.Severance

/-!
Only an alias with a path can lose its channel: a bare name is looked up in the scopes around it,
and none of them is inside an app that the alias is not in.
-/

namespace AppTopology

namespace App

variable {tree next root app : App} {path scope target channel : String} {p : Position}

/-- An alias outside of the app at the path leads to a channel inside. -/
def LeadsInto (root : App) (path : String) : Prop :=
  ∃ place app name declared channel, root.at? place = some app ∧
    app.own.aliases.get? name = some declared ∧ ¬ Scope.names path <+: place ∧
    root.resolveTarget (Scope.under "" place) declared.target = some channel ∧
    Scope.isInner path (Scope.parent channel)

theorem isInner_of_bare (hscope : Scope.isScope scope) (hdot : '.' ∉ target.toList)
    (h : root.resolveTarget scope target = some channel) :
    Scope.isInner (Scope.parent channel) scope := by
  rw [resolveTarget, if_neg hdot] at h
  split at h
  · next hname =>
    rw [resolveChannel_eq] at h
    obtain ⟨outer, houter, hpath⟩ := List.exists_of_findSome?_eq_some h
    rw [pathIn?, Option.ite_none_right_eq_some] at hpath
    obtain ⟨-, hpath⟩ := hpath
    rw [← Option.some.inj hpath,
      Scope.parent_child (Scope.isScope_of_mem_enclosing hscope houter) hname]
    exact Scope.isInner_of_mem_enclosing hscope houter
  · cases h

theorem Checked.leadsInto_iff (h : root.Checked) (hnames : root.PlacedByNames) :
    root.LeadsInto path ↔ ∃ p target, root.contents.Dotted p target ∧
      ¬ Scope.names path <+: p.place ∧ Scope.isInner path (Scope.parent target) := by
  constructor
  · rintro ⟨place, app, name, declared, channel, happ, halias, houtside, hleads, hinner⟩
    by_cases hdot : '.' ∈ declared.target.toList
    · rw [resolveTarget_of_dotted hdot (Option.isSome_of_eq_some hleads)] at hleads
      obtain rfl := Option.some.inj hleads
      exact ⟨⟨place, .channelAlias name⟩, _,
        dotted_contents.mpr ⟨hdot, app, name, declared, happ, rfl, halias, rfl⟩, houtside, hinner⟩
    · have hplace := hnames place app happ
      have hscope := Scope.isScope_under Scope.isScope_empty hplace
      have hinside := Scope.isInner_trans hinner (isInner_of_bare hscope hdot hleads)
      have hprefix := (Scope.isInner_iff.mp hinside).2.2
      rw [Scope.under_empty hplace, Scope.names_join hplace] at hprefix
      exact absurd hprefix houtside
  · rintro ⟨p, target, hdotted, houtside, hinner⟩
    obtain ⟨hdot, app, name, declared, happ, -, halias, rfl⟩ := dotted_contents.mp hdotted
    have hsome : (root.resolveTarget (Scope.under "" p.place) declared.target).isSome :=
      (isSome_resolveTarget_dotted hdot).mpr (h.unsevered p _ hdotted)
    exact ⟨p.place, app, name, declared, _, happ, halias, houtside,
      resolveTarget_of_dotted hdot hsome, hinner⟩

namespace Without

theorem contents_eq (h : tree.Without next (.app path)) (p : Position) :
    next.contents p = if Scope.names path <+: p.place then none else tree.contents p := by
  rw [contents, h p]
  change (if Scope.names path <+: p.place then none else tree.entity? p).map _ = _
  split <;> rfl

variable (h : tree.Without next (.app path))

include h

theorem dotted_iff : next.contents.Dotted p target ↔
    tree.contents.Dotted p target ∧ ¬ Scope.names path <+: p.place := by
  by_cases hinside : Scope.names path <+: p.place <;>
    simp [Contents.Dotted, h.contents_eq, hinside]

theorem hasChannel_iff (hpath : Scope.isScope path) (hne : target ≠ "") :
    next.contents.HasChannel target ↔
      tree.contents.HasChannel target ∧ ¬ Scope.isInner path (Scope.parent target) := by
  rw [Contents.HasChannel, Contents.HasChannel, and_assoc]
  refine and_congr_right fun htarget => ?_
  have hinner : Scope.isInner path (Scope.parent target) ↔
      Scope.names path <+: Scope.names (Scope.parent target) := by
    simp only [Scope.isInner_iff, hpath, Scope.isScope_parent htarget hne, true_and]
  rw [hinner, h.contents_eq]
  split <;> simp_all

variable (htree : tree.Checked) (hnames : tree.PlacedByNames)

include htree hnames

theorem severed_iff_leadsInto (hpath : Scope.isScope path) :
    next.Severed ↔ tree.LeadsInto path := by
  rw [severed_iff, htree.leadsInto_iff hnames]
  simp only [Contents.Unsevered, not_forall]
  refine exists_congr fun p => exists_congr fun target => ?_
  rw [exists_prop, h.dotted_iff, and_assoc]
  refine and_congr_right fun hdotted => and_congr_right fun _ => ?_
  have hne : target ≠ "" := by
    rintro rfl
    simp [Contents.Dotted] at hdotted
  rw [h.hasChannel_iff hpath hne, not_and_not_right]
  exact imp_iff_right (htree.unsevered p target hdotted)

theorem patched : next.Patched := by
  intro place app happ
  have hsome : (next.contents ⟨place, .app⟩).isSome := by
    rw [← isSome_at?, happ]
    rfl
  rw [h.contents_eq, Option.isSome_iff_exists] at hsome
  obtain ⟨entity, hentity⟩ := hsome
  obtain ⟨houtside, hentity⟩ := Option.ite_none_left_eq_some.mp hentity
  obtain ⟨app', happ'⟩ : ∃ app', tree.at? place = some app' := by
    rw [← Option.isSome_iff_exists, isSome_at?, hentity]
    rfl
  refine ⟨tree, htree, fun item => (h.contents_eq _).trans (if_neg houtside), ?_⟩
  -- A scope around the place is not inside of the app, since the place would be inside as well.
  intro outer item houter hitem
  have hplace := hnames place app' happ'
  have hprefix := (Scope.isInner_iff.mp houter).2.2
  rw [Scope.under_empty hplace, Scope.names_join hplace] at hprefix
  rwa [h.contents_eq, if_neg fun hinside => houtside (List.IsPrefix.trans hinside hprefix)]

end Without

end App

namespace Store

variable {store : Store} {mode : Mode} {path : String} {app : App}

theorem Reachable.deletes_app_iff (h : Reachable store) (hnames : store.tree.PlacedByNames)
    (happ : (store.getApp false path).result = .ok app) (hne : path ≠ "")
    (hmode : mode.cancelled = false) :
    let deleted := store.mutate (.delete (.app path)) mode
    ((∃ log, deleted.result = .ok log) ↔ ¬ store.tree.LeadsInto path) ∧
      (store.tree.LeadsInto path → ∃ error, deleted.result = .error error ∧
        (error.kind = .invalidAlias ∨ error.kind = .invalidApp) ∧ deleted.store = store) := by
  intro deleted
  have hstore := h.committed.toChecked
  obtain ⟨hpath, happ⟩ := getApp_eq_ok.mp happ
  obtain ⟨next, hdelete⟩ := App.exists_deleteApp ⟨hpath, hne⟩ happ
  have hedit : (Mutation.delete (.app path)).edit store.tree = .ok next := hdelete
  have hwithout := App.without_of_delete hedit
  have hordered := (App.edited_of_delete hedit).ordered hstore.ordered
  have hfiled := hwithout.filed hstore hordered
  have hpatched := hwithout.patched hstore hnames
  have hvalid := hpatched.valid_iff hordered hfiled
  rw [hwithout.severed_iff_leadsInto hstore hnames hpath] at hvalid
  rw [← hvalid]
  obtain ⟨hleft, hresult, -⟩ | ⟨error, hleft, hresult⟩ := delete_cases hstore hmode hedit
  · exact ⟨iff_of_true hresult hleft, fun hleads => absurd hleads (hvalid.mp hleft)⟩
  · have hinvalid : next.validate ≠ .ok () := by simp [hleft]
    refine ⟨iff_of_false ?_ hinvalid, fun _ => ⟨error, hresult, ?_, store_of_refused hresult⟩⟩
    · rintro ⟨log, hlog⟩
      exact nomatch hresult.symm.trans hlog
    · exact (hpatched.isDangling hordered hfiled hleft).kind_eq

theorem deletes_app_billing : ∃ store billing printer, Reachable store ∧
    store.tree.PlacedByNames ∧ (store.getApp false "billing").result = .ok billing ∧
    (store.getApp false "billing.printer").result = .ok printer ∧
    (∃ log, (store.mutate (.delete (.app "billing.printer")) {}).result = .ok log) ∧
    ¬ store.tree.LeadsInto "billing.printer" ∧ store.tree.LeadsInto "billing" ∧
    let deleted := store.mutate (.delete (.app "billing")) {}
    deleted.result = .error (.danglingBoundary "viewer" .input "bills") ∧
      deleted.store = store := by
  let root : App := (({} : App).withApp Fixture.billing).withLeaf
    (ChannelAlias.named "bills" "billing.invoices")
  let viewer := (App.named "viewer").withInput "bills"
  let found (store : Store) (path : String) : Bool := (store.tree.find? path).isSome
  have hfound : (restore (root.withApp viewer) {} .unary).toOption.map (fun store =>
      ((store.tree.child? "").isNone, found store "billing" && found store "billing.printer",
        (store.mutate (.delete (.app "billing.printer")) {}).result,
        (store.mutate (.delete (.app "billing")) {}).result)) =
      some (true, true, .ok [⟨.deleted .app, "billing.printer", .none⟩],
        .error (.danglingBoundary "viewer" .input "bills")) := by decide +kernel
  obtain ⟨store, hreachable, hquery⟩ := exists_restored (by decide +kernel) hfound
  simp only [found, Prod.mk.injEq, Bool.and_eq_true, Option.isSome_iff_exists,
    Option.isNone_iff_eq_none] at hquery
  obtain ⟨hunnamed, ⟨⟨billing, hbilling⟩, printer, hprinter⟩, hdeleted, hrefused⟩ := hquery
  have hnames := hreachable.committed.placedByNames hunnamed
  have hbilling := getApp_eq_ok.mpr ⟨by decide +kernel, hbilling⟩
  have hprinter := getApp_eq_ok.mpr ⟨by decide +kernel, hprinter⟩
  have hfree := (hreachable.deletes_app_iff hnames hprinter (by decide) rfl).1.mp ⟨_, hdeleted⟩
  have hmode : ({} : Mode).cancelled = false := rfl
  obtain ⟨hdeletes, hunchanged⟩ := hreachable.deletes_app_iff hnames hbilling (by decide) hmode
  have hleads : store.tree.LeadsInto "billing" := by
    by_contra hfree
    obtain ⟨log, hlog⟩ := hdeletes.mpr hfree
    exact nomatch hrefused.symm.trans hlog
  obtain ⟨-, -, -, hsame⟩ := hunchanged hleads
  exact ⟨store, billing, printer, hreachable, hnames, hbilling, hprinter, ⟨_, hdeleted⟩, hfree,
    hleads, hrefused, hsame⟩

end Store

end AppTopology
