import AppTopology.Fixture
import AppTopology.Proofs.Lookup
import AppTopology.Proofs.Replacement

/-!
A lookup that starts outside of an app looks at nothing inside, and a dotted target that leads
inside still leads there, since else the change would have been refused.
-/

namespace AppTopology

namespace App

variable {root before after app : App} {path name : String} {place : List String}

theorem Checked.isScope_under (h : root.Checked) (happ : root.at? place = some app) :
    Scope.isScope (Scope.under "" place) := by
  induction place using List.reverseRecOn generalizing app with
  | nil => exact Scope.isScope_empty
  | append_singleton place key ih =>
    have hadmits := h.admits happ
    rw [at?_append, Option.bind_eq_some_iff] at happ
    obtain ⟨parent, hparent, -⟩ := happ
    rw [Scope.under_append, Scope.under_cons, Scope.under_nil]
    exact hadmits.isScope_child (ih hparent)

theorem Checked.isInner_under (h : root.Checked) (hpath : Scope.isScope path)
    (happ : root.at? place = some app) (hinside : Scope.names path <+: place) :
    Scope.isInner path (Scope.under "" place) := by
  obtain ⟨rest, rfl⟩ := hinside
  induction rest using List.reverseRecOn generalizing app with
  | nil =>
    rw [List.append_nil, Scope.under_names hpath]
    exact Scope.isInner_self hpath
  | append_singleton rest key ih =>
    rw [← List.append_assoc] at happ ⊢
    have hadmits := h.admits happ
    rw [at?_append, Option.bind_eq_some_iff] at happ
    obtain ⟨parent, hparent, -⟩ := happ
    have hinner := Scope.isInner_append (hadmits.append (h.isScope_under hparent))
    rw [Scope.under_append, Scope.under_cons, Scope.under_nil]
    exact Scope.isInner_trans (ih hparent) hinner

theorem Checked.names_under (h : root.Checked) (hpath : Scope.isScope path) (hne : path ≠ "")
    (happ : root.at? place = some app) (hinside : Scope.names path <+: place) :
    Scope.names (Scope.under "" place) = place := by
  obtain ⟨rest, rfl⟩ := hinside
  induction rest using List.reverseRecOn generalizing app with
  | nil => rw [List.append_nil, Scope.under_names hpath]
  | append_singleton rest key ih =>
    rw [← List.append_assoc] at happ ⊢
    have hadmits := h.admits happ
    rw [at?_append, Option.bind_eq_some_iff] at happ
    obtain ⟨parent, hparent, -⟩ := happ
    have hscope := h.isScope_under hparent
    have hnames := ih hparent
    rw [Scope.under_append, Scope.under_cons, Scope.under_nil]
    rcases hadmits with hkey | ⟨hempty, -⟩
    · rw [Scope.names_child hscope hkey, hnames]
    · rw [hempty, Scope.names_empty, eq_comm, List.append_eq_nil_iff] at hnames
      have hroot := Scope.under_names hpath
      rw [hnames.1] at hroot
      exact absurd hroot.symm hne

theorem exists_at?_of_content (hbefore : before.Ordered) (hafter : after.Ordered)
    (hcontent : ∀ item, (after.entity? ⟨place, item⟩).map Entity.declared =
      (before.entity? ⟨place, item⟩).map Entity.declared) (happ : before.at? place = some app) :
    ∃ app', after.at? place = some app' ∧ app'.own.declared = app.own.declared := by
  simp only [entity?, happ, Option.bind_some] at hcontent
  cases happ' : after.at? place with
  | none =>
    have hroot := hcontent .app
    rw [happ'] at hroot
    exact absurd hroot.symm (Option.some_ne_none _)
  | some app' =>
    simp only [happ', Option.bind_some] at hcontent
    refine ⟨app', rfl, ?_⟩
    have hown := (hafter.at? happ').declared.own
    have hown' := (hbefore.at? happ).declared.own
    rw [own_declared] at hown hown'
    apply Own.ext_entity? hown hown'
    intro item
    rw [Own.entity?_declared, Own.entity?_declared, hcontent]

theorem resolveTarget_of_dotted {scope target : String} (hdot : '.' ∈ target.toList)
    (h : (root.resolveTarget scope target).isSome) :
    root.resolveTarget scope target = some target := by
  rw [resolveTarget, if_pos hdot, Option.isSome_map] at h
  obtain ⟨channel, hchannel⟩ := Option.isSome_iff_exists.mp h
  rw [resolveTarget, if_pos hdot, hchannel]
  rfl

theorem resolveTarget_dotted_eq {declared : ChannelAlias} (hbefore : before.Checked)
    (hafter : after.Checked) (hsame : ∀ item, before.SameAt after ⟨place, item⟩)
    (happ : before.at? place = some app) (halias : app.own.aliases.get? name = some declared)
    (hdot : '.' ∈ declared.target.toList) :
    after.resolveTarget (Scope.under "" place) declared.target =
      before.resolveTarget (Scope.under "" place) declared.target := by
  obtain ⟨app', happ', hown⟩ :=
    exists_at?_of_content hbefore.ordered hafter.ordered (fun item => (hsame item).content) happ
  obtain ⟨declared', halias', htarget⟩ := Own.exists_channelAlias hown halias
  -- A target that is gone would not have passed the checks on the later tree.
  have hvalid := ((hbefore.valid_under happ).channelAlias name declared halias).2.2
  have hvalid' := ((hafter.valid_under happ').channelAlias name declared' halias').2.2
  rw [htarget] at hvalid'
  rw [resolveTarget_of_dotted hdot hvalid, resolveTarget_of_dotted hdot hvalid']

/-- What the app at a place declares is declared there afterwards too, and leads where it led. -/
structure SameBindings (before after : App) (place : List String) (app : App) : Prop where
  declared : ∃ app', after.at? place = some app' ∧ app'.own.declared = app.own.declared
  boundary : ∀ direction name, (direction, name) ∈ app.own.boundary.entries →
    after.resolveBoundary (Scope.under "" place) name =
      before.resolveBoundary (Scope.under "" place) name
  channel : ∀ name channel, app.own.channels.get? name = some channel →
    after.resolveType (Scope.under "" place) channel.typeName =
      before.resolveType (Scope.under "" place) channel.typeName
  channelAlias : ∀ name declared, app.own.aliases.get? name = some declared →
    after.resolveTarget (Scope.under "" place) declared.target =
      before.resolveTarget (Scope.under "" place) declared.target

theorem Checked.sameBindings (hbefore : before.Checked) (hafter : after.Checked)
    (hpath : Scope.isScope path)
    (hsame : ∀ p, ¬ (Target.app path).Covers p → before.SameAt after p)
    (happ : before.at? place = some app) (hplace : ¬ Scope.isInner path (Scope.under "" place)) :
    before.SameBindings after place app := by
  have hscope := hbefore.isScope_under happ
  have hhere (item : Item) : before.SameAt after ⟨place, item⟩ :=
    hsame _ fun hcovers => hplace (hbefore.isInner_under hpath happ hcovers)
  -- The scopes around a scope outside of the app are outside of it as well.
  have haround {outer : String} (houter : Scope.isInner outer (Scope.under "" place))
      (item : Item) : before.SameAt after ⟨Scope.names outer, item⟩ := by
    apply hsame
    intro hcovers
    have hinner := Scope.isInner_iff.mpr ⟨hpath, (Scope.isInner_iff.mp houter).1, hcovers⟩
    exact hplace (Scope.isInner_trans hinner houter)
  have hkeeps : before.KeepsChannels (fun _ => False) after (Scope.under "" place) := by
    constructor
    · intro outer name houter
      exact .of_eq (pathIn?_congr (declared_leafIn? (haround houter _).content))
    · intro outer name houter
      exact target_congr (declared_leafIn? (haround houter _).content)
    · intro outer name declared houter halias hdot
      obtain ⟨app', happ', halias⟩ := Option.bind_eq_some_iff.mp halias
      have hdotted := resolveTarget_dotted_eq hbefore hafter (haround houter) happ' halias hdot
      rw [Scope.under_names (Scope.isInner_iff.mp houter).1] at hdotted
      exact .of_eq hdotted
  refine ⟨exists_at?_of_content hbefore.ordered hafter.ordered (fun item => (hhere item).content)
    happ, ?_, ?_, ?_⟩
  · exact fun _ name _ => (hkeeps.resolveBoundary hscope).eq_of_nothing_lost
  · intro name channel _
    apply Kept.eq_of_nothing_lost
    apply resolveLeaf_kept (α := ChannelType) hscope
    exact fun outer houter =>
      .of_eq (pathIn?_congr (declared_leafIn? (haround houter _).content))
  · intro name declared halias
    apply Kept.eq_of_nothing_lost
    apply hkeeps.resolveTarget hscope
    exact fun hdot => .of_eq (resolveTarget_dotted_eq hbefore hafter hhere happ halias hdot)

end App

namespace Store

variable {store : Store} {mutation : Mutation} {mode : Mode} {log : Changelog} {path : String}
variable {place : List String} {app : App}

theorem Reachable.bindings_kept (h : Reachable store) (hmutation : mutation.Ordered)
    (htarget : mutation.target = .app path)
    (hresult : (store.mutate mutation mode).result = .ok log)
    (happ : store.tree.at? place = some app)
    (hplace : ¬ Scope.isInner path (Scope.under "" place)) :
    store.tree.SameBindings (store.mutate mutation mode).store.tree place app := by
  have hstore := h.committed
  have hcall : Call.Ordered (.mutate mutation mode) := hmutation
  have hafter : (store.mutate mutation mode).store.tree.Checked :=
    (h.after hcall).committed.toChecked
  obtain ⟨-, hsame⟩ := mutate_confined hstore hmutation hresult
  obtain ⟨-, edited, hstaged⟩ := exists_staged hstore.ordered hmutation hresult
  have hpath : Scope.isScope path := by
    by_cases hne : path = ""
    · exact hne ▸ Scope.isScope_empty
    · have hedit := (hstaged.accepted hmutation).edit
      rw [htarget] at hedit
      exact (hedit.isChild fun heq => hne (Target.app.inj heq)).1
  rw [htarget] at hsame
  exact hstore.toChecked.sameBindings hafter hpath hsame happ hplace

theorem bindings_kept_billing : ∃ store app, Reachable store ∧
    let mutation : Mutation := .update "billing" (.app (Fixture.billing.dropChild "printer"))
    let after := store.mutate mutation {}
    after.result = .ok [⟨.deleted .app, "billing.printer", .none⟩] ∧
      store.tree.at? ["viewer"] = some app ∧
      app.own.boundary.entries = [(.input, "bills")] ∧
      store.tree.resolveBoundary "viewer" "bills" = some "billing.invoices" ∧
      store.tree.SameBindings after.store.tree ["viewer"] app := by
  let root : App := (({} : App).withApp Fixture.billing).withLeaf
    (ChannelAlias.named "bills" "billing.invoices")
  let mutation : Mutation := .update "billing" (.app (Fixture.billing.dropChild "printer"))
  let viewer := (App.named "viewer").withInput "bills"
  have hfound : (restore (root.withApp viewer) {} .unary).toOption.map
      (fun store => ((store.mutate mutation {}).result,
        (store.tree.at? ["viewer"]).map fun app => app.own.boundary.entries,
        store.tree.resolveBoundary "viewer" "bills")) =
      some (.ok [⟨.deleted .app, "billing.printer", .none⟩], some [(.input, "bills")],
        some "billing.invoices") := by decide +kernel
  obtain ⟨store, hreachable, hquery⟩ := exists_restored (by decide +kernel) hfound
  simp only [Prod.mk.injEq] at hquery
  obtain ⟨hresult, hviewer, hbills⟩ := hquery
  obtain ⟨app, happ, hentries⟩ := Option.map_eq_some_iff.mp hviewer
  have hmutation : mutation.Ordered := by
    change (Fixture.billing.dropChild "printer").Ordered
    decide +kernel
  exact ⟨store, app, hreachable, hresult, happ, hentries, hbills,
    hreachable.bindings_kept hmutation rfl hresult happ (by decide +kernel)⟩

end Store

end AppTopology
