import AppTopology.Proofs.Agreement
import AppTopology.Proofs.Changes
import AppTopology.Proofs.Listing

namespace AppTopology

def Changelog.subjects (log : Changelog) : List (Kind × String) :=
  log.map fun change => (change.kind.subject, change.path)

namespace Diff

variable {old mid new : Option App} {identity : Bool} {scope path : String} {p : Position}
variable {log log' net : Changelog}

def Covered (net log log' : Changelog) : Prop :=
  ∀ subject ∈ net.subjects, subject ∈ log.subjects ∨ subject ∈ log'.subjects

theorem subjects_recordsAt (h : recordsAt identity scope old new p ≠ []) (subject : Kind × String) :
    subject ∈ (recordsAt identity scope old new p).subjects ↔ subject = (p.kind, p.path scope) := by
  have hsubject {change : Change} (hchange : change ∈ recordsAt identity scope old new p) :
      (change.kind.subject, change.path) = (p.kind, p.path scope) := by
    obtain ⟨hpath, hkind⟩ := path_and_subject_of_mem_recordsAt hchange
    rw [hpath, hkind]
  rw [Changelog.subjects, List.mem_map]
  constructor
  · rintro ⟨change, hchange, rfl⟩
    exact hsubject hchange
  · rintro rfl
    obtain ⟨change, hchange⟩ := List.exists_mem_of_ne_nil _ h
    exact ⟨change, hchange, hsubject hchange⟩

theorem recordsAt_eq_nil_iff : recordsAt identity scope old new p = [] ↔
    (old.bind (·.entity? p) = none ∧ new.bind (·.entity? p) = none) ∨
      ∃ o n, old.bind (·.entity? p) = some o ∧ new.bind (·.entity? p) = some n ∧
        Same (identity || p ≠ .root) o n := by
  have hold := kind_of_bind_entity? old p
  have hnew := kind_of_bind_entity? new p
  rw [recordsAt]
  cases ho : old.bind (·.entity? p) with
  | none => cases hn : new.bind (·.entity? p) <;> simp [entity]
  | some o =>
    cases hn : new.bind (·.entity? p) with
    | none => simp [entity]
    | some n =>
      rw [entity_eq_nil_iff ((hold o ho).trans (hnew n hn).symm)]
      simp

theorem recordsAt_eq_nil_trans (h : recordsAt identity scope old mid p = [])
    (h' : recordsAt identity scope mid new p = []) : recordsAt identity scope old new p = [] := by
  rw [recordsAt_eq_nil_iff] at h h' ⊢
  rcases h with ⟨ho, hm⟩ | ⟨o, m, ho, hm, hsame⟩
  · rcases h' with ⟨-, hn⟩ | ⟨m, n, hm', -⟩
    · exact .inl ⟨ho, hn⟩
    · rw [hm] at hm'
      exact nomatch hm'
  · rcases h' with ⟨hm', -⟩ | ⟨m', n, hm', hn, hsame'⟩
    · rw [hm] at hm'
      exact nomatch hm'
    · rw [hm, Option.some.injEq] at hm'
      exact .inr ⟨o, n, ho, hn, hsame.trans (hm' ▸ hsame')⟩

theorem mem_subjects_iff {positions : List Position} (hlisting : Listing old new positions)
    {subject : Kind × String} :
    subject ∈ Changelog.subjects (positions.flatMap (recordsAt identity scope old new)) ↔
      ∃ p : Position, recordsAt identity scope old new p ≠ [] ∧
        subject = (p.kind, p.path scope) := by
  rw [Changelog.subjects, List.mem_map]
  simp only [mem_flatMap_recordsAt hlisting]
  constructor
  · rintro ⟨change, ⟨p, hchange⟩, rfl⟩
    have hne := List.ne_nil_of_mem hchange
    exact ⟨p, hne, (subjects_recordsAt hne _).mp (List.mem_map_of_mem hchange)⟩
  · rintro ⟨p, hne, rfl⟩
    obtain ⟨change, hchange, heq⟩ := List.mem_map.mp ((subjects_recordsAt hne _).mpr rfl)
    exact ⟨change, ⟨p, hchange⟩, heq⟩

theorem covered_of_listings {positions positions' positions'' : List Position}
    (h : Listing old mid positions) (h' : Listing mid new positions')
    (h'' : Listing old new positions'') :
    Covered (positions''.flatMap (recordsAt identity scope old new))
      (positions.flatMap (recordsAt identity scope old mid))
      (positions'.flatMap (recordsAt identity scope mid new)) := by
  intro subject hsubject
  obtain ⟨p, hne, rfl⟩ := (mem_subjects_iff h'').mp hsubject
  by_cases hfirst : recordsAt identity scope old mid p = []
  · refine .inr ((mem_subjects_iff h').mpr ⟨p, fun hsecond => ?_, rfl⟩)
    exact hne (recordsAt_eq_nil_trans hfirst hsecond)
  · exact .inl ((mem_subjects_iff h).mpr ⟨p, hfirst, rfl⟩)

theorem trees_covered (hold : ∀ app ∈ old, app.Named path ∧ app.info.path = .ok path)
    (hmid : ∀ app ∈ mid, app.Named path ∧ app.info.path = .ok path)
    (hnew : ∀ app ∈ new, app.Named path ∧ app.info.path = .ok path) :
    ∃ log log' net, trees old mid = .ok log ∧ trees mid new = .ok log' ∧
      trees old new = .ok net ∧ Covered net log log' := by
  obtain ⟨positions, hlisting, hlog⟩ := trees_listed hold hmid
  obtain ⟨positions', hlisting', hlog'⟩ := trees_listed hmid hnew
  obtain ⟨positions'', hlisting'', hnet⟩ := trees_listed hold hnew
  exact ⟨_, _, _, hlog, hlog', hnet, covered_of_listings hlisting hlisting' hlisting''⟩

end Diff

namespace Store

variable {start store last : Store} {logs : List Changelog} {log : Changelog}

/-- A run with the logs of the mutations that it commits, in order; what else happens in it leaves
the tree as it is. -/
inductive Trail (start : Store) : List Changelog → Store → Prop
  | start : Trail start [] start
  | commit {logs : List Changelog} {store : Store} {mutation : Mutation} {mode : Mode}
      {log : Changelog} : Trail start logs store → mutation.Ordered → mode.dryRun = false →
      (store.mutate mutation mode).result = .ok log →
      Trail start (logs ++ [log]) (store.mutate mutation mode).store
  | idle {logs : List Changelog} {store store' : Store} : Trail start logs store →
      Step store store' → store'.tree = store.tree → Trail start logs store'

theorem Trail.steps (h : Trail start logs last) : Steps start last := by
  induction h with
  | start => exact .refl
  | commit _ hmutation _ _ ih => exact ih.tail (.mutate hmutation _)
  | idle _ hstep _ ih => exact ih.tail hstep

theorem Steps.exists_trail (h : Steps start last) (hstart : start.tree.Committed) :
    ∃ logs, Trail start logs last := by
  induction h with
  | refl => exact ⟨[], .start⟩
  | @tail store store' hsteps hstep ih =>
    obtain ⟨logs, htrail⟩ := ih
    cases hstep with
    | @mutate mutation hmutation mode =>
      obtain ⟨_, -, hsame⟩ | ⟨edited, log, -, hresult, hnext⟩ :=
        mutate_cases (Steps.committed hsteps hstart).ordered hmutation mode
      · exact ⟨logs, htrail.idle (.mutate hmutation mode) (by rw [hsame])⟩
      · cases hmode : mode.dryRun with
        | true =>
          refine ⟨logs, htrail.idle (.mutate hmutation mode) ?_⟩
          rw [hnext, if_pos hmode]
        | false => exact ⟨_, htrail.commit hmutation hmode hresult⟩
    | register broker =>
      refine ⟨logs, htrail.idle (.register broker) ?_⟩
      unfold Store.register
      split <;> rfl
    | setDefault broker =>
      refine ⟨logs, htrail.idle (.setDefault broker) ?_⟩
      unfold Store.setDefault
      split <;> rfl

theorem trees_self (h : store.tree.Checked) :
    Diff.trees (some store.tree) (some store.tree) = .ok [] := by
  have hpath (app : App) (happ : some store.tree = some app) := (rooted h app happ).2
  rw [Diff.trees_eq (.inl rfl) hpath hpath]
  exact Diff.subtree_self Scope.isScope_empty h.named false

theorem Trail.covers (h : Trail start logs last) (hstart : start.tree.Committed) :
    ∃ net, Diff.trees (some start.tree) (some last.tree) = .ok net ∧
      ∀ subject ∈ net.subjects, ∃ log ∈ logs, subject ∈ log.subjects := by
  induction h with
  | start => exact ⟨[], trees_self hstart.toChecked, nofun⟩
  | idle htrail _ hsame ih => rwa [hsame]
  | @commit logs store mutation mode log htrail hmutation hmode hresult ih =>
    obtain ⟨before, hbefore, hcovers⟩ := ih
    have hstore := htrail.steps.committed hstart
    obtain ⟨_, herror, -⟩ | ⟨edited, log', haccepted, hlog, hnext⟩ :=
      mutate_cases hstore.ordered hmutation mode
    · rw [hresult] at herror
      exact nomatch herror
    · rw [hresult, Except.ok.injEq] at hlog
      subst hlog
      rw [hmode, if_neg Bool.false_ne_true] at hnext
      have hafter := store.committed_commit (haccepted.checked hstore.ordered)
      obtain ⟨first, second, net, hfirst, hsecond, hnet, hcovered⟩ :=
        Diff.trees_covered (rooted hstart.toChecked) (rooted hstore.toChecked)
          (rooted hafter.toChecked)
      rw [hbefore, Except.ok.injEq] at hfirst
      rw [trees_commit hstore haccepted, Except.ok.injEq] at hsecond
      subst hfirst hsecond
      refine ⟨net, by rwa [hnext], ?_⟩
      intro subject hsubject
      rcases hcovered subject hsubject with hin | hin
      · obtain ⟨log, hlog, hmem⟩ := hcovers subject hin
        exact ⟨log, List.mem_append_left _ hlog, hmem⟩
      · exact ⟨log, List.mem_append_right _ (List.mem_singleton.mpr rfl), hin⟩

/-- Whatever a run has changed in the end, one of its logs names. -/
theorem net_changes_logged :
    (∀ start last logs, Reachable start → Trail start logs last →
      ∃ net, Diff.trees (some start.tree) (some last.tree) = .ok net ∧
        ∀ subject ∈ net.subjects, ∃ log ∈ logs, subject ∈ log.subjects) ∧
    ∀ path (old mid new : Option App),
      (∀ app, some app ∈ [old, mid, new] → app.KeysAreNames ∧ app.info.path = .ok path) →
      ∃ log log' net, Diff.trees old mid = .ok log ∧ Diff.trees mid new = .ok log' ∧
        Diff.trees old new = .ok net ∧ Diff.Covered net log log' := by
  constructor
  · intro start last logs hstart htrail
    exact htrail.covers hstart.committed
  · intro path old mid new hnamed
    have hside {side : Option App} (hside : side ∈ [old, mid, new]) :
        ∀ app ∈ side, app.Named path ∧ app.info.path = .ok path := by
      intro app happ
      rw [Option.mem_def] at happ
      exact (hnamed app (happ ▸ hside)).imp (·.named path) id
    exact Diff.trees_covered (hside (by simp)) (hside (by simp)) (hside (by simp))

theorem net_changes_logged_billing :
    let start := Store.empty {} .unary
    let created := (start.mutate (.create "" (.app Fixture.billing)) {}).store
    let last := (created.mutate (.delete (.app "billing.printer")) {}).store
    let logs : List Changelog := [
      [⟨.created .app, "billing", .none⟩, ⟨.created .app, "billing.printer", .none⟩,
        ⟨.created .channel, "billing.invoices", .none⟩,
        ⟨.created .channelType, "billing.Invoice", .none⟩],
      [⟨.deleted .app, "billing.printer", .none⟩]]
    let printer := Fixture.printer
    let noted := App.withAnnotation printer "team" "accounting"
    Trail start logs last ∧
      (∃ net, Diff.trees (some start.tree) (some last.tree) = .ok net ∧
        ∀ subject ∈ net.subjects, ∃ log ∈ logs, subject ∈ log.subjects) ∧
      ∃ log log' net, Diff.trees (some printer) none = .ok log ∧
        Diff.trees none (some noted) = .ok log' ∧
        Diff.trees (some printer) (some noted) = .ok net ∧ Diff.Covered net log log' := by
  intro start created last logs printer noted
  have hbilling : Fixture.billing.Ordered := by decide +kernel
  have hfirst : Trail start [logs[0]] created :=
    .commit .start hbilling rfl (by decide +kernel)
  have htrail : Trail start logs last := .commit hfirst trivial rfl (by decide +kernel)
  refine ⟨htrail, net_changes_logged.1 start last logs (.empty {} .unary) htrail,
    net_changes_logged.2 "printer" (some printer) none (some noted) ?_⟩
  intro app happ
  simp only [List.mem_cons, Option.some.injEq, reduceCtorEq, List.not_mem_nil, or_false,
    false_or] at happ
  rcases happ with rfl | rfl
  · exact ⟨App.keysAreNames_of_keys (by decide +kernel) nofun, by decide +kernel⟩
  · exact ⟨App.keysAreNames_of_keys (by decide +kernel) nofun, by decide +kernel⟩

end Store

end AppTopology
