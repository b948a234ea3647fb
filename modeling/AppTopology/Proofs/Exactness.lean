import AppTopology.Fixture
import AppTopology.Proofs.Listing

namespace AppTopology

namespace Position

variable {p q : Position} {scope : String}

theorem eq_of_names (hkind : p.kind = q.kind) (hnames : p.names = q.names) : p = q := by
  obtain ⟨place, item⟩ := p
  obtain ⟨place', item'⟩ := q
  cases item <;> cases item' <;>
    simp_all [kind, Item.kind, names, steps, Item.steps, Function.comp_def]

theorem eq_of_path (hscope : Scope.isScope scope) (hp : Scope.IsPath p.names)
    (hq : Scope.IsPath q.names) (hkind : p.kind = q.kind) (hpath : p.path scope = q.path scope) :
    p = q := by
  apply eq_of_names hkind
  have h := congrArg Scope.names hpath
  rw [path, path, Scope.names_under hscope hp, Scope.names_under hscope hq] at h
  exact List.append_cancel_left h

end Position

namespace App

variable {app child : App} {key : String} {p : Position} {entity : Entity}

theorem KeysAreNames.of_child? (h : app.KeysAreNames) (hchild : app.child? key = some child) :
    Scope.isName key ∧ child.KeysAreNames := by
  constructor
  · exact h (Position.root.inside key) child.info
      (by rw [info?_inside_of_child? hchild]; rfl) (Position.inside_ne_root key _)
  · intro p info hinfo hp
    rw [← Position.name_inside hp key]
    exact h (p.inside key) info (by rwa [info?_inside_of_child? hchild])
      (Position.inside_ne_root key p)

theorem KeysAreNames.isPath (h : app.KeysAreNames) (hp : app.entity? p = some entity) :
    Scope.IsPath p.names := by
  obtain ⟨place, item⟩ := p
  induction place generalizing app with
  | nil =>
    have hinfo : app.info? ⟨[], item⟩ = some entity.info := by rw [info?_eq, hp]; rfl
    cases item with
    | app => exact Scope.isPath_nil
    | channel name | channelType name | channelAlias name =>
      have hname : Scope.isName name := h _ _ hinfo (by simp [Position.root])
      simpa [Position.names, Position.steps, Item.steps, Scope.IsPath] using hname
  | cons key place ih =>
    obtain ⟨child, hchild, hentity⟩ :=
      Option.bind_eq_some_iff.mp ((app.entity?_inside key ⟨place, item⟩).symm.trans hp)
    obtain ⟨hkey, hbelow⟩ := h.of_child? hchild
    intro name hname
    rcases List.mem_cons.mp hname with rfl | hname
    · exact hkey
    · exact ih hbelow hentity name hname

end App

namespace Diff

variable {old new : Option App} {scope path : String} {log : Changelog} {change : Change}

def Stands (scope : String) (side : Option App) (kind : Kind) (path : String) : Prop :=
  ∃ p : Position, p.kind = kind ∧ p.path scope = path ∧ (side.bind (·.entity? p)).isSome

structure RecordedAt (scope : String) (old new : Option App) (change : Change) (p : Position) :
    Prop where
  path : change.path = p.path scope
  subject : change.kind.subject = p.kind
  stands : (old.bind (·.entity? p)).isSome ∨ (new.bind (·.entity? p)).isSome

open Classical in
/-- Each entity that one side alone has is created or deleted once, all else is reported as it is
there, once and depth first. -/
structure Exact (scope : String) (old new : Option App) (log : Changelog) : Prop where
  created : ∀ kind path, log.summary.count (.created kind, path) =
    if Stands scope new kind path ∧ ¬ Stands scope old kind path then 1 else 0
  deleted : ∀ kind path, log.summary.count (.deleted kind, path) =
    if Stands scope old kind path ∧ ¬ Stands scope new kind path then 1 else 0
  updated : ∀ change, change.kind.isUpdate → (change ∈ log ↔
    ∃ p o n, old.bind (·.entity? p) = some o ∧ new.bind (·.entity? p) = some n ∧
      change.path = p.path scope ∧ Reports (p ≠ .root) o n change.kind change.details)
  distinct : (log.map Change.about).Nodup
  ordered : log.Pairwise fun change next => ∃ p q, RecordedAt scope old new change p ∧
    RecordedAt scope old new next q ∧ (p = q ∨ p.Before q)

def PathsAreUnique (scope : String) (old new : Option App) : Prop :=
  ∀ p q : Position, (old.bind (·.entity? p)).isSome ∨ (new.bind (·.entity? p)).isSome →
    (old.bind (·.entity? q)).isSome ∨ (new.bind (·.entity? q)).isSome →
    p.kind = q.kind → p.path scope = q.path scope → p = q

theorem pathsAreUnique (hold : ∀ app ∈ old, app.KeysAreNames ∧ app.info.path = .ok scope)
    (hnew : ∀ app ∈ new, app.KeysAreNames ∧ app.info.path = .ok scope) :
    PathsAreUnique scope old new := by
  have hpath {side : Option App} (hside : ∀ app ∈ side, app.KeysAreNames ∧ app.info.path = .ok scope)
      {p : Position} (hp : (side.bind (·.entity? p)).isSome) :
      Scope.isScope scope ∧ Scope.IsPath p.names := by
    obtain ⟨entity, hentity⟩ := Option.isSome_iff_exists.mp hp
    obtain ⟨app, happ, hentity⟩ := Option.bind_eq_some_iff.mp hentity
    obtain ⟨hkeys, happend⟩ := hside app happ
    exact ⟨Scope.isScope_append happend, hkeys.isPath hentity⟩
  intro p q hp hq
  obtain ⟨hscope, hpath'⟩ := hp.elim (hpath hold) (hpath hnew)
  exact Position.eq_of_path hscope hpath' (hq.elim (hpath hold) (hpath hnew)).2

theorem recordedAt_of_mem {identity : Bool} {p : Position}
    (h : change ∈ recordsAt identity scope old new p) : RecordedAt scope old new change p where
  path := (path_and_subject_of_mem_recordsAt h).1
  subject := (path_and_subject_of_mem_recordsAt h).2
  stands := stands_of_mem_recordsAt h

theorem distinct_of_sorted (hunique : PathsAreUnique scope old new) {positions : List Position}
    (hsorted : positions.Pairwise Position.Before) (identity : Bool) :
    ((positions.flatMap (recordsAt identity scope old new)).map Change.about).Nodup := by
  have hnodup : positions.Nodup := by
    refine hsorted.imp ?_
    rintro p _ hbefore rfl
    exact p.not_before_self hbefore
  rw [List.map_flatMap]
  refine nodup_flatMap hnodup (fun p _ => nodup_about_entity _ _ _ _) ?_
  intro p _ q _ about hp hq
  obtain ⟨change, hchange, rfl⟩ := List.mem_map.mp hp
  obtain ⟨change', hchange', heq⟩ := List.mem_map.mp hq
  obtain ⟨hpath, hsubject, hstands⟩ := recordedAt_of_mem hchange
  obtain ⟨hpath', hsubject', hstands'⟩ := recordedAt_of_mem hchange'
  injection heq with hkind hrest
  injection hrest with hpaths _
  exact hunique p q hstands hstands' (by rw [← hsubject, ← hsubject', hkind])
    (by rw [← hpath, ← hpath', hpaths])

theorem ordered_of_sorted {positions : List Position} {identity : Bool}
    (hsorted : positions.Pairwise Position.Before) :
    (positions.flatMap (recordsAt identity scope old new)).Pairwise fun change next =>
      ∃ p q, RecordedAt scope old new change p ∧ RecordedAt scope old new next q ∧
        (p = q ∨ p.Before q) := by
  rw [List.pairwise_flatMap]
  constructor
  · intro p _
    rw [List.pairwise_iff_forall_sublist]
    intro change next hsublist
    exact ⟨p, p, recordedAt_of_mem (hsublist.subset (by simp)),
      recordedAt_of_mem (hsublist.subset (by simp)), .inl rfl⟩
  · refine hsorted.imp ?_
    intro p q hbefore change hchange next hnext
    exact ⟨p, q, recordedAt_of_mem hchange, recordedAt_of_mem hnext, .inr hbefore⟩

theorem count_summary {kind : ChangeKind} (hdistinct : (log.map Change.about).Nodup)
    (hplain : ∀ change ∈ log, change.kind = kind → change.details = .none) {P : Prop} [Decidable P]
    (hmem : ⟨kind, path, .none⟩ ∈ log ↔ P) :
    log.summary.count (kind, path) = if P then 1 else 0 := by
  have habout : log.summary.count (kind, path) =
      (log.map Change.about).count (kind, path, none) := by
    rw [Changelog.summary, List.count_eq_countP, List.count_eq_countP, List.countP_map,
      List.countP_map]
    apply List.countP_congr
    intro change hchange
    simp only [Function.comp_apply, beq_iff_eq, Change.about, Prod.mk.injEq]
    constructor
    · rintro ⟨hkind, hpath⟩
      exact ⟨hkind, hpath, by rw [hplain change hchange hkind]; rfl⟩
    · rintro ⟨hkind, hpath, -⟩
      exact ⟨hkind, hpath⟩
  have hmem' : (kind, path, none) ∈ log.map Change.about ↔ P := by
    rw [← hmem, List.mem_map]
    constructor
    · rintro ⟨change, hchange, heq⟩
      injection heq with hkind hrest
      injection hrest with hpath _
      have hdetails := hplain change hchange hkind
      obtain ⟨_, _, _⟩ := change
      subst hkind hpath hdetails
      exact hchange
    · exact fun h => ⟨_, h, rfl⟩
  rw [habout, hdistinct.count]
  simp only [hmem']

theorem PathsAreUnique.symm (h : PathsAreUnique scope old new) : PathsAreUnique scope new old :=
  fun p q hp hq => h p q hp.symm hq.symm

theorem stands_alone_iff {here there : Option App} (hunique : PathsAreUnique scope here there)
    {kind : Kind} :
    (∃ p : Position, kind = p.kind ∧ path = p.path scope ∧ (here.bind (·.entity? p)).isSome ∧
        there.bind (·.entity? p) = none) ↔
      Stands scope here kind path ∧ ¬ Stands scope there kind path := by
  constructor
  · rintro ⟨p, rfl, rfl, hhere, hthere⟩
    refine ⟨⟨p, rfl, rfl, hhere⟩, ?_⟩
    rintro ⟨q, hkind, hpath, hq⟩
    rw [hunique q p (.inr hq) (.inl hhere) hkind hpath, hthere] at hq
    exact Bool.false_ne_true hq
  · rintro ⟨⟨p, rfl, rfl, hhere⟩, hthere⟩
    refine ⟨p, rfl, rfl, hhere, ?_⟩
    rw [← Option.not_isSome_iff_eq_none]
    exact fun h => hthere ⟨p, rfl, rfl, h⟩

theorem mem_created_iff (hunique : PathsAreUnique scope old new) {kind : Kind} :
    (∃ p, (⟨.created kind, path, .none⟩ : Change) ∈ recordsAt false scope old new p) ↔
      Stands scope new kind path ∧ ¬ Stands scope old kind path := by
  rw [← stands_alone_iff hunique.symm]
  refine exists_congr fun p => ?_
  rw [mem_recordsAt]
  constructor
  · rintro (⟨heq, hold, hnew⟩ | ⟨heq, -⟩ | ⟨o, n, -, -, -, hreports⟩)
    · injection heq with hkind hpath
      exact ⟨ChangeKind.created.inj hkind, hpath, hnew, hold⟩
    · exact nomatch heq
    · exact nomatch hreports.isUpdate
  · rintro ⟨rfl, rfl, hnew, hold⟩
    exact .inl ⟨rfl, hold, hnew⟩

theorem mem_deleted_iff (hunique : PathsAreUnique scope old new) {kind : Kind} :
    (∃ p, (⟨.deleted kind, path, .none⟩ : Change) ∈ recordsAt false scope old new p) ↔
      Stands scope old kind path ∧ ¬ Stands scope new kind path := by
  rw [← stands_alone_iff hunique]
  refine exists_congr fun p => ?_
  rw [mem_recordsAt]
  constructor
  · rintro (⟨heq, -⟩ | ⟨heq, hold, hnew⟩ | ⟨o, n, -, -, -, hreports⟩)
    · exact nomatch heq
    · injection heq with hkind hpath
      exact ⟨ChangeKind.deleted.inj hkind, hpath, hold, hnew⟩
    · exact nomatch hreports.isUpdate
  · rintro ⟨rfl, rfl, hold, hnew⟩
    exact .inr (.inl ⟨rfl, hold, hnew⟩)

theorem mem_updated_iff (hupdate : change.kind.isUpdate) :
    (∃ p, change ∈ recordsAt false scope old new p) ↔
      ∃ p o n, old.bind (·.entity? p) = some o ∧ new.bind (·.entity? p) = some n ∧
        change.path = p.path scope ∧ Reports (p ≠ .root) o n change.kind change.details := by
  refine exists_congr fun p => ?_
  rw [mem_recordsAt, Bool.false_or]
  constructor
  · rintro (⟨rfl, -⟩ | ⟨rfl, -⟩ | h)
    · exact nomatch hupdate
    · exact nomatch hupdate
    · exact h
  · exact fun h => .inr (.inr h)

theorem details_of_mem_recordsAt {identity : Bool} {p : Position}
    (h : change ∈ recordsAt identity scope old new p) (hupdate : ¬ change.kind.isUpdate) :
    change.details = .none := by
  rcases mem_recordsAt.mp h with ⟨rfl, -⟩ | ⟨rfl, -⟩ | ⟨o, n, -, -, -, hreports⟩
  · rfl
  · rfl
  · exact absurd hreports.isUpdate hupdate

theorem exact_of_listing (hunique : PathsAreUnique scope old new) {positions : List Position}
    (hlisting : Listing old new positions) :
    Exact scope old new (positions.flatMap (recordsAt false scope old new)) := by
  classical
  have hdistinct := distinct_of_sorted hunique hlisting.sorted false
  have hplain {kind : ChangeKind} (hkind : ¬ kind.isUpdate) :
      ∀ change ∈ positions.flatMap (recordsAt false scope old new), change.kind = kind →
        change.details = .none := by
    rintro change hchange rfl
    obtain ⟨p, hp⟩ := (mem_flatMap_recordsAt hlisting).mp hchange
    exact details_of_mem_recordsAt hp hkind
  constructor
  · intro kind path
    exact count_summary hdistinct (hplain (by simp [ChangeKind.isUpdate, ChangeKind.isCreation]))
      ((mem_flatMap_recordsAt hlisting).trans (mem_created_iff hunique))
  · intro kind path
    exact count_summary hdistinct (hplain (by simp [ChangeKind.isUpdate, ChangeKind.isDeletion]))
      ((mem_flatMap_recordsAt hlisting).trans (mem_deleted_iff hunique))
  · intro change hupdate
    exact (mem_flatMap_recordsAt hlisting).trans (mem_updated_iff hupdate)
  · exact hdistinct
  · exact ordered_of_sorted hlisting.sorted

theorem trees_exact (hold : ∀ app ∈ old, app.KeysAreNames ∧ app.info.path = .ok path)
    (hnew : ∀ app ∈ new, app.KeysAreNames ∧ app.info.path = .ok path) :
    ∃ log, trees old new = .ok log ∧ Exact path old new log := by
  obtain ⟨positions, hlisting, hlog⟩ := trees_listed
    (fun app happ => (hold app happ).imp (·.named path) id)
    (fun app happ => (hnew app happ).imp (·.named path) id)
  exact ⟨_, hlog, exact_of_listing (pathsAreUnique hold hnew) hlisting⟩

theorem trees_exact_billing :
    let new := App.withAnnotation (Fixture.billing.dropChild "printer") "team" "accounting"
    let log : Changelog := [
      ⟨.updated .app, "billing", .field "Meta.Annotations[team]" none (some "accounting")⟩,
      ⟨.deleted .app, "billing.printer", .none⟩]
    trees (some Fixture.billing) (some new) = .ok log ∧
      Exact "billing" (some Fixture.billing) (some new) log := by
  intro new log
  have hlog : trees (some Fixture.billing) (some new) = .ok log := by decide +kernel
  have hprinter : Fixture.printer.KeysAreNames :=
    App.keysAreNames_of_keys (by decide +kernel) nofun
  have hold : ∀ app ∈ some Fixture.billing, app.KeysAreNames ∧ app.info.path = .ok "billing" := by
    rintro _ ⟨⟩
    refine ⟨App.keysAreNames_of_keys (by decide +kernel) ?_, by decide +kernel⟩
    intro entry hentry
    rw [List.mem_singleton.mp (show entry ∈ [("printer", Fixture.printer)] from hentry)]
    exact ⟨by decide, hprinter⟩
  have hnew : ∀ app ∈ some new, app.KeysAreNames ∧ app.info.path = .ok "billing" := by
    rintro _ ⟨⟩
    exact ⟨App.keysAreNames_of_keys (by decide +kernel) nofun, by decide +kernel⟩
  obtain ⟨log', hlog', hexact⟩ := trees_exact hold hnew
  rw [hlog, Except.ok.injEq] at hlog'
  exact ⟨hlog, hlog' ▸ hexact⟩

end Diff

end AppTopology
