import AppTopology.Change.Text
import AppTopology.Proofs.Ambiguity
import AppTopology.Proofs.Batch
import Mathlib.Algebra.Order.BigOperators.Group.List
import Mathlib.Algebra.Order.Ring.Nat

/-!
What the renderer writes by itself has no line ends but those after the records; the texts of a
record are written as they are.
-/

namespace AppTopology

namespace Text

variable {separator : Char} {s text : String}

theorem length_cutChars (separator : Char) (cs : List Char) :
    (cutChars separator cs).length = cs.count separator + 1 := by
  induction cs with
  | nil => rfl
  | cons c cs ih =>
    rw [cutChars, List.count_cons]
    by_cases hc : c = separator
    · simp [hc, ih]
    · have hne := cutChars_ne_nil separator cs
      rw [if_neg hc, if_neg (by simpa using hc), ← ih]
      cases hparts : cutChars separator cs with
      | nil => exact absurd hparts hne
      | cons part parts => rfl

def breaks (s : String) : Nat := s.toList.count '\n'

theorem breaks_eq_zero : breaks s = 0 ↔ '\n' ∉ s.toList := List.count_eq_zero

theorem breaks_append (s text : String) : breaks (s ++ text) = breaks s + breaks text := by
  rw [breaks, String.toList_append, List.count_append]
  rfl

theorem breaks_intercalate (hs : breaks s = 0) (texts : List String) :
    breaks (s.intercalate texts) = (texts.map breaks).sum := by
  rw [breaks, String.toList_intercalate]
  induction texts with
  | nil => rfl
  | cons text texts ih =>
    cases texts with
    | nil => simp [breaks]
    | cons next texts =>
      simp only [List.map_cons, List.intercalate_cons_cons, List.count_append] at ih ⊢
      rw [ih]
      simp only [breaks] at hs
      simp only [breaks, hs, List.sum_cons, Nat.add_zero]

theorem length_lines (s : String) : (cut '\n' s).length = breaks s + 1 := by
  rw [cut, List.length_map, length_cutChars]
  rfl

theorem lines_append_line (s text : String) :
    cut '\n' (s ++ "\n" ++ text) = cut '\n' s ++ cut '\n' text := by
  have hend : (s ++ "\n" ++ text).toList = s.toList ++ '\n' :: text.toList := by simp
  rw [cut, hend, cutChars_append_cons, List.map_append]
  rfl

theorem lines_eq_singleton : cut '\n' s = [s] ↔ breaks s = 0 := by
  constructor
  · intro h
    have hlength := length_lines s
    rw [h] at hlength
    exact Nat.succ.inj hlength.symm
  · intro h
    rw [cut, cutChars_of_notMem (breaks_eq_zero.mp h), List.map_singleton, String.ofList_toList]

end Text

theorem Scope.breaks_of_isScope {scope : String} (h : isScope scope) : Text.breaks scope = 0 := by
  obtain ⟨place, hplace, rfl⟩ := isScope_iff.mp h
  rw [join, Text.breaks_intercalate (by decide), List.sum_eq_zero_iff, List.forall_mem_map]
  exact fun name hname => Text.breaks_eq_zero.mpr (notMem_of_isName (by decide) (hplace name hname))

namespace ChangeDetails

def texts : ChangeDetails → List String
  | none => []
  | field name before after => name :: (before.toList ++ after.toList)
  | boundary _ added removed => added ++ removed

def breaks (details : ChangeDetails) : Nat := (details.texts.map Text.breaks).sum

theorem breaks_eq_zero {details : ChangeDetails} :
    details.breaks = 0 ↔ ∀ text ∈ details.texts, '\n' ∉ text.toList := by
  simp only [breaks, List.sum_eq_zero_iff, List.forall_mem_map, Text.breaks_eq_zero]

theorem breaks_line (details : ChangeDetails) : Text.breaks details.line = details.breaks := by
  have hshow (value : Option String) :
      Text.breaks (value.getD "<none>") = (value.toList.map Text.breaks).sum := by
    cases value with
    | none => decide
    | some value => simp
  have hspace : Text.breaks " " = 0 := by decide
  cases details with
  | none => rfl
  | field name before after =>
    have hcolon : Text.breaks ": " = 0 := by decide
    have harrow : Text.breaks " -> " = 0 := by decide
    simp only [line, Text.breaks_append, hshow, hspace, hcolon, harrow, breaks, texts,
      List.map_cons, List.map_append, List.sum_cons, List.sum_append]
    omega
  | boundary direction added removed =>
    have hfield : Text.breaks direction.field = 0 := by cases direction <;> decide
    have hcomma : Text.breaks ", " = 0 := by decide
    have hadded : Text.breaks ": +" = 0 := by decide
    have hremoved : Text.breaks " -" = 0 := by decide
    have hopen : Text.breaks "[" = 0 := by decide
    have hclose : Text.breaks "]" = 0 := by decide
    simp only [line, Text.breaks_append, Text.breaks_intercalate hcomma, hspace, hfield, hadded,
      hremoved, hopen, hclose, breaks, texts, List.map_append, List.sum_append]
    omega

end ChangeDetails

theorem ChangeKind.breaks_padded (kind : ChangeKind) : Text.breaks kind.padded = 0 := by
  cases kind with
  | created kind | deleted kind | updated kind => cases kind <;> decide
  | nodeUpdated | boundaryChanged => decide

theorem Scope.breaks_display {scope : String} (h : isScope scope) :
    Text.breaks (display scope) = 0 := by
  unfold display
  split
  · decide
  · exact breaks_of_isScope h

theorem Change.breaks_line {change : Change} (h : Scope.isScope change.path) :
    Text.breaks change.line = change.details.breaks := by
  have hspace : Text.breaks " " = 0 := by decide
  rw [line, Text.breaks_append, Text.breaks_append, Text.breaks_append, change.kind.breaks_padded,
    hspace, Scope.breaks_display h, change.details.breaks_line, Nat.zero_add]

namespace Changelog

variable {log : Changelog}

def OneLineEach (log : Changelog) : Prop :=
  Text.cut '\n' log.render = log.map Change.line ++ [""]

theorem lines_render (hne : log ≠ []) :
    Text.cut '\n' log.render = log.flatMap (fun change => Text.cut '\n' change.line) ++ [""] := by
  rw [render, if_neg (by simpa using hne)]
  clear hne
  induction log with
  | nil => rfl
  | cons change log ih =>
    rw [List.map_cons, String.join_cons, Text.lines_append_line, ih, List.flatMap_cons,
      List.append_assoc]

theorem breaks_render (hpaths : ∀ change ∈ log, Scope.isScope change.path) (hne : log ≠ []) :
    Text.breaks log.render = log.length + (log.map fun change => change.details.breaks).sum := by
  have hlength : (log.flatMap fun change => Text.cut '\n' change.line).length =
      log.length + (log.map fun change => change.details.breaks).sum := by
    clear hne
    induction log with
    | nil => rfl
    | cons change log ih =>
      simp only [List.mem_cons, forall_eq_or_imp] at hpaths
      rw [List.flatMap_cons, List.length_append, ih hpaths.2, Text.length_lines,
        Change.breaks_line hpaths.1, List.length_cons, List.map_cons, List.sum_cons]
      omega
  have hlines := Text.length_lines log.render
  rw [lines_render hne, List.length_append, hlength] at hlines
  exact Nat.succ.inj hlines.symm

theorem oneLineEach_iff (hpaths : ∀ change ∈ log, Scope.isScope change.path) (hne : log ≠ []) :
    log.OneLineEach ↔ ∀ change ∈ log, change.details.breaks = 0 := by
  constructor
  · intro h
    have hlines := Text.length_lines log.render
    rw [h, breaks_render hpaths hne, List.length_append, List.length_map, List.length_singleton]
      at hlines
    have hsum : (log.map fun change => change.details.breaks).sum = 0 := by omega
    rwa [List.sum_eq_zero_iff, List.forall_mem_map] at hsum
  · intro h
    have hline : ∀ change ∈ log, Text.cut '\n' change.line = [change.line] := by
      intro change hchange
      rw [Text.lines_eq_singleton, Change.breaks_line (hpaths change hchange), h change hchange]
    rw [OneLineEach, lines_render hne, List.flatMap_def, List.map_congr_left hline,
      ← List.flatMap_def, ← List.map_eq_flatMap]

end Changelog

structure Entity.Unbroken (entity : Entity) : Prop where
  field : ∀ field text, entity.text? field = some text →
    '\n' ∉ field.label.toList ∧ '\n' ∉ text.toList
  bound : ∀ direction, ∀ name ∈ (entity.boundary.names direction).names, '\n' ∉ name.toList

def App.Unbroken (app : App) : Prop := ∀ p entity, app.entity? p = some entity → entity.Unbroken

namespace Diff

variable {old new : Option App} {identity : Bool} {scope path : String} {p : Position}
variable {change : Change} {log : Changelog}

theorem Reports.unbroken {o n : Entity} {kind : ChangeKind} {details : ChangeDetails}
    (h : Reports identity o n kind details) (ho : o.Unbroken) (hn : n.Unbroken) :
    ∀ text ∈ details.texts, '\n' ∉ text.toList := by
  cases h with
  | field field _ hne =>
    have hlabel : '\n' ∉ field.label.toList := by
      cases hold : o.text? field with
      | some text => exact (ho.field field text hold).1
      | none =>
        cases hnew : n.text? field with
        | some text => exact (hn.field field text hnew).1
        | none => exact absurd (hold.trans hnew.symm) hne
    simp only [ChangeDetails.texts, List.forall_mem_cons, List.forall_mem_append,
      Option.mem_toList]
    exact ⟨hlabel, fun text htext => (ho.field field text htext).2,
      fun text htext => (hn.field field text htext).2⟩
  | boundary direction _ _ hadded hremoved _ =>
    subst hadded hremoved
    simp only [ChangeDetails.texts, List.forall_mem_append]
    constructor
    · exact fun name hname => hn.bound direction name (List.mem_filter.mp hname).1
    · exact fun name hname => ho.bound direction name (List.mem_filter.mp hname).1

theorem unbroken_of_mem_entity {old new : Option Entity} (hold : ∀ e ∈ old, e.Unbroken)
    (hnew : ∀ e ∈ new, e.Unbroken) (hkind : ∀ o ∈ old, ∀ n ∈ new, o.kind = n.kind)
    (h : change ∈ entity identity path old new) :
    ∀ text ∈ change.details.texts, '\n' ∉ text.toList := by
  cases old with
  | none =>
    cases new with
    | none => exact absurd h List.not_mem_nil
    | some new =>
      rw [mem_entity_none_some.mp h]
      exact fun _ => nofun
  | some old =>
    cases new with
    | none =>
      rw [mem_entity_some_none.mp h]
      exact fun _ => nofun
    | some new =>
      exact ((mem_entity (hkind old rfl new rfl)).mp h).2.unbroken (hold old rfl) (hnew new rfl)

theorem isScope_of_mem_trees (hlog : trees old new = .ok log) (hchange : change ∈ log) :
    Scope.isScope change.path := by
  obtain ⟨scope, hscope, -, hlog⟩ := exists_subtree_of_trees hlog
  exact (Scope.isInner_iff.mp (inner_of_mem_subtree hscope hlog hchange)).2.1

theorem unbroken_of_mem_trees (hlog : trees old new = .ok log) (hold : ∀ app ∈ old, app.Unbroken)
    (hnew : ∀ app ∈ new, app.Unbroken) (hchange : change ∈ log) :
    ∀ text ∈ change.details.texts, '\n' ∉ text.toList := by
  obtain ⟨scope, hscope, -, hlog⟩ := exists_subtree_of_trees hlog
  obtain ⟨p, hp⟩ := (mem_subtree hscope hlog).mp hchange
  have hside {side : Option App} (hside : ∀ app ∈ side, app.Unbroken) :
      ∀ entity ∈ side.bind (·.entity? p), entity.Unbroken := by
    intro entity hentity
    obtain ⟨app, happ, hentity⟩ := Option.bind_eq_some_iff.mp hentity
    exact hside app happ p entity hentity
  refine unbroken_of_mem_entity (hside hold) (hside hnew) ?_ hp
  intro o ho n hn
  rw [kind_of_bind_entity? old p o ho, kind_of_bind_entity? new p n hn]

end Diff

theorem Target.isScope_of_mem_changes {target : Target} {old new : App} {log : Changelog}
    {change : Change} (hlog : target.changes old new = .ok log) (hchange : change ∈ log) :
    Scope.isScope change.path := by
  have hleaf {α : Type} [Leaf α] [LawfulLeaf α] {scope name : String}
      (hlog : leafChanges α scope name old new = .ok log) : Scope.isScope change.path := by
    obtain ⟨path, hpath, hlog⟩ := Check.bind_eq_ok.mp hlog
    rw [← Check.pure_eq_ok.mp hlog] at hchange
    rw [Diff.path_of_mem_leaf hchange]
    exact Scope.isScope_append hpath
  cases target with
  | app path => exact Diff.isScope_of_mem_trees hlog hchange
  | channel scope name => exact hleaf (α := Channel) hlog
  | channelType scope name => exact hleaf (α := ChannelType) hlog
  | channelAlias scope name => exact hleaf (α := ChannelAlias) hlog

namespace Store

variable {store : Store} {mutation : Mutation} {mode : Mode} {log : Changelog}

theorem isScope_of_mem_mutate (h : (store.mutate mutation mode).result = .ok log) :
    ∀ change ∈ log, Scope.isScope change.path := by
  obtain ⟨-, edited, staged, -, hsettle⟩ := exists_settled h
  simp only [App.settle, Check.bind_eq_ok, Check.pure_eq_ok, Prod.mk.injEq] at hsettle
  obtain ⟨_, _, _, _, log', hlog, rfl, rfl⟩ := hsettle
  exact fun change => Target.isScope_of_mem_changes hlog

theorem exists_mutate_of_mem_applyInOrder {components : List Component} {results : List Applied}
    (h : (store.applyInOrder mode components).result = .ok results) {applied : Applied}
    (happlied : applied ∈ results) :
    ∃ (before : Store) (mutation : Mutation),
      (before.mutate mutation mode).result = .ok applied.log := by
  induction components generalizing store results with
  | nil =>
    cases h
    exact absurd happlied List.not_mem_nil
  | cons component rest ih =>
    cases hfirst : (store.applyOne component mode).result with
    | error error =>
      rw [(applyInOrder_cons_error hfirst rest).1] at h
      exact nomatch h
    | ok first =>
      rw [(applyInOrder_cons_ok hfirst rest).1] at h
      cases hlater : ((store.applyOne component mode).store.applyInOrder mode rest).result with
      | error error =>
        rw [hlater] at h
        exact nomatch h
      | ok others =>
        rw [hlater] at h
        cases h
        rcases List.mem_cons.mp happlied with rfl | happlied
        · obtain ⟨existed, log, mutation, rfl, hmade⟩ := exists_made hfirst
          exact ⟨store, mutation, hmade.result⟩
        · exact ih hlater happlied

end Store

inductive Changelog.Returned : Changelog → Prop where
  | compared {old new : Option App} {log : Changelog} :
    Diff.trees old new = .ok log → Returned log
  | mutated {store : Store} {mutation : Mutation} {mode : Mode} {log : Changelog} :
    (store.mutate mutation mode).result = .ok log → Returned log
  | applied {store : Store} {components : List Component} {mode : Mode} {results : List Applied}
    {applied : Applied} : (store.apply components mode).result = .ok results →
    applied ∈ results → Returned applied.log

namespace Changelog

variable {log : Changelog}

theorem Returned.isScope (h : Returned log) : ∀ change ∈ log, Scope.isScope change.path := by
  cases h with
  | compared h => exact fun change => Diff.isScope_of_mem_trees h
  | mutated h => exact Store.isScope_of_mem_mutate h
  | applied h happlied =>
    obtain ⟨before, mutation, h⟩ := Store.exists_mutate_of_mem_applyInOrder h happlied
    exact Store.isScope_of_mem_mutate h

/-- There are as many line ends as records and line ends in their texts, so each record has one line
if no text is broken. -/
theorem Returned.lines (h : Returned log) (hne : log ≠ []) :
    Text.cut '\n' log.render = log.flatMap (fun change => Text.cut '\n' change.line) ++ [""] ∧
    Text.breaks log.render = log.length + (log.map fun change => change.details.breaks).sum ∧
    (log.OneLineEach ↔ ∀ change ∈ log, ∀ text ∈ change.details.texts, '\n' ∉ text.toList) ∧
    ∀ old new, Diff.trees old new = .ok log → (∀ app ∈ old, app.Unbroken) →
      (∀ app ∈ new, app.Unbroken) → log.OneLineEach := by
  have hiff : log.OneLineEach ↔
      ∀ change ∈ log, ∀ text ∈ change.details.texts, '\n' ∉ text.toList := by
    simp only [oneLineEach_iff h.isScope hne, ChangeDetails.breaks_eq_zero]
  refine ⟨lines_render hne, breaks_render h.isScope hne, hiff, ?_⟩
  intro old new hlog hold hnew
  exact hiff.mpr fun change => Diff.unbroken_of_mem_trees hlog hold hnew

theorem lines_schema :
    let declared (schema : String) : App := ({} : App).withLeaf (ChannelType.named "T" schema)
    let log : Changelog :=
      [⟨.updated .channelType, "T", .field "Schema" (some "a\nb") (some "c")⟩]
    Diff.trees (some (declared "a\nb")) (some (declared "c")) = .ok log ∧
      Text.cut '\n' log.render = ["TypeUpdated      T Schema: a", "b -> c", ""] ∧
      Text.breaks log.render = 2 ∧ ¬ log.OneLineEach := by
  intro declared log
  have hlog : Diff.trees (some (declared "a\nb")) (some (declared "c")) = .ok log := by
    decide +kernel
  obtain ⟨hlines, hbreaks, hiff, -⟩ := (Returned.compared hlog).lines (by simp [log])
  refine ⟨hlog, ?_, ?_, ?_⟩
  · rw [hlines]
    decide +kernel
  · rw [hbreaks]
    decide +kernel
  · rw [hiff]
    decide +kernel

end Changelog

end AppTopology
