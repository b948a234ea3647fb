import AppTopology.Fixture
import AppTopology.Proofs.Committed
import AppTopology.Store.History

namespace AppTopology

structure Turn where
  mutation : Mutation
  mode : Mode

namespace Turn

def call (turn : Turn) : Call := .mutate turn.mutation turn.mode

def commits (turn : Turn) (outcome : Outcome Changelog) : Bool :=
  !turn.mode.dryRun && !turn.mode.cancelled && outcome.result.isOk

end Turn

namespace Store

variable {store : Store} {turn : Turn} {mutation : Mutation} {log : Changelog}

def history (store : Store) : List Turn → List (Turn × Outcome Changelog)
  | [] => []
  | turn :: rest =>
    let outcome := store.mutate turn.mutation turn.mode
    (turn, outcome) :: outcome.store.history rest

def lasting (store : Store) (turns : List Turn) : List (Turn × Outcome Changelog) :=
  (store.history turns).filter fun entry => entry.1.commits entry.2

theorem lasting_cons (store : Store) (turn : Turn) (rest : List Turn) :
    store.lasting (turn :: rest) =
      let outcome := store.mutate turn.mutation turn.mode
      if turn.commits outcome then (turn, outcome) :: outcome.store.lasting rest
      else outcome.store.lasting rest := by
  rw [lasting, history, List.filter_cons]
  rfl

theorem run_cons (store : Store) (turn : Turn) (rest : List Turn) :
    store.run ((turn :: rest).map Turn.call) =
      (store.mutate turn.mutation turn.mode).store.run (rest.map Turn.call) := rfl

theorem result_of_dryRun (store : Store) (mutation : Mutation) (cancelled : Bool) :
    (store.mutate mutation ⟨true, cancelled⟩).result =
      (store.mutate mutation ⟨false, cancelled⟩).result := by
  cases cancelled with
  | true => rfl
  | false =>
    unfold mutate Outcome.conclude Outcome.announce attempt
    simp only [Bool.false_eq_true, if_false, if_true]
    cases (mutation.route store.registry).edit store.tree with
    | error error => rfl
    | ok edited =>
      dsimp only
      cases store.tree.settle edited mutation.target <;> rfl

theorem store_of_not_commits
    (h : turn.commits (store.mutate turn.mutation turn.mode) = false) :
    (store.mutate turn.mutation turn.mode).store = store := by
  obtain ⟨error, -, hsame⟩ | ⟨hcancelled, edited, staged, log, hedit, hsettle⟩ :=
    refused_or_settled store turn.mutation turn.mode
  · exact hsame
  · obtain ⟨hresult, hafter⟩ := mutate_of_settled hcancelled hedit hsettle
    rw [Turn.commits, hcancelled, hresult] at h
    cases hdryRun : turn.mode.dryRun with
    | true => rw [hafter, if_pos hdryRun]
    | false =>
      rw [hdryRun] at h
      exact nomatch h

theorem replay_lasting (store : Store) (turns : List Turn) :
    let lasting := store.lasting turns
    store.history (lasting.map Prod.fst) = lasting ∧
      store.run ((lasting.map Prod.fst).map Turn.call) = store.run (turns.map Turn.call) := by
  dsimp only
  induction turns generalizing store with
  | nil => exact ⟨rfl, rfl⟩
  | cons turn rest ih =>
    rw [lasting_cons, run_cons]
    dsimp only
    split
    · obtain ⟨hhistory, hrun⟩ := ih (store.mutate turn.mutation turn.mode).store
      rw [List.map_cons, history, run_cons]
      exact ⟨congrArg _ hhistory, hrun⟩
    · next hcommits =>
      rw [store_of_not_commits (Bool.eq_false_iff.mpr hcommits)]
      exact ih store

theorem history_dryRuns (store : Store) (mutation : Mutation) (cancelled : Bool) (times : Nat) :
    (store.history (List.replicate times ⟨mutation, ⟨true, cancelled⟩⟩)).map
        (fun entry => (entry.2.result, entry.2.store)) =
      List.replicate times ((store.mutate mutation ⟨false, cancelled⟩).result, store) := by
  let turn : Turn := ⟨mutation, ⟨true, cancelled⟩⟩
  have hcommits : turn.commits (store.mutate mutation turn.mode) = false := rfl
  have hsame : (store.mutate mutation turn.mode).store = store := store_of_not_commits hcommits
  induction times with
  | zero => rfl
  | succ times ih =>
    rw [List.replicate_succ, List.replicate_succ, history, List.map_cons]
    dsimp only
    rw [hsame, ih, result_of_dryRun]

/-- Without the dry runs, the cancelled calls and the refused ones a sequence gives the same
outcomes and the same store. -/
theorem previews_leave_no_trace (store : Store) (turns : List Turn) :
    let lasting := store.lasting turns
    let point := store.run (turns.map Turn.call)
    store.history (lasting.map Prod.fst) = lasting ∧
      store.run ((lasting.map Prod.fst).map Turn.call) = point ∧
      ∀ mutation cancelled times,
        (point.history (List.replicate times ⟨mutation, ⟨true, cancelled⟩⟩)).map
            (fun entry => (entry.2.result, entry.2.store)) =
          List.replicate times ((point.mutate mutation ⟨false, cancelled⟩).result, point) := by
  intro lasting point
  obtain ⟨hhistory, hrun⟩ := store.replay_lasting turns
  exact ⟨hhistory, hrun, point.history_dryRuns⟩

end Store

end AppTopology
