import AppTopology.Kind

namespace AppTopology

inductive ChangeKind where
  | created (kind : Kind)
  | deleted (kind : Kind)
  | updated (kind : Kind)
  | nodeUpdated
  | boundaryChanged
  deriving DecidableEq, Repr

namespace ChangeKind

def name : ChangeKind → String
  | created kind => kind.title ++ "Created"
  | deleted kind => kind.title ++ "Deleted"
  | updated kind => kind.title ++ "Updated"
  | nodeUpdated => "NodeUpdated"
  | boundaryChanged => "BoundaryChanged"

def all : List ChangeKind :=
  [created .app, deleted .app, updated .app, nodeUpdated, boundaryChanged,
    created .channel, deleted .channel, updated .channel,
    created .channelType, deleted .channelType, updated .channelType,
    created .channelAlias, deleted .channelAlias, updated .channelAlias]

def ofName? (name : String) : Option ChangeKind := all.find? (·.name = name)

def isCreation : ChangeKind → Bool
  | created _ => true
  | _ => false

def isDeletion : ChangeKind → Bool
  | deleted _ => true
  | _ => false

def isUpdate (kind : ChangeKind) : Bool := !kind.isCreation && !kind.isDeletion

def inverse : ChangeKind → ChangeKind
  | created kind => deleted kind
  | deleted kind => created kind
  | kind => kind

theorem ofName?_name (kind : ChangeKind) : ofName? kind.name = some kind := by
  cases kind with
  | created kind => cases kind <;> rfl
  | deleted kind => cases kind <;> rfl
  | updated kind => cases kind <;> rfl
  | nodeUpdated => rfl
  | boundaryChanged => rfl

@[simp] theorem inverse_inverse (kind : ChangeKind) : kind.inverse.inverse = kind := by
  cases kind <;> rfl

end ChangeKind

inductive ChangeDetails where
  | none
  | field (name : String) (before after : Option String)
  | boundary (direction : Direction) (added removed : List String)
  deriving DecidableEq, Repr

def ChangeDetails.inverse : ChangeDetails → ChangeDetails
  | none => none
  | field name before after => field name after before
  | boundary direction added removed => boundary direction removed added

structure Change where
  kind : ChangeKind
  path : String
  details : ChangeDetails := .none
  deriving DecidableEq, Repr

def Change.inverse (change : Change) : Change :=
  ⟨change.kind.inverse, change.path, change.details.inverse⟩

@[simp] theorem Change.inverse_inverse (change : Change) : change.inverse.inverse = change := by
  obtain ⟨kind, path, details⟩ := change
  cases details <;> simp [inverse, ChangeDetails.inverse]

abbrev Changelog : Type := List Change

namespace Changelog

def ofKind (log : Changelog) (kind : ChangeKind) : Changelog := log.filter (·.kind = kind)

def paths (log : Changelog) : List String := log.map Change.path

def summary (log : Changelog) : List (ChangeKind × String) :=
  log.map fun change => (change.kind, change.path)

def inverse (log : Changelog) : Changelog := log.map Change.inverse

end Changelog

end AppTopology
