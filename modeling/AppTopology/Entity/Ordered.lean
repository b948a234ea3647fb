import AppTopology.Entity.Leaf

namespace AppTopology

def Metadata.Ordered (info : Metadata) : Prop := info.annotations.Ordered

instance (info : Metadata) : Decidable info.Ordered :=
  inferInstanceAs (Decidable info.annotations.Ordered)

namespace App

variable {α : Type} [Leaf α]

def OrderedShelf (shelf : Dict α) : Prop :=
  shelf.Ordered ∧ ∀ leaf ∈ shelf.values, (Leaf.info leaf).Ordered

instance (shelf : Dict α) : Decidable (OrderedShelf shelf) :=
  inferInstanceAs (Decidable (_ ∧ _))

def Own.Ordered (own : App.Own) : Prop :=
  own.info.Ordered ∧ OrderedShelf own.channels ∧ OrderedShelf own.types ∧
    OrderedShelf own.aliases ∧ ∀ node ∈ own.node, node.environment.Ordered

instance (own : App.Own) : Decidable own.Ordered := inferInstanceAs (Decidable (_ ∧ _))

mutual

def Ordered : App → Prop
  | ⟨own, ⟨children⟩⟩ => own.Ordered ∧ (⟨children⟩ : Dict App).Ordered ∧ OrderedAll children

def OrderedAll : List (String × App) → Prop
  | [] => True
  | (_, app) :: rest => app.Ordered ∧ OrderedAll rest

end

mutual

def decideOrdered : (app : App) → Decidable app.Ordered
  | ⟨own, ⟨children⟩⟩ =>
    have := decideOrderedAll children
    decidable_of_iff (own.Ordered ∧ (⟨children⟩ : Dict App).Ordered ∧ OrderedAll children)
      (by rw [Ordered])

def decideOrderedAll : (children : List (String × App)) → Decidable (OrderedAll children)
  | [] => isTrue trivial
  | (_, app) :: rest =>
    have := decideOrdered app
    have := decideOrderedAll rest
    decidable_of_iff (app.Ordered ∧ OrderedAll rest) (by rw [OrderedAll])

end

instance (app : App) : Decidable app.Ordered := decideOrdered app

theorem ordered_empty : ({} : App).Ordered := by decide

theorem orderedAll_iff {children : List (String × App)} :
    OrderedAll children ↔ ∀ entry ∈ children, entry.2.Ordered := by
  induction children with
  | nil => simp [OrderedAll]
  | cons entry rest ih => simp [OrderedAll, ih]

theorem ordered_iff {app : App} :
    app.Ordered ↔
      app.own.Ordered ∧ app.apps.Ordered ∧ ∀ entry ∈ app.apps.entries, entry.2.Ordered := by
  obtain ⟨own, ⟨children⟩⟩ := app
  rw [Ordered, orderedAll_iff]

end App

end AppTopology
