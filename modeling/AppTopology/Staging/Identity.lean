import AppTopology.Entity.Tree

/-!
What replaces an entity takes over the identity of what stood at its place, whatever identity it
claims itself; what is left without one gets the next of a supply.
-/

namespace AppTopology

structure Supply where
  mint : Nat → String
  next : Nat := 0
  mint_ne_empty : ∀ n, mint n ≠ "" := by simp

def Metadata.succeed (info : Metadata) (before : Option Metadata) : Metadata :=
  { info with uuid := (before.map Metadata.uuid).getD "" }

def Metadata.identify (mint : Nat → String) (info : Metadata) : StateM Nat Metadata := do
  if info.hasIdentity then return info
  let n ← get
  set (n + 1)
  return { info with uuid := mint n }

namespace App

variable {α : Type} [Leaf α]

def succeedShelf (before shelf : Dict α) : Dict α :=
  shelf.mapWithKey fun key leaf =>
    Leaf.withInfo leaf ((Leaf.info leaf).succeed ((before.get? key).map Leaf.info))

def succeedOwn (before : Option App.Own) (own : App.Own) : App.Own :=
  let earlier := before.getD {}
  { own with
    info := own.info.succeed (before.map App.Own.info)
    channels := succeedShelf earlier.channels own.channels
    types := succeedShelf earlier.types own.types
    aliases := succeedShelf earlier.aliases own.aliases }

mutual

/-- Takes over identities from an earlier tree, matching entities by their keys. -/
def succeed (before : Option App) : App → App
  | ⟨own, ⟨children⟩⟩ => ⟨succeedOwn (before.map App.own) own, ⟨succeedAll before children⟩⟩

def succeedAll (before : Option App) : List (String × App) → List (String × App)
  | [] => []
  | (key, app) :: rest => (key, app.succeed (before.bind (·.child? key))) :: succeedAll before rest

end

def identifyShelf (mint : Nat → String) (shelf : Dict α) : StateM Nat (Dict α) := do
  let entries ← shelf.entries.mapM fun (key, leaf) => do
    let info ← (Leaf.info leaf).identify mint
    return (key, Leaf.withInfo leaf info)
  return ⟨entries⟩

mutual

def identify (mint : Nat → String) : App → StateM Nat App
  | ⟨own, ⟨children⟩⟩ => do
    let info ← own.info.identify mint
    let children ← identifyAll mint children
    let channels ← identifyShelf mint own.channels
    let types ← identifyShelf mint own.types
    let aliases ← identifyShelf mint own.aliases
    return ⟨{ own with info, channels, types, aliases }, ⟨children⟩⟩

def identifyAll (mint : Nat → String) : List (String × App) → StateM Nat (List (String × App))
  | [] => return []
  | (key, app) :: rest => do
    let app ← app.identify mint
    return (key, app) :: (← identifyAll mint rest)

end

def unidentifiedInfo (info : Metadata) : List String :=
  if info.hasIdentity then [] else [info.reference]

def unidentifiedShelf (shelf : Dict α) : List String :=
  shelf.values.flatMap fun leaf => unidentifiedInfo (Leaf.info leaf)

mutual

/-- The references of the entities without an identity, in the order in which they get one. -/
def unidentified : App → List String
  | ⟨own, ⟨children⟩⟩ =>
    unidentifiedInfo own.info ++ unidentifiedAll children ++ unidentifiedShelf own.channels ++
      unidentifiedShelf own.types ++ unidentifiedShelf own.aliases

def unidentifiedAll : List (String × App) → List String
  | [] => []
  | (_, app) :: rest => app.unidentified ++ unidentifiedAll rest

end

end App

namespace Supply

def identify (supply : Supply) (app : App) : App × Supply :=
  let (app, next) := (app.identify supply.mint).run supply.next
  (app, { supply with next })

def issues (supply : Supply) (app : App) : List (String × String) :=
  (app.unidentified.zipIdx supply.next).map fun (reference, n) => (reference, supply.mint n)

end Supply

end AppTopology
