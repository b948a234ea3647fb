import AppTopology.Dict

/-!
A record is read from an object by name, where unknown members are ignored and a repeated one is
refused, or from an array by position. No reader takes an invalid literal, but one that no reader
looks at does no harm.
-/

namespace AppTopology

inductive Json where
  | null
  | bool (value : Bool)
  | integer (value : Int)
  | decimal (text : String)
  | text (value : String)
  | array (items : List Json)
  | object (members : List (String × Json))
  /-- A literal of the right form that stands for no value, such as an integer out of range. -/
  | invalid
  deriving Repr, Inhabited

namespace Json

variable {α : Type}

mutual

def height : Json → Nat
  | array items => heightOfItems items + 1
  | object members => heightOfMembers members + 1
  | _ => 0

def heightOfItems : List Json → Nat
  | [] => 0
  | item :: rest => max item.height (heightOfItems rest)

def heightOfMembers : List (String × Json) → Nat
  | [] => 0
  | (_, value) :: rest => max value.height (heightOfMembers rest)

end

mutual

def isValid : Json → Bool
  | array items => areValid items
  | object members => areValidMembers members
  | invalid => false
  | _ => true

def areValid : List Json → Bool
  | [] => true
  | item :: rest => item.isValid && areValid rest

def areValidMembers : List (String × Json) → Bool
  | [] => true
  | (_, value) :: rest => value.isValid && areValidMembers rest

end

def ofList (f : α → Json) (values : List α) : Json := array (values.map f)

def ofNames (names : List String) : Json := ofList text names

def ofDict (f : α → Json) (d : Dict α) : Json :=
  object (d.entries.map fun (key, value) => (key, f value))

def ofOption (f : α → Json) : Option α → Json
  | none => null
  | some value => f value

def withMember (json : Json) (name : String) (value : Json) : Json :=
  match json with
  | object members => object ((name, value) :: members)
  | json => json

def tag (name value : String) (json : Json) : Json := json.withMember name (text value)

def text? : Json → Option String
  | text value => some value
  | _ => none

def case? : Json → Option String
  | text name => some name
  | object [(name, null)] => some name
  | _ => none

def bool? : Json → Option Bool
  | bool value => some value
  | _ => none

def uint32? : Json → Option UInt32
  | integer value =>
    if 0 ≤ value ∧ value < 0x100000000 then some (UInt32.ofNat value.toNat) else none
  | _ => none

def list? (read : Json → Option α) : Json → Option (List α)
  | array items => items.mapM read
  | _ => none

def names? : Json → Option (List String) := list? text?

def dict? (read : Json → Option α) : Json → Option (Dict α)
  | object members => do
    let entries ← members.mapM fun (key, value) => return (key, ← read value)
    return Dict.ofList entries
  | _ => none

def nullable? (read : Json → Option α) : Json → Option (Option α)
  | null => some none
  | json => some <$> read json

abbrev Record : Type := List (String × Json)

/-- The fields of a record; an array must have at least the first `needed` of them. -/
def record? (fields : List String) (needed : Nat) : Json → Option Record
  | object members =>
    let known := members.filter (·.1 ∈ fields)
    if (known.map Prod.fst).Nodup then some known else none
  | array items =>
    if needed ≤ items.length ∧ items.length ≤ fields.length then some (fields.zip items) else none
  | _ => none

def closedRecord? (fields : List String) (needed : Nat) (json : Json) : Option Record :=
  match json with
  | object members =>
    if members.all (·.1 ∈ fields) then json.record? fields needed else none
  | array items => if needed ≤ items.length then some (fields.zip items) else none
  | _ => none

def tagged? (name : String) : Json → Option (String × Json)
  | object members =>
    match members.filter (·.1 = name) with
    | [(_, text value)] => some (value, object (members.filter (·.1 ≠ name)))
    | _ => none
  | array (text value :: items) => some (value, array items)
  | _ => none

namespace Record

def field (record : Record) (name : String) (absent : α) (read : Json → Option α) : Option α :=
  match record.lookup name with
  | none => some absent
  | some json => read json

def required (record : Record) (name : String) (read : Json → Option α) : Option α :=
  record.lookup name >>= read

end Record

end Json

end AppTopology
