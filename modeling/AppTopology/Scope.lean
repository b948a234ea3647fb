import AppTopology.Text.Cut

/-!
The functions here are total on every text; `Scope.isScope` says which texts are scopes.
-/

namespace AppTopology.Scope

def nameLimit : Nat := 63

def isNameStart (c : Char) : Bool := c.isAlphanum

def isNameRest (c : Char) : Bool := c.isAlphanum || c = '_' || c = '-'

def isName (s : String) : Bool :=
  match s.toList with
  | [] => false
  | c :: rest => isNameStart c && rest.all isNameRest && s.utf8ByteSize ≤ nameLimit

def parts (s : String) : List String := Text.cut '.' s

def join (parts : List String) : String := ".".intercalate parts

def isScope (s : String) : Bool := s = "" || (parts s).all isName

/-- The names on the path that a text describes; empty parts lead nowhere. -/
def names (s : String) : List String := (parts s).filter (· ≠ "")

def depth (s : String) : Nat := (names s).length

def child (scope name : String) : String :=
  if scope = "" then name else scope ++ "." ++ name

def parent (s : String) : String := join (parts s).dropLast

def leaf (s : String) : String := (parts s).getLastD ""

def around : List String → List String
  | [] => [""]
  | [part] => if part = "" then [""] else [part, ""]
  | part :: next :: rest => join (part :: next :: rest).reverse :: around (next :: rest)

def enclosing (s : String) : List String := around (parts s).reverse

def isInner (outer inner : String) : Bool :=
  isScope outer && isScope inner && (outer = "" || (parts outer).isPrefixOf (parts inner))

def display (s : String) : String := if s = "" then "<root>" else s

def displayOption (s : Option String) : String := s.getD "none"

end AppTopology.Scope
