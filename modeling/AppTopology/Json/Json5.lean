import AppTopology.Json.Json5.Quoted

/-!
A text that does not have the form of JSON5 has no value at all; one in which a literal stands for
nothing has a value with an invalid part.
-/

namespace AppTopology.Json.Json5

def isSpace (c : Char) : Bool :=
  isLineEnd c || c = '\t' || c = '\x0b' || c = '\x0c' || c = ' ' || c = '\u00a0' || c = '\ufeff' ||
    c = '\u1680' || ('\u2000' ≤ c && c ≤ '\u200a') || c = '\u202f' || c = '\u205f' || c = '\u3000'

def afterBlock : List Char → Option (List Char)
  | [] => none
  | '*' :: '/' :: rest => some rest
  | _ :: rest => afterBlock rest

def skipWith : Nat → List Char → List Char
  | 0, s => s
  | fuel + 1, s =>
    match s with
    | '/' :: '/' :: rest => skipWith fuel (rest.dropWhile fun c => !isLineEnd c)
    | '/' :: '*' :: rest =>
      match afterBlock rest with
      | some rest => skipWith fuel rest
      | none => s
    | c :: rest => if isSpace c then skipWith fuel rest else s
    | [] => []

def skip (s : List Char) : List Char := skipWith s.length s

def ofText : Option String → Json
  | some s => text s
  | none => invalid

def ofMember (key : Option String) (value : Json) (json : Json) : Json :=
  match key with
  | some key => json.withMember key value
  | none => invalid

mutual

def value? : Nat → List Char → Option (Json × List Char)
  | 0, _ => none
  | fuel + 1, s =>
    match s with
    | '{' :: rest => members? fuel (skip rest)
    | '[' :: rest => do
      let (items, rest) ← items? fuel (skip rest)
      return (array items, rest)
    | '"' :: rest => return (ofText (← string? '"' rest).1, (← string? '"' rest).2)
    | '\'' :: rest => return (ofText (← string? '\'' rest).1, (← string? '\'' rest).2)
    | 'n' :: 'u' :: 'l' :: 'l' :: rest => some (null, rest)
    | 't' :: 'r' :: 'u' :: 'e' :: rest => some (bool true, rest)
    | 'f' :: 'a' :: 'l' :: 's' :: 'e' :: rest => some (bool false, rest)
    | s => number? s

def members? : Nat → List Char → Option (Json × List Char)
  | 0, _ => none
  | _, '}' :: rest => some (object [], rest)
  | fuel + 1, s => do
    let (key, rest) ← key? s
    match skip rest with
    | ':' :: rest =>
      let (value, rest) ← value? fuel (skip rest)
      match skip rest with
      | '}' :: rest => return (ofMember key value (object []), rest)
      | ',' :: rest =>
        let (json, rest) ← members? fuel (skip rest)
        return (ofMember key value json, rest)
      | _ => none
    | _ => none

def items? : Nat → List Char → Option (List Json × List Char)
  | 0, _ => none
  | _, ']' :: rest => some ([], rest)
  | fuel + 1, s => do
    let (item, rest) ← value? fuel s
    match skip rest with
    | ']' :: rest => return ([item], rest)
    | ',' :: rest =>
      let (items, rest) ← items? fuel (skip rest)
      return (item :: items, rest)
    | _ => none

end

def parse? (s : String) : Option Json := do
  let (json, rest) ← value? (2 * s.toList.length + 2) (skip s.toList)
  if skip rest = [] then return json else none

def parseValid? (s : String) : Option Json := (parse? s).filter isValid

end AppTopology.Json.Json5
