import AppTopology.Json

namespace AppTopology.Json

def hexDigit (n : Nat) : Char := (Nat.toDigits 16 n).headD '0'

def escape (c : Char) : List Char :=
  if c = '"' then ['\\', '"']
  else if c = '\\' then ['\\', '\\']
  else if c = '\n' then ['\\', 'n']
  else if c = '\t' then ['\\', 't']
  else if c = '\r' then ['\\', 'r']
  else if c = '\x08' then ['\\', 'b']
  else if c = '\x0c' then ['\\', 'f']
  else if c.toNat < 0x20 then
    ['\\', 'u', '0', '0', hexDigit (c.toNat / 16), hexDigit (c.toNat % 16)]
  else [c]

def quote (s : String) : String := "\"" ++ String.ofList (s.toList.flatMap escape) ++ "\""

def indent (level : Nat) : String := String.ofList (List.replicate (2 * level) ' ')

mutual

def layout (level : Nat) : Json → String
  | null | invalid => "null"
  | bool value => if value then "true" else "false"
  | integer value => toString value
  | decimal digits => digits
  | text value => quote value
  | array [] => "[]"
  | array items =>
    "[\n" ++ ",\n".intercalate (layoutItems (level + 1) items) ++ "\n" ++ indent level ++ "]"
  | object [] => "\x7b\x7d"
  | object members =>
    "\x7b\n" ++ ",\n".intercalate (layoutMembers (level + 1) members) ++ "\n" ++
      indent level ++ "\x7d"

def layoutItems (level : Nat) : List Json → List String
  | [] => []
  | item :: rest => (indent level ++ item.layout level) :: layoutItems level rest

def layoutMembers (level : Nat) : List (String × Json) → List String
  | [] => []
  | (name, value) :: rest =>
    (indent level ++ quote name ++ ": " ++ value.layout level) :: layoutMembers level rest

end

end AppTopology.Json
