import AppTopology.Text.Hidden
import AppTopology.Error

namespace AppTopology

namespace Text

def literalChar (c : Char) : List Char :=
  if c = '\x00' then ['\\', '0']
  else if c = '\t' then ['\\', 't']
  else if c = '\r' then ['\\', 'r']
  else if c = '\n' then ['\\', 'n']
  else if c = '\\' then ['\\', '\\']
  else if c = '"' then ['\\', '"']
  else if Hidden.isHidden c then ['\\', 'u', '{'] ++ Nat.toDigits 16 c.toNat ++ ['}']
  else [c]

def literal (s : String) : String := "\"" ++ String.ofList (s.toList.flatMap literalChar) ++ "\""

end Text

def TopologyError.report (error : TopologyError) : String :=
  match error with
  | cancelled => error.kind.title
  | _ => error.kind.title ++ "(" ++ Text.literal error.message ++ ")"

end AppTopology
