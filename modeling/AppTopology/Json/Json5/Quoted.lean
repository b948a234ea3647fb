import AppTopology.Json.Json5.Number
import AppTopology.Text.Word

/-!
Texts are first read as codes, code points with surrogates among them, so that a continued line may
stand between the halves of a surrogate pair.
-/

namespace AppTopology.Json.Json5

def isLineEnd (c : Char) : Bool :=
  c = '\n' || c = '\r' || c = '\u2028' || c = '\u2029'

def isHigh (code : Nat) : Bool := 0xd800 ≤ code && code < 0xdc00

def isLow (code : Nat) : Bool := 0xdc00 ≤ code && code < 0xe000

/-- The bit that marks the supplementary planes is set and not added, so planes after the first fall
in pairs. -/
def joined (high low : Nat) : Nat := 0x10000 ||| ((high - 0xd800) <<< 10) ||| (low - 0xdc00)

def scalar? (code : Nat) : Option Char :=
  if code.isValidChar then some (Char.ofNat code) else none

def chars? : List Nat → Option (List Char)
  | [] => some []
  | high :: low :: rest =>
    if isHigh high && isLow low then return (← scalar? (joined high low)) :: (← chars? rest)
    else return (← scalar? high) :: (← chars? (low :: rest))
  | [code] => return [← scalar? code]

def textOf? (codes : List Nat) : Option String := String.ofList <$> chars? codes

def hexCode? (count : Nat) (s : List Char) : Option (Nat × List Char) :=
  let digits := s.take count
  if digits.length = count then return (← hexNumber? digits, s.drop count) else none

def escape? : List Char → Option (List Nat × List Char)
  | [] => none
  | '\r' :: '\n' :: rest => some ([], rest)
  | 'x' :: rest => return ([(← hexCode? 2 rest).1], (← hexCode? 2 rest).2)
  | 'u' :: rest => return ([(← hexCode? 4 rest).1], (← hexCode? 4 rest).2)
  | c :: rest =>
    if isLineEnd c then some ([], rest)
    else if c = 'b' then some ([0x08], rest)
    else if c = 'f' then some ([0x0c], rest)
    else if c = 'n' then some ([0x0a], rest)
    else if c = 'r' then some ([0x0d], rest)
    else if c = 't' then some ([0x09], rest)
    else if c = 'v' then some ([0x0b], rest)
    else if c = '0' then some ([0], rest)
    else if c.isDigit then none
    else some ([c.toNat], rest)

def quoted? (quote : Char) : Nat → List Char → Option (List Nat × List Char)
  | 0, _ => none
  | _, [] => none
  | fuel + 1, c :: rest =>
    if c = quote then some ([], rest)
    else if c = '\\' then do
      let (front, rest) ← escape? rest
      let (back, rest) ← quoted? quote fuel rest
      return (front ++ back, rest)
    else if isLineEnd c then none
    else do
      let (back, rest) ← quoted? quote fuel rest
      return (c.toNat :: back, rest)

def string? (quote : Char) (s : List Char) : Option (Option String × List Char) := do
  let (codes, rest) ← quoted? quote (s.length + 1) s
  return (textOf? codes, rest)

def isWordStart (c : Char) : Bool := Text.Word.isLetter c || c = '$' || c = '_'

def isWordRest (c : Char) : Bool := isWordStart c || Text.Word.isFollower c

def word (allowed : Char → Bool) : Nat → List Char → List Nat × List Char
  | 0, s => ([], s)
  | _, [] => ([], [])
  | fuel + 1, c :: s =>
    match c, s with
    | '\\', 'u' :: rest =>
      match hexCode? 4 rest with
      | some (code, rest) =>
        let (codes, rest) := word isWordRest fuel rest
        (code :: codes, rest)
      | none => ([], c :: s)
    | _, _ =>
      if allowed c then
        let (codes, rest) := word isWordRest fuel s
        (c.toNat :: codes, rest)
      else ([], c :: s)

def key? (s : List Char) : Option (Option String × List Char) :=
  match s with
  | '"' :: rest => string? '"' rest
  | '\'' :: rest => string? '\'' rest
  | _ =>
    match word isWordStart s.length s with
    | ([], _) => none
    | (codes, rest) => some (textOf? codes, rest)

end AppTopology.Json.Json5
