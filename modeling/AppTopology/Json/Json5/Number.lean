import AppTopology.Json

/-!
An integer must fit 64 bits, or 32 and no sign in hexadecimal; a decimal number must round to a
finite double. What fails this is a literal all the same, but an invalid one.
-/

namespace AppTopology.Json.Json5

def hexValue? (c : Char) : Option Nat :=
  if c.isDigit then some (c.toNat - '0'.toNat)
  else if 'a' ≤ c ∧ c ≤ 'f' then some (c.toNat - 'a'.toNat + 10)
  else if 'A' ≤ c ∧ c ≤ 'F' then some (c.toNat - 'A'.toNat + 10)
  else none

def isHexDigit (c : Char) : Bool := (hexValue? c).isSome

def hexNumber? (digits : List Char) : Option Nat :=
  digits.foldlM (fun n c => return n * 16 + (← hexValue? c)) 0

def decimalNumber (digits : List Char) : Nat :=
  digits.foldl (fun n c => n * 10 + (c.toNat - '0'.toNat)) 0

/-- Half way from the last double to the next power of two; from here on nothing is finite. -/
def doubleLimit : Nat := Nat.pow 2 1024 - Nat.pow 2 970

/-- Digits times a power of ten, compared with the limit by their number first. -/
def isTooLarge (digits : List Char) (power : Int) : Bool :=
  match digits.dropWhile (· = '0') with
  | [] => false
  | digits =>
    let order := digits.length + power
    order > 309 || order = 309 &&
      doubleLimit * Nat.pow 10 (-power).toNat ≤ decimalNumber digits * Nat.pow 10 power.toNat

def exponent : List Char → List Char × List Char
  | e :: s =>
    if e = 'e' ∨ e = 'E' then
      let (sign, rest) := match s with
        | '+' :: rest => (['+'], rest)
        | '-' :: rest => (['-'], rest)
        | rest => ([], rest)
      match rest.takeWhile Char.isDigit with
      | [] => ([], e :: s)
      | digits => (e :: sign ++ digits, rest.dropWhile Char.isDigit)
    else ([], e :: s)
  | [] => ([], [])

def powerOf : List Char → Int
  | _ :: '-' :: digits => -decimalNumber digits
  | _ :: '+' :: digits => decimalNumber digits
  | _ :: digits => decimalNumber digits
  | [] => 0

def integerOf (sign : Option Char) (digits : List Char) : Json :=
  let n : Int := decimalNumber digits
  let value := if sign = some '-' then -n else n
  if -0x8000000000000000 ≤ value ∧ value < 0x8000000000000000 then integer value else invalid

def hexOf (sign : Option Char) (digits : List Char) : Json :=
  match sign, hexNumber? digits with
  | none, some n => if n < 0x100000000 then integer n else invalid
  | _, _ => invalid

def decimalOf (sign : Option Char) (whole fraction power : List Char) : Json :=
  if isTooLarge (whole ++ fraction) (powerOf power - fraction.length) then invalid
  else
    let point := if fraction = [] then [] else '.' :: fraction
    decimal (String.ofList (sign.toList ++ whole ++ point ++ power))

def namedOf (sign : Option Char) (name : String) : Json :=
  match sign with
  | none => decimal name
  | some '-' => decimal ("-" ++ name)
  | some _ => invalid

def magnitude? (sign : Option Char) (s : List Char) : Option (Json × List Char) :=
  let whole := match s with
    | '0' :: _ => ['0']
    | _ => s.takeWhile Char.isDigit
  match s, s.drop whole.length with
  | 'I' :: 'n' :: 'f' :: 'i' :: 'n' :: 'i' :: 't' :: 'y' :: rest, _ =>
    some (namedOf sign "Infinity", rest)
  | 'N' :: 'a' :: 'N' :: rest, _ => some (namedOf sign "NaN", rest)
  | _, '.' :: rest =>
    let fraction := rest.takeWhile Char.isDigit
    if whole = [] ∧ fraction = [] then none
    else
      let (power, rest) := exponent (rest.dropWhile Char.isDigit)
      some (decimalOf sign whole fraction power, rest)
  | _, rest =>
    let digits := (rest.drop 1).takeWhile isHexDigit
    if whole = [] then none
    else if whole = ['0'] ∧ (rest.head? = some 'x' ∨ rest.head? = some 'X') ∧ digits ≠ [] then
      some (hexOf sign digits, (rest.drop 1).dropWhile isHexDigit)
    else match exponent rest with
      | ([], rest) => some (integerOf sign whole, rest)
      | (power, rest) => some (decimalOf sign whole [] power, rest)

def number? : List Char → Option (Json × List Char)
  | '-' :: rest => magnitude? (some '-') rest
  | '+' :: rest => magnitude? (some '+') rest
  | s => magnitude? none s

end AppTopology.Json.Json5
