import Downhill.Json.Value

namespace Downhill.Json

def isBlank (c : Char) : Bool :=
  c = ' ' || c = '\t' || c = '\n' || c = '\r'

def skipBlanks (cs : List Char) : List Char :=
  cs.dropWhile isBlank

/-- A run of at least one digit, as the values of the digits. -/
def digitRun (cs : List Char) : Option (List Nat × List Char) :=
  match cs.takeWhile Char.isDigit with
  | [] => none
  | ds => some (ds.map fun d => d.toNat - '0'.toNat, cs.dropWhile Char.isDigit)

/-- Digits in front of the point: a zero stands alone. -/
def wholeDigits (cs : List Char) : Option (List Nat × List Char) :=
  match digitRun cs with
  | some (0 :: _ :: _, _) => none
  | run => run

/-- Digits behind a point, none where there is no point. -/
def fractionDigits : List Char → Option (List Nat × List Char)
  | '.' :: cs => digitRun cs
  | cs => some ([], cs)

/-- The digits of an exponent behind its optional sign. -/
def signedDigits : List Char → Option (Int × List Char)
  | '-' :: cs => (digitRun cs).map fun (ds, rest) => (-(digitsValue ds : Int), rest)
  | '+' :: cs => (digitRun cs).map fun (ds, rest) => ((digitsValue ds : Int), rest)
  | cs => (digitRun cs).map fun (ds, rest) => ((digitsValue ds : Int), rest)

/-- An exponent, nothing where no exponent is written. -/
def exponentPart : List Char → Option (Option Int × List Char)
  | 'e' :: cs => (signedDigits cs).map fun (e, rest) => (some e, rest)
  | 'E' :: cs => (signedDigits cs).map fun (e, rest) => (some e, rest)
  | cs => some (none, cs)

/-- A number behind its sign. -/
def unsignedNumeral (negative : Bool) (cs : List Char) : Option (Numeral × List Char) := do
  let (front, cs) ← wholeDigits cs
  let (back, cs) ← fractionDigits cs
  let (power, cs) ← exponentPart cs
  return (⟨negative, front, back, power⟩, cs)

def numeral : List Char → Option (Numeral × List Char)
  | '-' :: cs => unsignedNumeral true cs
  | cs => unsignedNumeral false cs

/-- The value of a hexadecimal digit of either case. -/
def hexValue (c : Char) : Option Nat :=
  if c.isDigit then some (c.toNat - '0'.toNat)
  else if 'a' ≤ c ∧ c ≤ 'f' then some (c.toNat - 'a'.toNat + 10)
  else if 'A' ≤ c ∧ c ≤ 'F' then some (c.toNat - 'A'.toNat + 10)
  else none

/-- The value of four hexadecimal digits. -/
def unit (a b c d : Char) : Option Nat := do
  return 4096 * (← hexValue a) + 256 * (← hexValue b) + 16 * (← hexValue c) + (← hexValue d)

/-- The character that a letter stands for behind a backslash. -/
def unescape (c : Char) : Option Char :=
  if c = '"' then some '"'
  else if c = '\\' then some '\\'
  else if c = '/' then some '/'
  else if c = 'b' then some '\x08'
  else if c = 'f' then some '\x0c'
  else if c = 'n' then some '\n'
  else if c = 'r' then some '\r'
  else if c = 't' then some '\t'
  else none

/-- The character of a pair of units, the first from the upper and the second from the lower half. -/
def paired (high low : Nat) : Option Char :=
  if 0xDC00 ≤ low ∧ low < 0xE000 then
    some (Char.ofNat (0x10000 + 0x400 * (high - 0xD800) + (low - 0xDC00)))
  else none

/-- The characters up to the closing quote. -/
def quoted : List Char → Option (List Char × List Char)
  | [] => none
  | '"' :: rest => some ([], rest)
  | '\\' :: 'u' :: a :: b :: c :: d :: rest => do
    let high ← unit a b c d
    if 0xD800 ≤ high ∧ high < 0xDC00 then
      match rest with
      | '\\' :: 'u' :: e :: f :: g :: h :: rest =>
        let joined ← paired high (← unit e f g h)
        let (chars, rest) ← quoted rest
        return (joined :: chars, rest)
      | _ => none
    else if 0xDC00 ≤ high ∧ high < 0xE000 then none
    else
      let (chars, rest) ← quoted rest
      return (Char.ofNat high :: chars, rest)
  | '\\' :: c :: rest => do
    let named ← unescape c
    let (chars, rest) ← quoted rest
    return (named :: chars, rest)
  | c :: rest => do
    if c.toNat < 32 then none
    let (chars, rest) ← quoted rest
    return (c :: chars, rest)

/-- A name at the front of the text. -/
def keyword (word : List Char) (value : Json) (cs : List Char) : Option (Json × List Char) :=
  if word.isPrefixOf cs then some (value, cs.drop word.length) else none

mutual

/-- A document in front of the text. Every step down or along takes a character at least, so fuel
for the length of the text is enough. -/
def value : Nat → List Char → Option (Json × List Char)
  | 0, _ => none
  | fuel + 1, cs =>
    match skipBlanks cs with
    | 'n' :: rest => keyword "null".toList .null ('n' :: rest)
    | 't' :: rest => keyword "true".toList (.bool true) ('t' :: rest)
    | 'f' :: rest => keyword "false".toList (.bool false) ('f' :: rest)
    | '"' :: rest => (quoted rest).map fun (chars, rest) => (.text (String.ofList chars), rest)
    | '[' :: rest =>
      match skipBlanks rest with
      | ']' :: rest => some (.list [], rest)
      | rest => (items fuel rest).map fun (found, rest) => (.list found, rest)
    | '\x7b' :: rest =>
      match skipBlanks rest with
      | '\x7d' :: rest => some (.object [], rest)
      | rest => (members fuel rest).map fun (found, rest) => (.object found, rest)
    | rest => (numeral rest).map fun (found, rest) => (.number found, rest)

/-- The items of a list that has at least one, up to its closing bracket. -/
def items : Nat → List Char → Option (List Json × List Char)
  | 0, _ => none
  | fuel + 1, cs => do
    let (item, rest) ← value fuel cs
    match skipBlanks rest with
    | ',' :: rest =>
      let (others, rest) ← items fuel rest
      return (item :: others, rest)
    | ']' :: rest => return ([item], rest)
    | _ => none

/-- The members of an object that has at least one, up to its closing brace. -/
def members : Nat → List Char → Option (List (String × Json) × List Char)
  | 0, _ => none
  | fuel + 1, cs => do
    match skipBlanks cs with
    | '"' :: rest =>
      let (name, rest) ← quoted rest
      match skipBlanks rest with
      | ':' :: rest =>
        let (item, rest) ← value fuel rest
        match skipBlanks rest with
        | ',' :: rest =>
          let (others, rest) ← members fuel rest
          return ((String.ofList name, item) :: others, rest)
        | '\x7d' :: rest => return ([(String.ofList name, item)], rest)
        | _ => none
      | _ => none
    | _ => none

end

/-- The document that a text is, with nothing but blanks around it. -/
def read (text : String) : Option Json := do
  let cs := text.toList
  let (found, rest) ← value (2 * cs.length + 2) cs
  if (skipBlanks rest).isEmpty then return found
  none

end Downhill.Json
