namespace Downhill.Json

/-- The digits of a control character in an escape, lower case. -/
def hexDigit (n : Nat) : Char :=
  if n < 10 then Char.ofNat ('0'.toNat + n) else Char.ofNat ('a'.toNat + (n - 10))

/-- A character inside quotes. Quotes, backslashes and control characters are escaped, the five
control characters with a letter of their own by that letter. -/
def escape (c : Char) : List Char :=
  if c = '"' then ['\\', '"']
  else if c = '\\' then ['\\', '\\']
  else if c = '\x08' then ['\\', 'b']
  else if c = '\x0c' then ['\\', 'f']
  else if c = '\n' then ['\\', 'n']
  else if c = '\r' then ['\\', 'r']
  else if c = '\t' then ['\\', 't']
  else if c.toNat < 32 then ['\\', 'u', '0', '0', hexDigit (c.toNat / 16), hexDigit (c.toNat % 16)]
  else [c]

def quote (s : String) : String :=
  String.ofList ('"' :: s.toList.flatMap escape ++ ['"'])

/-- Written items on one line. -/
def compactList (items : List String) : String :=
  "[" ++ ",".intercalate items ++ "]"

/-- Named items on one line. -/
def compactObject (members : List (String × String)) : String :=
  "\x7b" ++ ",".intercalate (members.map fun m => quote m.1 ++ ":" ++ m.2) ++ "\x7d"

/-- Named items, one a line. -/
def prettyObject (members : List (String × String)) : String :=
  if members.isEmpty then "\x7b\x7d"
  else
    "\x7b\n" ++ ",\n".intercalate (members.map fun m => "  " ++ quote m.1 ++ ": " ++ m.2) ++ "\n\x7d"

end Downhill.Json
