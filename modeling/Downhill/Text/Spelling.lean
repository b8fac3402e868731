import Downhill.Text.Combining
import Downhill.Text.Invisible
import Downhill.Text.Unassigned

namespace Downhill.Spelling

/-- Whether a character has a shape and a place of its own. -/
def isPlain (c : Char) : Bool :=
  !(CharSet.invisible.contains c || CharSet.combining.contains c || CharSet.unassigned.contains c)

/-- A character as its number in hexadecimal digits, lower case and without leading zeros. -/
def byNumber (c : Char) : List Char :=
  '\\' :: 'u' :: '\x7b' :: Nat.toDigits 16 c.toNat ++ ['\x7d']

/-- A character of a quoted word. The quote, the backslash and four controls have an escape of their
own; of the others the plain ones stand for themselves. -/
def spell (c : Char) : List Char :=
  if c = '"' then ['\\', '"']
  else if c = '\\' then ['\\', '\\']
  else if c = '\n' then ['\\', 'n']
  else if c = '\r' then ['\\', 'r']
  else if c = '\t' then ['\\', 't']
  else if c.toNat = 0 then ['\\', '0']
  else if isPlain c then [c]
  else byNumber c

def quote (word : String) : String :=
  String.ofList ('"' :: word.toList.flatMap spell ++ ['"'])

end Downhill.Spelling
