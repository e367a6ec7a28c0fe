import Switchboard.Text.Printable

/-!
A text between double quotes, as messages show it. Quotes, backslashes, line breaks,
tabs and the null character are escaped by a letter, other characters that cannot be
shown by their number.
-/
namespace Switchboard.Text

/-- The number of a character in braces. -/
def byNumber (c : Char) : List Char :=
  '\\' :: 'u' :: '{' :: (Nat.toDigits 16 c.toNat ++ ['}'])

def shown (c : Char) : List Char :=
  if c = '"' then ['\\', '"']
  else if c = '\\' then ['\\', '\\']
  else if c = '\n' then ['\\', 'n']
  else if c = '\r' then ['\\', 'r']
  else if c = '\t' then ['\\', 't']
  else if c.toNat = 0 then ['\\', '0']
  else if isPrintable c then [c]
  else byNumber c

def quoted (s : String) : String :=
  String.ofList ('"' :: (s.toList.flatMap shown ++ ['"']))

end Switchboard.Text
