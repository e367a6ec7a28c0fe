import Switchboard.Json.Basic

/-!
Compact JSON text. Members are written in the order of the list; a canonical value is
therefore written with sorted names. In strings only the quote, the backslash and the
control characters below the blank are escaped.
-/
namespace Switchboard.Json

def hexDigit (n : Nat) : Char :=
  if n < 10 then Char.ofNat (48 + n) else Char.ofNat (87 + n)

/-- One character of a string value as it is written. -/
def escape (c : Char) : List Char :=
  if c = '"' then ['\\', '"']
  else if c = '\\' then ['\\', '\\']
  else if c.toNat = 8 then ['\\', 'b']
  else if c.toNat = 9 then ['\\', 't']
  else if c.toNat = 10 then ['\\', 'n']
  else if c.toNat = 12 then ['\\', 'f']
  else if c.toNat = 13 then ['\\', 'r']
  else if c.toNat < 32 then
    ['\\', 'u', '0', '0', hexDigit (c.toNat / 16), hexDigit (c.toNat % 16)]
  else [c]

def quoted (s : String) : List Char := '"' :: (s.toList.flatMap escape ++ ['"'])

mutual

def chars : Json → List Char
  | null => "null".toList
  | bool true => "true".toList
  | bool false => "false".toList
  | number n => n.text.toList
  | string s => quoted s
  | array items => '[' :: (charsItems items ++ [']'])
  | object members => '{' :: (charsMembers members ++ ['}'])

/-- Items with commas between them. -/
def charsItems : List Json → List Char
  | [] => []
  | v :: rest => chars v ++ charsMoreItems rest

/-- Items with a comma before each. -/
def charsMoreItems : List Json → List Char
  | [] => []
  | v :: rest => ',' :: (chars v ++ charsMoreItems rest)

def charsMembers : List (String × Json) → List Char
  | [] => []
  | (n, v) :: rest => quoted n ++ ':' :: (chars v ++ charsMoreMembers rest)

def charsMoreMembers : List (String × Json) → List Char
  | [] => []
  | (n, v) :: rest => ',' :: (quoted n ++ ':' :: (chars v ++ charsMoreMembers rest))

end

def text (v : Json) : String := String.ofList (chars v)

end Switchboard.Json
