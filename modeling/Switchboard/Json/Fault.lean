import Switchboard.Json.Basic
import Switchboard.Text.Quoted

/-!
What is wrong with a JSON text. A mismatch says that a value has the wrong shape. A
fault is a mismatch or an error of syntax together with the part of the text that was
still unread, from which its line and column follow.
-/
namespace Switchboard.Json

abbrev Bytes := List UInt8

/-- What was found in the place of an expected value. -/
inductive Found where
  | null
  | bool (value : Bool)
  | number (value : Number)
  | string (value : String)
  | sequence
  | map
deriving DecidableEq

namespace Found

def text : Found → String
  | null => "null"
  | bool true => "boolean `true`"
  | bool false => "boolean `false`"
  | number (.int i) => "integer `" ++ Number.intText i ++ "`"
  | number (.float b) => "floating point `" ++ Number.floatText b ++ "`"
  | string s => "string " ++ Text.quoted s
  | sequence => "sequence"
  | map => "map"

end Found

def found : Json → Found
  | .null => .null
  | .bool b => .bool b
  | .number n => .number n
  | .string s => .string s
  | .array _ => .sequence
  | .object _ => .map

/-- A well-formed value that is not what the reader asked for. -/
inductive Mismatch where
  | invalidType (found : Found) (expected : String)
  | invalidValue (found : Found) (expected : String)
  | invalidLength (length : Nat) (expected : String)
  | unknownVariant (name : String) (known : List String)
  | missingField (name : String)
  | duplicateField (name : String)
deriving DecidableEq

namespace Mismatch

/-- One or several names to choose from. -/
def choices : List String → String
  | [] => "there are no variants"
  | [a] => "expected `" ++ a ++ "`"
  | [a, b] => "expected `" ++ a ++ "` or `" ++ b ++ "`"
  | names => "expected one of " ++ ", ".intercalate (names.map fun n => "`" ++ n ++ "`")

def message : Mismatch → String
  | invalidType f e => "invalid type: " ++ f.text ++ ", expected " ++ e
  | invalidValue f e => "invalid value: " ++ f.text ++ ", expected " ++ e
  | invalidLength n e => "invalid length " ++ Nat.repr n ++ ", expected " ++ e
  | unknownVariant n known => "unknown variant `" ++ n ++ "`, " ++ choices known
  | missingField n => "missing field `" ++ n ++ "`"
  | duplicateField n => "duplicate field `" ++ n ++ "`"

end Mismatch

inductive Cause where
  | endInValue
  | endInString
  | endInList
  | endInObject
  | expectedValue
  | expectedWord
  | expectedColon
  | expectedCommaOrBracket
  | expectedCommaOrBrace
  | trailingComma
  | trailingCharacters
  | keyNotString
  | invalidNumber
  | numberOutOfRange
  | invalidEscape
  | endOfEscape
  | loneSurrogate
  | controlCharacter
  | invalidCodePoint
  | tooDeep
  | mismatch (m : Mismatch)
deriving DecidableEq

namespace Cause

def message : Cause → String
  | endInValue => "EOF while parsing a value"
  | endInString => "EOF while parsing a string"
  | endInList => "EOF while parsing a list"
  | endInObject => "EOF while parsing an object"
  | expectedValue => "expected value"
  | expectedWord => "expected ident"
  | expectedColon => "expected `:`"
  | expectedCommaOrBracket => "expected `,` or `]`"
  | expectedCommaOrBrace => "expected `,` or `\x7d`"
  | trailingComma => "trailing comma"
  | trailingCharacters => "trailing characters"
  | keyNotString => "key must be a string"
  | invalidNumber => "invalid number"
  | numberOutOfRange => "number out of range"
  | invalidEscape => "invalid escape"
  | endOfEscape => "unexpected end of hex escape"
  | loneSurrogate => "lone leading surrogate in hex escape"
  | controlCharacter =>
    "control character (\\u0000-\\u001F) found while parsing a string"
  | invalidCodePoint => "invalid unicode code point"
  | tooDeep => "recursion limit exceeded"
  | mismatch m => m.message

end Cause

/-- A cause with the unread part of the text. The column is moved back by `back`. -/
structure Fault where
  cause : Cause
  rest : Bytes
  back : Nat := 0
deriving DecidableEq

namespace Fault

/-- A fault at the next byte, which counts as read. -/
def peek (cause : Cause) (s : Bytes) : Fault := ⟨cause, s.drop 1, 0⟩

/-- The line and column after the bytes of `consumed`: lines count from one, columns
count the bytes since the last line break. -/
def position (consumed : Bytes) : Nat × Nat :=
  consumed.foldl
    (fun (place : Nat × Nat) (b : UInt8) =>
      if b = 10 then (place.1 + 1, 0) else (place.1, place.2 + 1))
    (1, 0)

/-- The message with its position in the text `whole`. -/
def message (whole : Bytes) (f : Fault) : String :=
  let (line, column) := position (whole.take (whole.length - f.rest.length))
  f.cause.message ++ " at line " ++ Nat.repr line ++ " column " ++ Nat.repr (column - f.back)

end Fault

/-- What a reader makes of a text: a value and the rest of the text, or a fault. -/
abbrev Result (α : Type) := Except Fault (α × Bytes)

/-- Goes on with a value and the rest of the text. -/
def next {α β : Type} (r : Result α) (k : α → Bytes → Result β) : Result β :=
  match r with
  | .ok (a, s) => k a s
  | .error f => .error f

end Switchboard.Json
