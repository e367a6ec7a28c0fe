import Switchboard.Json.Skip
import Switchboard.Message.Request

/-!
The text of a single node address, read straight off: an object with a host and a port,
in which other members are passed over, or an array of the two.
-/
namespace Switchboard.Address

def readHost (d : Draft) (s : Json.Bytes) : Json.Result Draft :=
  Json.next (Json.readText "a string" s) fun h s => .ok ({ d with host := some h }, s)

def readPort (d : Draft) (s : Json.Bytes) : Json.Result Draft :=
  Json.next (Json.readNatural UInt16.size "u16" s) fun p s => .ok ({ d with port := some p }, s)

/-- A second value for a field that has one. -/
def repeated {α : Type} (name : String) (s : Json.Bytes) : Json.Result α :=
  .error ⟨.mismatch (.duplicateField name), Json.leaveObject s, 0⟩

def readMember (d : Draft) (name : String) (s : Json.Bytes) : Json.Result Draft :=
  if name = "host" then
    if d.host.isSome then repeated name s else Json.afterColon s (readHost d)
  else if name = "port" then
    if d.port.isSome then repeated name s else Json.afterColon s (readPort d)
  else Json.afterColon s fun s => (Json.skipValue s).map fun s => (d, s)

/-- An array that ends after `n` items. -/
def tooShort {α : Type} (n : Nat) (s : Json.Bytes) : Json.Result α :=
  .error ⟨.mismatch (.invalidLength n "struct NodeAddress with 2 elements"), Json.leaveArray s, 0⟩

/-- Reads the closing bracket. -/
def readEnd (d : Draft) (s : Json.Bytes) : Json.Result Draft :=
  match Json.skipBlanks s with
  | [] => .error ⟨.endInList, [], 0⟩
  | 93 :: r => .ok (d, r)
  | 44 :: r =>
    match Json.skipBlanks r with
    | 93 :: r => .error ⟨.trailingComma, r, 0⟩
    | r => .error (.peek .trailingCharacters r)
  | r => .error (.peek .trailingCharacters r)

/-- Reads the second item and the closing bracket. -/
def readSecond (d : Draft) (s : Json.Bytes) : Json.Result Draft :=
  match Json.skipBlanks s with
  | [] => .error ⟨.endInList, [], 0⟩
  | 93 :: r => tooShort 1 (93 :: r)
  | 44 :: r =>
    match Json.skipBlanks r with
    | [] => .error ⟨.endInValue, [], 0⟩
    | 93 :: r => .error ⟨.trailingComma, r, 0⟩
    | r => Json.next (readPort d r) readEnd
  | r => .error (.peek .expectedCommaOrBracket r)

/-- Reads the two items and the closing bracket. -/
def readPair (s : Json.Bytes) : Json.Result Draft :=
  match Json.skipBlanks s with
  | [] => .error ⟨.endInList, [], 0⟩
  | 93 :: r => tooShort 0 (93 :: r)
  | r => Json.next (readHost {} r) readSecond

/-- The address that has been put together when the text `s` is left. -/
def complete (d : Draft) (s : Json.Bytes) : Json.Result Address :=
  match record.finish d with
  | .ok a => .ok (a, s)
  | .error m => .error ⟨.mismatch m, s, 0⟩

def read (s : Json.Bytes) : Json.Result Address :=
  match Json.skipBlanks s with
  | [] => .error ⟨.endInValue, [], 0⟩
  | 123 :: r => Json.next (Json.readMembers readMember {} r) complete
  | 91 :: r => Json.next (readPair r) complete
  | r => .error (Json.wrongType "struct NodeAddress" r)

end Switchboard.Address
