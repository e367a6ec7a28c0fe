import Switchboard.Failure
import Switchboard.Json.Printer
import Switchboard.Json.Shape

/-!
Answers of the peer. An answer is an object that holds the identifier of the request and
the members of a body. The body is looked at when the whole object has been read.
-/
namespace Switchboard

/-- The success value of a request. -/
inductive Reply where
  | ok
  | nil
  | value (v : Json)

namespace Reply

def isOk : Reply → Bool
  | ok => true
  | _ => false

def isNil : Reply → Bool
  | nil => true
  | _ => false

/-- The characters of a value that is a string. -/
def asString? : Reply → Option String
  | value v => v.asString?
  | _ => none

/-- The reply as a value. -/
def toJson : Reply → Json
  | ok => .string "OK"
  | nil => .null
  | value v => v

end Reply

/-- How a request ended. -/
abbrev Outcome := Except Failure Reply

inductive Body where
  | ok
  | nil
  | value (v : Json)
  | requestError (kind : ErrorKind) (message : String)
  | closingError (message : String)

namespace ErrorKind

/-- The name in a message. -/
def name : ErrorKind → String
  | unspecified => "unspecified"
  | execAbort => "execAbort"
  | timeout => "timeout"
  | disconnect => "disconnect"

def enumeration : Json.Enumeration ErrorKind :=
  ⟨[.unspecified, .execAbort, .timeout, .disconnect], name⟩

end ErrorKind

namespace Body

/-- The kinds of body, in the order of their indices. -/
inductive Kind where
  | ok
  | nil
  | value
  | requestError
  | closingError
deriving DecidableEq

def Kind.name : Kind → String
  | ok => "ok"
  | nil => "nil"
  | value => "value"
  | requestError => "requestError"
  | closingError => "closingError"

def Kind.enumeration : Json.Enumeration Kind :=
  ⟨[.ok, .nil, .value, .requestError, .closingError], Kind.name⟩

def kind : Body → Kind
  | ok => .ok
  | nil => .nil
  | value _ => .value
  | requestError _ _ => .requestError
  | closingError _ => .closingError

/-- What the body means for the request. -/
def outcome : Body → Outcome
  | ok => .ok .ok
  | nil => .ok .nil
  | value v => .ok (.value v)
  | requestError k m => .error (.request k m)
  | closingError m => .error (.closing m)

def members : Body → List (String × Json)
  | ok => []
  | nil => []
  | value v => [("value", v)]
  | requestError k m => [("kind", .string k.name), ("message", .string m)]
  | closingError m => [("message", .string m)]

structure ValueDraft where
  value : Option Json := none

/-- The value is brought to its canonical form. -/
def valueRecord : Json.Record ValueDraft Body where
  name := "value"
  fields := [
    ⟨"value", true, fun d => d.value.isSome, fun _ v => return { value := some v.canonical }⟩]
  blank := {}
  finish d := do return value (← Json.need "value" d.value)

structure ErrorDraft where
  kind : Option ErrorKind := none
  message : Option String := none

def kindField : Json.Field ErrorDraft :=
  ⟨"kind", false, fun d => d.kind.isSome, fun d v => do
    return { d with kind := some (← ErrorKind.enumeration.ofJson v) }⟩

def messageField : Json.Field ErrorDraft :=
  ⟨"message", true, fun d => d.message.isSome, fun d v => do
    return { d with message := some (← Json.toText v) }⟩

/-- A request error without a kind is unspecified. -/
def requestErrorRecord : Json.Record ErrorDraft Body where
  name := "requestError"
  fields := [kindField, messageField]
  blank := {}
  finish d := do
    return requestError (d.kind.getD .unspecified) (← Json.need "message" d.message)

def closingErrorRecord : Json.Record ErrorDraft Body where
  name := "closingError"
  fields := [messageField]
  blank := {}
  finish d := do return closingError (← Json.need "message" d.message)

/-- The kind of a body among the members, and the members left. -/
def splitKind : Option Kind → List (String × Json) → List (String × Json) →
    Except Json.Mismatch (Kind × List (String × Json))
  | none, _, [] => .error (.missingField "type")
  | some k, others, [] => .ok (k, others.reverse)
  | k, others, (name, v) :: rest =>
    if name = "type" then
      if k.isSome then .error (.duplicateField "type")
      else
        match Kind.enumeration.ofNameOrIndex v with
        | .ok k => splitKind (some k) others rest
        | .error m => .error m
    else splitKind k ((name, v) :: others) rest

/-- The body that the members of an object make up. -/
def ofMembers (members : List (String × Json)) : Except Json.Mismatch Body := do
  let (k, members) ← splitKind none [] members
  match k with
  | .ok => return ok
  | .nil => return nil
  | .value => valueRecord.ofJson (.object members)
  | .requestError => requestErrorRecord.ofJson (.object members)
  | .closingError => closingErrorRecord.ofJson (.object members)

end Body

structure Response where
  id : RequestId
  body : Body

namespace Response

def toJson (r : Response) : Json :=
  .object (("callbackIdx", .number (.int r.id.val.toNat)) ::
    ("type", .string r.body.kind.name) :: r.body.members)

/-- The identifier and the other members of an object, in reverse. -/
structure Members where
  id : Option RequestId := none
  others : List (String × Json) := []

def readMember (m : Members) (name : String) (s : Json.Bytes) : Json.Result Members :=
  if name = "callbackIdx" then
    if m.id.isSome then
      .error ⟨.mismatch (.duplicateField "callbackIdx"), Json.leaveObject s, 0⟩
    else
      Json.next (Json.afterColon s (Json.readNatural UInt32.size "u32")) fun n s =>
        .ok ({ m with id := some ⟨UInt32.ofNat n⟩ }, s)
  else
    Json.next (Json.afterColon s (Json.readValue (Json.maxDepth - 1))) fun v s =>
      .ok ({ m with others := (name, v) :: m.others }, s)

/-- Reads an answer. The body is complained about at the end of the object. -/
def read (s : Json.Bytes) : Json.Result Response :=
  match Json.skipBlanks s with
  | [] => .error ⟨.endInValue, [], 0⟩
  | 123 :: r =>
    Json.next (Json.readMembers readMember {} r) fun m s =>
      match m.id with
      | none => .error ⟨.mismatch (.missingField "callbackIdx"), s, 0⟩
      | some id =>
        match Body.ofMembers m.others.reverse with
        | .ok body => .ok (⟨id, body⟩, s)
        | .error e => .error ⟨.mismatch e, s, 0⟩
  | r => .error (Json.wrongType "struct Response" r)

/-- The answer a text stands for. -/
def parse (s : Json.Bytes) : Except Json.Fault Response := Json.readAll read s

end Response

end Switchboard
