import Switchboard.Json.Printer
import Switchboard.Json.Shape
import Switchboard.RequestId

/-!
Requests to the peer: the setup of the connection, a command, or a transaction of
several commands. A request travels as an object of its identifier and its payload.
-/
namespace Switchboard

/-- What a command asks for. -/
inductive CommandKind where
  | custom
  | ping
  | info
  | get
  | set
deriving DecidableEq

def CommandKind.name : CommandKind → String
  | custom => "customCommand"
  | ping => "ping"
  | info => "info"
  | get => "get"
  | set => "set"

def CommandKind.enumeration : Json.Enumeration CommandKind :=
  ⟨[.custom, .ping, .info, .get, .set], CommandKind.name⟩

structure Command where
  kind : CommandKind
  args : List String
deriving DecidableEq

/-- A node that the peer connects to. -/
structure Address where
  host : String
  port : UInt16
deriving DecidableEq

/-- How the peer is to connect. -/
structure Setup where
  addresses : List Address := []
  useTls : Bool := false
  clusterMode : Bool := false
  database : UInt32 := 0
  clientName : Option String := none
deriving DecidableEq

inductive Payload where
  | connect (setup : Setup)
  | command (command : Command)
  | transaction (commands : List Command)
deriving DecidableEq

/-! Writing -/

def Json.nat (n : Nat) : Json := .number (.int n)

namespace Command

def members (c : Command) : List (String × Json) :=
  [("requestType", .string c.kind.name), ("args", .array (c.args.map .string))]

end Command

namespace Address

def toJson (a : Address) : Json :=
  .object [("host", .string a.host), ("port", Json.nat a.port.toNat)]

end Address

namespace Setup

/-- The name of the client is left out when there is none. -/
def members (s : Setup) : List (String × Json) :=
  [("addresses", .array (s.addresses.map Address.toJson)), ("useTls", .bool s.useTls),
    ("clusterModeEnabled", .bool s.clusterMode), ("databaseId", Json.nat s.database.toNat)] ++
  (match s.clientName with
    | some n => [("clientName", Json.string n)]
    | none => [])

end Setup

namespace Payload

/-- The three kinds of payload. -/
inductive Kind where
  | connect
  | command
  | transaction
deriving DecidableEq

def Kind.name : Kind → String
  | connect => "connect"
  | command => "command"
  | transaction => "transaction"

def Kind.enumeration : Json.Enumeration Kind :=
  ⟨[.connect, .command, .transaction], Kind.name⟩

def kind : Payload → Kind
  | connect _ => .connect
  | command _ => .command
  | transaction _ => .transaction

def members : Payload → List (String × Json)
  | connect s => s.members
  | command c => c.members
  | transaction cs => [("commands", .array (cs.map fun c => .object c.members))]

/-- The kind comes first. -/
def toJson (p : Payload) : Json := .object (("kind", .string p.kind.name) :: p.members)

/-- The request with its identifier. -/
def envelope (id : RequestId) (p : Payload) : Json :=
  .object [("callbackIdx", Json.nat id.val.toNat), ("request", p.toJson)]

end Payload

/-! Reading -/

namespace Command

structure Draft where
  kind : Option CommandKind := none
  args : Option (List String) := none

def record : Json.Record Draft Command where
  name := "Command"
  fields := [
    ⟨"requestType", true, fun d => d.kind.isSome, fun d v => do
      return { d with kind := some (← CommandKind.enumeration.ofJson v) }⟩,
    ⟨"args", true, fun d => d.args.isSome, fun d v => do
      return { d with args := some (← Json.toItems Json.toText v) }⟩]
  blank := {}
  finish d := do return ⟨← Json.need "requestType" d.kind, ← Json.need "args" d.args⟩

end Command

namespace Address

structure Draft where
  host : Option String := none
  port : Option Nat := none

def record : Json.Record Draft Address where
  name := "NodeAddress"
  fields := [
    ⟨"host", true, fun d => d.host.isSome, fun d v => do
      return { d with host := some (← Json.toText v) }⟩,
    ⟨"port", true, fun d => d.port.isSome, fun d v => do
      return { d with port := some (← Json.toNatural UInt16.size "u16" v) }⟩]
  blank := {}
  finish d := do
    return ⟨← Json.need "host" d.host, UInt16.ofNat (← Json.need "port" d.port)⟩

end Address

namespace Setup

structure Draft where
  addresses : Option (List Address) := none
  useTls : Option Bool := none
  clusterMode : Option Bool := none
  database : Option Nat := none
  clientName : Option (Option String) := none

def record : Json.Record Draft Setup where
  name := "ConnectionRequest"
  fields := [
    ⟨"addresses", true, fun d => d.addresses.isSome, fun d v => do
      return { d with addresses := some (← Json.toItems Address.record.ofJson v) }⟩,
    ⟨"useTls", true, fun d => d.useTls.isSome, fun d v => do
      return { d with useTls := some (← Json.toBool v) }⟩,
    ⟨"clusterModeEnabled", true, fun d => d.clusterMode.isSome, fun d v => do
      return { d with clusterMode := some (← Json.toBool v) }⟩,
    ⟨"databaseId", true, fun d => d.database.isSome, fun d v => do
      return { d with database := some (← Json.toNatural UInt32.size "u32" v) }⟩,
    ⟨"clientName", false, fun d => d.clientName.isSome, fun d v => do
      return { d with clientName := some (← Json.toOption Json.toText v) }⟩]
  blank := {}
  finish d := do
    return {
      addresses := ← Json.need "addresses" d.addresses
      useTls := ← Json.need "useTls" d.useTls
      clusterMode := ← Json.need "clusterModeEnabled" d.clusterMode
      database := UInt32.ofNat (← Json.need "databaseId" d.database)
      clientName := d.clientName.join }

end Setup

namespace Payload

structure TransactionDraft where
  commands : Option (List Command) := none

def transactionRecord : Json.Record TransactionDraft (List Command) where
  name := "Transaction"
  fields := [
    ⟨"commands", true, fun d => d.commands.isSome, fun _ v => do
      return { commands := some (← Json.toItems Command.record.ofJson v) }⟩]
  blank := {}
  finish d := Json.need "commands" d.commands

/-- The payload of a kind from its fields. -/
def ofFields (kind : Kind) (fields : Json) : Except Json.Mismatch Payload :=
  match kind with
  | .connect => (Setup.record.ofJson fields).map connect
  | .command => (Command.record.ofJson fields).map command
  | .transaction => (transactionRecord.ofJson fields).map transaction

/-- What is wrong with the text of a payload: a fault of the text, or fields that do not
make a payload of its kind. -/
inductive Trouble where
  | fault (f : Json.Fault)
  | fields (m : Json.Mismatch)
deriving DecidableEq

def Trouble.message (whole : Json.Bytes) : Trouble → String
  | fault f => f.message whole
  | fields m => m.message

/-- The kind and the other members of an object, in reverse. -/
structure Members where
  kind : Option Kind := none
  others : List (String × Json) := []

def readMember (m : Members) (name : String) (s : Json.Bytes) : Json.Result Members :=
  if name = "kind" then
    if m.kind.isSome then
      .error ⟨.mismatch (.duplicateField "kind"), Json.leaveObject s, 0⟩
    else
      Json.next (Json.afterColon s Kind.enumeration.readName) fun k s =>
        .ok ({ m with kind := some k }, s)
  else
    Json.next (Json.afterColon s (Json.readValue (Json.maxDepth - 1))) fun v s =>
      .ok ({ m with others := (name, v) :: m.others }, s)

/-- The kind, which comes first, and the other items of an array, in reverse. -/
structure Items where
  kind : Option Kind := none
  others : List Json := []

def readItem (m : Items) (s : Json.Bytes) : Json.Result Items :=
  if m.kind.isNone then
    Json.next (Kind.enumeration.readName s) fun k s => .ok ({ m with kind := some k }, s)
  else
    Json.next (Json.readValue (Json.maxDepth - 1) s) fun v s =>
      .ok ({ m with others := v :: m.others }, s)

/-- Reads the kind and the fields of a payload. The fields are looked at when all of
them have been read. -/
def readFields (s : Json.Bytes) : Json.Result (Kind × Json) :=
  match Json.skipBlanks s with
  | [] => .error ⟨.endInValue, [], 0⟩
  | 123 :: r =>
    Json.next (Json.readMembers readMember {} r) fun m s =>
      match m.kind with
      | some k => .ok ((k, .object m.others.reverse), s)
      | none => .error ⟨.mismatch (.missingField "kind"), s, 0⟩
  | 91 :: r =>
    Json.next (Json.readItems readItem {} r) fun m s =>
      match m.kind with
      | some k => .ok ((k, .array m.others.reverse), s)
      | none => .error ⟨.mismatch (.missingField "kind"), s, 0⟩
  | r => .error (Json.wrongType "internally tagged enum Payload" r)

/-- Reads a payload and the text after it. -/
def read (s : Json.Bytes) : Except Trouble (Payload × Json.Bytes) :=
  match readFields s with
  | .error f => .error (.fault f)
  | .ok ((k, fields), s) =>
    match ofFields k fields with
    | .ok p => .ok (p, s)
    | .error m => .error (.fields m)

/-- The payload a text stands for. -/
def parse (s : Json.Bytes) : Except Trouble Payload :=
  match read s with
  | .error t => .error t
  | .ok (p, s) =>
    match Json.skipBlanks s with
    | [] => .ok p
    | _ :: r => .error (.fault ⟨.trailingCharacters, r, 0⟩)

end Payload

end Switchboard
