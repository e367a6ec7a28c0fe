import Switchboard.Json.Reader

/-!
Taking JSON values apart. A value that has been read already is asked for a string, a
number, a list, a choice among names, or a record with named fields. A record may also
be given as the list of its fields in their order.
-/
namespace Switchboard.Json

def toText : Json → Except Mismatch String
  | .string s => .ok s
  | v => .error (.invalidType v.found "a string")

def toBool : Json → Except Mismatch Bool
  | .bool b => .ok b
  | v => .error (.invalidType v.found "a boolean")

def toNatural (limit : Nat) (expected : String) : Json → Except Mismatch Nat
  | .number n => natural limit expected n
  | v => .error (.invalidType v.found expected)

def toItems {α : Type} (item : Json → Except Mismatch α) : Json → Except Mismatch (List α)
  | .array items => items.mapM item
  | v => .error (.invalidType v.found "a sequence")

/-- Null stands for an absent value. -/
def toOption {α : Type} (item : Json → Except Mismatch α) : Json → Except Mismatch (Option α)
  | .null => .ok none
  | v => (item v).map some

/-- Nothing, written as null or as an empty object. -/
def toUnit : Json → Except Mismatch Unit
  | .null => .ok ()
  | .object [] => .ok ()
  | v => .error (.invalidType v.found "unit")

/-- Reads null. -/
def readNull (s : Bytes) : Result Unit :=
  match skipBlanks s with
  | [] => .error ⟨.endInValue, [], 0⟩
  | 110 :: r => (readWord [117, 108, 108] r).map fun s => ((), s)
  | r => .error (wrongType "unit" r)

/-- A choice among values that are told apart by name. -/
structure Enumeration (α : Type) where
  cases : List α
  name : α → String

namespace Enumeration

variable {α : Type}

def names (e : Enumeration α) : List String := e.cases.map e.name

def ofName (e : Enumeration α) (s : String) : Except Mismatch α :=
  match e.cases.find? fun c => e.name c = s with
  | some c => .ok c
  | none => .error (.unknownVariant s e.names)

/-- A name, or an object that has the name as its only member, with nothing in it. -/
def ofJson (e : Enumeration α) : Json → Except Mismatch α
  | .string s => e.ofName s
  | .object [(s, v)] => do
    let c ← e.ofName s
    toUnit v
    return c
  | .object _ => .error (.invalidValue .map "map with a single key")
  | v => .error (.invalidType v.found "string or map")

/-- A name, or the index of a case. -/
def ofNameOrIndex (e : Enumeration α) : Json → Except Mismatch α
  | .string s => e.ofName s
  | .number (.int i) =>
    if 0 ≤ i then
      match e.cases[i.toNat]? with
      | some c => .ok c
      | none =>
        .error (.invalidValue (.number (.int i))
          ("variant index 0 <= i < " ++ Nat.repr e.cases.length))
    else .error (.invalidType (.number (.int i)) "variant identifier")
  | v => .error (.invalidType v.found "variant identifier")

/-- Reads the name of a case off the text. -/
def readName (e : Enumeration α) (s : Bytes) : Result α :=
  next (readText "variant identifier" s) fun name s =>
    match e.ofName name with
    | .ok c => .ok (c, s)
    | .error m => .error ⟨.mismatch m, s, 0⟩

/-- Reads a case off the text: its name, or an object with the name and null. -/
def read (e : Enumeration α) (s : Bytes) : Result α :=
  match skipBlanks s with
  | [] => .error ⟨.endInValue, [], 0⟩
  | 34 :: r => e.readName (34 :: r)
  | 123 :: r =>
    next (e.readName r) fun c s =>
      next (afterColon s readNull) fun _ s =>
        match skipBlanks s with
        | 125 :: r => .ok (c, r)
        | [] => .error ⟨.endInObject, [], 0⟩
        | r => .error ⟨.expectedValue, r, 0⟩
  | _ :: r => .error ⟨.expectedValue, r, 0⟩

end Enumeration

/-- A field of a record in the making. -/
structure Field (δ : Type) where
  name : String
  required : Bool
  /-- Whether the field has its value already. -/
  filled : δ → Bool
  fill : δ → Json → Except Mismatch δ

/-- How a record is put together from its fields. -/
structure Record (δ α : Type) where
  name : String
  fields : List (Field δ)
  blank : δ
  finish : δ → Except Mismatch α

namespace Record

variable {δ α : Type}

/-- A number of elements. -/
def elements (n : Nat) : String := if n = 1 then "1 element" else Nat.repr n ++ " elements"

/-- One member of an object; members without a field are passed over. -/
def fillMember (r : Record δ α) (d : δ) (member : String × Json) : Except Mismatch δ :=
  match r.fields.find? fun f => f.name = member.1 with
  | none => .ok d
  | some f =>
    if f.filled d then .error (.duplicateField f.name) else f.fill d member.2

/-- Fills the fields in order, starting with the field of index `i`. -/
def fillItems (r : Record δ α) : List (Field δ) → Nat → δ → List Json →
    Except Mismatch (δ × List Json)
  | [], _, d, rest => .ok (d, rest)
  | f :: fs, i, d, v :: rest => do fillItems r fs (i + 1) (← f.fill d v) rest
  | f :: fs, i, d, [] =>
    if f.required then
      .error (.invalidLength i ("struct " ++ r.name ++ " with " ++ elements r.fields.length))
    else fillItems r fs (i + 1) d []

def ofJson (r : Record δ α) : Json → Except Mismatch α
  | .object members => do
    let d ← members.foldlM r.fillMember r.blank
    r.finish d
  | .array items => do
    let (d, rest) ← r.fillItems r.fields 0 r.blank items
    let a ← r.finish d
    if rest.isEmpty then return a
    else
      .error (.invalidLength (r.fields.length + rest.length)
        (elements r.fields.length ++ " in sequence"))
  | v => .error (.invalidType v.found ("struct " ++ r.name))

end Record

/-- The value of a required field. -/
def need {α : Type} (name : String) : Option α → Except Mismatch α
  | some v => .ok v
  | none => .error (.missingField name)

end Switchboard.Json
