import Switchboard.Decimal.Shortest

/-!
JSON values. An object is the list of its members in the order of the text, with all
repetitions; its canonical form sorts the members by name and keeps the last value of
each name.
-/
namespace Switchboard

/-- A number is a whole number of 64 bits, signed or not, or a double-precision number,
which is held by its bits. -/
inductive Number where
  | int (value : Int)
  | float (bits : UInt64)
deriving DecidableEq

inductive Json where
  | null
  | bool (value : Bool)
  | number (value : Number)
  | string (value : String)
  | array (items : List Json)
  | object (members : List (String × Json))
deriving Inhabited

namespace Number

/-- Floating numbers from a hundred-thousandth up to 10^16 are written positionally. -/
def style : Decimal.Style := ⟨-5, 15⟩

def floatText (bits : UInt64) : String :=
  let digits := (Decimal.shortest (Decimal.Binary.ofBits bits)).text style
  if bits.toNat < UInt64.size / 2 then digits else "-" ++ digits

def intText (i : Int) : String :=
  if i < 0 then "-" ++ Nat.repr i.natAbs else Nat.repr i.natAbs

def text : Number → String
  | int i => intText i
  | float b => floatText b

/-- Whole numbers that do not fit 64 bits, signed or not, do not occur. -/
def InRange : Number → Prop
  | int i => -9223372036854775808 ≤ i ∧ i < 18446744073709551616
  | float _ => True

end Number

namespace Json

/-- Sets one member of an object whose names are sorted. -/
def put (name : String) (value : Json) : List (String × Json) → List (String × Json)
  | [] => [(name, value)]
  | (n, v) :: rest =>
    if n < name then (n, v) :: put name value rest
    else if n = name then (name, value) :: rest
    else (name, value) :: (n, v) :: rest

mutual

/-- Sorts the members of every object and keeps the last value of each name. -/
def canonical : Json → Json
  | array items => array (canonicalItems items)
  | object members => object (canonicalMembers members [])
  | v => v

def canonicalItems : List Json → List Json
  | [] => []
  | v :: rest => canonical v :: canonicalItems rest

def canonicalMembers : List (String × Json) → List (String × Json) → List (String × Json)
  | [], done => done
  | (n, v) :: rest, done => canonicalMembers rest (put n (canonical v) done)

end

mutual

/-- How deep arrays and objects are nested in a value. -/
def depth : Json → Nat
  | array items => depthItems items + 1
  | object members => depthMembers members + 1
  | _ => 0

def depthItems : List Json → Nat
  | [] => 0
  | v :: rest => max (depth v) (depthItems rest)

def depthMembers : List (String × Json) → Nat
  | [] => 0
  | (_, v) :: rest => max (depth v) (depthMembers rest)

end

/-- The characters of a string value. -/
def asString? : Json → Option String
  | string s => some s
  | _ => none

end Json

end Switchboard
