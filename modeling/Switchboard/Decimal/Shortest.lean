/-!
The shortest decimal of a binary number. A binary number stands for all reals that
round to it; among the decimals in that interval those with the fewest digits are
chosen, and of these the one nearest to the number itself. All comparisons are made
between whole numbers.
-/
namespace Switchboard.Decimal

/-- The number `mantissa * 2 ^ exponent`. -/
structure Binary where
  mantissa : Nat
  exponent : Int

/-- The number `digits * 10 ^ exponent`. -/
structure Scientific where
  digits : Nat
  exponent : Int
deriving DecidableEq

namespace Binary

/-- The least mantissa of a number that is not at the foot of the range: two to the
power of 52. -/
def binadeStart : Nat := 4503599627370496

/-- The magnitude of a finite double-precision number, from its bits. The eleven bits of
the exponent stand above those of the fraction. -/
def ofBits (bits : UInt64) : Binary :=
  let fraction : Nat := bits.toNat % binadeStart
  let biased : Nat := bits.toNat / binadeStart % 2048
  if biased = 0 then ⟨fraction, -1074⟩
  else ⟨fraction + binadeStart, (biased : Int) - 1075⟩

/-- A number scaled so that both it and the grid of step `10 ^ k` are whole. The
number itself is `value`, one step of the grid is `step`, and a quarter of the
number's last binary place is `quarter`. -/
structure Scaled where
  value : Nat
  step : Nat
  quarter : Nat

def scale (b : Binary) (k : Int) : Scaled :=
  let quarter := Nat.pow 2 (b.exponent - 2).toNat * Nat.pow 10 (-k).toNat
  let step := Nat.pow 10 k.toNat * Nat.pow 2 (2 - b.exponent).toNat
  ⟨4 * b.mantissa * quarter, step, quarter⟩

/-- The lower end of the rounding interval, in quarters of the last binary place. At
the foot of a binade the numbers below lie twice as dense. -/
def lower (b : Binary) : Nat :=
  if b.mantissa = binadeStart ∧ b.exponent > -1074 then 4 * b.mantissa - 1
  else 4 * b.mantissa - 2

def upper (b : Binary) : Nat := 4 * b.mantissa + 2

/-- Whether the ends of the interval round to the number: ties go to even mantissas. -/
def closed (b : Binary) : Bool := b.mantissa % 2 = 0

/-- Whether the scaled point `x` rounds to the number. -/
def covers (b : Binary) (quarter x : Nat) : Bool :=
  if b.closed then decide (b.lower * quarter ≤ x ∧ x ≤ b.upper * quarter)
  else decide (b.lower * quarter < x ∧ x < b.upper * quarter)

/-- The point of the grid of step `10 ^ k` that lies in the interval and is nearest to
the number; an exact tie goes to the even point. -/
def nearest? (b : Binary) (k : Int) : Option Nat :=
  let s := b.scale k
  let below := s.value / s.step
  let above := below + 1
  match b.covers s.quarter (below * s.step), b.covers s.quarter (above * s.step) with
  | false, false => none
  | true, false => some below
  | false, true => some above
  | true, true =>
    let down := s.value - below * s.step
    let up := above * s.step - s.value
    if down < up then some below
    else if up < down then some above
    else if below % 2 = 0 then some below
    else some above

/-- Whether the number is at least `10 ^ k`. -/
def reaches (b : Binary) (k : Int) : Bool :=
  let s := b.scale k
  decide (s.step ≤ s.value)

/-- The largest `k` from `k` to `k + n` with `10 ^ k` not above the number. -/
def climb (b : Binary) : Nat → Int → Int
  | 0, k => k
  | n + 1, k => if b.reaches (k + 1) then climb b n (k + 1) else k

/-- The exponent of the leading decimal digit of a positive number. The first guess
from the binary logarithm is at most a few steps too low. -/
def leading (b : Binary) : Int :=
  b.climb 5 (((b.mantissa.log2 : Int) + b.exponent) * 30103 / 100000 - 2)

/-- Tries ever finer grids, starting with step `10 ^ k`. -/
def search (b : Binary) : Nat → Int → Scientific
  | 0, k => ⟨(b.scale k).value / (b.scale k).step, k⟩
  | n + 1, k =>
    match b.nearest? k with
    | some c => ⟨c, k⟩
    | none => search b n (k - 1)

end Binary

/-- Drops trailing zeros of the digits, at most `n` of them. -/
def Scientific.trim : Nat → Scientific → Scientific
  | 0, s => s
  | n + 1, s => if s.digits % 10 = 0 then trim n ⟨s.digits / 10, s.exponent + 1⟩ else s

/-- Seventeen digits always suffice to tell a double-precision number apart. -/
def shortest (b : Binary) : Scientific :=
  if b.mantissa = 0 then ⟨0, 0⟩ else (b.search 17 b.leading).trim 17

/-- How a decimal is written out: the exponents of the leading digit that are written
positionally, all others being written with a power of ten. -/
structure Style where
  lowest : Int
  highest : Int

/-- Writes a decimal, always with a fractional digit when written positionally. -/
def Scientific.text (style : Style) (s : Scientific) : String :=
  let ds := (Nat.repr s.digits).toList
  let point : Int := (ds.length : Int) + s.exponent
  let lead := point - 1
  if style.lowest ≤ lead ∧ lead ≤ style.highest then
    if 0 ≤ s.exponent then
      String.ofList (ds ++ List.replicate s.exponent.toNat '0') ++ ".0"
    else if 0 < point then
      String.ofList (ds.take point.toNat) ++ "." ++ String.ofList (ds.drop point.toNat)
    else
      "0." ++ String.ofList (List.replicate (-point).toNat '0' ++ ds)
  else
    let fraction := match ds.drop 1 with
      | [] => ""
      | rest => "." ++ String.ofList rest
    let sign := if lead < 0 then "-" else "+"
    String.ofList (ds.take 1) ++ fraction ++ "e" ++ sign ++ Nat.repr lead.natAbs

end Switchboard.Decimal
