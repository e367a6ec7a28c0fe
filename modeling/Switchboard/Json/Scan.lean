import Switchboard.Json.Fault

/-!
The tokens of JSON text: blanks, words, numbers and strings. A number that has no
fraction and no exponent and fits 64 bits is whole; every other one is brought to
double precision by one multiplication with, or division by, a power of ten. A string
is collected byte by byte and has to be well-formed UTF-8 in the end.
-/
namespace Switchboard.Json

def isBlank (b : UInt8) : Bool := b = 32 || b = 10 || b = 9 || b = 13

def skipBlanks (s : Bytes) : Bytes := s.dropWhile isBlank

def isDigit (b : UInt8) : Bool := 48 ≤ b && b ≤ 57

def digitValue (b : UInt8) : Nat := b.toNat - 48

/-- Reads the rest of a word such as `null`. -/
def readWord : List UInt8 → Bytes → Except Fault Bytes
  | [], s => .ok s
  | _ :: _, [] => .error ⟨.endInValue, [], 0⟩
  | e :: es, b :: s => if b = e then readWord es s else .error ⟨.expectedWord, s, 0⟩

/-! Numbers -/

/-- Appends digits to a significand as long as it fits 64 bits. The second result counts
the digits that were left out. -/
def gather : Nat → List UInt8 → Nat × Nat
  | sig, [] => (sig, 0)
  | sig, d :: ds =>
    let next := sig * 10 + digitValue d
    if next < UInt64.size then gather next ds else (sig, ds.length + 1)

/-- A power of ten in double precision. -/
def powerOfTen (n : Nat) : Float := Float.ofScientific 1 false n

/-- The number `f * 10 ^ e`, if it is finite. -/
def shift (f : Float) (e : Int) : Option Float :=
  if e.natAbs ≤ 308 then
    if 0 ≤ e then
      let g := f * powerOfTen e.natAbs
      if g.isInf then none else some g
    else some (f / powerOfTen e.natAbs)
  else if f == 0 then some f
  else if 0 ≤ e then none
  else shift (f / powerOfTen 308) (e + 308)
termination_by (-e).toNat
decreasing_by omega

def signed (negative : Bool) (f : Float) : UInt64 := (if negative then -f else f).toBits

/-- The number of the given sign, significand and power of ten; `s` is what follows. -/
def floating (negative : Bool) (sig : Nat) (e : Int) (s : Bytes) : Result Number :=
  match shift (UInt64.ofNat sig).toFloat e with
  | some f => .ok (.float (signed negative f), s)
  | none => .error ⟨.numberOutOfRange, s, 0⟩

/-- Reads the digits of an exponent. When it outgrows 31 bits, the rest of the text after
the digit at fault is returned. -/
def readExponentDigits : Nat → Bytes → Except Bytes (Nat × Bytes)
  | e, [] => .ok (e, [])
  | e, d :: s =>
    if isDigit d then
      if e * 10 + digitValue d < UInt32.size / 2 then readExponentDigits (e * 10 + digitValue d) s
      else .error s
    else .ok (e, d :: s)

/-- Reads what follows the letter of an exponent. -/
def readExponent (negative : Bool) (sig : Nat) (e : Int) (s : Bytes) : Result Number :=
  let (down, s) := match s with
    | 43 :: r => (false, r)
    | 45 :: r => (true, r)
    | r => (false, r)
  match s with
  | [] => .error ⟨.endInValue, [], 0⟩
  | d :: r =>
    if isDigit d then
      match readExponentDigits (digitValue d) r with
      | .ok (n, r) => floating negative sig (if down then e - n else e + n) r
      | .error r =>
        if sig ≠ 0 ∧ !down then .error ⟨.numberOutOfRange, r, 0⟩
        else .ok (.float (signed negative 0), r.dropWhile isDigit)
    else .error ⟨.invalidNumber, r, 0⟩

/-- Reads what follows the point of a fraction. -/
def readFraction (negative : Bool) (sig : Nat) (e : Int) (s : Bytes) : Result Number :=
  let digits := s.takeWhile isDigit
  let rest := s.dropWhile isDigit
  if digits.isEmpty then
    match s with
    | [] => .error ⟨.endInValue, [], 0⟩
    | _ => .error (.peek .invalidNumber s)
  else
    let (sig, dropped) := gather sig digits
    let e := e - ((digits.length - dropped : Nat) : Int)
    match rest with
    | 69 :: r => readExponent negative sig e r
    | 101 :: r => readExponent negative sig e r
    | _ => floating negative sig e rest

/-- A whole number, unless it is a negative zero or too large for its sign. -/
def whole (negative : Bool) (sig : Nat) : Number :=
  if !negative then .int sig
  else if sig = 0 ∨ UInt64.size / 2 < sig then .float (signed true (UInt64.ofNat sig).toFloat)
  else .int (-sig)

/-- Reads what follows the whole digits, of which `dropped` did not fit. -/
def readAfterDigits (negative : Bool) (sig dropped : Nat) (s : Bytes) : Result Number :=
  match s with
  | 46 :: r => readFraction negative sig dropped r
  | 69 :: r => readExponent negative sig dropped r
  | 101 :: r => readExponent negative sig dropped r
  | _ => if dropped = 0 then .ok (whole negative sig, s) else floating negative sig dropped s

/-- Reads a number without its sign. -/
def readMagnitude (negative : Bool) (s : Bytes) : Result Number :=
  match s with
  | [] => .error ⟨.endInValue, [], 0⟩
  | 48 :: r =>
    match r with
    | d :: _ =>
      if isDigit d then .error (.peek .invalidNumber r) else readAfterDigits negative 0 0 r
    | [] => readAfterDigits negative 0 0 r
  | d :: r =>
    if isDigit d then
      let (sig, dropped) := gather 0 (s.takeWhile isDigit)
      readAfterDigits negative sig dropped (s.dropWhile isDigit)
    else .error ⟨.invalidNumber, r, 0⟩

def readNumber (s : Bytes) : Result Number :=
  match s with
  | 45 :: r => readMagnitude true r
  | _ => readMagnitude false s

/-! Strings -/

def hexValue? (b : UInt8) : Option Nat :=
  if 48 ≤ b && b ≤ 57 then some (b.toNat - 48)
  else if 97 ≤ b && b ≤ 102 then some (b.toNat - 87)
  else if 65 ≤ b && b ≤ 70 then some (b.toNat - 55)
  else none

/-- The value of hexadecimal digits. -/
def hexNumber? (ds : List UInt8) : Option Nat :=
  ds.foldl (fun n d => do return (← n) * 16 + (← hexValue? d)) (some 0)

/-- What the letter of a short escape stands for. -/
def shortEscape? (b : UInt8) : Option UInt8 :=
  match b with
  | 34 => some 34
  | 92 => some 92
  | 47 => some 47
  | 98 => some 8
  | 102 => some 12
  | 110 => some 10
  | 114 => some 13
  | 116 => some 9
  | _ => none

/-- Where the reader of a string is: between characters, after a backslash, among the
four digits of an escape, or between the two escapes of a surrogate pair. The first
half of a pair is carried along. -/
inductive Spelling where
  | plain
  | escaped
  | hex (high : Option Nat) (digits : List UInt8)
  | wantBackslash (high : Nat)
  | wantLetter (high : Nat)

/-- The bytes of a code point. -/
def utf8 (n : Nat) : List UInt8 := String.utf8EncodeChar (Char.ofNat n)

/-- Reads up to the closing quote. The bytes of the value are collected in reverse. -/
def readStringBytes : Spelling → List UInt8 → Bytes → Except Fault (List UInt8 × Bytes)
  | _, _, [] => .error ⟨.endInString, [], 0⟩
  | .plain, done, b :: s =>
    if b = 34 then .ok (done.reverse, s)
    else if b = 92 then readStringBytes .escaped done s
    else if b < 32 then .error ⟨.controlCharacter, s, 0⟩
    else readStringBytes .plain (b :: done) s
  | .escaped, done, b :: s =>
    if b = 117 then readStringBytes (.hex none []) done s
    else
      match shortEscape? b with
      | some c => readStringBytes .plain (c :: done) s
      | none => .error ⟨.invalidEscape, s, 0⟩
  | .hex high digits, done, b :: s =>
    if digits.length < 3 then readStringBytes (.hex high (digits ++ [b])) done s
    else
      match hexNumber? (digits ++ [b]), high with
      | none, _ => .error ⟨.invalidEscape, s, 0⟩
      | some n, none =>
        if 0xDC00 ≤ n ∧ n ≤ 0xDFFF then .error ⟨.loneSurrogate, s, 0⟩
        else if 0xD800 ≤ n ∧ n ≤ 0xDBFF then readStringBytes (.wantBackslash n) done s
        else readStringBytes .plain ((utf8 n).reverse ++ done) s
      | some n, some h =>
        if 0xDC00 ≤ n ∧ n ≤ 0xDFFF then
          let point := (h - 0xD800) * 1024 + (n - 0xDC00) + 0x10000
          readStringBytes .plain ((utf8 point).reverse ++ done) s
        else .error ⟨.loneSurrogate, s, 0⟩
  | .wantBackslash high, done, b :: s =>
    if b = 92 then readStringBytes (.wantLetter high) done s else .error ⟨.endOfEscape, s, 0⟩
  | .wantLetter high, done, b :: s =>
    if b = 117 then readStringBytes (.hex (some high) []) done s
    else .error ⟨.endOfEscape, s, 0⟩

/-- How many of the bytes from position `i` on are well-formed UTF-8, in whole
characters and at most `n` of them. -/
def wellFormedFrom (bytes : ByteArray) : Nat → Nat → Nat
  | 0, i => i
  | n + 1, i =>
    match bytes.utf8DecodeChar? i with
    | some c => wellFormedFrom bytes n (i + c.utf8Size)
    | none => i

/-- Reads a string after its opening quote. -/
def readString (s : Bytes) : Result String :=
  match readStringBytes .plain [] s with
  | .error f => .error f
  | .ok (bytes, s) =>
    let content := bytes.toByteArray
    match String.fromUTF8? content with
    | some text => .ok (text, s)
    | none =>
      .error ⟨.invalidCodePoint, s, content.size - wellFormedFrom content content.size 0⟩

end Switchboard.Json
