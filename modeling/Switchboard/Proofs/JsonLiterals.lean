import Switchboard.Json.Scan
import Mathlib.Data.List.Basic

/-!
Number literals, as the grammar of JSON spells them: a sign, whole digits without a leading
zero, digits of a fraction, and an exponent. A literal without fraction and exponent that
fits 64 bits stands for a whole number, every other one for a double-precision number, if it
is not too large for one. The reader of numbers takes a literal for what it stands for.
-/
namespace Switchboard.Json

/-- Decimal digits, at least one of them. -/
structure Digits where
  list : List UInt8
  ne_nil : list ≠ []
  all_digits : ∀ d ∈ list, isDigit d = true

/-- The number that `n` becomes when digits are written behind it. -/
def appendDigits (n : Nat) (ds : List UInt8) : Nat :=
  ds.foldl (fun n d => n * 10 + digitValue d) n

def Digits.value (ds : Digits) : Nat := appendDigits 0 ds.list

/-- An exponent. Its sign, if there is one, is negative when it is true. -/
structure Exponent where
  upper : Bool
  sign : Option Bool
  digits : Digits

namespace Exponent

def signBytes (x : Exponent) : Bytes :=
  match x.sign with
  | none => []
  | some false => [43]
  | some true => [45]

def bytes (x : Exponent) : Bytes :=
  (if x.upper then 69 else 101) :: (x.signBytes ++ x.digits.list)

end Exponent

/-- A number as it is spelled. Only a zero may begin with a zero. -/
structure Literal where
  negative : Bool
  digits : Digits
  fraction : Option Digits
  exponent : Option Exponent
  no_leading_zero : digits.list.head? = some 48 → digits.list = [48]

namespace Literal

def fractionBytes (l : Literal) : Bytes :=
  match l.fraction with
  | none => []
  | some f => 46 :: f.list

def exponentBytes (l : Literal) : Bytes :=
  match l.exponent with
  | none => []
  | some x => x.bytes

def bytes (l : Literal) : Bytes :=
  (if l.negative then [45] else []) ++ (l.digits.list ++ (l.fractionBytes ++ l.exponentBytes))

end Literal

/-! What a literal stands for -/

/-- The double-precision number of a sign, a significand and a power of ten, if it is not
too large. -/
def double? (negative : Bool) (sig : Nat) (e : Int) : Option UInt64 :=
  (shift (UInt64.ofNat sig).toFloat e).map (signed negative)

/-- The same with an exponent on top of the power of ten. When the exponent does not fit 31
bits, the number is zero or too large. -/
def Exponent.double? (x : Exponent) (negative : Bool) (sig : Nat) (e : Int) : Option UInt64 :=
  if x.digits.value < UInt32.size / 2 then
    Json.double? negative sig
      (if x.sign = some true then e - x.digits.value else e + x.digits.value)
  else if sig = 0 ∨ x.sign = some true then some (signed negative 0)
  else none

namespace Literal

/-- The whole number of a literal without fraction and exponent that fits 64 bits. A
negative zero is not a whole number. -/
def int? (l : Literal) : Option Int :=
  if l.fraction.isNone ∧ l.exponent.isNone then
    if l.negative then
      if l.digits.value = 0 ∨ 9223372036854775808 < l.digits.value then none
      else some (-l.digits.value)
    else if l.digits.value < 18446744073709551616 then some l.digits.value
    else none
  else none

/-- The double-precision number of a literal. Only as many digits are taken into account as
fit 64 bits. -/
def double? (l : Literal) : Option UInt64 :=
  let (sig, dropped) := gather 0 l.digits.list
  match l.fraction, l.exponent with
  | none, none =>
    if dropped = 0 then some (signed l.negative (UInt64.ofNat sig).toFloat)
    else Json.double? l.negative sig dropped
  | none, some x => x.double? l.negative sig dropped
  | some f, exponent =>
    let (sig, left) := gather sig f.list
    let e := (dropped : Int) - ((f.list.length - left : Nat) : Int)
    match exponent with
    | none => Json.double? l.negative sig e
    | some x => x.double? l.negative sig e

/-- The number of a literal, unless it is out of range. -/
def value? (l : Literal) : Option Number :=
  match l.int? with
  | some i => some (.int i)
  | none => l.double?.map .float

end Literal

/-! Reading digits -/

/-- What may follow a number: the end of the text, or a byte that does not continue it. -/
def EndsNumber (rest : Bytes) : Prop :=
  ∀ b ∈ rest.head?, isDigit b = false ∧ b ≠ 46 ∧ b ≠ 69 ∧ b ≠ 101

/-- The text does not go on with a digit. -/
def EndsDigits (s : Bytes) : Prop := ∀ b ∈ s.head?, isDigit b = false

theorem EndsNumber.endsDigits {s : Bytes} (h : EndsNumber s) : EndsDigits s :=
  fun b hb => (h b hb).1

theorem EndsDigits.cons {b : UInt8} (hb : isDigit b = false) (s : Bytes) : EndsDigits (b :: s) := by
  rintro _ ⟨⟩
  exact hb

theorem Digits.takeWhile_append (ds : Digits) {s : Bytes} (hs : EndsDigits s) :
    (ds.list ++ s).takeWhile isDigit = ds.list := by
  rw [List.takeWhile_append_of_pos ds.all_digits]
  cases s with
  | nil => exact List.append_nil _
  | cons b s => rw [List.takeWhile_cons_of_neg (by simp [hs b rfl]), List.append_nil]

theorem dropWhile_append_of_digits {ds s : Bytes} (hds : ∀ d ∈ ds, isDigit d = true)
    (hs : EndsDigits s) : (ds ++ s).dropWhile isDigit = s := by
  rw [List.dropWhile_append_of_pos hds]
  cases s with
  | nil => rfl
  | cons b s => rw [List.dropWhile_cons_of_neg (by simp [hs b rfl])]

theorem Digits.exists_cons (ds : Digits) :
    ∃ d r, ds.list = d :: r ∧ isDigit d = true ∧ ∀ c ∈ r, isDigit c = true := by
  obtain ⟨d, r, hlist⟩ := List.exists_cons_of_ne_nil ds.ne_nil
  have hall := ds.all_digits
  rw [hlist] at hall
  exact ⟨d, r, hlist, hall d (List.mem_cons_self ..),
    fun c hc => hall c (List.mem_cons_of_mem _ hc)⟩

theorem le_appendDigits (n : Nat) (ds : List UInt8) : n ≤ appendDigits n ds := by
  induction ds generalizing n with
  | nil => exact Nat.le_refl n
  | cons d ds ih =>
    have hnext : n * 10 + digitValue d ≤ appendDigits n (d :: ds) := ih _
    omega

/-- Digits are all gathered as long as their value fits 64 bits, and only then. -/
theorem gather_of_lt {n : Nat} {ds : List UInt8} (h : appendDigits n ds < UInt64.size) :
    gather n ds = (appendDigits n ds, 0) := by
  induction ds generalizing n with
  | nil => rfl
  | cons d ds ih =>
    have hnext : n * 10 + digitValue d < UInt64.size :=
      Nat.lt_of_le_of_lt (le_appendDigits _ ds) h
    rw [gather, if_pos hnext]
    exact ih h

theorem gather_dropped {n : Nat} {ds : List UInt8} (hn : n < UInt64.size)
    (h : UInt64.size ≤ appendDigits n ds) : (gather n ds).2 ≠ 0 := by
  induction ds generalizing n with
  | nil => exact absurd hn (Nat.not_lt.mpr h)
  | cons d ds ih =>
    rw [gather]
    split_ifs with hnext
    · exact ih hnext h
    · exact Nat.succ_ne_zero _

/-! Reading a literal -/

theorem readAfterDigits_of_endsNumber {rest : Bytes} (hrest : EndsNumber rest) (negative : Bool)
    (sig dropped : Nat) :
    readAfterDigits negative sig dropped rest =
      if dropped = 0 then .ok (whole negative sig, rest)
      else floating negative sig dropped rest := by
  cases rest with
  | nil => rfl
  | cons b rest =>
    obtain ⟨-, hpoint, hupper, hlower⟩ := hrest b rfl
    simp [readAfterDigits, hpoint, hupper, hlower]

theorem floating_of_double? {negative : Bool} {sig : Nat} {e : Int} {bits : UInt64}
    (h : double? negative sig e = some bits) (s : Bytes) :
    floating negative sig e s = .ok (.float bits, s) := by
  obtain ⟨f, hf, rfl⟩ := Option.map_eq_some_iff.mp h
  rw [floating, hf]

/-- The digits of an exponent are read up to the first one that makes it outgrow 31 bits. -/
theorem readExponentDigits_append {ds s : Bytes} (hds : ∀ d ∈ ds, isDigit d = true)
    (hs : EndsDigits s) (e : Nat) (he : e < UInt32.size / 2) :
    if appendDigits e ds < UInt32.size / 2 then
      readExponentDigits e (ds ++ s) = .ok (appendDigits e ds, s)
    else
      ∃ r, readExponentDigits e (ds ++ s) = .error r ∧ r.dropWhile isDigit = s := by
  induction ds generalizing e with
  | nil =>
    rw [appendDigits, List.foldl_nil, if_pos he]
    cases s with
    | nil => rfl
    | cons b s => rw [List.nil_append, readExponentDigits, hs b rfl, if_neg Bool.false_ne_true]
  | cons d ds ih =>
    have hds' : ∀ c ∈ ds, isDigit c = true := fun c hc => hds c (List.mem_cons_of_mem _ hc)
    have happend : appendDigits e (d :: ds) = appendDigits (e * 10 + digitValue d) ds := rfl
    rw [happend, List.cons_append, readExponentDigits, if_pos (hds d (List.mem_cons_self ..))]
    by_cases hnext : e * 10 + digitValue d < UInt32.size / 2
    · rw [if_pos hnext]
      exact ih hds' _ hnext
    · have hlarge := le_appendDigits (e * 10 + digitValue d) ds
      rw [if_neg hnext, if_neg (by omega)]
      exact ⟨ds ++ s, rfl, dropWhile_append_of_digits hds' hs⟩

theorem digitValue_lt {d : UInt8} (hd : isDigit d = true) : digitValue d < 10 := by
  simp only [isDigit, Bool.and_eq_true, decide_eq_true_eq, UInt8.le_iff_toNat_le] at hd
  have hnine : (57 : UInt8).toNat = 57 := rfl
  rw [digitValue]
  omega

theorem Exponent.signBytes_append (x : Exponent) {d : UInt8} (hd : isDigit d = true) (s : Bytes) :
    (x.sign = none ∧ x.signBytes ++ d :: s = d :: s ∧ d ≠ 43 ∧ d ≠ 45) ∨
      (x.sign = some false ∧ x.signBytes ++ d :: s = 43 :: d :: s) ∨
        (x.sign = some true ∧ x.signBytes ++ d :: s = 45 :: d :: s) := by
  unfold signBytes
  cases x.sign with
  | none =>
    refine .inl ⟨rfl, rfl, ?_, ?_⟩ <;>
    · rintro rfl
      cases hd
  | some down =>
    cases down with
    | false => exact .inr (.inl ⟨rfl, rfl⟩)
    | true => exact .inr (.inr ⟨rfl, rfl⟩)

theorem readExponent_signBytes (x : Exponent) {d : UInt8} (hd : isDigit d = true)
    (negative : Bool) (sig : Nat) (e : Int) (s : Bytes) :
    (∀ n r, readExponentDigits (digitValue d) s = .ok (n, r) →
      readExponent negative sig e (x.signBytes ++ d :: s) =
        floating negative sig (if x.sign = some true then e - n else e + n) r) ∧
    ∀ r, readExponentDigits (digitValue d) s = .error r → sig = 0 ∨ x.sign = some true →
      readExponent negative sig e (x.signBytes ++ d :: s) =
        .ok (.float (signed negative 0), r.dropWhile isDigit) := by
  obtain ⟨hsign, htext, hplus, hminus⟩ | ⟨hsign, htext⟩ | ⟨hsign, htext⟩ :=
    x.signBytes_append hd s
  · rw [htext, hsign]
    constructor
    · intro n r h
      simp [readExponent, hplus, hminus, hd, h]
    · intro r h hzero
      simp [readExponent, hplus, hminus, hd, h, hzero.resolve_right]
  all_goals
    rw [htext, hsign]
    constructor
    · intro n r h
      simp [readExponent, hd, h]
    · intro r h hzero
      simp [readExponent, hd, h, hzero.resolve_right]

theorem readExponent_append (x : Exponent) {negative : Bool} {sig : Nat} {e : Int} {bits : UInt64}
    (h : x.double? negative sig e = some bits) {rest : Bytes} (hrest : EndsDigits rest) :
    readExponent negative sig e (x.signBytes ++ (x.digits.list ++ rest)) =
      .ok (.float bits, rest) := by
  obtain ⟨d, r, hlist, hd, hr⟩ := x.digits.exists_cons
  have hvalue : x.digits.value = appendDigits (digitValue d) r := by
    rw [Digits.value, hlist, appendDigits, List.foldl_cons, Nat.zero_mul, Nat.zero_add]
    rfl
  have hfirst : digitValue d < UInt32.size / 2 :=
    Nat.lt_trans (digitValue_lt hd) (by decide)
  have hdigits := readExponentDigits_append hr hrest (digitValue d) hfirst
  obtain ⟨hfits, houtgrows⟩ := readExponent_signBytes x hd negative sig e (r ++ rest)
  rw [hlist, List.cons_append]
  unfold Exponent.double? at h
  rw [hvalue] at h
  by_cases hsmall : appendDigits (digitValue d) r < UInt32.size / 2
  · rw [if_pos hsmall] at h hdigits
    rw [hfits _ _ hdigits]
    exact floating_of_double? h rest
  · rw [if_neg hsmall] at h hdigits
    obtain ⟨r', hr', hdrop⟩ := hdigits
    split_ifs at h with hzero
    cases h
    rw [houtgrows r' hr' hzero, hdrop]

theorem readMagnitude_append (l : Literal) (negative : Bool) {s : Bytes} (hs : EndsDigits s) :
    readMagnitude negative (l.digits.list ++ s) =
      readAfterDigits negative (gather 0 l.digits.list).1 (gather 0 l.digits.list).2 s := by
  obtain ⟨d, r, hlist, hd, hr⟩ := l.digits.exists_cons
  by_cases hzero : d = 48
  · subst hzero
    have hall : l.digits.list = [48] := l.no_leading_zero (by rw [hlist]; rfl)
    have hgather : gather 0 [48] = (0, 0) := by decide
    rw [hall, hgather, List.singleton_append]
    cases s with
    | nil => rfl
    | cons b s =>
      have hread : readMagnitude negative (48 :: b :: s) =
        if isDigit b then .error (.peek .invalidNumber (b :: s))
        else readAfterDigits negative 0 0 (b :: s) := rfl
      rw [hread, hs b rfl, if_neg Bool.false_ne_true]
  · have htake := l.digits.takeWhile_append hs
    have hdrop := dropWhile_append_of_digits l.digits.all_digits hs
    have hcons : l.digits.list ++ s = d :: (r ++ s) := by rw [hlist, List.cons_append]
    rw [hcons] at htake hdrop ⊢
    rw [readMagnitude, if_pos hd, htake, hdrop]
    exact hzero

theorem readNumber_of_isDigit {b : UInt8} (hb : isDigit b = true) (s : Bytes) :
    readNumber (b :: s) = readMagnitude false (b :: s) := by
  have hminus : b ≠ 45 := by
    rintro rfl
    exact absurd hb (by decide)
  simp [readNumber, hminus]

theorem readNumber_append (l : Literal) (s : Bytes) :
    readNumber ((if l.negative then [45] else []) ++ (l.digits.list ++ s)) =
      readMagnitude l.negative (l.digits.list ++ s) := by
  cases l.negative with
  | true => rfl
  | false =>
    obtain ⟨d, r, hlist, hd, -⟩ := l.digits.exists_cons
    rw [hlist]
    exact readNumber_of_isDigit hd _

theorem readAfterDigits_exponent (negative : Bool) (sig dropped : Nat) (x : Exponent) (s : Bytes) :
    readAfterDigits negative sig dropped (x.bytes ++ s) =
      readExponent negative sig dropped (x.signBytes ++ (x.digits.list ++ s)) := by
  rw [Exponent.bytes, List.cons_append, List.append_assoc]
  cases x.upper <;> rfl

section Fraction

variable (negative : Bool) (sig : Nat) (e : Int) (f : Digits)

theorem readFraction_exponent (x : Exponent) (s : Bytes) :
    readFraction negative sig e (f.list ++ (x.bytes ++ s)) =
      readExponent negative (gather sig f.list).1
        (e - ((f.list.length - (gather sig f.list).2 : Nat) : Int))
        (x.signBytes ++ (x.digits.list ++ s)) := by
  have hends : EndsDigits (x.bytes ++ s) := by
    rw [Exponent.bytes]
    cases x.upper <;> exact EndsDigits.cons (by decide) _
  have hne : f.list.isEmpty = false := by simp [f.ne_nil]
  rw [readFraction, f.takeWhile_append hends, dropWhile_append_of_digits f.all_digits hends, hne,
    if_neg Bool.false_ne_true, Exponent.bytes, List.cons_append, List.append_assoc]
  · cases x.upper <;> rfl
  · simp [f.ne_nil]

theorem readFraction_of_endsNumber {rest : Bytes} (hrest : EndsNumber rest) :
    readFraction negative sig e (f.list ++ rest) =
      floating negative (gather sig f.list).1
        (e - ((f.list.length - (gather sig f.list).2 : Nat) : Int)) rest := by
  have hne : f.list.isEmpty = false := by simp [f.ne_nil]
  rw [readFraction, f.takeWhile_append hrest.endsDigits,
    dropWhile_append_of_digits f.all_digits hrest.endsDigits, hne, if_neg Bool.false_ne_true]
  · simp only
    split
    · exact absurd rfl (hrest 69 rfl).2.2.1
    · exact absurd rfl (hrest 101 rfl).2.2.2
    · rfl
  · simp [f.ne_nil]

end Fraction

namespace Literal

variable {l : Literal}

theorem endsDigits_tail (l : Literal) {rest : Bytes} (hrest : EndsNumber rest) :
    EndsDigits (l.fractionBytes ++ (l.exponentBytes ++ rest)) := by
  unfold fractionBytes exponentBytes
  cases l.fraction with
  | none =>
    cases l.exponent with
    | none => exact hrest.endsDigits
    | some x =>
      simp only [Exponent.bytes]
      cases x.upper <;> exact EndsDigits.cons (by decide) _
  | some f => exact EndsDigits.cons (by decide) _

theorem readNumber_bytes (l : Literal) {rest : Bytes} (hrest : EndsNumber rest) :
    readNumber (l.bytes ++ rest) =
      readAfterDigits l.negative (gather 0 l.digits.list).1 (gather 0 l.digits.list).2
        (l.fractionBytes ++ (l.exponentBytes ++ rest)) := by
  rw [bytes, List.append_assoc, List.append_assoc, List.append_assoc, readNumber_append,
    readMagnitude_append l l.negative (l.endsDigits_tail hrest)]

/-- A literal that stands for a whole number is digits with a sign. -/
theorem int?_eq_some {i : Int} (h : l.int? = some i) :
    l.fraction = none ∧ l.exponent = none ∧ l.digits.value < UInt64.size ∧
      whole l.negative l.digits.value = .int i := by
  have hhalf : UInt64.size / 2 = 9223372036854775808 := rfl
  have hfull : UInt64.size = 18446744073709551616 := rfl
  unfold int? at h
  split_ifs at h with hplain hneg hlarge hfits
  · cases h
    refine ⟨Option.isNone_iff_eq_none.mp hplain.1, Option.isNone_iff_eq_none.mp hplain.2,
      by omega, ?_⟩
    rw [whole, hneg, if_neg (by decide), if_neg (by omega)]
  · cases h
    refine ⟨Option.isNone_iff_eq_none.mp hplain.1, Option.isNone_iff_eq_none.mp hplain.2,
      by omega, ?_⟩
    rw [whole, if_pos (by simpa using hneg)]

theorem value?_eq_natural (l : Literal) {n : Nat} (hn : n < UInt64.size) :
    l.value? = some (.int n) ↔
      l.negative = false ∧ l.fraction = none ∧ l.exponent = none ∧ l.digits.value = n := by
  have hint : l.value? = some (.int n) ↔ l.int? = some (n : Int) := by
    unfold value?
    cases l.int? with
    | none => simp
    | some i => simp
  rw [hint]
  constructor
  · intro h
    obtain ⟨hfraction, hexponent, -, hwhole⟩ := int?_eq_some h
    unfold whole at hwhole
    split_ifs at hwhole with hpos
    · refine ⟨by simpa using hpos, hfraction, hexponent, ?_⟩
      injection hwhole with hwhole
      omega
    · injection hwhole with hwhole
      omega
  · rintro ⟨hpos, hfraction, hexponent, rfl⟩
    rw [int?, hfraction, hexponent, hpos, if_pos ⟨rfl, rfl⟩, if_neg Bool.false_ne_true]
    exact if_pos hn

/-- Digits with a sign that fit 64 bits without being a whole number. -/
theorem whole_of_int?_eq_none (h : l.int? = none) (hfraction : l.fraction = none)
    (hexponent : l.exponent = none) (hfits : l.digits.value < UInt64.size) :
    whole l.negative l.digits.value =
      .float (signed l.negative (UInt64.ofNat l.digits.value).toFloat) := by
  have hhalf : UInt64.size / 2 = 9223372036854775808 := rfl
  have hfull : UInt64.size = 18446744073709551616 := rfl
  unfold int? at h
  rw [hfraction, hexponent, if_pos ⟨rfl, rfl⟩] at h
  cases hneg : l.negative with
  | false => simp [hneg, ← hfull, hfits] at h
  | true =>
    rw [hneg, if_pos rfl] at h
    split at h
    · rw [whole, if_neg (by decide), if_pos (by omega)]
    · cases h

theorem readNumber_of_int? {i : Int} (h : l.int? = some i) {rest : Bytes}
    (hrest : EndsNumber rest) : readNumber (l.bytes ++ rest) = .ok (.int i, rest) := by
  obtain ⟨hfraction, hexponent, hfits, hwhole⟩ := int?_eq_some h
  rw [l.readNumber_bytes hrest, fractionBytes, exponentBytes, hfraction, hexponent]
  have hgather : gather 0 l.digits.list = (l.digits.value, 0) := gather_of_lt hfits
  rw [hgather, List.nil_append, List.nil_append, readAfterDigits_of_endsNumber hrest]
  exact congrArg (fun n => Except.ok (n, rest)) hwhole

theorem readNumber_of_double? {bits : UInt64} (hint : l.int? = none)
    (h : l.double? = some bits) {rest : Bytes} (hrest : EndsNumber rest) :
    readNumber (l.bytes ++ rest) = .ok (.float bits, rest) := by
  rw [l.readNumber_bytes hrest]
  unfold fractionBytes exponentBytes
  unfold double? at h
  cases hfraction : l.fraction with
  | none =>
    cases hexponent : l.exponent with
    | none =>
      rw [hfraction, hexponent] at h
      simp only at h
      rw [List.nil_append, List.nil_append, readAfterDigits_of_endsNumber hrest]
      by_cases hfits : l.digits.value < UInt64.size
      · have hgather : gather 0 l.digits.list = (l.digits.value, 0) := gather_of_lt hfits
        rw [hgather, if_pos rfl] at h
        cases h
        rw [hgather, if_pos rfl, whole_of_int?_eq_none hint hfraction hexponent hfits]
      · have hdropped : (gather 0 l.digits.list).2 ≠ 0 :=
          gather_dropped (by decide) (Nat.not_lt.mp hfits)
        rw [if_neg hdropped] at h ⊢
        exact floating_of_double? h rest
    | some x =>
      rw [hfraction, hexponent] at h
      rw [List.nil_append, readAfterDigits_exponent]
      exact readExponent_append x h hrest.endsDigits
  | some f =>
    have hread : ∀ s, readAfterDigits l.negative (gather 0 l.digits.list).1
        (gather 0 l.digits.list).2 (46 :: s) = readFraction l.negative (gather 0 l.digits.list).1
        (gather 0 l.digits.list).2 s := fun _ => rfl
    rw [List.cons_append, hread]
    cases hexponent : l.exponent with
    | none =>
      rw [hfraction, hexponent] at h
      rw [List.nil_append, readFraction_of_endsNumber _ _ _ f hrest]
      exact floating_of_double? h rest
    | some x =>
      rw [hfraction, hexponent] at h
      rw [readFraction_exponent]
      exact readExponent_append x h hrest.endsDigits

theorem readNumber_of_value? {n : Number} (h : l.value? = some n) {rest : Bytes}
    (hrest : EndsNumber rest) : readNumber (l.bytes ++ rest) = .ok (n, rest) := by
  unfold value? at h
  cases hint : l.int? with
  | some i =>
    rw [hint] at h
    cases h
    exact readNumber_of_int? hint hrest
  | none =>
    rw [hint] at h
    obtain ⟨bits, hbits, rfl⟩ := Option.map_eq_some_iff.mp h
    exact readNumber_of_double? hint hbits hrest

end Literal

end Switchboard.Json
