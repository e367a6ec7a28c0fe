import Switchboard.Json.Printer
import Switchboard.Proofs.JsonLiterals

/-!
Strings as the grammar of JSON spells them, and the printed tokens. A character of a string
stands for itself or is spelled by an escape, and the reader of strings takes every spelling
for the character. What is printed is spelled: strings character by character, and whole
numbers by a literal. Tokens are read off the front of a text, whatever follows them, except
that a number must not be followed by a byte that would continue it.
-/
namespace Switchboard.Json

/-! Bytes of characters -/

/-- The bytes of characters. -/
def bytes (cs : List Char) : Bytes := cs.flatMap String.utf8EncodeChar

@[simp] theorem bytes_nil : bytes [] = [] := rfl

@[simp] theorem bytes_cons (c : Char) (cs : List Char) :
    bytes (c :: cs) = String.utf8EncodeChar c ++ bytes cs := rfl

@[simp] theorem bytes_append (cs ds : List Char) : bytes (cs ++ ds) = bytes cs ++ bytes ds :=
  List.flatMap_append

theorem toByteArray_bytes (cs : List Char) : (bytes cs).toByteArray = cs.utf8Encode := rfl

theorem toList_toUTF8_text (v : Json) : v.text.toUTF8.data.toList = bytes v.chars := by
  rw [text, String.toUTF8_eq_toByteArray, String.toByteArray_ofList, ← toByteArray_bytes,
    List.data_toByteArray]

/-- A character is one byte below 128 or several bytes from 128 on. -/
theorem utf8EncodeChar_cases (c : Char) :
    (c.toNat < 128 ∧ String.utf8EncodeChar c = [UInt8.ofNat c.toNat]) ∨
      128 ≤ c.toNat ∧ ∀ b ∈ String.utf8EncodeChar c, 128 ≤ b := by
  have hhigh : ∀ m k : Nat, 128 ≤ k → m + k < 256 → (128 : UInt8) ≤ UInt8.ofNat (m + k) := by
    intro m k hk hlt
    rw [UInt8.le_iff_toNat_le, UInt8.toNat_ofNat_of_lt' hlt]
    exact Nat.le_trans hk (Nat.le_add_left k m)
  unfold String.utf8EncodeChar
  simp only
  split_ifs with hone htwo hthree
  · exact .inl ⟨Nat.lt_succ_of_le hone, rfl⟩
  all_goals
    refine .inr ⟨Nat.lt_of_not_le hone, fun b hb => ?_⟩
    simp only [List.mem_cons, List.not_mem_nil, or_false] at hb
  · obtain rfl | rfl := hb <;> exact hhigh _ _ (by omega) (by omega)
  · obtain rfl | rfl | rfl := hb <;> exact hhigh _ _ (by omega) (by omega)
  · obtain rfl | rfl | rfl | rfl := hb <;> exact hhigh _ _ (by omega) (by omega)

/-! Strings -/

/-- A character inside a string stands for itself, or it is spelled by a letter behind a
backslash, by four hexadecimal digits, or by two surrogates of four digits each. -/
inductive SpellsChar : Char → Bytes → Prop
  | plain {c : Char} (hquote : c ≠ '"') (hslash : c ≠ '\\') (hcontrol : ¬ c.toNat < 32) :
      SpellsChar c (String.utf8EncodeChar c)
  | short {letter b : UInt8} (h : shortEscape? letter = some b) :
      SpellsChar (Char.ofNat b.toNat) [92, letter]
  | unicode {c : Char} {d₁ d₂ d₃ d₄ : UInt8} (h : hexNumber? [d₁, d₂, d₃, d₄] = some c.toNat) :
      SpellsChar c [92, 117, d₁, d₂, d₃, d₄]
  | pair {c : Char} {d₁ d₂ d₃ d₄ e₁ e₂ e₃ e₄ : UInt8} {high low : Nat}
      (hhigh : hexNumber? [d₁, d₂, d₃, d₄] = some high)
      (hlow : hexNumber? [e₁, e₂, e₃, e₄] = some low)
      (hhigh_range : 0xD800 ≤ high ∧ high ≤ 0xDBFF) (hlow_range : 0xDC00 ≤ low ∧ low ≤ 0xDFFF)
      (hc : c.toNat = (high - 0xD800) * 1024 + (low - 0xDC00) + 0x10000) :
      SpellsChar c [92, 117, d₁, d₂, d₃, d₄, 92, 117, e₁, e₂, e₃, e₄]

inductive SpellsChars : List Char → Bytes → Prop
  | nil : SpellsChars [] []
  | cons {c : Char} {cs : List Char} {bs rest : Bytes} (hc : SpellsChar c bs)
      (hcs : SpellsChars cs rest) : SpellsChars (c :: cs) (bs ++ rest)

/-- A string between its quotes. -/
def SpellsString (s : String) (bs : Bytes) : Prop :=
  ∃ content, SpellsChars s.toList content ∧ bs = 34 :: (content ++ [34])

/-- Bytes without a quote, a backslash or a control character stand for themselves. -/
theorem readStringBytes_plain {bs : List UInt8} (hbs : ∀ b ∈ bs, b ≠ 34 ∧ b ≠ 92 ∧ ¬ b < 32)
    (done rest : List UInt8) :
    readStringBytes .plain done (bs ++ rest) =
      readStringBytes .plain (bs.reverse ++ done) rest := by
  induction bs generalizing done with
  | nil => rfl
  | cons b bs ih =>
    obtain ⟨hquote, hslash, hcontrol⟩ := hbs b (List.mem_cons_self ..)
    rw [List.cons_append, readStringBytes, if_neg hquote, if_neg hslash, if_neg hcontrol,
      ih fun b hb => hbs b (List.mem_cons_of_mem _ hb), List.reverse_cons, List.append_assoc]
    rfl

theorem plain_utf8EncodeChar {c : Char} (hquote : c ≠ '"') (hslash : c ≠ '\\')
    (hcontrol : ¬ c.toNat < 32) :
    ∀ b ∈ String.utf8EncodeChar c, b ≠ 34 ∧ b ≠ 92 ∧ ¬ b < 32 := by
  intro b hb
  obtain ⟨hlow, heq⟩ | ⟨-, hhigh⟩ := utf8EncodeChar_cases c
  · rw [heq, List.mem_singleton] at hb
    have hvalue : b.toNat = c.toNat := by
      rw [hb, UInt8.toNat_ofNat_of_lt' (Nat.lt_trans hlow (by decide))]
    refine ⟨?_, ?_, ?_⟩
    · rintro rfl
      exact hquote (Char.toNat_inj.mp hvalue.symm)
    · rintro rfl
      exact hslash (Char.toNat_inj.mp hvalue.symm)
    · rwa [UInt8.lt_iff_toNat_lt, hvalue]
  · have hle := hhigh b hb
    rw [UInt8.le_iff_toNat_le] at hle
    refine ⟨?_, ?_, ?_⟩
    · rintro rfl
      exact absurd hle (by decide)
    · rintro rfl
      exact absurd hle (by decide)
    · rw [UInt8.lt_iff_toNat_lt]
      exact Nat.not_lt.mpr (Nat.le_trans (by decide) hle)

/-- An escape with four digits, unless it is half of a surrogate pair. -/
theorem readStringBytes_unicode {a b c d : UInt8} {n : Nat}
    (hvalue : hexNumber? [a, b, c, d] = some n) (hscalar : n < 0xD800 ∨ 0xDFFF < n)
    (done rest : List UInt8) :
    readStringBytes .plain done (92 :: 117 :: a :: b :: c :: d :: rest) =
      readStringBytes .plain ((utf8 n).reverse ++ done) rest := by
  have hread : readStringBytes .plain done (92 :: 117 :: a :: b :: c :: d :: rest) =
      readStringBytes (.hex none [a, b, c]) done (d :: rest) := rfl
  have hfull : ¬[a, b, c].length < 3 := Nat.lt_irrefl 3
  have hdigits : hexNumber? ([a, b, c] ++ [d]) = some n := hvalue
  rw [hread, readStringBytes.eq_def]
  simp only [if_neg hfull, hdigits]
  rw [if_neg (by omega), if_neg (by omega)]

theorem readStringBytes_pair {d₁ d₂ d₃ d₄ e₁ e₂ e₃ e₄ : UInt8} {high low : Nat}
    (hhigh : hexNumber? [d₁, d₂, d₃, d₄] = some high)
    (hlow : hexNumber? [e₁, e₂, e₃, e₄] = some low)
    (hhigh_range : 0xD800 ≤ high ∧ high ≤ 0xDBFF) (hlow_range : 0xDC00 ≤ low ∧ low ≤ 0xDFFF)
    (done rest : List UInt8) :
    readStringBytes .plain done
        (92 :: 117 :: d₁ :: d₂ :: d₃ :: d₄ :: 92 :: 117 :: e₁ :: e₂ :: e₃ :: e₄ :: rest) =
      readStringBytes .plain
        ((utf8 ((high - 0xD800) * 1024 + (low - 0xDC00) + 0x10000)).reverse ++ done) rest := by
  have hfull : ∀ a b c : UInt8, ¬[a, b, c].length < 3 := fun _ _ _ => Nat.lt_irrefl 3
  have hsecond : readStringBytes (.hex (some high) [e₁, e₂, e₃]) done (e₄ :: rest) =
      readStringBytes .plain
        ((utf8 ((high - 0xD800) * 1024 + (low - 0xDC00) + 0x10000)).reverse ++ done) rest := by
    have hdigits : hexNumber? ([e₁, e₂, e₃] ++ [e₄]) = some low := hlow
    rw [readStringBytes.eq_def]
    simp only [if_neg (hfull e₁ e₂ e₃), hdigits, if_pos hlow_range]
  have hfirst : ∀ s, readStringBytes .plain done (92 :: 117 :: d₁ :: d₂ :: d₃ :: d₄ :: s) =
      readStringBytes (.wantBackslash high) done s := by
    intro s
    have hread : readStringBytes .plain done (92 :: 117 :: d₁ :: d₂ :: d₃ :: d₄ :: s) =
        readStringBytes (.hex none [d₁, d₂, d₃]) done (d₄ :: s) := rfl
    have hdigits : hexNumber? ([d₁, d₂, d₃] ++ [d₄]) = some high := hhigh
    rw [hread, readStringBytes.eq_def]
    simp only [if_neg (hfull d₁ d₂ d₃), hdigits]
    rw [if_neg (by omega), if_pos hhigh_range]
  rw [hfirst]
  exact hsecond

theorem readStringBytes_of_spellsChar {c : Char} {bs : Bytes} (h : SpellsChar c bs)
    (done rest : List UInt8) :
    readStringBytes .plain done (bs ++ rest) =
      readStringBytes .plain ((String.utf8EncodeChar c).reverse ++ done) rest := by
  have hutf8 : utf8 c.toNat = String.utf8EncodeChar c := by rw [utf8, Char.ofNat_toNat]
  cases h with
  | plain hquote hslash hcontrol =>
    exact readStringBytes_plain (plain_utf8EncodeChar hquote hslash hcontrol) done rest
  | @short letter b h =>
    unfold shortEscape? at h
    split at h <;> cases h <;> rfl
  | unicode h =>
    have hvalid := c.valid
    rw [← hutf8]
    refine readStringBytes_unicode h ?_ done rest
    obtain hlow | hhigh := hvalid
    · exact .inl hlow
    · exact .inr hhigh.1
  | pair hhigh hlow hhigh_range hlow_range hc =>
    rw [← hutf8, hc]
    exact readStringBytes_pair hhigh hlow hhigh_range hlow_range done rest

theorem readStringBytes_of_spellsChars {cs : List Char} {bs : Bytes} (h : SpellsChars cs bs)
    (done rest : List UInt8) :
    readStringBytes .plain done (bs ++ 34 :: rest) = .ok (done.reverse ++ bytes cs, rest) := by
  induction h generalizing done with
  | nil => simp [readStringBytes]
  | cons hc hcs ih =>
    rw [List.append_assoc, readStringBytes_of_spellsChar hc, ih, bytes_cons, List.reverse_append,
      List.reverse_reverse, List.append_assoc]

theorem fromUTF8?_bytes (s : String) : String.fromUTF8? (bytes s.toList).toByteArray = some s := by
  rw [toByteArray_bytes, String.fromUTF8?, dif_pos ByteArray.isValidUTF8_utf8Encode]
  refine congrArg some (String.toByteArray_inj.mp ?_)
  calc
    s.toList.utf8Encode = (String.ofList s.toList).toByteArray := String.toByteArray_ofList.symm
    _ = s.toByteArray := by rw [String.ofList_toList]

theorem readString_of_spellsChars {s : String} {content : Bytes}
    (h : SpellsChars s.toList content) (rest : Bytes) :
    readString (content ++ 34 :: rest) = .ok (s, rest) := by
  rw [readString, readStringBytes_of_spellsChars h, List.reverse_nil, List.nil_append]
  simp only [fromUTF8?_bytes]

theorem readString_of_spellsString {s : String} {bs : Bytes} (h : SpellsString s bs) :
    ∃ r, bs = 34 :: r ∧ ∀ rest, readString (r ++ rest) = .ok (s, rest) := by
  obtain ⟨content, hcontent, rfl⟩ := h
  refine ⟨content ++ [34], rfl, fun rest => ?_⟩
  rw [List.append_assoc]
  exact readString_of_spellsChars hcontent rest

/-! Printed strings -/

/-- The byte of a hexadecimal digit. -/
def hexByte (k : Nat) : UInt8 := UInt8.ofNat (hexDigit k).toNat

theorem utf8EncodeChar_hexDigit : ∀ k < 16, String.utf8EncodeChar (hexDigit k) = [hexByte k] := by
  decide

theorem hexNumber?_control :
    ∀ n < 32, hexNumber? [48, 48, hexByte (n / 16), hexByte (n % 16)] = some n := by
  decide

theorem bytes_control {n : Nat} (hn : n < 32) :
    bytes ['\\', 'u', '0', '0', hexDigit (n / 16), hexDigit (n % 16)] =
      [92, 117, 48, 48, hexByte (n / 16), hexByte (n % 16)] := by
  simp only [bytes_cons, bytes_nil, utf8EncodeChar_hexDigit (n / 16) (by omega),
    utf8EncodeChar_hexDigit (n % 16) (by omega)]
  rfl

theorem bytes_quoted_append (name : String) (rest : Bytes) :
    bytes (quoted name) ++ rest = 34 :: (bytes (name.toList.flatMap escape) ++ 34 :: rest) := by
  rw [quoted, bytes_cons, bytes_append, List.append_assoc, List.append_assoc]
  rfl

theorem spellsChar_escape (c : Char) : SpellsChar c (bytes (escape c)) := by
  have hshort : ∀ {letter b : UInt8}, shortEscape? letter = some b → c.toNat = b.toNat →
      SpellsChar c [92, letter] := by
    intro letter b h hc
    rw [← Char.ofNat_toNat c, hc]
    exact .short h
  unfold escape
  split_ifs with hquote hslash hback htab hline hfeed hreturn hcontrol
  · subst hquote
    exact @hshort 34 34 rfl rfl
  · subst hslash
    exact @hshort 92 92 rfl rfl
  · exact @hshort 98 8 rfl hback
  · exact @hshort 116 9 rfl htab
  · exact @hshort 110 10 rfl hline
  · exact @hshort 102 12 rfl hfeed
  · exact @hshort 114 13 rfl hreturn
  · rw [bytes_control hcontrol]
    exact .unicode (hexNumber?_control _ hcontrol)
  · rw [bytes_cons, bytes_nil, List.append_nil]
    exact .plain hquote hslash hcontrol

theorem spellsChars_escapes (cs : List Char) : SpellsChars cs (bytes (cs.flatMap escape)) := by
  induction cs with
  | nil => exact .nil
  | cons c cs ih =>
    rw [List.flatMap_cons, bytes_append]
    exact .cons (spellsChar_escape c) ih

theorem spellsString_quoted (s : String) : SpellsString s (bytes (quoted s)) := by
  have hquoted := bytes_quoted_append s []
  rw [List.append_nil] at hquoted
  exact ⟨_, spellsChars_escapes s.toList, hquoted⟩

theorem readString_escapes (s : String) (rest : Bytes) :
    readString (bytes (s.toList.flatMap escape) ++ 34 :: rest) = .ok (s, rest) :=
  readString_of_spellsChars (spellsChars_escapes s.toList) rest

/-! Printed numbers -/

theorem utf8EncodeChar_of_isDigit {c : Char} (h : c.isDigit = true) :
    ∃ b, String.utf8EncodeChar c = [b] ∧ isDigit b = true ∧
      digitValue b = c.toNat - '0'.toNat ∧ (c ≠ '0' → b ≠ 48) := by
  have hall : ∀ n < 58, 48 ≤ n → isDigit (UInt8.ofNat n) = true ∧
      digitValue (UInt8.ofNat n) = n - 48 ∧ (n ≠ 48 → UInt8.ofNat n ≠ 48) := by decide
  obtain ⟨hlow, hhigh⟩ : 48 ≤ c.toNat ∧ c.toNat ≤ 57 := by
    simp only [Char.isDigit, Bool.and_eq_true, decide_eq_true_eq] at h
    exact h
  obtain ⟨hdigit, hvalue, hne⟩ := hall c.toNat (by omega) hlow
  obtain ⟨-, heq⟩ | ⟨hlarge, -⟩ := utf8EncodeChar_cases c
  · exact ⟨_, heq, hdigit, hvalue, fun hc => hne fun hzero => hc (Char.toNat_inj.mp hzero)⟩
  · omega

theorem isDigit_bytes {cs : List Char} (hcs : ∀ c ∈ cs, c.isDigit = true) :
    ∀ b ∈ bytes cs, isDigit b = true := by
  intro b hb
  obtain ⟨c, hc, hb⟩ := List.mem_flatMap.mp hb
  obtain ⟨d, hd, hdigit, -⟩ := utf8EncodeChar_of_isDigit (hcs c hc)
  rw [hd, List.mem_singleton] at hb
  rwa [hb]

theorem toDigits_eq_cons {n : Nat} (h : n ≠ 0) :
    ∃ c cs, Nat.toDigits 10 n = c :: cs ∧ c ≠ '0' := by
  induction n using Nat.strongRecOn with
  | ind n ih =>
    by_cases hlt : n < 10
    · have hdigit : ∀ d < 10, d ≠ 0 → d.digitChar ≠ '0' := by decide
      exact ⟨n.digitChar, [], Nat.toDigits_of_lt_base hlt, hdigit n hlt h⟩
    · obtain ⟨c, cs, hcs, hc⟩ := ih (n / 10) (by omega) (by omega)
      refine ⟨c, cs ++ [(n % 10).digitChar], ?_, hc⟩
      rw [Nat.toDigits_of_base_le (by decide) (Nat.le_of_not_lt hlt), hcs, List.cons_append]

theorem bytes_toDigits_eq_cons (n : Nat) :
    ∃ b bs, bytes (Nat.toDigits 10 n) = b :: bs ∧ isDigit b = true ∧ (n ≠ 0 → b ≠ 48) := by
  by_cases hzero : n = 0
  · subst hzero
    exact ⟨48, [], by decide, by decide, fun h => absurd rfl h⟩
  · obtain ⟨c, cs, hcs, hc⟩ := toDigits_eq_cons hzero
    have hdigit : c.isDigit = true :=
      Nat.isDigit_of_mem_toDigits (by decide) (by decide) (hcs ▸ List.mem_cons_self ..)
    obtain ⟨b, hb, hdigit, -, hne⟩ := utf8EncodeChar_of_isDigit hdigit
    exact ⟨b, bytes cs, by rw [hcs, bytes_cons, hb, List.singleton_append], hdigit,
      fun _ => hne hc⟩

theorem bytes_intText (i : Int) :
    bytes (Number.int i).text.toList =
      (if i < 0 then [45] else []) ++ bytes (Nat.toDigits 10 i.natAbs) := by
  rw [Number.text, Number.intText]
  split
  · rw [String.toList_append, Nat.toList_repr, bytes_append]
    rfl
  · rw [Nat.toList_repr, List.nil_append]

theorem appendDigits_bytes {cs : List Char} (hcs : ∀ c ∈ cs, c.isDigit = true) (n : Nat) :
    appendDigits n (bytes cs) = Nat.ofDigitChars 10 cs n := by
  induction cs generalizing n with
  | nil => rfl
  | cons c cs ih =>
    obtain ⟨b, hb, -, hvalue, -⟩ := utf8EncodeChar_of_isDigit (hcs c (List.mem_cons_self ..))
    have hfirst : appendDigits n (b :: bytes cs) =
        appendDigits (n * 10 + digitValue b) (bytes cs) := rfl
    rw [bytes_cons, hb, List.singleton_append, hfirst,
      ih fun c hc => hcs c (List.mem_cons_of_mem _ hc), hvalue, Nat.ofDigitChars_cons, Nat.mul_comm]

/-- The decimal digits of a number. -/
def decimalDigits (n : Nat) : Digits where
  list := bytes (Nat.toDigits 10 n)
  ne_nil := by
    obtain ⟨b, bs, hbs, -⟩ := bytes_toDigits_eq_cons n
    rw [hbs]
    exact List.cons_ne_nil b bs
  all_digits := isDigit_bytes fun _ hc =>
    Nat.isDigit_of_mem_toDigits (by decide) (by decide) hc

theorem value_decimalDigits (n : Nat) : (decimalDigits n).value = n := by
  rw [Digits.value, decimalDigits, appendDigits_bytes, Nat.ofDigitChars_ten_toDigits]
  exact fun _ hc => Nat.isDigit_of_mem_toDigits (by decide) (by decide) hc

/-- A whole number as it is printed. -/
def Literal.ofInt (i : Int) : Literal where
  negative := i < 0
  digits := decimalDigits i.natAbs
  fraction := none
  exponent := none
  no_leading_zero := by
    intro hhead
    by_cases hzero : i.natAbs = 0
    · rw [hzero]
      decide
    · obtain ⟨b, bs, hbs, -, hne⟩ := bytes_toDigits_eq_cons i.natAbs
      have hlist : (decimalDigits i.natAbs).list = b :: bs := hbs
      rw [hlist] at hhead
      exact absurd (Option.some.inj hhead) (hne hzero)

theorem Literal.bytes_ofInt (i : Int) :
    (Literal.ofInt i).bytes = Json.bytes (Number.int i).text.toList := by
  rw [bytes_intText, Literal.bytes, fractionBytes, exponentBytes, ofInt]
  simp [decimalDigits]

theorem Literal.value?_ofInt {i : Int} (hi : (Number.int i).InRange) :
    (Literal.ofInt i).value? = some (.int i) := by
  obtain ⟨hlow, hhigh⟩ := hi
  have hint : (Literal.ofInt i).int? = some i := by
    rw [int?, ofInt]
    simp only [value_decimalDigits, Option.isNone_none, and_self, if_true, decide_eq_true_eq]
    by_cases hneg : i < 0
    · rw [if_pos hneg, if_neg (by omega)]
      exact congrArg some (by omega)
    · rw [if_neg hneg, if_pos (by omega)]
      exact congrArg some (by omega)
  rw [value?, hint]

end Switchboard.Json
