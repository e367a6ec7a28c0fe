import Switchboard.Json.Scan

/-!
Passing over a value that nobody asked for. Its syntax is checked, but not the range of
its numbers, the depth of its nesting, or the code points in its strings.
-/
namespace Switchboard.Json

/-- The part of a passed string the reader is in. -/
inductive SkippedSpelling where
  | plain
  | escaped
  | hex (digits : List UInt8)

/-- Passes over a string after its opening quote. -/
def skipStringFrom : SkippedSpelling → Bytes → Except Fault Bytes
  | _, [] => .error ⟨.endInString, [], 0⟩
  | .plain, b :: s =>
    if b = 34 then .ok s
    else if b = 92 then skipStringFrom .escaped s
    else if b < 32 then .error ⟨.controlCharacter, b :: s, 0⟩
    else skipStringFrom .plain s
  | .escaped, b :: s =>
    if b = 117 then skipStringFrom (.hex []) s
    else if (shortEscape? b).isSome then skipStringFrom .plain s
    else .error ⟨.invalidEscape, s, 0⟩
  | .hex digits, b :: s =>
    if digits.length < 3 then skipStringFrom (.hex (digits ++ [b])) s
    else if (hexNumber? (digits ++ [b])).isSome then skipStringFrom .plain s
    else .error ⟨.invalidEscape, s, 0⟩

def skipString (s : Bytes) : Except Fault Bytes := skipStringFrom .plain s

/-- Passes over what follows the letter of an exponent. -/
def skipExponent (s : Bytes) : Except Fault Bytes :=
  let s := match s with
    | 43 :: r => r
    | 45 :: r => r
    | r => r
  match s with
  | [] => .error ⟨.invalidNumber, [], 0⟩
  | d :: r => if isDigit d then .ok (r.dropWhile isDigit) else .error ⟨.invalidNumber, r, 0⟩

/-- Passes over what follows the whole digits of a number. -/
def skipAfterDigits (s : Bytes) : Except Fault Bytes :=
  match s with
  | 46 :: r =>
    if (r.takeWhile isDigit).isEmpty then .error (.peek .invalidNumber r)
    else
      match r.dropWhile isDigit with
      | 69 :: r => skipExponent r
      | 101 :: r => skipExponent r
      | r => .ok r
  | 69 :: r => skipExponent r
  | 101 :: r => skipExponent r
  | _ => .ok s

/-- Passes over a number without its sign. -/
def skipMagnitude (s : Bytes) : Except Fault Bytes :=
  match s with
  | [] => .error ⟨.invalidNumber, [], 0⟩
  | 48 :: r =>
    match r with
    | d :: _ => if isDigit d then .error (.peek .invalidNumber r) else skipAfterDigits r
    | [] => .ok []
  | d :: r =>
    if isDigit d then skipAfterDigits (r.dropWhile isDigit) else .error ⟨.invalidNumber, r, 0⟩

/-- What an array or object looks for at the next byte. -/
inductive Passage where
  /-- A value. -/
  | value
  /-- The name of a member. -/
  | name
  /-- The close of what was just opened, or its first item. -/
  | first
  /-- A comma or the close after an item. -/
  | more

/-- Passes over a value. The open arrays (`true`) and objects (`false`) are listed with the
innermost first. Every round takes a byte or turns from an opening to its first item, so
twice the length of the text bounds the rounds. -/
def skipFrom : Nat → Passage → List Bool → Bytes → Except Fault Bytes
  | 0, _, _, s => .error ⟨.tooDeep, s, 0⟩
  | fuel + 1, .value, nest, s =>
    let done (r : Bytes) := if nest.isEmpty then .ok r else skipFrom fuel .more nest r
    match skipBlanks s with
    | [] => .error ⟨.endInValue, [], 0⟩
    | 110 :: r => readWord [117, 108, 108] r >>= done
    | 116 :: r => readWord [114, 117, 101] r >>= done
    | 102 :: r => readWord [97, 108, 115, 101] r >>= done
    | 34 :: r => skipString r >>= done
    | 45 :: r => skipMagnitude r >>= done
    | 91 :: r => skipFrom fuel .first (true :: nest) r
    | 123 :: r => skipFrom fuel .first (false :: nest) r
    | b :: r =>
      if isDigit b then skipMagnitude (b :: r) >>= done else .error ⟨.expectedValue, r, 0⟩
  | fuel + 1, .name, nest, s =>
    match skipBlanks s with
    | [] => .error ⟨.endInObject, [], 0⟩
    | 34 :: r => do
      match skipBlanks (← skipString r) with
      | [] => .error ⟨.endInObject, [], 0⟩
      | 58 :: r => skipFrom fuel .value nest r
      | _ :: r => .error ⟨.expectedColon, r, 0⟩
    | _ :: r => .error ⟨.keyNotString, r, 0⟩
  | _ + 1, _, [], s => .ok s
  | fuel + 1, stage, isArray :: nest, s =>
    match skipBlanks s with
    | [] => .error ⟨if isArray then .endInList else .endInObject, [], 0⟩
    | b :: r =>
      if b = (if isArray then 93 else 125) then
        if nest.isEmpty then .ok r else skipFrom fuel .more nest r
      else
        let next : Passage := if isArray then .value else .name
        match stage with
        | .first => skipFrom fuel next (isArray :: nest) (b :: r)
        | _ =>
          if b = 44 then skipFrom fuel next (isArray :: nest) r
          else
            .error ⟨if isArray then .expectedCommaOrBracket else .expectedCommaOrBrace, r, 0⟩

/-- Passes over one value. -/
def skipValue (s : Bytes) : Except Fault Bytes := skipFrom (2 * s.length + 2) .value [] s

end Switchboard.Json
