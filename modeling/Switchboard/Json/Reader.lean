import Switchboard.Json.Scan

/-!
Reading JSON text. Arrays and objects are walked item by item and member by member; what
is done with each is up to the caller, so that a caller may take a member off the text
itself. Arrays and objects may be nested 127 deep.
-/
namespace Switchboard.Json

/-- Walks the items of an array after its opening bracket. Every item takes at least one
byte, so the length of the text bounds their number. -/
def walkItems {σ : Type} (item : σ → Bytes → Result σ) : Nat → Bool → σ → Bytes → Result σ
  | 0, _, _, s => .error ⟨.tooDeep, s, 0⟩
  | fuel + 1, first, state, s =>
    match skipBlanks s with
    | [] => .error ⟨.endInList, [], 0⟩
    | b :: r =>
      if b = 93 then .ok (state, r)
      else if first then
        next (item state (b :: r)) (walkItems item fuel false)
      else if b = 44 then
        match skipBlanks r with
        | [] => .error ⟨.endInValue, [], 0⟩
        | c :: r =>
          if c = 93 then .error ⟨.trailingComma, r, 0⟩
          else next (item state (c :: r)) (walkItems item fuel false)
      else .error ⟨.expectedCommaOrBracket, r, 0⟩

/-- Walks an array after its opening bracket. -/
def readItems {σ : Type} (item : σ → Bytes → Result σ) (state : σ) (s : Bytes) : Result σ :=
  walkItems item (s.length + 1) true state s

/-- Walks the members of an object after its opening brace. The text handed to `member`
starts right after the name. -/
def walkMembers {σ : Type} (member : σ → String → Bytes → Result σ) :
    Nat → Bool → σ → Bytes → Result σ
  | 0, _, _, s => .error ⟨.tooDeep, s, 0⟩
  | fuel + 1, first, state, s =>
    match skipBlanks s with
    | [] => .error ⟨.endInObject, [], 0⟩
    | b :: r =>
      if b = 125 then .ok (state, r)
      else if first then
        if b = 34 then
          next (next (readString r) (member state)) (walkMembers member fuel false)
        else .error ⟨.keyNotString, r, 0⟩
      else if b = 44 then
        match skipBlanks r with
        | [] => .error ⟨.endInValue, [], 0⟩
        | c :: r =>
          if c = 34 then
            next (next (readString r) (member state)) (walkMembers member fuel false)
          else if c = 125 then .error ⟨.trailingComma, r, 0⟩
          else .error ⟨.keyNotString, r, 0⟩
      else .error ⟨.expectedCommaOrBrace, r, 0⟩

/-- Walks an object after its opening brace. -/
def readMembers {σ : Type} (member : σ → String → Bytes → Result σ) (state : σ) (s : Bytes) :
    Result σ :=
  walkMembers member (s.length + 1) true state s

/-- Goes on after the colon that follows a name. -/
def afterColon {α : Type} (s : Bytes) (read : Bytes → Result α) : Result α :=
  match skipBlanks s with
  | [] => .error ⟨.endInObject, [], 0⟩
  | b :: r => if b = 58 then read r else .error ⟨.expectedColon, r, 0⟩

/-- Reads a value whose arrays and objects hold what `inner` reads; without `inner` none
may be opened. -/
def readValueWith (inner : Option (Bytes → Result Json)) (s : Bytes) : Result Json :=
  match skipBlanks s with
  | [] => .error ⟨.endInValue, [], 0⟩
  | 110 :: r => (readWord [117, 108, 108] r).map fun s => (.null, s)
  | 116 :: r => (readWord [114, 117, 101] r).map fun s => (.bool true, s)
  | 102 :: r => (readWord [97, 108, 115, 101] r).map fun s => (.bool false, s)
  | 34 :: r => next (readString r) fun t s => .ok (.string t, s)
  | 91 :: r =>
    match inner with
    | none => .error ⟨.tooDeep, r, 0⟩
    | some read =>
      next (readItems (fun done s => next (read s) fun v s => .ok (v :: done, s)) [] r)
        fun items s => .ok (.array items.reverse, s)
  | 123 :: r =>
    match inner with
    | none => .error ⟨.tooDeep, r, 0⟩
    | some read =>
      next
        (readMembers
          (fun done name s =>
            next (afterColon s read) fun v s => .ok ((name, v) :: done, s)) [] r)
        fun members s => .ok (.object members.reverse, s)
  | b :: r =>
    if b = 45 || isDigit b then next (readNumber (b :: r)) fun n s => .ok (.number n, s)
    else .error ⟨.expectedValue, r, 0⟩

/-- Reads a value with arrays and objects nested at most `depth` deep. -/
def readValue : Nat → Bytes → Result Json
  | 0 => readValueWith none
  | depth + 1 => readValueWith (some (readValue depth))

/-- How deep arrays and objects may be nested in a text. -/
def maxDepth : Nat := 127

/-- Reads a whole text: nothing but blanks may follow. -/
def readAll {α : Type} (read : Bytes → Result α) (s : Bytes) : Except Fault α :=
  match read s with
  | .error f => .error f
  | .ok (v, s) =>
    match skipBlanks s with
    | [] => .ok v
    | _ :: r => .error ⟨.trailingCharacters, r, 0⟩

/-- The value a text stands for, members in the order of the text. -/
def parse (s : Bytes) : Except Fault Json := readAll (readValue maxDepth) s

/-! Reading one value of an expected shape off the text -/

/-- The fault of a value that is not the expected one. A scalar is read first, an array
or an object is left alone. -/
def wrongType (expected : String) (s : Bytes) : Fault :=
  match s with
  | 91 :: _ => ⟨.mismatch (.invalidType .sequence expected), s, 0⟩
  | 123 :: _ => ⟨.mismatch (.invalidType .map expected), s, 0⟩
  | _ =>
    match readValue 0 s with
    | .ok (v, s) => ⟨.mismatch (.invalidType v.found expected), s, 0⟩
    | .error f => f

/-- The text after an object that is given up: blanks are passed, and so is the brace. -/
def leaveObject (s : Bytes) : Bytes :=
  match skipBlanks s with
  | 125 :: r => r
  | r => r

/-- The text after an array that is given up. -/
def leaveArray (s : Bytes) : Bytes :=
  match skipBlanks s with
  | 93 :: r => r
  | 44 :: r => skipBlanks r
  | r => r

/-- A number from zero to `limit - 1`, or what is wrong with it. -/
def natural (limit : Nat) (expected : String) (n : Number) : Except Mismatch Nat :=
  match n with
  | .int i =>
    if 0 ≤ i ∧ i < limit then .ok i.toNat else .error (.invalidValue (.number n) expected)
  | .float _ => .error (.invalidType (.number n) expected)

/-- Reads a number below `limit`. -/
def readNatural (limit : Nat) (expected : String) (s : Bytes) : Result Nat :=
  match skipBlanks s with
  | [] => .error ⟨.endInValue, [], 0⟩
  | b :: r =>
    if b = 45 || isDigit b then
      next (readNumber (b :: r)) fun n s =>
        match natural limit expected n with
        | .ok k => .ok (k, s)
        | .error m => .error ⟨.mismatch m, s, 0⟩
    else .error (wrongType expected (b :: r))

/-- Reads a string. -/
def readText (expected : String) (s : Bytes) : Result String :=
  match skipBlanks s with
  | [] => .error ⟨.endInValue, [], 0⟩
  | 34 :: r => readString r
  | r => .error (wrongType expected r)

end Switchboard.Json
