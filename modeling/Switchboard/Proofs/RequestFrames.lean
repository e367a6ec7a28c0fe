import Switchboard.Codec
import Switchboard.Proofs.JsonText

/-!
Frames of requests as the JSON codec writes them. The identifier is the first member, so
whoever receives a frame finds its digits behind a fixed beginning. A frame is as long as
each argument of its command at least: arguments are written out, however long they are.
-/
namespace Switchboard

namespace Codec

/-- What every request of the JSON codec begins with. -/
def requestHead : List Char := '{' :: (Json.quoted "callbackIdx" ++ [':'])

/-- The identifier that a frame of the JSON codec was sent under. -/
def requestId? (f : Frame) : Option RequestId :=
  f.utf8Decode?.map fun cs =>
    let digits := (cs.toList.drop requestHead.length).takeWhile Char.isDigit
    ⟨UInt32.ofNat (Nat.ofDigitChars 10 digits 0)⟩

theorem takeWhile_isDigit_toDigits (n : Nat) (rest : List Char) :
    (Nat.toDigits 10 n ++ ',' :: rest).takeWhile Char.isDigit = Nat.toDigits 10 n := by
  have hdigits : ∀ c ∈ Nat.toDigits 10 n, c.isDigit = true := by
    intro c hc
    exact Nat.isDigit_of_mem_toDigits (by decide) (by decide) hc
  rw [List.takeWhile_append_of_pos hdigits, List.takeWhile_cons_of_neg (by decide),
    List.append_nil]

theorem chars_envelope (id : RequestId) (p : Payload) :
    ∃ rest, Json.chars (p.envelope id) =
      requestHead ++ (Nat.toDigits 10 id.val.toNat ++ ',' :: rest) := by
  have hdigits : (Number.int id.val.toNat).text.toList = Nat.toDigits 10 id.val.toNat := by
    rw [Number.text, Number.intText, if_neg (by omega), Int.natAbs_natCast, Nat.toList_repr]
  have hchars : Json.chars (p.envelope id) =
      '{' :: (Json.quoted "callbackIdx" ++ ':' :: ((Number.int id.val.toNat).text.toList ++
        ',' :: (Json.quoted "request" ++ ':' :: (Json.chars p.toJson ++ []))) ++ ['}']) := rfl
  refine ⟨Json.quoted "request" ++ ':' :: (Json.chars p.toJson ++ ['}']), ?_⟩
  rw [hchars, hdigits]
  simp only [requestHead, List.cons_append, List.nil_append, List.append_assoc]

/-- A companion finds the identifier of every request that the JSON codec writes. -/
theorem requestId?_json {id : RequestId} {p : Payload} {f : Frame}
    (h : json.serialize id p = .ok f) : requestId? f = some id := by
  obtain ⟨rest, hrest⟩ := chars_envelope id p
  have hf : f = (Json.chars (p.envelope id)).utf8Encode := by
    have hok : Except.ok (p.envelope id).text.toUTF8 = Except.ok f := h
    rw [← Except.ok.inj hok, Json.text, String.toUTF8_eq_toByteArray,
      String.toByteArray_ofList]
  rw [requestId?, hf, List.utf8Decode?_utf8Encode, hrest]
  simp only [Option.map_some, List.drop_left, takeWhile_isDigit_toDigits,
    Nat.ofDigitChars_ten_toDigits]
  rw [UInt32.ofNat_toNat]

end Codec

/-! How long a text is -/

theorem length_le_length_flatMap {α β : Type} {f : α → List β} (hf : ∀ a, f a ≠ [])
    (l : List α) : l.length ≤ (l.flatMap f).length := by
  induction l with
  | nil => exact Nat.le_refl _
  | cons a l ih =>
    have hfirst := List.length_pos_iff.mpr (hf a)
    rw [List.flatMap_cons, List.length_append, List.length_cons]
    omega

namespace Json

theorem escape_ne_nil (c : Char) : escape c ≠ [] := by
  unfold escape
  repeat' split
  all_goals exact List.cons_ne_nil _ _

theorem length_le_chars_string (s : String) : s.length ≤ (string s).chars.length := by
  have hescaped := length_le_length_flatMap escape_ne_nil s.toList
  simp only [chars, quoted, List.length_cons, List.length_append, List.length_nil]
  rw [String.length_toList] at hescaped
  omega

theorem length_chars_le_more_items {items : List Json} {v : Json} (hv : v ∈ items) :
    v.chars.length ≤ (charsMoreItems items).length := by
  induction items with
  | nil => exact absurd hv List.not_mem_nil
  | cons w items ih =>
    simp only [charsMoreItems, List.length_cons, List.length_append]
    rcases List.mem_cons.mp hv with rfl | hmem
    · omega
    · have hlater := ih hmem
      omega

theorem length_chars_le_array {items : List Json} {v : Json} (hv : v ∈ items) :
    v.chars.length ≤ (array items).chars.length := by
  cases items with
  | nil => exact absurd hv List.not_mem_nil
  | cons w items =>
    simp only [chars, charsItems, List.length_cons, List.length_append, List.length_nil]
    rcases List.mem_cons.mp hv with rfl | hmem
    · omega
    · have hlater := length_chars_le_more_items hmem
      omega

theorem length_chars_le_more_members {members : List (String × Json)} {m : String × Json}
    (hm : m ∈ members) : m.2.chars.length ≤ (charsMoreMembers members).length := by
  induction members with
  | nil => exact absurd hm List.not_mem_nil
  | cons n members ih =>
    simp only [charsMoreMembers, List.length_cons, List.length_append]
    rcases List.mem_cons.mp hm with rfl | hmem
    · omega
    · have hlater := ih hmem
      omega

theorem length_chars_le_object {members : List (String × Json)} {m : String × Json}
    (hm : m ∈ members) : m.2.chars.length ≤ (object members).chars.length := by
  cases members with
  | nil => exact absurd hm List.not_mem_nil
  | cons n members =>
    simp only [chars, charsMembers, List.length_cons, List.length_append, List.length_nil]
    rcases List.mem_cons.mp hm with rfl | hmem
    · omega
    · have hlater := length_chars_le_more_members hmem
      omega

theorem length_chars_le_size (v : Json) : v.chars.length ≤ v.text.toUTF8.size := by
  have hencoded := length_le_length_flatMap
    (fun c => List.ne_nil_of_length_pos (String.length_utf8EncodeChar c ▸ c.utf8Size_pos)) v.chars
  rw [← ByteArray.size_data, ← Array.length_toList, toList_toUTF8_text]
  exact hencoded

end Json

namespace Codec

/-- No argument is too long for the JSON codec, and the frame is longer still. -/
theorem length_le_size_of_mem_args {id : RequestId} {c : Command} {f : Frame}
    (hf : json.serialize id (.command c) = .ok f) {arg : String} (harg : arg ∈ c.args) :
    arg.length ≤ f.size := by
  have hargs : ("args", Json.array (c.args.map .string)) ∈
      ("kind", Json.string (Payload.command c).kind.name) :: (Payload.command c).members :=
    List.mem_cons_of_mem _ (List.mem_cons_of_mem _ (List.mem_cons_self ..))
  have hrequest : ("request", (Payload.command c).toJson) ∈
      [("callbackIdx", Json.nat id.val.toNat), ("request", (Payload.command c).toJson)] :=
    List.mem_cons_of_mem _ (List.mem_cons_self ..)
  have hok : Except.ok ((Payload.command c).envelope id).text.toUTF8 = Except.ok f := hf
  rw [← Except.ok.inj hok]
  calc arg.length ≤ (Json.string arg).chars.length := Json.length_le_chars_string arg
    _ ≤ (Json.array (c.args.map .string)).chars.length :=
      Json.length_chars_le_array (List.mem_map_of_mem harg)
    _ ≤ (Payload.command c).toJson.chars.length := Json.length_chars_le_object hargs
    _ ≤ ((Payload.command c).envelope id).chars.length := Json.length_chars_le_object hrequest
    _ ≤ _ := Json.length_chars_le_size _

end Codec

end Switchboard
