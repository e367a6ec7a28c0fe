import Switchboard.Codec
import Switchboard.Proofs.JsonCanonical

/-!
Answers survive the wire: the JSON codec reads a printed answer as the answer it was, as
long as its value has no floating number and is nested at most 126 deep, one level less
than a text allows because the answer itself is an object. A deeper value is refused.
Whatever the codec makes of a frame is of this kind.
-/
namespace Switchboard

namespace Json

/-- A value as it is kept in memory: the members of every object are sorted by name, no
name is repeated, and whole numbers fit 64 bits. -/
structure IsStored (v : Json) : Prop where
  canonical : v.canonical = v
  inRange : ∀ n ∈ v.numbers, n.InRange

def FloatFree (v : Json) : Prop := ∀ bits, Number.float bits ∉ v.numbers

theorem FloatFree.isWhole {v : Json} (h : v.FloatFree) (hrange : ∀ n ∈ v.numbers, n.InRange) :
    v.IsWhole := by
  intro n hn
  cases n with
  | int i => exact ⟨i, rfl, hrange _ hn⟩
  | float bits => exact absurd hn (h bits)

theorem readNatural_int {n limit : Nat} (hn : n < limit) (hlimit : limit ≤ UInt64.size)
    (expected : String) {rest : Bytes} (hrest : EndsNumber rest) :
    readNatural limit expected (bytes (number (.int n)).chars ++ rest) = .ok (n, rest) := by
  have hrange : (Number.int n).InRange := by
    have hfull : UInt64.size = 18446744073709551616 := rfl
    exact ⟨by omega, by omega⟩
  have hwhole : (number (.int n)).IsWhole := fun _ hm => ⟨n, List.mem_singleton.mp hm, hrange⟩
  have hnatural : toNatural limit expected (number (.int n)) = .ok n := by
    rw [toNatural, natural, if_pos ⟨by omega, by omega⟩, Int.toNat_natCast]
  have hyields := yields_readNatural (spells_chars hwhole (Nat.zero_le 0)) limit expected hrest
  rwa [hnatural] at hyields

end Json

namespace Body

/-- The value of an answer, if it has one. -/
def value? : Body → Option Json
  | value v => some v
  | _ => none

end Body

namespace Response

open Json

/-! Printed answers -/

/-- What the reader of answers makes of one printed member. -/
def Members.add (m : Members) (member : String × Json) : Option Members :=
  if member.1 = "callbackIdx" then
    match member.2 with
    | .number (.int i) =>
      if m.id.isSome then none else some { m with id := some ⟨UInt32.ofNat i.toNat⟩ }
    | _ => none
  else if member.2.depth ≤ 126 then some { m with others := member :: m.others }
  else none

theorem yields_id (m : Members) (id : RequestId) {rest : Bytes} (hrest : EndsNumber rest) :
    Yields
      (readMember m "callbackIdx" (58 :: (bytes (number (.int id.val.toNat)).chars ++ rest)))
      (m.add ("callbackIdx", number (.int id.val.toNat))) rest := by
  rw [readMember, if_pos rfl, Members.add, if_pos rfl, afterColon_colon,
    readNatural_int id.val.toNat_lt (by decide) "u32" hrest]
  simp only [next, Int.toNat_natCast, UInt32.ofNat_toNat]
  split
  · exact ⟨_, rfl⟩
  · rfl

theorem yields_other (m : Members) {name : String} (hname : name ≠ "callbackIdx") {v : Json}
    (hv : v.IsWhole) {rest : Bytes} (hrest : EndsNumber rest) :
    Yields (readMember m name (58 :: (bytes v.chars ++ rest))) (m.add (name, v)) rest := by
  rw [readMember, if_neg hname, Members.add, if_neg hname, afterColon_colon]
  exact (readValue_chars 126 hv hrest).map fun v => { m with others := (name, v) :: m.others }

/-- The members of an answer behind its identifier. -/
def bodyMembers (r : Response) : List (String × Json) :=
  ("type", .string r.body.kind.name) :: r.body.members

theorem toJson_eq (r : Response) :
    r.toJson = object (("callbackIdx", number (.int r.id.val.toNat)) :: r.bodyMembers) := rfl

theorem ne_callbackIdx_of_mem {r : Response} :
    ∀ m ∈ r.bodyMembers, m.1 ≠ "callbackIdx" := by
  obtain ⟨id, body⟩ := r
  cases body <;> simp [bodyMembers, Body.members]

theorem forall_bodyMembers_iff {P : Json → Prop} (hstring : ∀ s, P (string s)) {r : Response} :
    (∀ m ∈ r.bodyMembers, P m.2) ↔ ∀ v ∈ r.body.value?, P v := by
  obtain ⟨id, body⟩ := r
  cases body <;> simp [bodyMembers, Body.members, Body.value?, hstring]

/-- Members other than the identifier are kept unless one is nested too deep. -/
theorem foldlM_add {members : List (String × Json)} (hnames : ∀ m ∈ members, m.1 ≠ "callbackIdx")
    (m : Members) :
    members.foldlM Members.add m =
      if ∀ x ∈ members, x.2.depth ≤ 126 then some { m with others := members.reverse ++ m.others }
      else none := by
  induction members generalizing m with
  | nil => rfl
  | cons x members ih =>
    have hx : m.add x =
        if x.2.depth ≤ 126 then some { m with others := x :: m.others } else none := by
      rw [Members.add, if_neg (hnames x (List.mem_cons_self ..))]
    rw [List.foldlM_cons, hx]
    by_cases hdepth : x.2.depth ≤ 126
    · have hall : (∀ y ∈ x :: members, y.2.depth ≤ 126) ↔ ∀ y ∈ members, y.2.depth ≤ 126 :=
        List.forall_mem_cons.trans (and_iff_right hdepth)
      rw [if_pos hdepth, Option.bind_eq_bind, Option.bind_some,
        ih fun y hy => hnames y (List.mem_cons_of_mem _ hy),
        if_congr hall rfl rfl, List.reverse_cons, List.append_assoc]
      rfl
    · rw [if_neg hdepth, if_neg fun h => hdepth (h x (List.mem_cons_self ..))]
      rfl

theorem ofMembers_bodyMembers {r : Response} (h : ∀ v ∈ r.body.value?, v.canonical = v) :
    Body.ofMembers r.bodyMembers = .ok r.body := by
  obtain ⟨id, body⟩ := r
  cases body with
  | ok => rfl
  | nil => rfl
  | value v =>
    have hread : Body.ofMembers (bodyMembers ⟨id, .value v⟩) = .ok (.value v.canonical) := rfl
    rw [hread, h v rfl]
  | requestError kind message => cases kind <;> rfl
  | closingError message => rfl

/-- The answer that the members of an object make. -/
def Members.answer (m : Members) (s : Bytes) : Json.Result Response :=
  match m.id with
  | none => .error ⟨.mismatch (.missingField "callbackIdx"), s, 0⟩
  | some id =>
    match Body.ofMembers m.others.reverse with
    | .ok body => .ok (⟨id, body⟩, s)
    | .error e => .error ⟨.mismatch e, s, 0⟩

/-- A printed answer is read back as it was, or refused if its value is nested too deep. -/
theorem yields_toJson {r : Response} (hwhole : ∀ v ∈ r.body.value?, v.IsWhole)
    (hcanonical : ∀ v ∈ r.body.value?, v.canonical = v) :
    Yields (read (bytes r.toJson.chars))
      (if ∀ v ∈ r.body.value?, v.depth ≤ 126 then some r else none) [] := by
  have htext : bytes r.toJson.chars = 123 :: (bytes (charsMembers
      (("callbackIdx", number (.int r.id.val.toNat)) :: r.bodyMembers)) ++ [125]) := by
    rw [toJson_eq, chars, bytes_cons, bytes_append]
    rfl
  have hwhole' : ∀ m ∈ r.bodyMembers, m.2.IsWhole :=
    (forall_bodyMembers_iff fun s n hn => absurd hn List.not_mem_nil).mpr hwhole
  have hmembers := @readMembers_charsMembers _ readMember Members.add
    (("callbackIdx", number (.int r.id.val.toNat)) :: r.bodyMembers) (by
      intro m hm state rest hrest
      obtain rfl | hm := List.mem_cons.mp hm
      · exact yields_id state r.id hrest
      · exact yields_other state (ne_callbackIdx_of_mem m hm) (hwhole' m hm) hrest) {} []
  have hid : Members.add {} ("callbackIdx", number (.int r.id.val.toNat)) =
      some { id := some r.id } := by
    rw [Members.add, if_pos rfl]
    simp only [Option.isSome_none, Bool.false_eq_true, if_false, Int.toNat_natCast,
      UInt32.ofNat_toNat]
  have hall : (∀ m ∈ r.bodyMembers, m.2.depth ≤ 126) ↔ ∀ v ∈ r.body.value?, v.depth ≤ 126 :=
    forall_bodyMembers_iff (P := fun v => v.depth ≤ 126) fun _ => Nat.zero_le _
  rw [List.foldlM_cons, hid, Option.bind_eq_bind, Option.bind_some,
    foldlM_add ne_callbackIdx_of_mem, List.append_nil, if_congr hall rfl rfl] at hmembers
  have hread : ∀ s, read (123 :: s) = next (readMembers readMember {} s) Members.answer :=
    fun _ => rfl
  rw [htext, hread]
  by_cases hdepth : ∀ v ∈ r.body.value?, v.depth ≤ 126
  · rw [if_pos hdepth] at hmembers ⊢
    have h : readMembers _ _ _ = .ok _ := hmembers
    rw [h, next]
    simp only [Members.answer, List.reverse_reverse, ofMembers_bodyMembers hcanonical]
    rfl
  · rw [if_neg hdepth] at hmembers ⊢
    obtain ⟨f, hf⟩ := hmembers
    exact ⟨f, by rw [hf, next]⟩

/-! What the reader of answers returns -/

theorem mem_of_splitKind {k : Option Body.Kind} {others members left : List (String × Json)}
    {kind : Body.Kind} (h : Body.splitKind k others members = .ok (kind, left)) :
    ∀ m ∈ left, m ∈ others ∨ m ∈ members := by
  induction members generalizing k others with
  | nil =>
    cases k with
    | none => cases h
    | some k =>
      cases h
      exact fun m hm => .inl (List.mem_reverse.mp hm)
  | cons first members ih =>
    obtain ⟨name, v⟩ := first
    intro m hm
    rw [Body.splitKind] at h
    split at h
    · split at h
      · cases h
      · split at h
        · exact (ih h m hm).imp_right (List.mem_cons_of_mem _)
        · cases h
    · obtain hm | hm := ih h m hm
      · obtain rfl | hm := List.mem_cons.mp hm
        · exact .inr (List.mem_cons_self ..)
        · exact .inl hm
      · exact .inr (List.mem_cons_of_mem _ hm)

theorem value_of_fillMember {d d' : Body.ValueDraft} {m : String × Json}
    (h : Body.valueRecord.fillMember d m = .ok d') :
    ∀ v ∈ d'.value, v ∈ d.value ∨ v = m.2.canonical := by
  intro v hv
  unfold Record.fillMember at h
  cases hfind : Body.valueRecord.fields.find? fun f => f.name = m.1 with
  | none =>
    simp only [hfind] at h
    cases h
    exact .inl hv
  | some f =>
    simp only [hfind] at h
    obtain rfl := List.mem_singleton.mp (List.mem_of_find?_eq_some hfind)
    split at h
    · cases h
    · cases h
      cases hv
      exact .inr rfl

theorem value_of_foldlM {members : List (String × Json)} {d d' : Body.ValueDraft}
    (h : members.foldlM Body.valueRecord.fillMember d = .ok d') :
    ∀ v ∈ d'.value, v ∈ d.value ∨ ∃ m ∈ members, v = m.2.canonical := by
  induction members generalizing d with
  | nil =>
    cases h
    exact fun v hv => .inl hv
  | cons m members ih =>
    intro v hv
    rw [List.foldlM_cons] at h
    cases hm : Body.valueRecord.fillMember d m with
    | error e =>
      rw [hm] at h
      cases h
    | ok mid =>
      rw [hm] at h
      obtain hmid | ⟨m', hm', heq⟩ := ih h v hv
      · obtain hd | heq := value_of_fillMember hm v hmid
        · exact .inl hd
        · exact .inr ⟨m, List.mem_cons_self .., heq⟩
      · exact .inr ⟨m', List.mem_cons_of_mem _ hm', heq⟩

theorem ofJson_object_eq_ok {δ α : Type} {record : Record δ α} {members : List (String × Json)}
    {a : α} :
    record.ofJson (.object members) = .ok a ↔
      ∃ d, members.foldlM record.fillMember record.blank = .ok d ∧ record.finish d = .ok a := by
  rw [Record.ofJson]
  cases members.foldlM record.fillMember record.blank with
  | error e => simp [bind, Except.bind]
  | ok d => simp [bind, Except.bind]

theorem value_of_ofMembers {members : List (String × Json)} {body : Body}
    (h : Body.ofMembers members = .ok body) :
    ∀ v ∈ body.value?, ∃ m ∈ members, v = m.2.canonical := by
  intro v hv
  unfold Body.ofMembers at h
  cases hsplit : Body.splitKind none [] members with
  | error e =>
    rw [hsplit] at h
    cases h
  | ok p =>
    obtain ⟨kind, left⟩ := p
    rw [hsplit] at h
    have hbody : body = .value v := by
      cases body with
      | value w =>
        cases hv
        rfl
      | ok | nil | requestError | closingError => cases hv
    subst hbody
    have hleft : ∀ m ∈ left, m ∈ members := fun m hm =>
      (mem_of_splitKind hsplit m hm).resolve_left List.not_mem_nil
    cases kind with
    | ok | nil => cases h
    | value =>
      obtain ⟨⟨_ | w⟩, hfold, hfinish⟩ := ofJson_object_eq_ok.mp h
      · cases hfinish
      · cases hfinish
        obtain hw | ⟨m, hm, heq⟩ := value_of_foldlM hfold v rfl
        · cases hw
        · exact ⟨m, hleft m hm, heq⟩
    | requestError | closingError =>
      obtain ⟨⟨kind, _ | message⟩, hfold, hfinish⟩ := ofJson_object_eq_ok.mp h <;> cases hfinish

theorem readable_of_readMembers {s rest : Bytes} {m : Members}
    (h : readMembers readMember {} s = .ok (m, rest)) : ∀ x ∈ m.others, Readable 126 x.2 := by
  refine walkMembers_invariant (P := fun m : Members => ∀ x ∈ m.others, Readable 126 x.2) ?_
    (fun _ hx => absurd hx List.not_mem_nil) h
  intro m name s m' s' hm hmember
  rw [readMember] at hmember
  split at hmember
  · split at hmember
    · cases hmember
    · obtain ⟨n, r, -, hmember⟩ := next_eq_ok hmember
      cases hmember
      exact hm
  · obtain ⟨v, r, hv, hmember⟩ := next_eq_ok hmember
    cases hmember
    exact List.forall_mem_cons.mpr ⟨(readsBelow_readValue 126).afterColon s v _ hv, hm⟩

/-- The value of an answer that was read is canonical and fits the limits of the text. -/
theorem readable_of_parse {s : Bytes} {r : Response} (h : parse s = .ok r) :
    ∀ v ∈ r.body.value?, Readable 126 v ∧ v.canonical = v := by
  have hread : ∃ rest, read s = .ok (r, rest) := by
    rw [parse, readAll] at h
    cases hread : read s with
    | error f =>
      rw [hread] at h
      cases h
    | ok p =>
      rw [hread] at h
      dsimp only at h
      split at h
      · cases h
        exact ⟨_, rfl⟩
      · cases h
  obtain ⟨rest, hread⟩ := hread
  unfold read at hread
  split at hread
  · cases hread
  · obtain ⟨m, s', hm, hread⟩ := next_eq_ok hread
    split at hread
    · cases hread
    · cases hbody : Body.ofMembers m.others.reverse with
      | error e =>
        rw [hbody] at hread
        cases hread
      | ok body =>
        rw [hbody] at hread
        cases hread
        intro v hv
        obtain ⟨x, hx, rfl⟩ := value_of_ofMembers hbody v hv
        have hreadable := readable_of_readMembers hm x (List.mem_reverse.mp hx)
        exact ⟨hreadable.canonical, canonical_canonical x.2⟩
  · cases hread

end Response

namespace Codec

open Json

/-- The frame in which an answer travels. -/
def answer (r : Response) : Frame := r.toJson.text.toUTF8

theorem deserialize_json (f : Frame) :
    json.deserialize f =
      match Response.parse f.data.toList with
      | .ok r => .ok r
      | .error e => .error (.decode (e.message f.data.toList)) := rfl

/-- An answer is read back if its value is canonical, without floating numbers and nested
at most 126 deep; nested deeper, it is refused. -/
theorem deserialize_answer_of_whole {r : Response} (hwhole : ∀ v ∈ r.body.value?, v.IsWhole)
    (hcanonical : ∀ v ∈ r.body.value?, v.canonical = v) :
    ((∀ v ∈ r.body.value?, v.depth ≤ 126) → json.deserialize (answer r) = .ok r) ∧
      ((∃ v ∈ r.body.value?, 126 < v.depth) →
        ∃ m, json.deserialize (answer r) = .error (.decode m)) := by
  have hyields := Response.yields_toJson hwhole hcanonical
  rw [deserialize_json, answer, toList_toUTF8_text, Response.parse, readAll]
  constructor
  · intro hdepth
    rw [if_pos hdepth] at hyields
    have hread : Response.read _ = .ok _ := hyields
    rw [hread]
    rfl
  · rintro ⟨v, hv, hdeep⟩
    rw [if_neg fun h => Nat.not_lt.mpr (h v hv) hdeep] at hyields
    obtain ⟨f, hf⟩ := hyields
    rw [hf]
    exact ⟨_, rfl⟩

/-- Answers without floating numbers are read back if their value is nested at most 126
deep, and refused if it is nested deeper; an answer that was read off any frame is read
back in any case. -/
theorem answer_round_trip (r : Response) (hfloat : ∀ v ∈ r.body.value?, v.FloatFree) :
    ((∀ v ∈ r.body.value?, v.IsStored) →
      ((∀ v ∈ r.body.value?, v.depth ≤ 126) → json.deserialize (answer r) = .ok r) ∧
      ((∃ v ∈ r.body.value?, 126 < v.depth) →
        ∃ m, json.deserialize (answer r) = .error (.decode m))) ∧
    ∀ f, json.deserialize f = .ok r → json.deserialize (answer r) = .ok r := by
  refine ⟨fun hstored => ?_, fun f hf => ?_⟩
  · exact deserialize_answer_of_whole (fun v hv => (hfloat v hv).isWhole (hstored v hv).inRange)
      fun v hv => (hstored v hv).canonical
  · have hparse : Response.parse f.data.toList = .ok r := by
      rw [deserialize_json] at hf
      split at hf
      · cases hf
        assumption
      · cases hf
    have hreadable := Response.readable_of_parse hparse
    refine (deserialize_answer_of_whole (fun v hv => ?_) fun v hv => (hreadable v hv).2).1
      fun v hv => (hreadable v hv).1.1
    exact (hfloat v hv).isWhole (hreadable v hv).1.2

/-- The extreme whole numbers and a text to be escaped, inside the given number of arrays. -/
def boxed : Nat → Json
  | 0 => .object [("a", .number (.int (-9223372036854775808))),
      ("b", .number (.int 18446744073709551615)), ("c", .string "\"\\\n\u0001 é")]
  | n + 1 => .array [boxed n]

theorem depth_boxed (n : Nat) : (boxed n).depth = n + 1 := by
  induction n with
  | zero => rfl
  | succ n ih =>
    rw [boxed, depth, depthItems, depthItems, ih]
    rfl

theorem numbers_boxed (n : Nat) :
    (boxed n).numbers = [.int (-9223372036854775808), .int 18446744073709551615] := by
  induction n with
  | zero => rfl
  | succ n ih =>
    rw [boxed, numbers, numbersItems, numbersItems, ih]
    rfl

theorem isStored_boxed (n : Nat) : (boxed n).IsStored := by
  refine ⟨?_, fun m hm => ?_⟩
  · induction n with
    | zero => rfl
    | succ n ih => rw [boxed, canonical, canonicalItems, canonicalItems, ih]
  · rw [numbers_boxed] at hm
    simp only [List.mem_cons, List.not_mem_nil, or_false] at hm
    obtain rfl | rfl := hm <;> simp [Number.InRange]

/-- A value in 125 arrays around an object is read back, in 126 arrays it is refused. -/
theorem boxed_answers_read_back :
    json.deserialize (answer ⟨⟨7⟩, .value (boxed 125)⟩) = .ok ⟨⟨7⟩, .value (boxed 125)⟩ ∧
      ∃ m, json.deserialize (answer ⟨⟨7⟩, .value (boxed 126)⟩) = .error (.decode m) := by
  have hfree : ∀ n, ∀ v ∈ (Body.value (boxed n)).value?, v.FloatFree := by
    rintro n _ ⟨⟩ bits
    simp [numbers_boxed]
  have hstored : ∀ n, ∀ v ∈ (Body.value (boxed n)).value?, v.IsStored := by
    rintro n _ ⟨⟩
    exact isStored_boxed n
  refine ⟨?_, ?_⟩
  · refine (answer_round_trip ⟨⟨7⟩, .value (boxed 125)⟩ (hfree 125)).2
      (answer ⟨⟨7⟩, .value (boxed 125)⟩) ?_
    refine ((answer_round_trip _ (hfree 125)).1 (hstored 125)).1 ?_
    rintro _ ⟨⟩
    exact Nat.le_of_eq (depth_boxed 125)
  · refine ((answer_round_trip _ (hfree 126)).1 (hstored 126)).2 ⟨boxed 126, rfl, ?_⟩
    rw [depth_boxed]
    decide

end Codec

end Switchboard
