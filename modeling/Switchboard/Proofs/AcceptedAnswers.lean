import Switchboard.Proofs.ResponseRoundTrip

/-!
Which answers are accepted. The members of the text of an object are taken in any order and
with all repetitions. The codec accepts the text exactly when one member gives the
identifier, one the kind of the body, and the fields of that body are there, each once;
members that the body does not know are passed over. Walks that take a member of one name
once, and collect or pass over the others, are described by the values of that name.
-/
namespace Switchboard

namespace Json

/-! Members by name -/

/-- The values of the members with a name, in their order. -/
def named (name : String) (members : List (String × Json)) : List Json :=
  (members.filter fun m => m.1 = name).map Prod.snd

/-- The members with other names. -/
def unnamed (name : String) (members : List (String × Json)) : List (String × Json) :=
  members.filter fun m => m.1 ≠ name

theorem named_cons_of_eq {name : String} {m : String × Json} (h : m.1 = name)
    (members : List (String × Json)) :
    named name (m :: members) = m.2 :: named name members := by
  rw [named, List.filter_cons_of_pos (by simp [h]), List.map_cons, named]

theorem named_cons_self (name : String) (v : Json) (members : List (String × Json)) :
    named name ((name, v) :: members) = v :: named name members :=
  named_cons_of_eq rfl members

theorem named_cons_of_ne {name : String} {m : String × Json} (h : m.1 ≠ name)
    (members : List (String × Json)) : named name (m :: members) = named name members := by
  rw [named, List.filter_cons_of_neg (by simp [h]), named]

theorem named_unnamed {name other : String} (h : name ≠ other) (members : List (String × Json)) :
    named name (unnamed other members) = named name members := by
  rw [named, named, unnamed, List.filter_filter]
  refine congrArg (List.map Prod.snd) (List.filter_congr fun m _ => ?_)
  by_cases hm : m.1 = name
  · simp [hm, h]
  · simp [hm]

/-! Repeated names in a value -/

theorem named_eq_nil {name : String} {members : List (String × Json)}
    (h : ∀ m ∈ members, name < m.1) : named name members = [] := by
  rw [named, List.filter_eq_nil_iff.mpr, List.map_nil]
  intro m hm
  simpa using ne_of_gt (h m hm)

theorem named_put_self (name : String) (value : Json) {done : List (String × Json)}
    (h : Sorted done) : named name (put name value done) = [value] := by
  induction done with
  | nil => exact named_cons_self name value []
  | cons first done ih =>
    obtain ⟨n, v⟩ := first
    obtain ⟨hfirst, hdone⟩ := List.pairwise_cons.mp h
    rw [put]
    split_ifs with hbelow hsame
    · rw [named_cons_of_ne (ne_of_lt hbelow), ih hdone]
    · subst hsame
      rw [named_cons_self, named_eq_nil hfirst]
    · have hlt : name < n := lt_of_le_of_ne (not_lt.mp hbelow) (Ne.symm hsame)
      rw [named_cons_self, named_eq_nil]
      intro m hm
      obtain rfl | hm := List.mem_cons.mp hm
      · exact hlt
      · exact lt_trans hlt (hfirst m hm)

theorem named_put_of_ne {name other : String} (hne : other ≠ name) (value : Json)
    (done : List (String × Json)) : named name (put other value done) = named name done := by
  induction done with
  | nil => exact named_cons_of_ne hne []
  | cons first done ih =>
    obtain ⟨n, v⟩ := first
    rw [put]
    split_ifs with hbelow hsame
    · by_cases hn : n = name
      · rw [named_cons_of_eq hn, named_cons_of_eq hn, ih]
      · rw [named_cons_of_ne hn, named_cons_of_ne hn, ih]
    · subst hsame
      rw [named_cons_of_ne hne, named_cons_of_ne hne]
    · exact named_cons_of_ne hne _

/-- Of the members with one name, the canonical form keeps the last. -/
theorem named_canonicalMembers (name : String) (members : List (String × Json))
    {done : List (String × Json)} (h : Sorted done) :
    named name (canonicalMembers members done) =
      (named name members).getLast?.elim (named name done) fun v => [v.canonical] := by
  induction members generalizing done with
  | nil => rfl
  | cons first members ih =>
    obtain ⟨n, v⟩ := first
    rw [canonicalMembers, ih (h.put _ _)]
    by_cases hn : n = name
    · subst hn
      rw [named_cons_self, named_put_self _ _ h, List.getLast?_cons]
      cases (named n members).getLast? with
      | none => rfl
      | some w => rfl
    · rw [named_cons_of_ne hn, named_put_of_ne hn]

/-- The canonical form of an object is sorted, and it has the last value of every name. -/
theorem canonical_object (members : List (String × Json)) :
    ∃ kept, (object members).canonical = object kept ∧ Sorted kept ∧
      ∀ name, named name kept = ((named name members).getLast?.map canonical).toList := by
  refine ⟨_, rfl, sorted_canonicalMembers members List.Pairwise.nil, fun name => ?_⟩
  rw [named_canonicalMembers name members List.Pairwise.nil]
  cases (named name members).getLast? with
  | none => rfl
  | some v => rfl

/-! Walks that take a member once -/

section Once

variable {β : Type} {name : String} {read : Json → Option β}

/-- Takes a member with the name, unless one has been taken already or the value is not the
expected one. -/
def hold (name : String) (read : Json → Option β) (held : Option β) (m : String × Json) :
    Option (Option β) :=
  if m.1 = name then
    if held.isSome then none else (read m.2).map some
  else some held

/-- A walk over members ends with none of the name, or with the only one. -/
theorem foldlM_hold {members : List (String × Json)} {held held' : Option β} :
    members.foldlM (hold name read) held = some held' ↔
      (named name members = [] ∧ held' = held) ∨
        (held = none ∧ ∃ v b, named name members = [v] ∧ read v = some b ∧ held' = some b) := by
  induction members generalizing held with
  | nil => simp [named, eq_comm]
  | cons m members ih =>
    rw [List.foldlM_cons, hold]
    by_cases hm : m.1 = name
    · rw [if_pos hm, named_cons_of_eq hm]
      cases held with
      | some b => simp
      | none =>
        cases hread : read m.2 with
        | none => simp [hread]
        | some b => simp [hread, ih]
    · rw [if_neg hm, named_cons_of_ne hm]
      exact ih

/-- A walk that passes over the members with the name and collects the others. -/
theorem foldlM_pass {members others : List (String × Json)} :
    members.foldlM (fun others m => some (if m.1 = name then others else m :: others)) others =
      some ((unnamed name members).reverse ++ others) := by
  induction members generalizing others with
  | nil => rfl
  | cons m members ih =>
    rw [List.foldlM_cons, Option.bind_eq_bind, Option.bind_some, ih]
    by_cases hm : m.1 = name
    · simp [unnamed, hm]
    · simp [unnamed, hm]

/-- A state has two parts, and a step acts on each of them on its own. -/
structure ActsOnParts {α β γ δ : Type} (step : δ → α → Option δ) (first : β → α → Option β)
    (second : γ → α → Option γ) (p : δ → β) (q : δ → γ) : Prop where
  exists_parts : ∀ b c, ∃ d, p d = b ∧ q d = c
  eq_of_parts : ∀ d d', p d = p d' → q d = q d' → d = d'
  step_iff : ∀ d a d', step d a = some d' ↔
    first (p d) a = some (p d') ∧ second (q d) a = some (q d')

theorem ActsOnParts.foldlM {α β γ δ : Type} {step : δ → α → Option δ} {first : β → α → Option β}
    {second : γ → α → Option γ} {p : δ → β} {q : δ → γ}
    (h : ActsOnParts step first second p q) {l : List α} {d d' : δ} :
    l.foldlM step d = some d' ↔
      l.foldlM first (p d) = some (p d') ∧ l.foldlM second (q d) = some (q d') := by
  induction l generalizing d with
  | nil =>
    constructor
    · rintro ⟨⟩
      exact ⟨rfl, rfl⟩
    · rintro ⟨hp, hq⟩
      exact congrArg some (h.eq_of_parts d d' (Option.some.inj hp) (Option.some.inj hq))
  | cons a l ih =>
    simp only [List.foldlM_cons, Option.bind_eq_bind, Option.bind_eq_some_iff]
    constructor
    · rintro ⟨mid, hmid, hl⟩
      obtain ⟨hp, hq⟩ := (h.step_iff d a mid).mp hmid
      obtain ⟨hpl, hql⟩ := ih.mp hl
      exact ⟨⟨p mid, hp, hpl⟩, q mid, hq, hql⟩
    · rintro ⟨⟨b, hb, hbl⟩, c, hc, hcl⟩
      obtain ⟨mid, rfl, rfl⟩ := h.exists_parts b c
      exact ⟨mid, (h.step_iff d a mid).mpr ⟨hb, hc⟩, ih.mpr ⟨hbl, hcl⟩⟩

theorem foldlM_still {α γ : Type} (l : List α) (c : γ) :
    l.foldlM (fun c _ => some c) c = some c := by
  induction l with
  | nil => rfl
  | cons a l ih => exact ih

end Once

theorem eq_ok_iff_toOption {ε α : Type} {x : Except ε α} {a : α} :
    x = .ok a ↔ x.toOption = some a := by
  cases x <;> simp [Except.toOption]

theorem toOption_foldlM {ε α δ : Type} (step : δ → α → Except ε δ) (d : δ) (l : List α) :
    (l.foldlM step d).toOption = l.foldlM (fun d a => (step d a).toOption) d := by
  induction l generalizing d with
  | nil => rfl
  | cons a l ih =>
    rw [List.foldlM_cons, List.foldlM_cons]
    cases step d a with
    | error e => rfl
    | ok d' => exact ih d'

/-! Choices among names -/

theorem toUnit_eq_ok {v : Json} : toUnit v = .ok () ↔ v = .null ∨ v = .object [] := by
  cases v with
  | object members => cases members <;> simp [toUnit]
  | null | bool | number | string | array => simp [toUnit]

namespace Enumeration

variable {α : Type} (e : Enumeration α)

/-- Every case is listed and has a name of its own. -/
structure IsComplete : Prop where
  all : ∀ c, c ∈ e.cases
  unique : ∀ c d, e.name c = e.name d → c = d

/-- The value is the name of the case, or an object with the name and nothing in it. -/
def NamedBy (c : α) (v : Json) : Prop :=
  v = .string (e.name c) ∨ v = .object [(e.name c, .null)] ∨
    v = .object [(e.name c, .object [])]

/-- The value is the name of the case, or its index. -/
def IndexedBy (c : α) (v : Json) : Prop :=
  v = .string (e.name c) ∨ ∃ i : Nat, e.cases[i]? = some c ∧ v = .number (.int i)

variable {e} {c : α} {v : Json}

theorem IsComplete.ofName_eq_ok (h : e.IsComplete) {s : String} :
    e.ofName s = .ok c ↔ s = e.name c := by
  unfold ofName
  cases hfind : e.cases.find? fun c => e.name c = s with
  | some d =>
    have hname : e.name d = s := by simpa using List.find?_some hfind
    constructor
    · rintro ⟨⟩
      exact hname.symm
    · intro hs
      rw [h.unique d c (hname.trans hs)]
  | none =>
    constructor
    · rintro ⟨⟩
    · intro hs
      have hne := List.find?_eq_none.mp hfind c (h.all c)
      exact absurd hs.symm (by simpa using hne)

theorem ofName_toUnit_eq_ok {s : String} {u : Json} :
    (do let c ← e.ofName s; toUnit u; return c) = .ok c ↔
      e.ofName s = .ok c ∧ toUnit u = .ok () := by
  cases e.ofName s with
  | error m => simp [bind, Except.bind]
  | ok d =>
    cases toUnit u with
    | error m => simp [bind, Except.bind]
    | ok => simp [bind, Except.bind, pure, Except.pure]

theorem IsComplete.ofJson_eq_ok (h : e.IsComplete) : e.ofJson v = .ok c ↔ e.NamedBy c v := by
  unfold ofJson NamedBy
  cases v with
  | string s => simp [h.ofName_eq_ok]
  | object members =>
    match members with
    | [(s, u)] =>
      rw [ofName_toUnit_eq_ok, h.ofName_eq_ok, toUnit_eq_ok]
      constructor
      · rintro ⟨rfl, rfl | rfl⟩
        · exact .inr (.inl rfl)
        · exact .inr (.inr rfl)
      · rintro (hv | hv | hv) <;> cases hv
        · exact ⟨rfl, .inl rfl⟩
        · exact ⟨rfl, .inr rfl⟩
    | [] | _ :: _ :: _ => simp
  | null | bool | number | array => simp

theorem IsComplete.ofNameOrIndex_eq_ok (h : e.IsComplete) :
    e.ofNameOrIndex v = .ok c ↔ e.IndexedBy c v := by
  unfold ofNameOrIndex IndexedBy
  cases v with
  | string s => simp [h.ofName_eq_ok]
  | number number =>
    cases number with
    | int i =>
      by_cases hi : 0 ≤ i
      · obtain ⟨n, rfl⟩ := Int.eq_ofNat_of_zero_le hi
        simp only [if_pos hi, Int.toNat_natCast]
        cases hcase : e.cases[n]? with
        | some d =>
          constructor
          · rintro ⟨⟩
            exact .inr ⟨n, hcase, rfl⟩
          · rintro (hv | ⟨j, hj, hv⟩) <;> cases hv
            rw [hcase] at hj
            exact congrArg _ (Option.some.inj hj)
        | none =>
          constructor
          · rintro ⟨⟩
          · rintro (hv | ⟨j, hj, hv⟩) <;> cases hv
            rw [hcase] at hj
            cases hj
      · simp only [if_neg hi]
        constructor
        · rintro ⟨⟩
        · rintro (hv | ⟨j, hj, hv⟩) <;> cases hv
          omega
    | float bits => simp
  | null | bool | array | object => simp

end Enumeration

end Json

open Json

theorem ErrorKind.isComplete : ErrorKind.enumeration.IsComplete := by
  constructor
  · intro c
    cases c <;> simp [enumeration]
  · intro c d h
    cases c <;> cases d <;> first | rfl | exact absurd h (by decide)

/-! Records -/

namespace Json.Record

variable {δ α : Type} {r : Record δ α} {m : String × Json}

theorem toOption_fillMember {f : Field δ}
    (h : r.fields.find? (fun f => f.name = m.1) = some f) (d : δ) :
    (r.fillMember d m).toOption = if f.filled d then none else (f.fill d m.2).toOption := by
  rw [fillMember, h]
  simp only
  split <;> rfl

theorem fillMember_of_find?_eq_none (h : r.fields.find? (fun f => f.name = m.1) = none) (d : δ) :
    r.fillMember d m = .ok d := by
  rw [fillMember, h]

end Json.Record

namespace Body

theorem Kind.isComplete : Kind.enumeration.IsComplete := by
  constructor
  · intro c
    cases c <;> simp [enumeration]
  · intro c d h
    cases c <;> cases d <;> first | rfl | exact absurd h (by decide)

/-! The members of a body -/

theorem toOption_fillMember_value (d : ValueDraft) (m : String × Json) :
    (valueRecord.fillMember d m).toOption =
      (hold "value" (fun v => some v.canonical) d.value m).map ValueDraft.mk := by
  unfold hold
  by_cases hm : m.1 = "value"
  · cases hd : d.value <;>
      simp [Record.fillMember, valueRecord, hm, hd, Except.toOption, pure, Except.pure]
  · simp [Record.fillMember, valueRecord, hm, Ne.symm hm, Except.toOption]

theorem toOption_messageField (d : ErrorDraft) (m : String × Json) (hm : m.1 = "message") :
    (if messageField.filled d then none else (messageField.fill d m.2).toOption) =
      (hold "message" (fun v => (toText v).toOption) d.message m).map (ErrorDraft.mk d.kind) := by
  rw [hold, if_pos hm]
  cases hd : d.message with
  | none =>
    cases htext : toText m.2 <;>
      simp [messageField, hd, htext, Except.toOption, pure, Except.pure, bind, Except.bind]
  | some s => simp [messageField, hd]

theorem toOption_kindField (d : ErrorDraft) (m : String × Json) (hm : m.1 = "kind") :
    (if kindField.filled d then none else (kindField.fill d m.2).toOption) =
      (hold "kind" (fun v => (ErrorKind.enumeration.ofJson v).toOption) d.kind m).map
        fun kind => ErrorDraft.mk kind d.message := by
  rw [hold, if_pos hm]
  cases hd : d.kind with
  | none =>
    cases hkind : ErrorKind.enumeration.ofJson m.2 <;>
      simp [kindField, hd, hkind, Except.toOption, pure, Except.pure, bind, Except.bind]
  | some k => simp [kindField, hd]

theorem toOption_fillMember_closingError (d : ErrorDraft) (m : String × Json) :
    (closingErrorRecord.fillMember d m).toOption =
      (hold "message" (fun v => (toText v).toOption) d.message m).map (ErrorDraft.mk d.kind) := by
  by_cases hm : m.1 = "message"
  · rw [← toOption_messageField d m hm]
    exact Record.toOption_fillMember (by simp [closingErrorRecord, messageField, hm]) d
  · rw [hold, if_neg hm]
    exact congrArg Except.toOption (Record.fillMember_of_find?_eq_none
      (by simp [closingErrorRecord, messageField, Ne.symm hm]) d)

theorem toOption_fillMember_requestError (d : ErrorDraft) (m : String × Json) :
    (requestErrorRecord.fillMember d m).toOption =
      (hold "kind" (fun v => (ErrorKind.enumeration.ofJson v).toOption) d.kind m).bind fun kind =>
        (hold "message" (fun v => (toText v).toOption) d.message m).map (ErrorDraft.mk kind) := by
  by_cases hmessage : m.1 = "message"
  · have hkind : m.1 ≠ "kind" := by simp [hmessage]
    rw [hold, if_neg hkind, Option.bind_some, ← toOption_messageField d m hmessage]
    exact Record.toOption_fillMember
      (by simp [requestErrorRecord, kindField, messageField, hmessage]) d
  · have hother : ∀ read, hold "message" read d.message m = some d.message :=
      fun _ => if_neg hmessage
    rw [hother]
    by_cases hkind : m.1 = "kind"
    · refine (Record.toOption_fillMember (f := kindField)
        (by simp [requestErrorRecord, kindField, hkind]) d).trans ?_
      rw [toOption_kindField d m hkind, Option.map_eq_bind]
      rfl
    · rw [hold, if_neg hkind]
      exact congrArg Except.toOption (Record.fillMember_of_find?_eq_none
        (by simp [requestErrorRecord, kindField, messageField, Ne.symm hmessage, Ne.symm hkind]) d)

variable {members : List (String × Json)} {body : Body}

theorem ofJson_valueRecord :
    valueRecord.ofJson (.object members) = .ok body ↔
      ∃ w, named "value" members = [w] ∧ body = .value w.canonical := by
  have hparts : ActsOnParts (fun d m => (valueRecord.fillMember d m).toOption)
      (hold "value" fun v => some v.canonical) (fun c _ => some c) ValueDraft.value
      fun _ => () := by
    constructor
    · intro b c
      exact ⟨⟨b⟩, rfl, rfl⟩
    · rintro ⟨b⟩ ⟨c⟩ h -
      exact congrArg ValueDraft.mk h
    · intro d m d'
      simp only [toOption_fillMember_value, Option.map_eq_some_iff, and_true]
      constructor
      · rintro ⟨held, hheld, rfl⟩
        exact hheld
      · intro h
        exact ⟨d'.value, h, rfl⟩
  rw [Response.ofJson_object_eq_ok]
  simp only [eq_ok_iff_toOption, toOption_foldlM, hparts.foldlM, foldlM_still, foldlM_hold]
  constructor
  · rintro ⟨⟨d⟩, ⟨⟨-, rfl⟩ | ⟨-, w, v, hw, hv, rfl⟩, -⟩, hfinish⟩
    · cases hfinish
    · cases hv
      cases hfinish
      exact ⟨w, hw, rfl⟩
  · rintro ⟨w, hw, rfl⟩
    exact ⟨⟨some w.canonical⟩, ⟨.inr ⟨rfl, w, w.canonical, hw, rfl, rfl⟩, trivial⟩, rfl⟩

theorem toText_eq_some {v : Json} {s : String} : (toText v).toOption = some s ↔ v = .string s := by
  cases v <;> simp [toText, Except.toOption]

theorem ofJson_closingErrorRecord :
    closingErrorRecord.ofJson (.object members) = .ok body ↔
      ∃ s, named "message" members = [.string s] ∧ body = .closingError s := by
  have hparts : ActsOnParts (fun d m => (closingErrorRecord.fillMember d m).toOption)
      (hold "message" fun v => (toText v).toOption) (fun c _ => some c) ErrorDraft.message
      ErrorDraft.kind := by
    constructor
    · intro b c
      exact ⟨⟨c, b⟩, rfl, rfl⟩
    · rintro ⟨c, b⟩ ⟨c', b'⟩ rfl rfl
      rfl
    · intro d m d'
      simp only [toOption_fillMember_closingError, Option.map_eq_some_iff]
      constructor
      · rintro ⟨held, hheld, rfl⟩
        exact ⟨hheld, rfl⟩
      · rintro ⟨h, hkind⟩
        exact ⟨d'.message, h, by rw [Option.some.inj hkind]⟩
  rw [Response.ofJson_object_eq_ok]
  simp only [eq_ok_iff_toOption, toOption_foldlM, hparts.foldlM, foldlM_still, foldlM_hold,
    toText_eq_some]
  constructor
  · rintro ⟨⟨kind, message⟩, ⟨⟨-, rfl⟩ | ⟨-, v, s, hv, rfl, rfl⟩, -⟩, hfinish⟩
    · cases hfinish
    · cases hfinish
      exact ⟨s, hv, rfl⟩
  · rintro ⟨s, hs, rfl⟩
    exact ⟨⟨none, some s⟩, ⟨.inr ⟨rfl, _, s, hs, rfl, rfl⟩, rfl⟩, rfl⟩

/-- A request error has exactly one message, which is a string, and at most one kind. -/
theorem ofJson_requestErrorRecord :
    requestErrorRecord.ofJson (.object members) = .ok body ↔
      ∃ kind s, named "message" members = [.string s] ∧
        (named "kind" members = [] ∧ kind = .unspecified ∨
          ∃ v, named "kind" members = [v] ∧ ErrorKind.enumeration.NamedBy kind v) ∧
        body = .requestError kind s := by
  have hparts : ActsOnParts (fun d m => (requestErrorRecord.fillMember d m).toOption)
      (hold "kind" fun v => (ErrorKind.enumeration.ofJson v).toOption)
      (hold "message" fun v => (toText v).toOption) ErrorDraft.kind ErrorDraft.message := by
    constructor
    · intro b c
      exact ⟨⟨b, c⟩, rfl, rfl⟩
    · rintro ⟨b, c⟩ ⟨b', c'⟩ rfl rfl
      rfl
    · intro d m d'
      simp only [toOption_fillMember_requestError, Option.bind_eq_some_iff,
        Option.map_eq_some_iff]
      constructor
      · rintro ⟨kind, hkind, message, hmessage, rfl⟩
        exact ⟨hkind, hmessage⟩
      · rintro ⟨hkind, hmessage⟩
        exact ⟨d'.kind, hkind, d'.message, hmessage, rfl⟩
  rw [Response.ofJson_object_eq_ok]
  simp only [eq_ok_iff_toOption, toOption_foldlM, hparts.foldlM, foldlM_hold, toText_eq_some]
  simp only [← eq_ok_iff_toOption, ErrorKind.isComplete.ofJson_eq_ok]
  constructor
  · rintro ⟨⟨kind, message⟩, ⟨hkind, ⟨-, rfl⟩ | ⟨-, v, s, hv, rfl, rfl⟩⟩, hfinish⟩
    · cases hfinish
    · cases hfinish
      refine ⟨_, s, hv, ?_, rfl⟩
      obtain ⟨hnone, rfl⟩ | ⟨-, v, k, hk, hnamed, rfl⟩ := hkind
      · exact .inl ⟨hnone, rfl⟩
      · exact .inr ⟨v, hk, hnamed⟩
  · rintro ⟨kind, s, hs, hkind, rfl⟩
    have hmessage : named "message" members = [] ∧ some s = none ∨
        ((none : Option String) = none ∧
          ∃ v b, named "message" members = [v] ∧ v = .string b ∧ some s = some b) :=
      .inr ⟨rfl, _, s, hs, rfl, rfl⟩
    obtain ⟨hnone, rfl⟩ | ⟨v, hv, hnamed⟩ := hkind
    · exact ⟨⟨none, some s⟩, ⟨.inl ⟨hnone, rfl⟩, hmessage⟩, rfl⟩
    · exact ⟨⟨some kind, some s⟩, ⟨.inr ⟨rfl, v, kind, hv, hnamed, rfl⟩, hmessage⟩, rfl⟩

/-- The kind is taken off the members once, and the others are kept. -/
theorem splitKind_eq_ok {k : Option Kind} {others left : List (String × Json)} {kind : Kind} :
    splitKind k others members = .ok (kind, left) ↔
      members.foldlM (hold "type" fun v => (Kind.enumeration.ofNameOrIndex v).toOption) k =
          some (some kind) ∧
        left = others.reverse ++ unnamed "type" members := by
  induction members generalizing k others with
  | nil =>
    cases k with
    | none => simp [splitKind]
    | some k => simp [splitKind, unnamed, eq_comm]
  | cons m members ih =>
    obtain ⟨name, v⟩ := m
    rw [splitKind, List.foldlM_cons, hold]
    by_cases hname : name = "type"
    · rw [if_pos hname, if_pos hname]
      cases k with
      | some k => simp
      | none =>
        cases Kind.enumeration.ofNameOrIndex v with
        | error e => simp [Except.toOption]
        | ok k => simp [Except.toOption, ih, unnamed, hname]
    · rw [if_neg hname, if_neg hname, Option.bind_eq_bind, Option.bind_some, ih]
      simp [unnamed, hname]

/-- The members a body is made of, besides its kind. -/
def MadeOf (members : List (String × Json)) : Body → Prop
  | ok => True
  | nil => True
  | value v => ∃ w, named "value" members = [w] ∧ v = w.canonical
  | requestError kind message =>
    named "message" members = [.string message] ∧
      (named "kind" members = [] ∧ kind = .unspecified ∨
        ∃ v, named "kind" members = [v] ∧ ErrorKind.enumeration.NamedBy kind v)
  | closingError message => named "message" members = [.string message]

theorem MadeOf.of_perm {members' : List (String × Json)} (h : body.MadeOf members)
    (hperm : ∀ name ∈ ["value", "kind", "message"],
      (named name members').Perm (named name members)) : body.MadeOf members' := by
  have hsingle : ∀ name ∈ ["value", "kind", "message"], ∀ v, named name members = [v] →
      named name members' = [v] := fun name hname v hv =>
    List.perm_singleton.mp (hv ▸ hperm name hname)
  cases body with
  | ok | nil => trivial
  | value v =>
    obtain ⟨w, hw, hv⟩ := h
    exact ⟨w, hsingle "value" (by simp) w hw, hv⟩
  | requestError kind message =>
    obtain ⟨hmessage, hkind⟩ := h
    refine ⟨hsingle "message" (by simp) _ hmessage, ?_⟩
    obtain ⟨hnone, hkind⟩ | ⟨v, hv, hkind⟩ := hkind
    · have hnone' := hperm "kind" (by simp)
      rw [hnone] at hnone'
      exact .inl ⟨List.perm_nil.mp hnone', hkind⟩
    · exact .inr ⟨v, hsingle "kind" (by simp) v hv, hkind⟩
  | closingError message => exact hsingle "message" (by simp) _ h

theorem ofMembers_of_splitKind {k : Kind} {left : List (String × Json)}
    (h : splitKind none [] members = .ok (k, left)) :
    ofMembers members = .ok body ↔ body.kind = k ∧ body.MadeOf left := by
  rw [ofMembers, h]
  cases k with
  | ok | nil =>
    constructor
    · rintro ⟨⟩
      exact ⟨rfl, trivial⟩
    · rintro ⟨hkind, -⟩
      cases body <;> cases hkind
      rfl
  | value =>
    refine ofJson_valueRecord.trans ⟨?_, ?_⟩
    · rintro ⟨w, hw, rfl⟩
      exact ⟨rfl, w, hw, rfl⟩
    · rintro ⟨hkind, hmade⟩
      cases body <;> cases hkind
      obtain ⟨w, hw, rfl⟩ := hmade
      exact ⟨w, hw, rfl⟩
  | requestError =>
    refine ofJson_requestErrorRecord.trans ⟨?_, ?_⟩
    · rintro ⟨kind, message, hmessage, hkind, rfl⟩
      exact ⟨rfl, hmessage, hkind⟩
    · rintro ⟨hkind, hmade⟩
      cases body <;> cases hkind
      exact ⟨_, _, hmade.1, hmade.2, rfl⟩
  | closingError =>
    refine ofJson_closingErrorRecord.trans ⟨?_, ?_⟩
    · rintro ⟨message, hmessage, rfl⟩
      exact ⟨rfl, hmessage⟩
    · rintro ⟨hkind, hmade⟩
      cases body <;> cases hkind
      exact ⟨_, hmade, rfl⟩

/-- Exactly one member gives the kind of a body, and the others make it up. -/
theorem ofMembers_eq_ok :
    ofMembers members = .ok body ↔
      (∃ t, named "type" members = [t] ∧ Kind.enumeration.IndexedBy body.kind t) ∧
        body.MadeOf members := by
  have hnamed : ∀ name ∈ ["value", "kind", "message"],
      named name (unnamed "type" members) = named name members := by
    intro name hname
    refine named_unnamed ?_ members
    rintro rfl
    exact absurd hname (by decide)
  have hsplit : ∀ k left, splitKind none [] members = .ok (k, left) ↔
      (∃ t, named "type" members = [t] ∧ Kind.enumeration.IndexedBy k t) ∧
        left = unnamed "type" members := by
    intro k left
    simp only [splitKind_eq_ok, foldlM_hold, ← eq_ok_iff_toOption,
      Kind.isComplete.ofNameOrIndex_eq_ok, List.reverse_nil, List.nil_append]
    refine and_congr_left fun _ => ⟨?_, ?_⟩
    · rintro (⟨-, hk⟩ | ⟨-, t, k', ht, hk', hk⟩)
      · cases hk
      · cases hk
        exact ⟨t, ht, hk'⟩
    · rintro ⟨t, ht, hk⟩
      exact .inr ⟨trivial, t, k, ht, hk, rfl⟩
  constructor
  · intro h
    cases hk : splitKind none [] members with
    | error e =>
      rw [ofMembers, hk] at h
      cases h
    | ok p =>
      obtain ⟨k, left⟩ := p
      obtain ⟨rfl, hmade⟩ := (ofMembers_of_splitKind hk).mp h
      obtain ⟨htype, rfl⟩ := (hsplit _ left).mp hk
      exact ⟨htype, hmade.of_perm fun name hname => .of_eq (hnamed name hname).symm⟩
  · rintro ⟨htype, hmade⟩
    have hk := (hsplit body.kind _).mpr ⟨htype, rfl⟩
    refine (ofMembers_of_splitKind hk).mpr ⟨rfl, ?_⟩
    exact hmade.of_perm fun name hname => .of_eq (hnamed name hname)

end Body

namespace Response

/-! The members of an answer -/

/-- An answer is made of members when exactly one of them gives the identifier, exactly one
the kind of the body, and the body is made of the members it knows. All others are passed
over. -/
structure MadeOf (r : Response) (members : List (String × Json)) : Prop where
  id : named "callbackIdx" members = [.number (.int r.id.val.toNat)]
  type : ∃ t, named "type" members = [t] ∧ Body.Kind.enumeration.IndexedBy r.body.kind t
  body : r.body.MadeOf members

theorem MadeOf.of_perm {r : Response} {members members' : List (String × Json)}
    (h : r.MadeOf members) (hperm : ∀ name ∈ ["callbackIdx", "type", "value", "kind", "message"],
      (named name members').Perm (named name members)) : r.MadeOf members' := by
  have hsingle : ∀ name ∈ ["callbackIdx", "type", "value", "kind", "message"], ∀ v,
      named name members = [v] → named name members' = [v] := fun name hname v hv =>
    List.perm_singleton.mp (hv ▸ hperm name hname)
  obtain ⟨t, ht, htype⟩ := h.type
  exact ⟨hsingle "callbackIdx" (by simp) _ h.id, ⟨t, hsingle "type" (by simp) t ht, htype⟩,
    h.body.of_perm fun name hname =>
      hperm name (List.mem_cons_of_mem _ (List.mem_cons_of_mem _ hname))⟩

/-- The identifier that a value gives. -/
def idOf (v : Json) : Option RequestId :=
  (toNatural UInt32.size "u32" v).toOption.map fun n => ⟨UInt32.ofNat n⟩

theorem idOf_eq_some {v : Json} {id : RequestId} :
    idOf v = some id ↔ v = .number (.int id.val.toNat) := by
  constructor
  · intro h
    obtain ⟨n, hn, rfl⟩ := Option.map_eq_some_iff.mp h
    cases v with
    | number number =>
      cases number with
      | int i =>
        rw [← eq_ok_iff_toOption, toNatural, natural] at hn
        split_ifs at hn with hrange
        cases hn
        have hlt : i.toNat < UInt32.size := by omega
        rw [UInt32.toNat_ofNat_of_lt' hlt, Int.toNat_of_nonneg hrange.1]
      | float bits => cases hn
    | null | bool | string | array | object => cases hn
  · rintro rfl
    have hlt := id.val.toNat_lt
    have hrange : (0 : Int) ≤ id.val.toNat ∧ (id.val.toNat : Int) < UInt32.size := by
      have hsize : UInt32.size = 2 ^ 32 := rfl
      exact ⟨by omega, by omega⟩
    rw [idOf, toNatural, natural, if_pos hrange, Int.toNat_natCast]
    simp only [Except.toOption, Option.map_some, UInt32.ofNat_toNat]

/-- What the reader of answers makes of one member. -/
def Members.take (m : Members) (x : String × Json) : Option Members :=
  (hold "callbackIdx" idOf m.id x).map fun id =>
    ⟨id, if x.1 = "callbackIdx" then m.others else x :: m.others⟩

theorem foldlM_take {members : List (String × Json)} {m : Members} :
    members.foldlM Members.take {} = some m ↔
      members.foldlM (hold "callbackIdx" idOf) none = some m.id ∧
        m.others = (unnamed "callbackIdx" members).reverse := by
  have hparts : ActsOnParts Members.take (hold "callbackIdx" idOf)
      (fun others x => some (if x.1 = "callbackIdx" then others else x :: others)) Members.id
      Members.others := by
    constructor
    · intro b c
      exact ⟨⟨b, c⟩, rfl, rfl⟩
    · rintro ⟨b, c⟩ ⟨b', c'⟩ rfl rfl
      rfl
    · intro d m d'
      simp only [Members.take, Option.map_eq_some_iff]
      constructor
      · rintro ⟨id, hid, rfl⟩
        exact ⟨hid, rfl⟩
      · rintro ⟨hid, hothers⟩
        exact ⟨d'.id, hid, by rw [Option.some.inj hothers]⟩
  rw [hparts.foldlM, foldlM_pass, List.append_nil, Option.some.injEq]
  exact and_congr_right fun _ => eq_comm

theorem takesMembers_readMember :
    TakesMembers (SpellsMember (Spells 126)) readMember Members.take := by
  refine takesMembers_of_value fun m ws ws' bs state rest hws hws' hv hrest => ?_
  rw [readMember, Members.take, hold]
  by_cases hname : m.1 = "callbackIdx"
  · simp only [if_pos hname]
    cases state.id with
    | some id => exact ⟨_, rfl⟩
    | none =>
      rw [afterColon_blanks hws, readNatural_blanks _ _ hws']
      have hnatural := yields_readNatural hv UInt32.size "u32" hrest
      have htaken : (Option.map some (idOf m.2)).map (fun id => Members.mk id state.others) =
          (toNatural UInt32.size "u32" m.2).toOption.bind fun n =>
            some (Members.mk (some ⟨UInt32.ofNat n⟩) state.others) := by
        rw [idOf, Option.map_map, Option.map_map, Option.map_eq_bind]
        rfl
      simp only [Option.isSome_none, Bool.false_eq_true, if_false, htaken]
      exact hnatural.next fun n _ => rfl
  · have hvalue : readValue (maxDepth - 1) (ws' ++ (bs ++ rest)) = .ok (m.2, rest) :=
      (readValue_blanks 126 hws' _).trans (readValue_of_spells hv hrest)
    simp only [if_neg hname]
    rw [afterColon_blanks hws, hvalue]
    rfl

theorem answer_eq_ok {m : Members} {r : Response} {s rest : Bytes} :
    m.answer s = .ok (r, rest) ↔
      m.id = some r.id ∧ Body.ofMembers m.others.reverse = .ok r.body ∧ rest = s := by
  obtain ⟨id, body⟩ := r
  unfold Members.answer
  cases m.id with
  | none => simp
  | some id' =>
    cases Body.ofMembers m.others.reverse with
    | error e => simp
    | ok body' => simp [and_assoc, eq_comm]

/-- The members found by the walk make up an answer just as the members of the text do. -/
theorem madeOf_iff_taken {members : List (String × Json)} {r : Response} :
    r.MadeOf members ↔
      ∃ m, members.foldlM Members.take {} = some m ∧ m.id = some r.id ∧
        Body.ofMembers m.others.reverse = .ok r.body := by
  have hnamed : ∀ name, name ≠ "callbackIdx" →
      named name (unnamed "callbackIdx" members) = named name members :=
    fun name hname => named_unnamed hname members
  have hnames : ∀ name ∈ ["value", "kind", "message"], name ≠ "callbackIdx" := by decide
  simp only [foldlM_take, foldlM_hold, idOf_eq_some]
  constructor
  · intro h
    refine ⟨⟨some r.id, (unnamed "callbackIdx" members).reverse⟩,
      ⟨.inr ⟨trivial, _, r.id, h.id, rfl, rfl⟩, rfl⟩, rfl, ?_⟩
    rw [List.reverse_reverse, Body.ofMembers_eq_ok, hnamed "type" (by decide)]
    exact ⟨h.type, h.body.of_perm fun name hname => .of_eq (hnamed name (hnames name hname))⟩
  · rintro ⟨⟨id, others⟩, ⟨hid, rfl⟩, rfl, hbody⟩
    rw [List.reverse_reverse, Body.ofMembers_eq_ok, hnamed "type" (by decide)] at hbody
    obtain ⟨htype, hmade⟩ := hbody
    obtain ⟨-, hid⟩ | ⟨-, v, id, hv, rfl, hid⟩ := hid
    · cases hid
    · obtain rfl : r.id = id := Option.some.inj hid
      exact ⟨hv, htype, hmade.of_perm fun name hname =>
        .of_eq (hnamed name (hnames name hname)).symm⟩

/-- An answer is read off the text of an object when it is made of the members. -/
theorem parse_eq_ok {members : List (String × Json)} {s : Bytes}
    (h : SpellsText (.object members) s) {r : Response} : parse s = .ok r ↔ r.MadeOf members := by
  obtain ⟨ws, bs, ws', hws, hws', hobject, rfl⟩ := h
  obtain ⟨bs, hmembers, rfl⟩ : ∃ bs', SpellsList (SpellsMember (Spells 126)) members bs' ∧
      bs = 123 :: (bs' ++ [125]) := by
    obtain h | h := hobject
    · cases h
    · cases h with
      | object h => exact ⟨_, h, rfl⟩
  have hread : Response.read (ws ++ (123 :: (bs ++ [125]) ++ ws')) =
      next (readMembers readMember {} (bs ++ 125 :: ws')) Members.answer := by
    rw [Response.read, skipBlanks_append hws, List.cons_append, List.append_assoc,
      skipBlanks_cons (by decide)]
    rfl
  have hwalk := readMembers_of_spellsList takesMembers_readMember hmembers {} ws'
  rw [madeOf_iff_taken, parse, readAll, hread]
  cases htaken : members.foldlM Members.take {} with
  | none =>
    rw [htaken] at hwalk
    obtain ⟨f, hf⟩ := hwalk
    rw [hf]
    simp [next]
  | some m =>
    rw [htaken] at hwalk
    have hm : readMembers readMember {} (bs ++ 125 :: ws') = .ok (m, ws') := hwalk
    rw [hm, next]
    constructor
    · intro hanswer
      cases hr' : m.answer ws' with
      | error f =>
        rw [hr'] at hanswer
        cases hanswer
      | ok p =>
        obtain ⟨r', rest⟩ := p
        obtain ⟨hid, hbody, rfl⟩ := answer_eq_ok.mp hr'
        simp only [hr', skipBlanks_blanks hws'] at hanswer
        cases hanswer
        exact ⟨m, rfl, hid, hbody⟩
    · rintro ⟨m', hm', hid, hbody⟩
      cases hm'
      rw [answer_eq_ok.mpr ⟨hid, hbody, rfl⟩]
      simp only [skipBlanks_blanks hws']

end Response

namespace Codec

/-- An answer is read off the text of an object when it is made of the members. -/
theorem deserialize_eq_ok {frame : Frame} {members : List (String × Json)}
    (h : SpellsText (.object members) frame.data.toList) {r : Response} :
    json.deserialize frame = .ok r ↔ r.MadeOf members := by
  rw [← Response.parse_eq_ok h, deserialize_json]
  cases Response.parse frame.data.toList <;> simp

/-- The text of an object is accepted exactly when an answer is made of its members, and
then it is read as this answer; otherwise it is refused. So neither the order of the members
nor members that an answer does not know make a difference, nor does the spelling. The
identifier and an index are spelled by digits only. Objects in the value are brought to
canonical form, with the last value of every name. -/
theorem answer_accepted_iff {frame : Frame} {members : List (String × Json)}
    (h : SpellsText (.object members) frame.data.toList) :
    (∀ r, json.deserialize frame = .ok r ↔ r.MadeOf members) ∧
      ((¬∃ r : Response, r.MadeOf members) →
        ∃ m, json.deserialize frame = .error (.decode m)) ∧
      (∀ (frame' : Frame) members', SpellsText (.object members') frame'.data.toList →
        (∀ name ∈ ["callbackIdx", "type", "value", "kind", "message"],
          (named name members').Perm (named name members)) →
        ∀ r, json.deserialize frame' = .ok r ↔ json.deserialize frame = .ok r) ∧
      (∀ (l : Literal) (n : Nat), n < UInt32.size → (l.value? = some (.int n) ↔
        l.negative = false ∧ l.fraction = none ∧ l.exponent = none ∧ l.digits.value = n)) ∧
      ∀ inner, ∃ kept, (Json.object inner).canonical = .object kept ∧ Sorted kept ∧
        ∀ name, named name kept = ((named name inner).getLast?.map canonical).toList := by
  refine ⟨fun r => deserialize_eq_ok h, fun hnone => ?_, fun frame' members' h' hperm r => ?_,
    fun l n hn => l.value?_eq_natural (Nat.lt_trans hn (by decide)), canonical_object⟩
  · rw [deserialize_json]
    cases hparse : Response.parse frame.data.toList with
    | ok r => exact absurd ⟨r, (Response.parse_eq_ok h).mp hparse⟩ hnone
    | error f => exact ⟨_, rfl⟩
  · rw [deserialize_eq_ok h, deserialize_eq_ok h']
    constructor
    · exact fun hmade => hmade.of_perm fun name hname => (hperm name hname).symm
    · exact fun hmade => hmade.of_perm hperm

/-- A timeout as a request error, its members in disorder and with one that is not known. -/
def disordered : List (String × Json) :=
  [("kind", .object [("timeout", .null)]), ("note", .array [.null]), ("message", .string "late"),
    ("type", .string "requestError"), ("callbackIdx", .number (.int 7))]

theorem spellsText_frame {members : List (String × Json)}
    (hwhole : (Json.object members).IsWhole) (hdepth : (Json.object members).depth ≤ maxDepth) :
    SpellsText (.object members) (Json.object members).text.toUTF8.data.toList := by
  rw [toList_toUTF8_text]
  exact spellsText_chars hwhole hdepth

/-- A timeout is accepted in any order of its members, and an empty object is refused. -/
theorem disordered_answer_accepted :
    json.deserialize (Json.object disordered).text.toUTF8 =
        .ok ⟨⟨7⟩, .requestError .timeout "late"⟩ ∧
      json.deserialize (Json.object disordered.reverse).text.toUTF8 =
        .ok ⟨⟨7⟩, .requestError .timeout "late"⟩ ∧
      ∃ m, json.deserialize (Json.object []).text.toUTF8 = .error (.decode m) := by
  have hwhole : ∀ members, (Json.object members).numbers = [.int 7] ∨
      (Json.object members).numbers = [] → (Json.object members).IsWhole := by
    rintro members (h | h) n hn <;> rw [h] at hn
    · exact ⟨7, List.mem_singleton.mp hn, by decide, by decide⟩
    · exact absurd hn List.not_mem_nil
  have hdisordered := spellsText_frame (hwhole disordered (.inl rfl)) (by decide)
  have hreversed := spellsText_frame (hwhole disordered.reverse (.inl rfl)) (by decide)
  have hempty := spellsText_frame (hwhole [] (.inr rfl)) (by decide)
  have hmade : Response.MadeOf ⟨⟨7⟩, .requestError .timeout "late"⟩ disordered :=
    ⟨rfl, ⟨_, rfl, .inl rfl⟩, rfl, .inr ⟨_, rfl, .inr (.inl rfl)⟩⟩
  have hread := ((answer_accepted_iff hdisordered).1 _).mpr hmade
  refine ⟨hread, ?_, ?_⟩
  · refine ((answer_accepted_iff hdisordered).2.2.1 _ _ hreversed (fun name _ => ?_) _).mpr hread
    exact (disordered.reverse_perm.filter _).map _
  · refine (answer_accepted_iff hempty).2.1 ?_
    rintro ⟨r, hid, -, -⟩
    cases hid

/-- A timeout as a request error, its kind given by an object with an empty object in it. -/
def emptyObjectKind : List (String × Json) :=
  [("callbackIdx", .number (.int 1)), ("type", .string "requestError"), ("message", .string "m"),
    ("kind", .object [("timeout", .object [])])]

/-- The kind of a request error may be an object with an empty object in it, besides a name
and an object with null; and an escape for half of a surrogate pair is refused. -/
theorem empty_object_kind_accepted :
    SpellsText (.object emptyObjectKind) (Json.object emptyObjectKind).text.toUTF8.data.toList ∧
      (∀ k : ErrorKind, Json.object [("timeout", .object [])] ≠ .string k.name ∧
        Json.object [("timeout", .object [])] ≠ .object [(k.name, .null)]) ∧
      json.deserialize (Json.object emptyObjectKind).text.toUTF8 =
        .ok ⟨⟨1⟩, .requestError .timeout "m"⟩ ∧
      ∃ m, json.deserialize
        "\x7b\"callbackIdx\":1,\"type\":\"ok\",\"x\":\"\\ud800\"\x7d".toUTF8 =
          .error (.decode m) := by
  have hwhole : (Json.object emptyObjectKind).IsWhole := fun n hn =>
    ⟨1, List.mem_singleton.mp hn, by decide, by decide⟩
  have hspelled := spellsText_frame hwhole (by decide)
  have hmade : Response.MadeOf ⟨⟨1⟩, .requestError .timeout "m"⟩ emptyObjectKind :=
    ⟨rfl, ⟨_, rfl, .inl rfl⟩, rfl, .inr ⟨_, rfl, .inr (.inr rfl)⟩⟩
  refine ⟨hspelled, fun k => ?_, (deserialize_eq_ok hspelled).mpr hmade, _, rfl⟩
  refine ⟨Json.noConfusion, fun h => ?_⟩
  injection h with h
  injection h with h
  injection h with _ h
  cases h

end Codec

end Switchboard
