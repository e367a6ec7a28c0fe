import Switchboard.Json.Shape
import Switchboard.Proofs.JsonText

/-!
The grammar of JSON, and that the readers follow it. A relation says which bytes spell a
value: blanks may stand around every token, and arrays and objects are nested no deeper than
allowed. Arrays and objects are followed item by item and member by member, for any caller of
the walk. What a reader makes of a text is given by an option: the value it ends with, or
nothing when it refuses the text. The reader of values takes every spelling for its value,
unless the value is nested too deep: then it refuses it.
-/
namespace Switchboard.Json

/-! What a reader makes of a text -/

/-- The reader ends at `rest` with what the option holds, or with a fault when the option
holds nothing. -/
def Yields {α : Type} (r : Result α) (o : Option α) (rest : Bytes) : Prop :=
  match o with
  | some a => r = .ok (a, rest)
  | none => ∃ f, r = .error f

theorem Yields.next {α β : Type} {r : Result α} {o : Option α} {rest rest' : Bytes}
    {k : α → Bytes → Result β} {g : α → Option β} (h : Yields r o rest)
    (hk : ∀ a, o = some a → Yields (k a rest) (g a) rest') :
    Yields (Json.next r k) (o.bind g) rest' := by
  cases o with
  | some a =>
    have hr : r = .ok (a, rest) := h
    rw [hr]
    exact hk a rfl
  | none =>
    obtain ⟨f, hf⟩ := h
    exact ⟨f, by rw [hf, Json.next]⟩

theorem Yields.map {α β : Type} {r : Result α} {p : Prop} [Decidable p] {a : α} {rest : Bytes}
    (h : Yields r (if p then some a else none) rest) (f : α → β) :
    Yields (Json.next r fun a s => .ok (f a, s)) (if p then some (f a) else none) rest := by
  have hnext := h.next (k := fun a s => .ok (f a, s)) (g := fun a => some (f a)) fun _ _ => rfl
  by_cases hp : p
  · rwa [if_pos hp] at hnext ⊢
  · rwa [if_neg hp] at hnext ⊢

/-! Spellings -/

def Blanks (ws : Bytes) : Prop := ∀ b ∈ ws, isBlank b = true

section Lists

variable {α : Type} (element : α → Bytes → Prop)

/-- Elements with a comma before each. -/
inductive SpellsMore : List α → Bytes → Prop
  | nil {ws : Bytes} (hws : Blanks ws) : SpellsMore [] ws
  | cons {a : α} {l : List α} {ws ws' bs rest : Bytes} (hws : Blanks ws) (hws' : Blanks ws')
      (ha : element a bs) (hl : SpellsMore l rest) :
      SpellsMore (a :: l) (ws ++ 44 :: (ws' ++ (bs ++ rest)))

/-- Elements with commas between them. -/
inductive SpellsList : List α → Bytes → Prop
  | nil {ws : Bytes} (hws : Blanks ws) : SpellsList [] ws
  | cons {a : α} {l : List α} {ws bs rest : Bytes} (hws : Blanks ws) (ha : element a bs)
      (hl : SpellsMore element l rest) : SpellsList (a :: l) (ws ++ (bs ++ rest))

end Lists

/-- A name, a colon and a value. -/
def SpellsMember (value : Json → Bytes → Prop) (m : String × Json) (s : Bytes) : Prop :=
  ∃ name ws ws' bs, SpellsString m.1 name ∧ Blanks ws ∧ Blanks ws' ∧ value m.2 bs ∧
    s = name ++ (ws ++ 58 :: (ws' ++ bs))

/-- Values without items and members. -/
inductive SpellsScalar : Json → Bytes → Prop
  | null : SpellsScalar .null [110, 117, 108, 108]
  | true : SpellsScalar (.bool true) [116, 114, 117, 101]
  | false : SpellsScalar (.bool false) [102, 97, 108, 115, 101]
  | number {l : Literal} {n : Number} (h : l.value? = some n) : SpellsScalar (.number n) l.bytes
  | string {s : String} {bs : Bytes} (h : SpellsString s bs) : SpellsScalar (.string s) bs

/-- Arrays and objects, by the spelling of what they hold. -/
inductive SpellsNested (value : Json → Bytes → Prop) : Json → Bytes → Prop
  | array {items : List Json} {bs : Bytes} (h : SpellsList value items bs) :
      SpellsNested value (.array items) (91 :: (bs ++ [93]))
  | object {members : List (String × Json)} {bs : Bytes}
      (h : SpellsList (SpellsMember value) members bs) :
      SpellsNested value (.object members) (123 :: (bs ++ [125]))

/-- The bytes spell the value, with arrays and objects nested at most `d` deep. -/
def Spells : Nat → Json → Bytes → Prop
  | 0 => SpellsScalar
  | d + 1 => fun v bs => SpellsScalar v bs ∨ SpellsNested (Spells d) v bs

/-- A text spells a value with blanks around it. -/
def SpellsText (v : Json) (s : Bytes) : Prop :=
  ∃ ws bs ws', Blanks ws ∧ Blanks ws' ∧ Spells maxDepth v bs ∧ s = ws ++ (bs ++ ws')

/-! Depth -/

theorem depthItems_le_iff {d : Nat} {items : List Json} :
    depthItems items ≤ d ↔ ∀ v ∈ items, v.depth ≤ d := by
  induction items with
  | nil => simp [depthItems]
  | cons v items ih => rw [depthItems, Nat.max_le, ih, List.forall_mem_cons]

theorem depthMembers_le_iff {d : Nat} {members : List (String × Json)} :
    depthMembers members ≤ d ↔ ∀ m ∈ members, m.2.depth ≤ d := by
  induction members with
  | nil => simp [depthMembers]
  | cons m members ih => rw [depthMembers, Nat.max_le, ih, List.forall_mem_cons]

theorem SpellsMore.exists_of_mem {α : Type} {element : α → Bytes → Prop} {l : List α} {bs : Bytes}
    (h : SpellsMore element l bs) {a : α} (ha : a ∈ l) : ∃ bs, element a bs := by
  induction h with
  | nil hws => exact absurd ha List.not_mem_nil
  | cons hws hws' hfirst hl ih =>
    obtain rfl | ha := List.mem_cons.mp ha
    · exact ⟨_, hfirst⟩
    · exact ih ha

theorem SpellsList.exists_of_mem {α : Type} {element : α → Bytes → Prop} {l : List α} {bs : Bytes}
    (h : SpellsList element l bs) {a : α} (ha : a ∈ l) : ∃ bs, element a bs := by
  cases h with
  | nil hws => exact absurd ha List.not_mem_nil
  | cons hws hfirst hl =>
    obtain rfl | ha := List.mem_cons.mp ha
    · exact ⟨_, hfirst⟩
    · exact hl.exists_of_mem ha

theorem SpellsScalar.depth_eq {v : Json} {bs : Bytes} (h : SpellsScalar v bs) : v.depth = 0 := by
  cases h <;> rfl

theorem Spells.scalar_or_nested {d : Nat} {v : Json} {bs : Bytes} (h : Spells d v bs) :
    SpellsScalar v bs ∨ ∃ d', d = d' + 1 ∧ SpellsNested (Spells d') v bs := by
  cases d with
  | zero => exact .inl h
  | succ d => exact h.imp_right fun h => ⟨d, rfl, h⟩

theorem Spells.depth_le {d : Nat} {v : Json} {bs : Bytes} (h : Spells d v bs) : v.depth ≤ d := by
  induction d generalizing v bs with
  | zero => exact Nat.le_of_eq (SpellsScalar.depth_eq h)
  | succ d ih =>
    obtain h | h := h
    · exact h.depth_eq ▸ Nat.zero_le _
    · cases h with
      | array h =>
        refine Nat.succ_le_succ (depthItems_le_iff.mpr fun w hw => ?_)
        obtain ⟨bs, hbs⟩ := h.exists_of_mem hw
        exact ih hbs
      | object h =>
        refine Nat.succ_le_succ (depthMembers_le_iff.mpr fun m hm => ?_)
        obtain ⟨bs, name, ws, ws', v, -, -, -, hv, -⟩ := h.exists_of_mem hm
        exact ih hv

/-! Blanks -/

/-- A text that begins with neither a blank nor the end of a list. -/
def Begins (s : Bytes) : Prop := ∃ b r, s = b :: r ∧ isBlank b = false ∧ b ≠ 93

theorem skipBlanks_cons {b : UInt8} (hb : isBlank b = false) (r : Bytes) :
    skipBlanks (b :: r) = b :: r :=
  List.dropWhile_cons_of_neg (by simp [hb])

theorem ne_of_number {b c : UInt8} (hb : (b = 45 || isDigit b) = true)
    (hc : (c = 45 || isDigit c) = false) : b ≠ c := by
  rintro rfl
  exact Bool.noConfusion (hb.symm.trans hc)

theorem isBlank_of_number {b : UInt8} (hb : (b = 45 || isDigit b) = true) : isBlank b = false := by
  simp only [isBlank, Bool.or_eq_false_iff, decide_eq_false_iff_not]
  exact ⟨⟨⟨ne_of_number hb (by decide), ne_of_number hb (by decide)⟩,
    ne_of_number hb (by decide)⟩, ne_of_number hb (by decide)⟩

theorem Blanks.nil : Blanks [] := fun _ hb => absurd hb List.not_mem_nil

theorem skipBlanks_append {ws : Bytes} (hws : Blanks ws) (s : Bytes) :
    skipBlanks (ws ++ s) = skipBlanks s :=
  List.dropWhile_append_of_pos hws

theorem skipBlanks_blanks {ws : Bytes} (hws : Blanks ws) : skipBlanks ws = [] := by
  have h := skipBlanks_append hws []
  rwa [List.append_nil] at h

theorem endsNumber_cons {b : UInt8} (hb : isDigit b = false ∧ b ≠ 46 ∧ b ≠ 69 ∧ b ≠ 101)
    (s : Bytes) : EndsNumber (b :: s) := by
  rintro _ ⟨⟩
  exact hb

theorem endsNumber_of_isBlank {b : UInt8} (hb : isBlank b = true) (s : Bytes) :
    EndsNumber (b :: s) := by
  simp only [isBlank, Bool.or_eq_true, decide_eq_true_eq] at hb
  refine endsNumber_cons ?_ s
  obtain ((rfl | rfl) | rfl) | rfl := hb <;> decide

theorem EndsNumber.blanks_append {ws : Bytes} (hws : Blanks ws) {s : Bytes} (hs : EndsNumber s) :
    EndsNumber (ws ++ s) := by
  cases ws with
  | nil => exact hs
  | cons b ws => exact endsNumber_of_isBlank (hws b (List.mem_cons_self ..)) _

theorem endsNumber_blanks {ws : Bytes} (hws : Blanks ws) : EndsNumber ws := by
  cases ws with
  | nil => rintro b ⟨⟩
  | cons b ws => exact endsNumber_of_isBlank (hws b (List.mem_cons_self ..)) ws

theorem readValueWith_blanks (inner : Option (Bytes → Result Json)) {ws : Bytes}
    (hws : Blanks ws) (s : Bytes) : readValueWith inner (ws ++ s) = readValueWith inner s := by
  rw [readValueWith, readValueWith, skipBlanks_append hws]

theorem readValue_blanks (d : Nat) {ws : Bytes} (hws : Blanks ws) (s : Bytes) :
    readValue d (ws ++ s) = readValue d s := by
  cases d with
  | zero => exact readValueWith_blanks none hws s
  | succ d => exact readValueWith_blanks (some (readValue d)) hws s

theorem afterColon_blanks {α : Type} {ws : Bytes} (hws : Blanks ws) (s : Bytes)
    (read : Bytes → Result α) : afterColon (ws ++ 58 :: s) read = read s := by
  rw [afterColon, skipBlanks_append hws, skipBlanks_cons (by decide)]
  exact if_pos rfl

/-! Items and members -/

section More

variable {α : Type} {element : α → Bytes → Prop} {l : List α} {bs : Bytes}

theorem SpellsMore.endsNumber (h : SpellsMore element l bs) {s : Bytes} (hs : EndsNumber s) :
    EndsNumber (bs ++ s) := by
  cases h with
  | nil hws => exact hs.blanks_append hws
  | cons hws hws' ha hl =>
    rw [List.append_assoc]
    exact (endsNumber_cons (by decide) _).blanks_append hws

theorem SpellsMore.length_le (h : SpellsMore element l bs) : l.length ≤ bs.length := by
  induction h with
  | nil hws => exact Nat.zero_le _
  | cons hws hws' ha hl ih =>
    simp only [List.length_cons, List.length_append]
    omega

end More

section Items

variable {σ : Type} {value : Json → Bytes → Prop} {item : σ → Bytes → Result σ}
  {step : σ → Json → Option σ} {items : List Json} {bs : Bytes}

theorem walkItems_close (fuel : Nat) (first : Bool) (state : σ) (rest : Bytes) :
    walkItems item (fuel + 1) first state (93 :: rest) = .ok (state, rest) := rfl

theorem walkItems_first {s : Bytes} (hs : Begins s) (fuel : Nat) (state : σ) (rest : Bytes) :
    walkItems item (fuel + 1) true state (s ++ rest) =
      next (item state (s ++ rest)) (walkItems item fuel false) := by
  obtain ⟨b, r, rfl, hblank, hclose⟩ := hs
  rw [List.cons_append, walkItems, skipBlanks_cons hblank]
  simp only [if_neg hclose, if_true]

theorem walkItems_comma {s : Bytes} (hs : Begins s) (fuel : Nat) (state : σ) (rest : Bytes) :
    walkItems item (fuel + 1) false state (44 :: (s ++ rest)) =
      next (item state (s ++ rest)) (walkItems item fuel false) := by
  obtain ⟨b, r, rfl, hblank, hclose⟩ := hs
  have hcomma : skipBlanks (44 :: (b :: r ++ rest)) = 44 :: (b :: r ++ rest) :=
    skipBlanks_cons (by decide) _
  rw [walkItems, hcomma]
  dsimp only
  rw [if_neg (by decide), if_neg Bool.false_ne_true, if_pos rfl, List.cons_append,
    skipBlanks_cons hblank]
  exact if_neg hclose

theorem walkItems_blanks (fuel : Nat) (first : Bool) (state : σ) {ws : Bytes} (hws : Blanks ws)
    (s : Bytes) :
    walkItems item (fuel + 1) first state (ws ++ s) = walkItems item (fuel + 1) first state s := by
  rw [walkItems, walkItems, skipBlanks_append hws]

theorem walkItems_comma_blanks (fuel : Nat) (state : σ) {ws : Bytes} (hws : Blanks ws)
    (s : Bytes) :
    walkItems item (fuel + 1) false state (44 :: (ws ++ s)) =
      walkItems item (fuel + 1) false state (44 :: s) := by
  have hopen : (44 : UInt8) ≠ 93 := by decide
  rw [walkItems, walkItems, skipBlanks_cons (by decide), skipBlanks_cons (by decide)]
  simp only [if_neg hopen, if_neg Bool.false_ne_true, if_true, skipBlanks_append hws]

/-- What is made of a spelled item. -/
structure TakesItems (value : Json → Bytes → Prop) (item : σ → Bytes → Result σ)
    (step : σ → Json → Option σ) : Prop where
  begins : ∀ v bs, value v bs → Begins bs
  yields : ∀ v bs state rest, value v bs → EndsNumber rest →
    Yields (item state (bs ++ rest)) (step state v) rest

theorem walkItems_of_spellsMore (hitem : TakesItems value item step)
    (h : SpellsMore value items bs) {fuel : Nat} (hfuel : items.length < fuel) (state : σ)
    (rest : Bytes) :
    Yields (walkItems item fuel false state (bs ++ 93 :: rest)) (items.foldlM step state) rest := by
  induction h generalizing fuel state with
  | nil hws =>
    obtain _ | fuel := fuel
    · exact absurd hfuel (Nat.not_lt_zero _)
    · rw [walkItems_blanks fuel false state hws]
      exact walkItems_close fuel false state rest
  | cons hws hws' ha hl ih =>
    obtain _ | fuel := fuel
    · exact absurd hfuel (Nat.not_lt_zero _)
    · rw [List.append_assoc, walkItems_blanks fuel false state hws, List.cons_append,
        List.append_assoc, walkItems_comma_blanks fuel state hws', List.append_assoc,
        walkItems_comma (hitem.begins _ _ ha), List.foldlM_cons]
      refine (hitem.yields _ _ state _ ha (hl.endsNumber (endsNumber_cons (by decide) rest))).next
        fun state' _ => ?_
      exact ih (Nat.lt_of_succ_lt_succ hfuel) state'

theorem readItems_of_spellsList (hitem : TakesItems value item step)
    (h : SpellsList value items bs) (state : σ) (rest : Bytes) :
    Yields (readItems item state (bs ++ 93 :: rest)) (items.foldlM step state) rest := by
  cases h with
  | nil hws =>
    rw [readItems, walkItems_blanks _ true state hws]
    exact walkItems_close _ true state rest
  | cons hws ha hl =>
    rw [readItems, List.append_assoc, walkItems_blanks _ true state hws, List.append_assoc,
      walkItems_first (hitem.begins _ _ ha), List.foldlM_cons]
    refine (hitem.yields _ _ state _ ha (hl.endsNumber (endsNumber_cons (by decide) rest))).next
      fun state' _ => ?_
    refine walkItems_of_spellsMore hitem hl ?_ state' rest
    have hlength := hl.length_le
    simp only [List.length_append, List.length_cons]
    omega

end Items

section Members

variable {σ : Type} {element : String × Json → Bytes → Prop}
  {member : σ → String → Bytes → Result σ}
  {step : σ → String × Json → Option σ} {members : List (String × Json)} {bs : Bytes}

theorem walkMembers_close (fuel : Nat) (first : Bool) (state : σ) (rest : Bytes) :
    walkMembers member (fuel + 1) first state (125 :: rest) = .ok (state, rest) := rfl

theorem walkMembers_blanks (fuel : Nat) (first : Bool) (state : σ) {ws : Bytes}
    (hws : Blanks ws) (s : Bytes) :
    walkMembers member (fuel + 1) first state (ws ++ s) =
      walkMembers member (fuel + 1) first state s := by
  rw [walkMembers, walkMembers, skipBlanks_append hws]

theorem walkMembers_comma_blanks (fuel : Nat) (state : σ) {ws : Bytes} (hws : Blanks ws)
    (s : Bytes) :
    walkMembers member (fuel + 1) false state (44 :: (ws ++ s)) =
      walkMembers member (fuel + 1) false state (44 :: s) := by
  have hopen : (44 : UInt8) ≠ 125 := by decide
  rw [walkMembers, walkMembers, skipBlanks_cons (by decide), skipBlanks_cons (by decide)]
  simp only [if_neg hopen, if_neg Bool.false_ne_true, if_true, skipBlanks_append hws]

/-- What is made of a spelled member, once its name has been read. -/
def TakesMembers (element : String × Json → Bytes → Prop) (member : σ → String → Bytes → Result σ)
    (step : σ → String × Json → Option σ) : Prop :=
  ∀ m bs, element m bs → ∃ r, bs = 34 :: r ∧ ∀ state rest, EndsNumber rest →
    Yields (next (readString (r ++ rest)) (member state)) (step state m) rest

theorem walkMembers_of_spellsMore (hmember : TakesMembers element member step)
    (h : SpellsMore element members bs) {fuel : Nat} (hfuel : members.length < fuel)
    (state : σ) (rest : Bytes) :
    Yields (walkMembers member fuel false state (bs ++ 125 :: rest)) (members.foldlM step state)
      rest := by
  induction h generalizing fuel state with
  | nil hws =>
    obtain _ | fuel := fuel
    · exact absurd hfuel (Nat.not_lt_zero _)
    · rw [walkMembers_blanks fuel false state hws]
      exact walkMembers_close fuel false state rest
  | cons hws hws' ha hl ih =>
    obtain _ | fuel := fuel
    · exact absurd hfuel (Nat.not_lt_zero _)
    · obtain ⟨r, rfl, hr⟩ := hmember _ _ ha
      have hwalk : ∀ s, walkMembers member (fuel + 1) false state (44 :: 34 :: s) =
          next (next (readString s) (member state)) (walkMembers member fuel false) := fun _ => rfl
      rw [List.append_assoc, walkMembers_blanks fuel false state hws, List.cons_append,
        List.append_assoc, walkMembers_comma_blanks fuel state hws', List.append_assoc,
        List.cons_append, hwalk, List.foldlM_cons]
      refine (hr state _ (hl.endsNumber (endsNumber_cons (by decide) rest))).next
        fun state' _ => ?_
      exact ih (Nat.lt_of_succ_lt_succ hfuel) state'

theorem readMembers_of_spellsList (hmember : TakesMembers element member step)
    (h : SpellsList element members bs) (state : σ) (rest : Bytes) :
    Yields (readMembers member state (bs ++ 125 :: rest)) (members.foldlM step state) rest := by
  cases h with
  | nil hws =>
    rw [readMembers, walkMembers_blanks _ true state hws]
    exact walkMembers_close _ true state rest
  | cons hws ha hl =>
    obtain ⟨r, rfl, hr⟩ := hmember _ _ ha
    have hwalk : ∀ fuel s, walkMembers member (fuel + 1) true state (34 :: s) =
        next (next (readString s) (member state)) (walkMembers member fuel false) :=
      fun _ _ => rfl
    rw [readMembers, List.append_assoc, walkMembers_blanks _ true state hws, List.append_assoc,
      List.cons_append, hwalk, List.foldlM_cons]
    refine (hr state _ (hl.endsNumber (endsNumber_cons (by decide) rest))).next
      fun state' _ => ?_
    refine walkMembers_of_spellsMore hmember hl ?_ state' rest
    have hlength := hl.length_le
    simp only [List.length_append, List.length_cons]
    omega

/-- A member is taken when its value is, whatever blanks stand around the colon. -/
theorem takesMembers_of_value {value : Json → Bytes → Prop}
    (h : ∀ m ws ws' bs state rest, Blanks ws → Blanks ws' → value m.2 bs → EndsNumber rest →
      Yields (member state m.1 (ws ++ 58 :: (ws' ++ (bs ++ rest)))) (step state m) rest) :
    TakesMembers (SpellsMember value) member step := by
  rintro m bs ⟨name, ws, ws', v, hname, hws, hws', hv, rfl⟩
  obtain ⟨r, rfl, hr⟩ := readString_of_spellsString hname
  refine ⟨r ++ (ws ++ 58 :: (ws' ++ v)), rfl, fun state rest hrest => ?_⟩
  have htext : r ++ (ws ++ 58 :: (ws' ++ v)) ++ rest = r ++ (ws ++ 58 :: (ws' ++ (v ++ rest))) := by
    simp only [List.append_assoc, List.cons_append]
  rw [htext, hr]
  exact h m ws ws' v state rest hws hws' hv hrest

end Members

/-! Values -/

theorem readValueWith_number (inner : Option (Bytes → Result Json)) {b : UInt8}
    (hb : (b = 45 || isDigit b) = true) (s : Bytes) :
    readValueWith inner (b :: s) =
      next (readNumber (b :: s)) fun n s => .ok (.number n, s) := by
  have hother : ∀ c : UInt8, (c = 45 || isDigit c) = false → b ≠ c := fun _ => ne_of_number hb
  rw [readValueWith, skipBlanks_cons (isBlank_of_number hb)]
  simp [hother 110 rfl, hother 116 rfl, hother 102 rfl, hother 34 rfl, hother 91 rfl,
    hother 123 rfl, hb]

theorem Literal.bytes_eq_cons (l : Literal) :
    ∃ b r, l.bytes = b :: r ∧ (b = 45 || isDigit b) = true := by
  unfold Literal.bytes
  split
  · exact ⟨45, _, rfl, rfl⟩
  · obtain ⟨d, r, hlist, hd, -⟩ := l.digits.exists_cons
    rw [hlist]
    exact ⟨d, _, rfl, by rw [hd, Bool.or_true]⟩

theorem SpellsScalar.begins {v : Json} {bs : Bytes} (h : SpellsScalar v bs) : Begins bs := by
  cases h with
  | null => exact ⟨110, _, rfl, by decide, by decide⟩
  | true => exact ⟨116, _, rfl, by decide, by decide⟩
  | false => exact ⟨102, _, rfl, by decide, by decide⟩
  | number h =>
    obtain ⟨b, r, hbs, hb⟩ := Literal.bytes_eq_cons _
    exact ⟨b, r, hbs, isBlank_of_number hb, ne_of_number hb (by decide)⟩
  | string h =>
    obtain ⟨content, -, rfl⟩ := h
    exact ⟨34, _, rfl, by decide, by decide⟩

theorem Spells.begins {d : Nat} {v : Json} {bs : Bytes} (h : Spells d v bs) : Begins bs := by
  obtain h | ⟨d', -, h⟩ := h.scalar_or_nested
  · exact h.begins
  · cases h with
    | array h => exact ⟨91, _, rfl, by decide, by decide⟩
    | object h => exact ⟨123, _, rfl, by decide, by decide⟩

theorem readValueWith_of_spellsScalar (inner : Option (Bytes → Result Json)) {v : Json}
    {bs : Bytes} (h : SpellsScalar v bs) {rest : Bytes} (hrest : EndsNumber rest) :
    readValueWith inner (bs ++ rest) = .ok (v, rest) := by
  cases h with
  | null => rfl
  | true => rfl
  | false => rfl
  | number h =>
    obtain ⟨b, r, hbs, hb⟩ := Literal.bytes_eq_cons _
    rw [hbs, List.cons_append, readValueWith_number inner hb, ← List.cons_append, ← hbs,
      Literal.readNumber_of_value? h hrest]
    rfl
  | string h =>
    obtain ⟨r, rfl, hr⟩ := readString_of_spellsString h
    have hread : ∀ s, readValueWith inner (34 :: s) =
        next (readString s) fun t s => .ok (.string t, s) := fun _ => rfl
    rw [List.cons_append, hread, hr]
    rfl

/-- A walk that takes every item or stops at the first one refused. -/
theorem foldlM_keep {α : Type} (p : α → Prop) [DecidablePred p] (l done : List α) :
    l.foldlM (fun done a => if p a then some (a :: done) else none) done =
      if ∀ a ∈ l, p a then some (l.reverse ++ done) else none := by
  induction l generalizing done with
  | nil => simp
  | cons a l ih =>
    rw [List.foldlM_cons]
    by_cases ha : p a
    · simp [ih, ha]
    · simp [ha]

/-- A reader that takes every spelling for the value it spells, unless the value is nested
too deep. -/
structure Follows (d : Nat) (value : Json → Bytes → Prop) (read : Bytes → Result Json) : Prop where
  begins : ∀ v bs, value v bs → Begins bs
  yields : ∀ v bs rest, value v bs → EndsNumber rest →
    Yields (read (bs ++ rest)) (if v.depth ≤ d then some v else none) rest
  blanks : ∀ ws s, Blanks ws → read (ws ++ s) = read s

namespace Follows

variable {d : Nat} {value : Json → Bytes → Prop} {read : Bytes → Result Json} {bs : Bytes}

theorem readItems (hread : Follows d value read) {items : List Json}
    (h : SpellsList value items bs) (rest : Bytes) :
    Yields (Json.readItems (fun done s => next (read s) fun v s => .ok (v :: done, s)) []
      (bs ++ 93 :: rest)) (if ∀ v ∈ items, v.depth ≤ d then some items.reverse else none) rest := by
  have hitem : TakesItems value (fun done s => next (read s) fun v s => .ok (v :: done, s))
      fun done v => if v.depth ≤ d then some (v :: done) else none :=
    ⟨hread.begins, fun v bs done rest hv hrest =>
      (hread.yields v bs rest hv hrest).map fun v => v :: done⟩
  have hitems := readItems_of_spellsList hitem h [] rest
  rwa [foldlM_keep (fun v : Json => v.depth ≤ d), List.append_nil] at hitems

theorem readMembers (hread : Follows d value read) {members : List (String × Json)}
    (h : SpellsList (SpellsMember value) members bs) (rest : Bytes) :
    Yields (Json.readMembers
      (fun done name s => next (afterColon s read) fun v s => .ok ((name, v) :: done, s)) []
      (bs ++ 125 :: rest))
      (if ∀ m ∈ members, m.2.depth ≤ d then some members.reverse else none) rest := by
  have hmember : TakesMembers (SpellsMember value)
      (fun done name s => next (afterColon s read) fun v s => .ok ((name, v) :: done, s))
      fun done m => if m.2.depth ≤ d then some (m :: done) else none := by
    refine takesMembers_of_value fun m ws ws' bs done rest hws hws' hv hrest => ?_
    have hvalue := hread.yields m.2 bs rest hv hrest
    rw [← hread.blanks ws' _ hws', ← afterColon_blanks hws _ read] at hvalue
    exact hvalue.map fun v => (m.1, v) :: done
  have hmembers := readMembers_of_spellsList hmember h [] rest
  rwa [foldlM_keep (fun m : String × Json => m.2.depth ≤ d), List.append_nil] at hmembers

theorem readValueWith_nested (hread : Follows d value read) {v : Json}
    (h : SpellsNested value v bs) (rest : Bytes) :
    Yields (readValueWith (some read) (bs ++ rest)) (if v.depth ≤ d + 1 then some v else none)
      rest := by
  cases h with
  | @array items bs h =>
    have hdepth : (array items).depth ≤ d + 1 ↔ ∀ v ∈ items, v.depth ≤ d := by
      rw [depth, Nat.succ_le_succ_iff, depthItems_le_iff]
    have hwalk := (hread.readItems h rest).map fun done => array done.reverse
    rw [List.reverse_reverse] at hwalk
    rw [if_congr hdepth rfl rfl, List.cons_append, List.append_assoc]
    exact hwalk
  | @object members bs h =>
    have hdepth : (object members).depth ≤ d + 1 ↔ ∀ m ∈ members, m.2.depth ≤ d := by
      rw [depth, Nat.succ_le_succ_iff, depthMembers_le_iff]
    have hwalk := (hread.readMembers h rest).map fun done => object done.reverse
    rw [List.reverse_reverse] at hwalk
    rw [if_congr hdepth rfl rfl, List.cons_append, List.append_assoc]
    exact hwalk

end Follows

theorem yields_of_spellsScalar (inner : Option (Bytes → Result Json)) {v : Json} {bs : Bytes}
    (h : SpellsScalar v bs) {rest : Bytes} (hrest : EndsNumber rest) (d : Nat) :
    Yields (readValueWith inner (bs ++ rest)) (if v.depth ≤ d then some v else none) rest := by
  rw [if_pos (h.depth_eq ▸ Nat.zero_le d)]
  exact readValueWith_of_spellsScalar inner h hrest

/-- The reader of values takes every spelling for its value, unless it is nested too deep. -/
theorem follows_readValue (d d' : Nat) : Follows d (Spells d') (readValue d) := by
  induction d generalizing d' with
  | zero =>
    refine ⟨fun v bs h => h.begins, fun v bs rest h hrest => ?_,
      fun ws s hws => readValueWith_blanks none hws s⟩
    obtain h | ⟨d'', -, h⟩ := h.scalar_or_nested
    · exact yields_of_spellsScalar none h hrest 0
    · cases h with
      | array h => exact ⟨_, rfl⟩
      | object h => exact ⟨_, rfl⟩
  | succ d ih =>
    refine ⟨fun v bs h => h.begins, fun v bs rest h hrest => ?_,
      fun ws s hws => readValueWith_blanks _ hws s⟩
    obtain h | ⟨d'', -, h⟩ := h.scalar_or_nested
    · exact yields_of_spellsScalar _ h hrest (d + 1)
    · exact (ih d'').readValueWith_nested h rest

theorem readValue_of_spells {d : Nat} {v : Json} {bs : Bytes} (h : Spells d v bs) {rest : Bytes}
    (hrest : EndsNumber rest) : readValue d (bs ++ rest) = .ok (v, rest) := by
  have hyields := (follows_readValue d d).yields v bs rest h hrest
  rwa [if_pos h.depth_le] at hyields

/-- Every text of the grammar stands for the value it spells. -/
theorem parse_of_spellsText {v : Json} {s : Bytes} (h : SpellsText v s) : parse s = .ok v := by
  obtain ⟨ws, bs, ws', hws, hws', hv, rfl⟩ := h
  rw [parse, readAll, readValue_blanks maxDepth hws,
    readValue_of_spells hv (endsNumber_blanks hws')]
  simp only [skipBlanks_blanks hws']

/-! Natural numbers -/

/-- A reader of natural numbers takes a spelled one, and refuses every other value. -/
theorem yields_readNatural {d : Nat} {v : Json} {bs : Bytes} (h : Spells d v bs) (limit : Nat)
    (expected : String) {rest : Bytes} (hrest : EndsNumber rest) :
    Yields (readNatural limit expected (bs ++ rest)) (toNatural limit expected v).toOption
      rest := by
  have hrefused : ∀ b r, isBlank b = false → (b = 45 || isDigit b) = false →
      ∃ f, readNatural limit expected (b :: r) = .error f := by
    intro b r hblank hb
    rw [readNatural, skipBlanks_cons hblank]
    simp only [hb, Bool.false_eq_true, if_false]
    exact ⟨_, rfl⟩
  have hscalar : SpellsScalar v bs →
      Yields (readNatural limit expected (bs ++ rest)) (toNatural limit expected v).toOption
        rest := by
    intro hscalar
    cases hscalar with
    | null => exact hrefused 110 _ rfl rfl
    | true => exact hrefused 116 _ rfl rfl
    | false => exact hrefused 102 _ rfl rfl
    | number hnumber =>
      obtain ⟨b, r, hbs, hb⟩ := Literal.bytes_eq_cons _
      rw [hbs, List.cons_append, readNatural, skipBlanks_cons (isBlank_of_number hb)]
      simp only [hb, if_true]
      rw [← List.cons_append, ← hbs, Literal.readNumber_of_value? hnumber hrest, toNatural]
      simp only [next]
      cases hnatural : natural limit expected _ with
      | ok k => rfl
      | error m => exact ⟨_, rfl⟩
    | string hstring =>
      obtain ⟨content, -, rfl⟩ := hstring
      exact hrefused 34 _ rfl rfl
  obtain h | ⟨d', -, h⟩ := h.scalar_or_nested
  · exact hscalar h
  · cases h with
    | array h => exact hrefused 91 _ rfl rfl
    | object h => exact hrefused 123 _ rfl rfl

theorem readNatural_blanks (limit : Nat) (expected : String) {ws : Bytes} (hws : Blanks ws)
    (s : Bytes) : readNatural limit expected (ws ++ s) = readNatural limit expected s := by
  rw [readNatural, readNatural, skipBlanks_append hws]

end Switchboard.Json
