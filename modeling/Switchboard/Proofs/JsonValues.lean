import Switchboard.Proofs.JsonGrammar

/-!
Printed values are spelled, and so they are read back: the compact text of a value without
floating numbers belongs to the grammar, with no blanks in it. The reader of values gives the
value back when it is not nested too deep and refuses it otherwise; any other walk over the
members of an object takes them as printed.
-/
namespace Switchboard.Json

/-! Numbers within a value -/

mutual

/-- All numbers that occur in a value. -/
def numbers : Json → List Number
  | number n => [n]
  | array items => numbersItems items
  | object members => numbersMembers members
  | _ => []

def numbersItems : List Json → List Number
  | [] => []
  | v :: rest => numbers v ++ numbersItems rest

def numbersMembers : List (String × Json) → List Number
  | [] => []
  | (_, v) :: rest => numbers v ++ numbersMembers rest

end

/-- All numbers are whole and fit 64 bits. -/
def IsWhole (v : Json) : Prop := ∀ n ∈ v.numbers, ∃ i, n = .int i ∧ (Number.int i).InRange

theorem mem_numbersItems {n : Number} {items : List Json} :
    n ∈ numbersItems items ↔ ∃ v ∈ items, n ∈ v.numbers := by
  induction items with
  | nil => simp [numbersItems]
  | cons v items ih => simp [numbersItems, ih]

theorem mem_numbersMembers {n : Number} {members : List (String × Json)} :
    n ∈ numbersMembers members ↔ ∃ m ∈ members, n ∈ m.2.numbers := by
  induction members with
  | nil => simp [numbersMembers]
  | cons m members ih => simp [numbersMembers, ih]

theorem IsWhole.of_mem_items {items : List Json} (h : (array items).IsWhole) {v : Json}
    (hv : v ∈ items) : v.IsWhole :=
  fun n hn => h n (mem_numbersItems.mpr ⟨v, hv, hn⟩)

theorem IsWhole.of_mem_members {members : List (String × Json)} (h : (object members).IsWhole)
    {m : String × Json} (hm : m ∈ members) : m.2.IsWhole :=
  fun n hn => h n (mem_numbersMembers.mpr ⟨m, hm, hn⟩)

/-! Printed values -/

theorem spellsMore_charsMoreItems {value : Json → Bytes → Prop} {items : List Json}
    (h : ∀ v ∈ items, value v (bytes v.chars)) :
    SpellsMore value items (bytes (charsMoreItems items)) := by
  induction items with
  | nil => exact .nil Blanks.nil
  | cons v items ih =>
    have htext : bytes (charsMoreItems (v :: items)) =
        [] ++ 44 :: ([] ++ (bytes v.chars ++ bytes (charsMoreItems items))) := by
      rw [charsMoreItems, bytes_cons, bytes_append]
      rfl
    rw [htext]
    exact .cons Blanks.nil Blanks.nil (h v (List.mem_cons_self ..))
      (ih fun w hw => h w (List.mem_cons_of_mem _ hw))

theorem spellsList_charsItems {value : Json → Bytes → Prop} {items : List Json}
    (h : ∀ v ∈ items, value v (bytes v.chars)) :
    SpellsList value items (bytes (charsItems items)) := by
  cases items with
  | nil => exact .nil Blanks.nil
  | cons v items =>
    rw [charsItems, bytes_append]
    exact .cons Blanks.nil (h v (List.mem_cons_self ..))
      (spellsMore_charsMoreItems fun w hw => h w (List.mem_cons_of_mem _ hw))

/-- A member as it is printed. -/
def memberBytes (m : String × Json) : Bytes := bytes (quoted m.1) ++ 58 :: bytes m.2.chars

theorem spellsMore_charsMoreMembers {element : String × Json → Bytes → Prop}
    {members : List (String × Json)} (h : ∀ m ∈ members, element m (memberBytes m)) :
    SpellsMore element members (bytes (charsMoreMembers members)) := by
  induction members with
  | nil => exact .nil Blanks.nil
  | cons m members ih =>
    have htext : bytes (charsMoreMembers (m :: members)) =
        [] ++ 44 :: ([] ++ (memberBytes m ++ bytes (charsMoreMembers members))) := by
      rw [charsMoreMembers, bytes_cons, bytes_append, bytes_cons, bytes_append, memberBytes]
      simp only [List.nil_append, List.append_assoc, List.cons_append]
      rfl
    rw [htext]
    exact .cons Blanks.nil Blanks.nil (h m (List.mem_cons_self ..))
      (ih fun m hm => h m (List.mem_cons_of_mem _ hm))

theorem spellsList_charsMembers {element : String × Json → Bytes → Prop}
    {members : List (String × Json)} (h : ∀ m ∈ members, element m (memberBytes m)) :
    SpellsList element members (bytes (charsMembers members)) := by
  cases members with
  | nil => exact .nil Blanks.nil
  | cons m members =>
    have htext : bytes (charsMembers (m :: members)) =
        [] ++ (memberBytes m ++ bytes (charsMoreMembers members)) := by
      rw [charsMembers, bytes_append, bytes_cons, bytes_append, memberBytes]
      simp only [List.nil_append, List.append_assoc, List.cons_append]
      rfl
    rw [htext]
    exact .cons Blanks.nil (h m (List.mem_cons_self ..))
      (spellsMore_charsMoreMembers fun m hm => h m (List.mem_cons_of_mem _ hm))

theorem spellsNested_array {value : Json → Bytes → Prop} {items : List Json}
    (h : ∀ v ∈ items, value v (bytes v.chars)) :
    SpellsNested value (array items) (bytes (array items).chars) := by
  have htext : bytes (array items).chars = 91 :: (bytes (charsItems items) ++ [93]) := by
    rw [chars, bytes_cons, bytes_append]
    rfl
  rw [htext]
  exact .array (spellsList_charsItems h)

theorem spellsNested_object {value : Json → Bytes → Prop} {members : List (String × Json)}
    (h : ∀ m ∈ members, value m.2 (bytes m.2.chars)) :
    SpellsNested value (object members) (bytes (object members).chars) := by
  have htext : bytes (object members).chars = 123 :: (bytes (charsMembers members) ++ [125]) := by
    rw [chars, bytes_cons, bytes_append]
    rfl
  rw [htext]
  refine .object (spellsList_charsMembers fun m hm => ?_)
  exact ⟨_, [], [], _, spellsString_quoted m.1, Blanks.nil, Blanks.nil, h m hm, rfl⟩

theorem spellsScalar_chars {v : Json} (hv : v.IsWhole) (hflat : v.depth = 0) :
    SpellsScalar v (bytes v.chars) := by
  cases v with
  | null => exact .null
  | bool b =>
    cases b with
    | true => exact .true
    | false => exact .false
  | number n =>
    obtain ⟨i, rfl, hi⟩ := hv n (List.mem_singleton_self n)
    rw [chars, ← Literal.bytes_ofInt]
    exact .number (Literal.value?_ofInt hi)
  | string s => exact .string (spellsString_quoted s)
  | array items => exact absurd hflat (Nat.succ_ne_zero _)
  | object members => exact absurd hflat (Nat.succ_ne_zero _)

/-- The text of a value spells the value. -/
theorem spells_chars {d : Nat} {v : Json} (hv : v.IsWhole) (hd : v.depth ≤ d) :
    Spells d v (bytes v.chars) := by
  induction d generalizing v with
  | zero => exact spellsScalar_chars hv (Nat.le_zero.mp hd)
  | succ d ih =>
    cases v with
    | array items =>
      refine .inr (spellsNested_array fun w hw => ih (hv.of_mem_items hw) ?_)
      exact depthItems_le_iff.mp (Nat.le_of_succ_le_succ hd) w hw
    | object members =>
      refine .inr (spellsNested_object fun m hm => ih (hv.of_mem_members hm) ?_)
      exact depthMembers_le_iff.mp (Nat.le_of_succ_le_succ hd) m hm
    | null | bool | number | string => exact .inl (spellsScalar_chars hv rfl)

theorem spellsText_chars {v : Json} (hv : v.IsWhole) (hd : v.depth ≤ maxDepth) :
    SpellsText v (bytes v.chars) :=
  ⟨[], bytes v.chars, [], Blanks.nil, Blanks.nil, spells_chars hv hd, (List.append_nil _).symm⟩

/-! Reading printed values -/

theorem afterColon_colon {α : Type} (s : Bytes) (read : Bytes → Result α) :
    afterColon (58 :: s) read = read s := rfl

theorem readMembers_charsMembers {σ : Type} {member : σ → String → Bytes → Result σ}
    {step : σ → String × Json → Option σ} {members : List (String × Json)}
    (hmember : ∀ m ∈ members, ∀ state rest, EndsNumber rest →
      Yields (member state m.1 (58 :: (bytes m.2.chars ++ rest))) (step state m) rest)
    (state : σ) (rest : Bytes) :
    Yields (readMembers member state (bytes (charsMembers members) ++ 125 :: rest))
      (members.foldlM step state) rest := by
  have htaken : TakesMembers (fun m bs => m ∈ members ∧ bs = memberBytes m) member step := by
    rintro m _ ⟨hm, rfl⟩
    refine ⟨bytes (m.1.toList.flatMap escape) ++ 34 :: 58 :: bytes m.2.chars,
      bytes_quoted_append m.1 _, fun state rest hrest => ?_⟩
    rw [List.append_assoc, List.cons_append, readString_escapes]
    exact hmember m hm state rest hrest
  exact readMembers_of_spellsList htaken (spellsList_charsMembers fun m hm => ⟨hm, rfl⟩) state rest

/-- A printed value is read back, unless it is nested too deep: then it is refused. -/
theorem readValue_chars (d : Nat) {v : Json} (hv : v.IsWhole) {rest : Bytes}
    (hrest : EndsNumber rest) :
    Yields (readValue d (bytes v.chars ++ rest)) (if v.depth ≤ d then some v else none) rest :=
  (follows_readValue d v.depth).yields v _ rest (spells_chars hv (Nat.le_refl _)) hrest

end Switchboard.Json
