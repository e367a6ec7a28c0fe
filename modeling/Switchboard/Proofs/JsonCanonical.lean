import Switchboard.Proofs.JsonValues
import Mathlib.Data.String.Basic

/-!
Canonical values, and what a reader can return. Bringing a value to its canonical form a
second time changes nothing, and the canonical form has no number and no nesting that the
value does not have. A value that was read is nested no deeper than the reader allows, and
its whole numbers fit 64 bits.
-/
namespace Switchboard.Json

/-- Values are made from those without items and members. -/
theorem nesting_induction {P : Json → Prop} (scalar : ∀ v, v.depth = 0 → P v)
    (array : ∀ items, (∀ v ∈ items, P v) → P (array items))
    (object : ∀ members, (∀ m ∈ members, P m.2) → P (object members)) (v : Json) : P v := by
  obtain ⟨d, hd⟩ : ∃ d, v.depth ≤ d := ⟨_, Nat.le_refl _⟩
  induction d generalizing v with
  | zero => exact scalar v (Nat.le_zero.mp hd)
  | succ d ih =>
    cases v with
    | array items =>
      refine array items fun w hw => ih w ?_
      exact depthItems_le_iff.mp (Nat.le_of_succ_le_succ hd) w hw
    | object members =>
      refine object members fun m hm => ih m.2 ?_
      exact depthMembers_le_iff.mp (Nat.le_of_succ_le_succ hd) m hm
    | null | bool | number | string => exact scalar _ rfl

/-! Canonical form -/

theorem canonicalItems_eq_map (items : List Json) : canonicalItems items = items.map canonical := by
  induction items with
  | nil => rfl
  | cons v items ih => rw [canonicalItems, ih, List.map_cons]

theorem mem_put {name : String} {value : Json} {done : List (String × Json)} {m : String × Json}
    (h : m ∈ put name value done) : m = (name, value) ∨ m ∈ done := by
  induction done with
  | nil => exact .inl (List.mem_singleton.mp h)
  | cons first done ih =>
    obtain ⟨n, v⟩ := first
    rw [put] at h
    split at h
    · obtain rfl | h := List.mem_cons.mp h
      · exact .inr (List.mem_cons_self ..)
      · exact (ih h).imp_right (List.mem_cons_of_mem _)
    · split at h
      · exact (List.mem_cons.mp h).imp_right (List.mem_cons_of_mem _)
      · exact List.mem_cons.mp h

/-- The members of the canonical form come from the members of the value. -/
theorem mem_canonicalMembers {members done : List (String × Json)} {m : String × Json}
    (h : m ∈ canonicalMembers members done) :
    m ∈ done ∨ ∃ m' ∈ members, m.2 = m'.2.canonical := by
  induction members generalizing done with
  | nil => exact .inl h
  | cons first members ih =>
    obtain ⟨n, v⟩ := first
    obtain h | ⟨m', hm', heq⟩ := ih h
    · obtain rfl | h := mem_put h
      · exact .inr ⟨(n, v), List.mem_cons_self .., rfl⟩
      · exact .inl h
    · exact .inr ⟨m', List.mem_cons_of_mem _ hm', heq⟩

/-- Members in the order of their names, each name once. -/
def Sorted (members : List (String × Json)) : Prop := members.Pairwise fun m m' => m.1 < m'.1

theorem Sorted.put {done : List (String × Json)} (h : Sorted done) (name : String)
    (value : Json) : Sorted (put name value done) := by
  induction done with
  | nil => exact List.pairwise_singleton _ _
  | cons first done ih =>
    obtain ⟨n, v⟩ := first
    obtain ⟨hfirst, hdone⟩ := List.pairwise_cons.mp h
    rw [Json.put]
    split_ifs with hbelow hsame
    · refine List.pairwise_cons.mpr ⟨fun m hm => ?_, ih hdone⟩
      obtain rfl | hm := mem_put hm
      · exact hbelow
      · exact hfirst m hm
    · subst hsame
      exact List.pairwise_cons.mpr ⟨hfirst, hdone⟩
    · have hlt : name < n := lt_of_le_of_ne (not_lt.mp hbelow) (Ne.symm hsame)
      refine List.pairwise_cons.mpr ⟨fun m hm => ?_, h⟩
      obtain rfl | hm := List.mem_cons.mp hm
      · exact hlt
      · exact lt_trans hlt (hfirst m hm)

theorem sorted_canonicalMembers (members : List (String × Json)) {done : List (String × Json)}
    (h : Sorted done) : Sorted (canonicalMembers members done) := by
  induction members generalizing done with
  | nil => exact h
  | cons first members ih => exact ih (h.put _ _)

theorem put_of_forall_lt {name : String} (value : Json) {done : List (String × Json)}
    (h : ∀ m ∈ done, m.1 < name) : put name value done = done ++ [(name, value)] := by
  induction done with
  | nil => rfl
  | cons first done ih =>
    obtain ⟨n, v⟩ := first
    rw [put, if_pos (h (n, v) (List.mem_cons_self ..)),
      ih fun m hm => h m (List.mem_cons_of_mem _ hm), List.cons_append]

theorem canonicalMembers_of_sorted {members done : List (String × Json)}
    (h : Sorted (done ++ members)) (hvalues : ∀ m ∈ members, m.2.canonical = m.2) :
    canonicalMembers members done = done ++ members := by
  induction members generalizing done with
  | nil => rw [canonicalMembers, List.append_nil]
  | cons first members ih =>
    obtain ⟨n, v⟩ := first
    have hlt : ∀ m ∈ done, m.1 < n := fun m hm =>
      (List.pairwise_append.mp h).2.2 m hm (n, v) (List.mem_cons_self ..)
    have hvalue : v.canonical = v := hvalues (n, v) (List.mem_cons_self ..)
    rw [List.append_cons] at h
    rw [canonicalMembers, hvalue, put_of_forall_lt v hlt,
      ih h fun m hm => hvalues m (List.mem_cons_of_mem _ hm), ← List.append_cons]

theorem canonical_of_depth {v : Json} (h : v.depth = 0) : v.canonical = v := by
  cases v with
  | array | object => exact absurd h (Nat.succ_ne_zero _)
  | null | bool | number | string => rfl

theorem canonical_canonical (v : Json) : v.canonical.canonical = v.canonical := by
  induction v using nesting_induction with
  | scalar v h => rw [canonical_of_depth h, canonical_of_depth h]
  | array items ih =>
    rw [canonical, canonical, canonicalItems_eq_map, canonicalItems_eq_map, List.map_map]
    exact congrArg array (List.map_congr_left ih)
  | object members ih =>
    rw [canonical, canonical]
    refine congrArg object ?_
    refine (canonicalMembers_of_sorted (sorted_canonicalMembers _ List.Pairwise.nil) ?_).trans
      (List.nil_append _)
    intro m hm
    obtain hm | ⟨m', hm', heq⟩ := mem_canonicalMembers hm
    · exact absurd hm List.not_mem_nil
    · rw [heq, ih m' hm']

theorem depth_canonical_le (v : Json) : v.canonical.depth ≤ v.depth := by
  induction v using nesting_induction with
  | scalar v h => rw [canonical_of_depth h]
  | array items ih =>
    rw [canonical, depth, depth, canonicalItems_eq_map, Nat.succ_le_succ_iff, depthItems_le_iff]
    intro v hv
    obtain ⟨w, hw, rfl⟩ := List.mem_map.mp hv
    exact Nat.le_trans (ih w hw) (depthItems_le_iff.mp (Nat.le_refl _) w hw)
  | object members ih =>
    rw [canonical, depth, depth, Nat.succ_le_succ_iff, depthMembers_le_iff]
    intro m hm
    obtain hm | ⟨m', hm', heq⟩ := mem_canonicalMembers hm
    · exact absurd hm List.not_mem_nil
    · rw [heq]
      exact Nat.le_trans (ih m' hm') (depthMembers_le_iff.mp (Nat.le_refl _) m' hm')

theorem mem_numbers_of_canonical {v : Json} {n : Number} (h : n ∈ v.canonical.numbers) :
    n ∈ v.numbers := by
  induction v using nesting_induction with
  | scalar v hflat => rwa [canonical_of_depth hflat] at h
  | array items ih =>
    rw [canonical, numbers, canonicalItems_eq_map, mem_numbersItems] at h
    obtain ⟨v, hv, hn⟩ := h
    obtain ⟨w, hw, rfl⟩ := List.mem_map.mp hv
    exact mem_numbersItems.mpr ⟨w, hw, ih w hw hn⟩
  | object members ih =>
    rw [canonical, numbers, mem_numbersMembers] at h
    obtain ⟨m, hm, hn⟩ := h
    obtain hm | ⟨m', hm', heq⟩ := mem_canonicalMembers hm
    · exact absurd hm List.not_mem_nil
    · rw [heq] at hn
      exact mem_numbersMembers.mpr ⟨m', hm', ih m' hm' hn⟩

/-! What a reader returns -/

theorem next_eq_ok {α β : Type} {r : Result α} {k : α → Bytes → Result β} {b : β} {s : Bytes}
    (h : next r k = .ok (b, s)) : ∃ a s', r = .ok (a, s') ∧ k a s' = .ok (b, s) := by
  cases r with
  | ok p => exact ⟨p.1, p.2, rfl, h⟩
  | error f => cases h

theorem gather_lt {sig : Nat} (h : sig < UInt64.size) (ds : List UInt8) :
    (gather sig ds).1 < UInt64.size := by
  induction ds generalizing sig with
  | nil => exact h
  | cons d ds ih =>
    rw [gather]
    split_ifs with hnext
    · exact ih hnext
    · exact h

section Numbers

variable {negative : Bool} {sig dropped : Nat} {e : Int} {s rest : Bytes} {n : Number}

theorem inRange_floating (h : floating negative sig e s = .ok (n, rest)) : n.InRange := by
  unfold floating at h
  split at h
  · cases h
    trivial
  · cases h

theorem inRange_readExponent (h : readExponent negative sig e s = .ok (n, rest)) : n.InRange := by
  unfold readExponent at h
  split at h
  split at h
  · cases h
  · split at h
    · split at h
      · exact inRange_floating h
      · split at h
        · cases h
        · cases h
          trivial
    · cases h

theorem inRange_readFraction (h : readFraction negative sig e s = .ok (n, rest)) : n.InRange := by
  unfold readFraction at h
  simp only at h
  split at h
  · split at h <;> cases h
  · split at h
    · exact inRange_readExponent h
    · exact inRange_readExponent h
    · exact inRange_floating h

theorem inRange_whole (hsig : sig < UInt64.size) : (whole negative sig).InRange := by
  have hhalf : UInt64.size / 2 = 9223372036854775808 := rfl
  have hfull : UInt64.size = 18446744073709551616 := rfl
  unfold whole
  split
  · exact ⟨by omega, by omega⟩
  · split
    · trivial
    · exact ⟨by omega, by omega⟩

theorem inRange_readAfterDigits (hsig : sig < UInt64.size)
    (h : readAfterDigits negative sig dropped s = .ok (n, rest)) : n.InRange := by
  unfold readAfterDigits at h
  split at h
  · exact inRange_readFraction h
  · exact inRange_readExponent h
  · exact inRange_readExponent h
  · split at h
    · cases h
      exact inRange_whole hsig
    · exact inRange_floating h

theorem inRange_readMagnitude (h : readMagnitude negative s = .ok (n, rest)) : n.InRange := by
  have hzero : 0 < UInt64.size := by decide
  unfold readMagnitude at h
  split at h
  · cases h
  · split at h
    · split at h
      · cases h
      · exact inRange_readAfterDigits hzero h
    · exact inRange_readAfterDigits hzero h
  · split at h
    · exact inRange_readAfterDigits (gather_lt hzero _) h
    · cases h

theorem inRange_readNumber (h : readNumber s = .ok (n, rest)) : n.InRange := by
  unfold readNumber at h
  split at h <;> exact inRange_readMagnitude h

end Numbers

theorem walkItems_invariant {σ : Type} {item : σ → Bytes → Result σ} {P : σ → Prop}
    (hitem : ∀ state s state' s', P state → item state s = .ok (state', s') → P state')
    {fuel : Nat} {first : Bool} {state state' : σ} {s s' : Bytes} (hstate : P state)
    (h : walkItems item fuel first state s = .ok (state', s')) : P state' := by
  induction fuel generalizing first state s with
  | zero => cases h
  | succ fuel ih =>
    have hnext : ∀ s, next (item state s) (walkItems item fuel false) = .ok (state', s') →
        P state' := by
      intro s h
      obtain ⟨mid, r, hmid, h⟩ := next_eq_ok h
      exact ih (hitem state s mid r hstate hmid) h
    rw [walkItems] at h
    split at h
    · cases h
    · split at h
      · cases h
        exact hstate
      · split at h
        · exact hnext _ h
        · split at h
          · split at h
            · cases h
            · split at h
              · cases h
              · exact hnext _ h
          · cases h

theorem walkMembers_invariant {σ : Type} {member : σ → String → Bytes → Result σ}
    {P : σ → Prop}
    (hmember : ∀ state name s state' s', P state → member state name s = .ok (state', s') →
      P state')
    {fuel : Nat} {first : Bool} {state state' : σ} {s s' : Bytes} (hstate : P state)
    (h : walkMembers member fuel first state s = .ok (state', s')) : P state' := by
  induction fuel generalizing first state s with
  | zero => cases h
  | succ fuel ih =>
    have hnext : ∀ s,
        next (next (readString s) (member state)) (walkMembers member fuel false) =
          .ok (state', s') → P state' := by
      intro s h
      obtain ⟨mid, r, hmid, h⟩ := next_eq_ok h
      obtain ⟨name, r', -, hmid⟩ := next_eq_ok hmid
      exact ih (hmember state name r' mid r hstate hmid) h
    rw [walkMembers] at h
    split at h
    · cases h
    · split at h
      · cases h
        exact hstate
      · split at h
        · split at h
          · exact hnext _ h
          · cases h
        · split at h
          · split at h
            · cases h
            · split at h
              · exact hnext _ h
              · split at h <;> cases h
          · cases h

/-- Nested no deeper than `d`, with whole numbers of 64 bits. -/
def Readable (d : Nat) (v : Json) : Prop := v.depth ≤ d ∧ ∀ n ∈ v.numbers, n.InRange

theorem Readable.scalar {v : Json} (d : Nat) (hflat : v.depth = 0) (hnumbers : v.numbers = []) :
    Readable d v :=
  ⟨hflat ▸ Nat.zero_le d, by simp [hnumbers]⟩

theorem Readable.array {d : Nat} {items : List Json} (h : ∀ v ∈ items, Readable d v) :
    Readable (d + 1) (array items) := by
  refine ⟨Nat.succ_le_succ (depthItems_le_iff.mpr fun v hv => (h v hv).1), fun n hn => ?_⟩
  obtain ⟨v, hv, hn⟩ := mem_numbersItems.mp hn
  exact (h v hv).2 n hn

theorem Readable.object {d : Nat} {members : List (String × Json)}
    (h : ∀ m ∈ members, Readable d m.2) : Readable (d + 1) (object members) := by
  refine ⟨Nat.succ_le_succ (depthMembers_le_iff.mpr fun m hm => (h m hm).1), fun n hn => ?_⟩
  obtain ⟨m, hm, hn⟩ := mem_numbersMembers.mp hn
  exact (h m hm).2 n hn

theorem Readable.canonical {d : Nat} {v : Json} (h : Readable d v) : Readable d v.canonical :=
  ⟨Nat.le_trans (depth_canonical_le v) h.1, fun n hn => h.2 n (mem_numbers_of_canonical hn)⟩

/-- A reader of values whose results are readable. -/
def ReadsBelow (d : Nat) (read : Bytes → Result Json) : Prop :=
  ∀ s v rest, read s = .ok (v, rest) → Readable d v

theorem ReadsBelow.items {d : Nat} {read : Bytes → Result Json} (hread : ReadsBelow d read)
    {items : List Json} {s rest : Bytes}
    (h : readItems (fun done s => next (read s) fun v s => .ok (v :: done, s)) [] s =
      .ok (items, rest)) : ∀ v ∈ items, Readable d v := by
  refine walkItems_invariant (P := fun done => ∀ v ∈ done, Readable d v) ?_
    (fun _ hv => absurd hv List.not_mem_nil) h
  intro done s done' s' hdone hitem
  obtain ⟨v, r, hv, hitem⟩ := next_eq_ok hitem
  cases hitem
  exact List.forall_mem_cons.mpr ⟨hread s v _ hv, hdone⟩

theorem ReadsBelow.afterColon {d : Nat} {read : Bytes → Result Json} (hread : ReadsBelow d read) :
    ReadsBelow d fun s => Json.afterColon s read := by
  intro s v rest h
  simp only [Json.afterColon] at h
  split at h
  · cases h
  · split at h
    · exact hread _ v rest h
    · cases h

theorem ReadsBelow.members {d : Nat} {read : Bytes → Result Json} (hread : ReadsBelow d read)
    {members : List (String × Json)} {s rest : Bytes}
    (h : readMembers (fun done name s =>
      next (Json.afterColon s read) fun v s => .ok ((name, v) :: done, s)) [] s =
      .ok (members, rest)) : ∀ m ∈ members, Readable d m.2 := by
  refine walkMembers_invariant (P := fun done => ∀ m ∈ done, Readable d m.2) ?_
    (fun _ hm => absurd hm List.not_mem_nil) h
  intro done name s done' s' hdone hmember
  obtain ⟨v, r, hv, hmember⟩ := next_eq_ok hmember
  cases hmember
  exact List.forall_mem_cons.mpr ⟨hread.afterColon s v _ hv, hdone⟩

theorem map_eq_ok {v v' : Json} {r : Except Fault Bytes} {rest : Bytes}
    (h : (r.map fun s => (v, s)) = .ok (v', rest)) : v' = v := by
  cases r with
  | ok s =>
    cases h
    rfl
  | error f => cases h

/-- A reader of values goes one level deeper than the reader of its items. -/
theorem readsBelow_readValueWith {d : Nat} {inner : Option (Bytes → Result Json)}
    (hinner : ∀ read ∈ inner, ∃ d', d = d' + 1 ∧ ReadsBelow d' read) :
    ReadsBelow d (readValueWith inner) := by
  intro s v rest h
  unfold readValueWith at h
  split at h
  · cases h
  · rw [map_eq_ok h]
    exact .scalar d rfl rfl
  · rw [map_eq_ok h]
    exact .scalar d rfl rfl
  · rw [map_eq_ok h]
    exact .scalar d rfl rfl
  · obtain ⟨t, r, -, h⟩ := next_eq_ok h
    cases h
    exact .scalar d rfl rfl
  · split at h
    · cases h
    · obtain ⟨d', rfl, hread⟩ := hinner _ rfl
      obtain ⟨items, r, hitems, h⟩ := next_eq_ok h
      cases h
      exact .array fun v hv => hread.items hitems v (List.mem_reverse.mp hv)
  · split at h
    · cases h
    · obtain ⟨d', rfl, hread⟩ := hinner _ rfl
      obtain ⟨members, r, hmembers, h⟩ := next_eq_ok h
      cases h
      exact .object fun m hm => hread.members hmembers m (List.mem_reverse.mp hm)
  · split at h
    · obtain ⟨n, r, hn, h⟩ := next_eq_ok h
      cases h
      refine ⟨Nat.zero_le d, fun m hm => ?_⟩
      rw [List.mem_singleton.mp hm]
      exact inRange_readNumber hn
    · cases h

/-- A value that was read is nested no deeper than allowed, and its whole numbers fit. -/
theorem readsBelow_readValue (d : Nat) : ReadsBelow d (readValue d) := by
  induction d with
  | zero => exact readsBelow_readValueWith fun _ h => nomatch h
  | succ d ih =>
    refine readsBelow_readValueWith fun read h => ⟨d, rfl, ?_⟩
    cases h
    exact ih

end Switchboard.Json
