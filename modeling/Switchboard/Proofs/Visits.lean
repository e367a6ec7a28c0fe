import Mathlib.Data.List.Nodup
import Switchboard.Proofs.WaitingLine

/-!
The record of those who had to wait at a gate, in the order of their arrival, with what has
become of each: one still waits, another was given up, a third came back and was told
something. As long as the gate is open, `Seats` holds it and the record together: those who
were not given up are the ones that have been admitted, followed by those who stand in line.
A shut gate has nobody in line, and whoever still has a slot still waits.
-/
namespace Switchboard

/-- What has become of a registration that had to wait. -/
inductive Fate where
  | waits
  | givenUp
  | ended (a : Registration)
deriving DecidableEq

/-- A registration that had to wait. -/
structure Visit where
  waiter : Waiter
  fate : Fate
deriving DecidableEq

namespace Visit

/-- Whether the registration has not been given up. -/
def stayed (v : Visit) : Bool := decide (v.fate ≠ .givenUp)

/-- A registration in line. -/
def inLine (w : Waiter) : Visit := ⟨w, .waits⟩

/-- The wait of `w` comes to an end; whoever has come to an end before is not concerned. -/
def turn (w : Waiter) (f : Fate) (v : Visit) : Visit :=
  if v = inLine w then ⟨w, f⟩ else v

@[simp] theorem waiter_turn (w : Waiter) (f : Fate) (v : Visit) :
    (v.turn w f).waiter = v.waiter := by
  unfold turn
  split_ifs with h
  · rw [h]
    rfl
  · rfl

theorem turn_of_ne {w : Waiter} {v : Visit} (h : v ≠ inLine w) (f : Fate) : v.turn w f = v :=
  if_neg h

theorem turn_inLine (w : Waiter) (f : Fate) : (inLine w).turn w f = ⟨w, f⟩ := if_pos rfl

theorem inLine_injective : Function.Injective inLine := fun _ _ h => congrArg Visit.waiter h

/-- The registration has been admitted: it was granted, or has a slot and has not come. -/
def HasSlot (g : Gate) (v : Visit) : Prop :=
  (∃ h, v.fate = .ended (.granted h)) ∨ v.fate = .waits ∧ v.waiter ∈ g.handed

theorem HasSlot.mono {g g' : Gate} {v : Visit} (h : v.HasSlot g)
    (hsub : ∀ w ∈ g.handed, w ∈ g'.handed) : v.HasSlot g' :=
  h.imp_right fun hw => ⟨hw.1, hsub _ hw.2⟩

end Visit

open Visit

namespace Gate

/-- Those who were not given up have been admitted, the first `front`, or stand in line
behind them. -/
structure Serves (g : Gate) (vs front : List Visit) : Prop where
  stayed : vs.filter Visit.stayed = front ++ g.line.map inLine
  front : ∀ v ∈ front, v.HasSlot g

/-- The gate and the record of those who wait agree. -/
structure Seats (g : Gate) (vs : List Visit) : Prop where
  orderly : g.Orderly
  serial_lt : ∀ v ∈ vs, v.waiter.serial < g.serial
  nodup : (vs.map Visit.waiter).Nodup
  handed : ∀ w ∈ g.handed, inLine w ∈ vs
  line_of_shut : g.shut = true → g.line = []
  serves : g.shut = false → ∃ front, g.Serves vs front

/-- What happens at a gate, and how it goes down in the record. -/
inductive Attends (g : Gate) (vs : List Visit) : Gate → List Visit → Prop
  | enters {g' : Gate} :
      g'.line = g.line → g'.handed = g.handed → g'.serial = g.serial → g'.shut = g.shut →
      Attends g vs g' vs
  | joins : g.shut = false → Attends g vs g.joinLine.1 (vs ++ [inLine g.joinLine.2])
  | leaves : Attends g vs g.leave vs
  | admits {w : Waiter} (h : Handle) :
      g.shut = false → w ∈ g.handed →
      Attends g vs { g with handed := g.handed.erase w } (vs.map (turn w (.ended (.granted h))))
  | givesUp (w : Waiter) : Attends g vs (g.withdraw w) (vs.map (turn w .givenUp))
  | refuses (w : Waiter) (f : Failure) :
      g.shut = true → Attends g vs (g.withdraw w) (vs.map (turn w (.ended (.refused f))))
  | shuts {g' : Gate} :
      g'.line = [] → g'.handed = g.handed → g'.serial = g.serial → g'.shut = true →
      Attends g vs g' vs

variable {g g' : Gate} {vs front : List Visit} {w : Waiter}

theorem leave_of_line_nil (h : g.line = []) : g.leave = { g with free := g.free + 1 } := by
  simp [leave, h]

theorem leave_of_line_cons {rest : List Waiter} (h : g.line = w :: rest) :
    g.leave = { g with line := rest, handed := g.handed ++ [w] } := by
  simp [leave, h]

/-- The gate without a waiter, whose slot goes to nobody. -/
def without (g : Gate) (w : Waiter) : Gate :=
  { g with line := g.line.erase w, handed := g.handed.erase w }

namespace Orderly

theorem nodup_line (h : g.Orderly) : g.line.Nodup := (List.nodup_append.mp h.nodup).1

theorem nodup_handed (h : g.Orderly) : g.handed.Nodup := (List.nodup_append.mp h.nodup).2.1

theorem notMem_line (h : g.Orderly) (hw : w ∈ g.handed) : w ∉ g.line := fun hline =>
  (List.nodup_append.mp h.nodup).2.2 w hline w hw rfl

theorem without (h : g.Orderly) (w : Waiter) : (g.without w).Orderly := by
  have hsub : (g.line.erase w ++ g.handed.erase w).Sublist (g.line ++ g.handed) :=
    List.erase_sublist.append List.erase_sublist
  exact h.of_subperm hsub.subperm rfl

theorem withdraw_eq (h : g.Orderly) (w : Waiter) :
    g.withdraw w = if w ∈ g.handed then (g.without w).leave else g.without w := by
  unfold Gate.withdraw Gate.without
  split_ifs with hw
  · rw [List.erase_of_not_mem (h.notMem_line hw)]
  · rw [List.erase_of_not_mem hw]

end Orderly

namespace Serves

theorem mem_inLine (h : g.Serves vs front) (hw : w ∈ g.line) : inLine w ∈ vs := by
  have hmem : inLine w ∈ vs.filter Visit.stayed := by
    rw [h.stayed]
    exact List.mem_append_right _ (List.mem_map_of_mem hw)
  exact List.mem_of_mem_filter hmem

theorem leave (h : g.Serves vs front) :
    g.leave.Serves vs (front ++ (g.line.head?.map inLine).toList) ∧
      g.leave.line = g.line.tail := by
  cases hline : g.line with
  | nil =>
    rw [leave_of_line_nil hline]
    refine ⟨⟨?_, ?_⟩, hline⟩
    · simpa [hline] using h.stayed
    · intro v hv
      exact h.front v (by simpa using hv)
  | cons w rest =>
    rw [leave_of_line_cons hline]
    refine ⟨⟨?_, ?_⟩, rfl⟩
    · simpa [hline] using h.stayed
    · intro v hv
      rcases List.mem_append.mp hv with hold | hnew
      · exact (h.front v hold).mono fun u hu => List.mem_append_left _ hu
      · have hv : v = inLine w := by simpa using hnew
        rw [hv]
        exact Or.inr ⟨rfl, List.mem_append_right _ (List.mem_singleton_self w)⟩

theorem joinLine (h : g.Serves vs front) :
    g.joinLine.1.Serves (vs ++ [inLine g.joinLine.2]) front where
  stayed := by
    have hstays : [inLine g.joinLine.2].filter Visit.stayed = [inLine g.joinLine.2] := rfl
    rw [List.filter_append, h.stayed, hstays]
    simp [Gate.joinLine]
  front := h.front

theorem filter_map_inLine (ho : g.Orderly) (w : Waiter) :
    (g.line.map inLine).filter (· ≠ inLine w) = (g.line.erase w).map inLine := by
  rw [List.filter_map, ho.nodup_line.erase_eq_filter]
  congr 1
  apply List.filter_congr
  intro u _
  simp only [Function.comp, ne_eq, inLine_injective.eq_iff, decide_not, bne, beq_eq_decide]

theorem ne_inLine_of_mem {u : Waiter} (hw : w ∉ g.line) (hu : u ∈ g.line) :
    inLine u ≠ inLine w := by
  intro heq
  exact hw (inLine_injective heq ▸ hu)

theorem giveUp (h : g.Serves vs front) (ho : g.Orderly) (w : Waiter) :
    (g.without w).Serves (vs.map (turn w .givenUp)) (front.filter (· ≠ inLine w)) where
  stayed := by
    have hturn : ∀ v : Visit, Visit.stayed (v.turn w .givenUp) =
        (Visit.stayed v && decide (v ≠ inLine w)) := by
      intro v
      by_cases hv : v = inLine w
      · rw [hv, turn_inLine]
        simp [Visit.stayed]
      · rw [turn_of_ne hv]
        simp [hv]
    have hsame : ∀ v ∈ (vs.filter Visit.stayed).filter (· ≠ inLine w),
        v.turn w .givenUp = v := by
      intro v hv
      exact turn_of_ne (by simpa using (List.mem_filter.mp hv).2) _
    calc (vs.map (turn w .givenUp)).filter Visit.stayed
        = ((vs.filter Visit.stayed).filter (· ≠ inLine w)).map (turn w .givenUp) := by
          rw [List.filter_map, List.filter_filter]
          congr 1
          apply List.filter_congr
          intro v _
          rw [Function.comp, hturn, Bool.and_comm]
      _ = (vs.filter Visit.stayed).filter (· ≠ inLine w) :=
          (List.map_congr_left hsame).trans (List.map_id' _)
      _ = front.filter (· ≠ inLine w) ++ (g.line.erase w).map inLine := by
          rw [h.stayed, List.filter_append, filter_map_inLine ho w]
  front := by
    intro v hv
    obtain ⟨hmem, hne⟩ := List.mem_filter.mp hv
    have hne : v ≠ inLine w := by simpa using hne
    refine (h.front v hmem).imp_right ?_
    rintro ⟨hwaits, hhanded⟩
    refine ⟨hwaits, (List.mem_erase_of_ne ?_).mpr hhanded⟩
    intro heq
    exact hne (by cases v; simp_all [inLine])

theorem grant (h : g.Serves vs front) (ho : g.Orderly) (hw : w ∈ g.handed) (a : Handle) :
    (g.without w).Serves (vs.map (turn w (.ended (.granted a))))
      (front.map (turn w (.ended (.granted a)))) where
  stayed := by
    have hturn : ∀ v : Visit,
        Visit.stayed (v.turn w (.ended (.granted a))) = Visit.stayed v := by
      intro v
      by_cases hv : v = inLine w
      · rw [hv, turn_inLine]
        rfl
      · rw [turn_of_ne hv]
    have hline : (g.line.map inLine).map (turn w (.ended (.granted a))) =
        (g.line.erase w).map inLine := by
      rw [List.erase_of_not_mem (ho.notMem_line hw), List.map_map]
      apply List.map_congr_left
      intro u hu
      exact turn_of_ne (ne_inLine_of_mem (ho.notMem_line hw) hu) _
    calc (vs.map (turn w (.ended (.granted a)))).filter Visit.stayed
        = (vs.filter Visit.stayed).map (turn w (.ended (.granted a))) := by
          rw [List.filter_map]
          congr 1
          exact List.filter_congr fun v _ => hturn v
      _ = front.map (turn w (.ended (.granted a))) ++ (g.line.erase w).map inLine := by
          rw [h.stayed, List.map_append, hline]
  front := by
    intro v hv
    obtain ⟨u, hu, rfl⟩ := List.mem_map.mp hv
    by_cases hne : u = inLine w
    · rw [hne, turn_inLine]
      exact Or.inl ⟨a, rfl⟩
    · rw [turn_of_ne hne]
      refine (h.front u hu).imp_right ?_
      rintro ⟨hwaits, hhanded⟩
      refine ⟨hwaits, (List.mem_erase_of_ne ?_).mpr hhanded⟩
      intro heq
      exact hne (by cases u; simp_all [inLine])

end Serves

namespace Seats

theorem of_eq (h : g.Seats vs) (hline : g'.line = g.line) (hhanded : g'.handed = g.handed)
    (hserial : g'.serial = g.serial) (hshut : g'.shut = g.shut) : g'.Seats vs where
  orderly := by
    have hwaiters : g'.waiters = g.waiters := by rw [waiters, waiters, hline, hhanded]
    exact h.orderly.of_subperm (by rw [hwaiters]) hserial
  serial_lt := by
    rw [hserial]
    exact h.serial_lt
  nodup := h.nodup
  handed := by
    rw [hhanded]
    exact h.handed
  line_of_shut hs := hline.trans (h.line_of_shut (hshut ▸ hs))
  serves hs := by
    obtain ⟨front, hserves⟩ := h.serves (hshut ▸ hs)
    refine ⟨front, ?_, ?_⟩
    · rw [hline]
      exact hserves.stayed
    · intro v hv
      exact (hserves.front v hv).mono (by simp [hhanded])

theorem joinLine (h : g.Seats vs) (hopen : g.shut = false) :
    g.joinLine.1.Seats (vs ++ [inLine g.joinLine.2]) where
  orderly := h.orderly.joinLine
  serial_lt v hv := by
    change v.waiter.serial < g.serial + 1
    rcases List.mem_append.mp hv with hold | hnew
    · exact Nat.lt_succ_of_lt (h.serial_lt v hold)
    · rw [List.mem_singleton.mp hnew]
      exact Nat.lt_succ_self _
  nodup := by
    rw [List.map_append, List.nodup_append]
    refine ⟨h.nodup, List.nodup_singleton _, ?_⟩
    rintro u hu u' hu' rfl
    obtain ⟨v, hv, rfl⟩ := List.mem_map.mp hu
    have hlast : v.waiter = ⟨g.serial⟩ := List.mem_singleton.mp hu'
    have hlt := h.serial_lt v hv
    rw [hlast] at hlt
    exact Nat.lt_irrefl _ hlt
  handed w hw := List.mem_append_left _ (h.handed w hw)
  line_of_shut hs := absurd hs (by simp [Gate.joinLine, hopen])
  serves _ := by
    obtain ⟨front, hserves⟩ := h.serves hopen
    exact ⟨front, hserves.joinLine⟩

theorem leave (h : g.Seats vs) : g.leave.Seats vs where
  orderly := h.orderly.leave
  serial_lt := by
    rw [serial_leave]
    exact h.serial_lt
  nodup := h.nodup
  handed w hw := by
    cases hline : g.line with
    | nil =>
      rw [leave_of_line_nil hline] at hw
      exact h.handed w hw
    | cons u rest =>
      rw [leave_of_line_cons hline] at hw
      rcases List.mem_append.mp hw with hold | hnew
      · exact h.handed w hold
      · -- a gate with somebody in line is open
        have hopen : g.shut = false := by
          rw [Bool.eq_false_iff]
          intro hs
          rw [h.line_of_shut hs] at hline
          cases hline
        obtain ⟨front, hserves⟩ := h.serves hopen
        rw [List.mem_singleton.mp hnew]
        exact hserves.mem_inLine (by simp [hline])
  line_of_shut hs := by
    rw [shut_leave] at hs
    rw [leave_of_line_nil (h.line_of_shut hs)]
    exact h.line_of_shut hs
  serves hs := by
    rw [shut_leave] at hs
    obtain ⟨front, hserves⟩ := h.serves hs
    exact ⟨_, hserves.leave.1⟩

theorem without (h : g.Seats vs) (w : Waiter) {f : Fate}
    (hf : g.shut = false → f = .givenUp ∨ (∃ a, f = .ended (.granted a)) ∧ w ∈ g.handed) :
    (g.without w).Seats (vs.map (turn w f)) where
  orderly := h.orderly.without w
  serial_lt v hv := by
    obtain ⟨u, hu, rfl⟩ := List.mem_map.mp hv
    rw [waiter_turn]
    exact h.serial_lt u hu
  nodup := by
    rw [List.map_map]
    exact (List.map_congr_left fun v _ => waiter_turn w f v) ▸ h.nodup
  handed u hu := by
    obtain ⟨hne, hmem⟩ := h.orderly.nodup_handed.mem_erase_iff.mp hu
    refine List.mem_map.mpr ⟨inLine u, h.handed u hmem, turn_of_ne ?_ f⟩
    intro heq
    exact hne (inLine_injective heq)
  line_of_shut hs := by
    change g.line.erase w = []
    rw [h.line_of_shut hs]
    rfl
  serves hs := by
    obtain ⟨front, hserves⟩ := h.serves hs
    rcases hf hs with rfl | ⟨⟨a, rfl⟩, hw⟩
    · exact ⟨_, hserves.giveUp h.orderly w⟩
    · exact ⟨_, hserves.grant h.orderly hw a⟩

theorem withdraw (h : g.Seats vs) (w : Waiter) {f : Fate}
    (hf : g.shut = false → f = .givenUp) : (g.withdraw w).Seats (vs.map (turn w f)) := by
  have hgone := h.without w fun hs => Or.inl (hf hs)
  rw [h.orderly.withdraw_eq]
  split
  · exact hgone.leave
  · exact hgone

theorem shuts (h : g.Seats vs) (hline : g'.line = []) (hhanded : g'.handed = g.handed)
    (hserial : g'.serial = g.serial) (hshut : g'.shut = true) : g'.Seats vs where
  orderly := by
    have hsub : (g'.line ++ g'.handed).Sublist (g.line ++ g.handed) := by
      rw [hline, hhanded]
      exact List.sublist_append_right _ _
    exact h.orderly.of_subperm hsub.subperm hserial
  serial_lt := by
    rw [hserial]
    exact h.serial_lt
  nodup := h.nodup
  handed := by
    rw [hhanded]
    exact h.handed
  line_of_shut _ := hline
  serves hs := by
    rw [hshut] at hs
    cases hs

end Seats

theorem Attends.seats {vs' : List Visit} (ha : Attends g vs g' vs') (h : g.Seats vs) :
    g'.Seats vs' := by
  cases ha with
  | enters hline hhanded hserial hshut => exact h.of_eq hline hhanded hserial hshut
  | joins hopen => exact h.joinLine hopen
  | leaves => exact h.leave
  | @admits w a hopen hw =>
    have hgone := h.without w (f := .ended (.granted a)) fun _ => Or.inr ⟨⟨a, rfl⟩, hw⟩
    rwa [Gate.without, List.erase_of_not_mem (h.orderly.notMem_line hw)] at hgone
  | givesUp w => exact h.withdraw w fun _ => rfl
  | refuses w f hshut =>
    refine h.withdraw w fun hopen => ?_
    rw [hshut] at hopen
    cases hopen
  | shuts hline hhanded hserial hshut => exact h.shuts hline hhanded hserial hshut

end Gate

end Switchboard
