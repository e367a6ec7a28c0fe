import Mathlib.Tactic.SplitIfs
import Switchboard.Gate

/-!
Where the slots of a gate are. A slot is free, or handed to a waiter, or it has been taken
out of the gate by somebody who entered. `Takes` says how many slots an operation takes
out, and that it leaves the terms of the gate alone.
-/
namespace Switchboard

/-- How many slots the outcome of asking for one takes out of the gate. -/
def Admission.cost : Admission → Nat
  | .admitted => 1
  | _ => 0

namespace Gate

/-- The slots that nobody has taken out of the gate. -/
def slots (g : Gate) : Nat := g.free + g.handed.length

/-- The second gate is the first after `n` slots were taken out of it. -/
structure Takes (n : Nat) (g g' : Gate) : Prop where
  ceiling : g'.ceiling = g.ceiling
  policy : g'.policy = g.policy
  shut : g'.shut = g.shut
  slots : g'.slots + n = g.slots

theorem Takes.refl (g : Gate) : Takes 0 g g := ⟨rfl, rfl, rfl, rfl⟩

@[simp] theorem policy_leave (g : Gate) : g.leave.policy = g.policy := by
  unfold leave
  split <;> rfl

@[simp] theorem slots_after_leave (g : Gate) : g.leave.slots = g.slots + 1 :=
  slots_leave g

theorem Takes.leave {g g' : Gate} (h : Takes 1 g g') : Takes 0 g g'.leave := by
  refine ⟨?_, ?_, ?_, ?_⟩
  · rw [ceiling_leave, h.ceiling]
  · rw [policy_leave, h.policy]
  · rw [shut_leave, h.shut]
  · rw [slots_after_leave, h.slots]

theorem eq_of_tryEnter {g g' : Gate} (h : g.tryEnter = .ok g') :
    g.free ≠ 0 ∧ g' = { g with free := g.free - 1 } := by
  unfold tryEnter at h
  split_ifs at h with hshut hfree
  cases h
  exact ⟨hfree, rfl⟩

theorem error_of_tryEnter {g : Gate} {f : Failure} (h : g.tryEnter = .error f) :
    g.shut = true ∧ f = shutFailure ∨
      g.shut = false ∧ g.free = 0 ∧ f = .admissionRejected g.ceiling g.ceiling := by
  unfold tryEnter at h
  split_ifs at h with hshut hfree
  · exact Or.inl ⟨hshut, (Except.error.inj h).symm⟩
  · refine Or.inr ⟨Bool.eq_false_iff.mpr hshut, hfree, ?_⟩
    rw [← Except.error.inj h, inflight, hfree, Nat.sub_zero]

theorem takes_tryEnter {g g' : Gate} (h : g.tryEnter = .ok g') : Takes 1 g g' := by
  obtain ⟨hfree, rfl⟩ := eq_of_tryEnter h
  refine ⟨rfl, rfl, rfl, ?_⟩
  simp only [slots]
  omega

/-- Whoever comes takes a free slot, or joins the line for want of one, or is turned away and
leaves no trace. -/
theorem enter_cases (g : Gate) :
    (∃ g', g.tryEnter = .ok g' ∧ g.enter = (g', .admitted)) ∨
      (g.shut = false ∧ g.free = 0 ∧ g.policy = .block ∧
        g.enter = (g.joinLine.1, .waiting g.joinLine.2)) ∨
      ∃ f, g.tryEnter = .error f ∧ g.enter = (g, .refused f) := by
  unfold enter
  cases htry : g.tryEnter with
  | ok g' => exact Or.inl ⟨g', rfl, rfl⟩
  | error f =>
    right
    cases hwait : g.mayWait with
    | false => exact Or.inr ⟨f, rfl, rfl⟩
    | true =>
      simp only [mayWait, Bool.and_eq_true, Bool.not_eq_true', decide_eq_true_eq] at hwait
      obtain ⟨hopen, hblock⟩ := hwait
      rcases error_of_tryEnter htry with ⟨hshut, -⟩ | ⟨-, hfree, -⟩
      · exact Bool.noConfusion (hopen.symm.trans hshut)
      · exact Or.inl ⟨hopen, hfree, hblock, rfl⟩

theorem takes_enter (g : Gate) : Takes g.enter.2.cost g g.enter.1 := by
  rcases g.enter_cases with ⟨g', hg, henter⟩ | ⟨-, -, -, henter⟩ | ⟨f, -, henter⟩
  · rw [henter]
    exact takes_tryEnter hg
  · rw [henter]
    exact ⟨rfl, rfl, rfl, rfl⟩
  · rw [henter]
    exact Takes.refl g

theorem slots_erase_handed {g : Gate} {w : Waiter} (h : w ∈ g.handed) :
    slots { g with handed := g.handed.erase w } + 1 = g.slots := by
  have hpos : 0 < g.handed.length := List.length_pos_of_mem h
  simp only [slots, List.length_erase_of_mem h]
  omega

theorem takes_withdraw (g : Gate) (w : Waiter) : Takes 0 g (g.withdraw w) := by
  unfold withdraw
  by_cases h : w ∈ g.handed
  · rw [if_pos h]
    exact Takes.leave ⟨rfl, rfl, rfl, slots_erase_handed h⟩
  · rw [if_neg h]
    exact ⟨rfl, rfl, rfl, rfl⟩

theorem takes_claim (g : Gate) (w : Waiter) : Takes (g.claim w).2.cost g (g.claim w).1 := by
  unfold claim
  by_cases hshut : g.shut = true
  · rw [if_pos hshut]
    exact takes_withdraw g w
  · rw [if_neg hshut]
    by_cases h : w ∈ g.handed
    · rw [if_pos h]
      exact ⟨rfl, rfl, rfl, slots_erase_handed h⟩
    · rw [if_neg h]
      exact Takes.refl g

/-- A new gate has its ceiling within bounds, all its slots free, and nobody in line. -/
theorem eq_of_make {ceiling : Nat} {policy : Policy} {g : Gate}
    (h : make ceiling policy = .ok g) :
    1 ≤ ceiling ∧ ceiling ≤ maxCeiling ∧
      g = { ceiling := ceiling, policy := policy, free := ceiling } := by
  unfold make at h
  split_ifs at h with hbounds
  exact ⟨hbounds.1, hbounds.2, (Except.ok.inj h).symm⟩

theorem slots_of_make {ceiling : Nat} {policy : Policy} {g : Gate}
    (h : make ceiling policy = .ok g) :
    g.ceiling = ceiling ∧ g.slots = ceiling ∧ 1 ≤ ceiling ∧ ceiling ≤ maxCeiling := by
  obtain ⟨hpos, hle, rfl⟩ := eq_of_make h
  exact ⟨rfl, rfl, hpos, hle⟩

theorem shut_of_make {ceiling : Nat} {policy : Policy} {g : Gate}
    (h : make ceiling policy = .ok g) : g.shut = false := by
  obtain ⟨-, -, rfl⟩ := eq_of_make h
  rfl

theorem line_of_make {ceiling : Nat} {policy : Policy} {g : Gate}
    (h : make ceiling policy = .ok g) : g.line = [] := by
  obtain ⟨-, -, rfl⟩ := eq_of_make h
  rfl

end Gate

end Switchboard
