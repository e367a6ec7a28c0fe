import Switchboard.Proofs.Attendance

/-!
Where the slots of a registry are. In every state of every run each slot is in one of three
places: it is free, a pending request holds it, or a registration that waits has been handed
it and has not come for it. Once nobody who waits has anything to come for, the slots in
flight are those of the pending requests, whether the registry is ready, closing or closed.
-/
namespace Switchboard.Registry

open Visit

/-- The pending requests that hold a slot. -/
def ordinary (r : Registry) : List Handle := r.pending.filter fun h => !h.id.isHandshake

/-- The registrations that wait with a slot for which they have not come. -/
def provided (r : Registry) (vs : List Visit) : List Visit :=
  vs.filter fun v => decide (v.fate = .waits ∧ v.waiter ∈ r.gate.handed)

/-- Whoever waits would go on waiting if it came back now. -/
def AtRest (r : Registry) (vs : List Visit) : Prop :=
  ∀ v ∈ vs, v.fate = .waits → (r.resume v.waiter).2 = .waiting v.waiter

instance (r : Registry) (vs : List Visit) : Decidable (r.AtRest vs) :=
  inferInstanceAs (Decidable (∀ v ∈ vs, v.fate = .waits → _))

variable {r : Registry} {vs : List Visit}

theorem length_ordinary (r : Registry) : r.ordinary.length = r.ordinaryIds.length := by
  rw [ordinary, ordinaryIds, List.filter_map, List.length_map]
  rfl

namespace Attended

theorem perm_provided (h : r.Attended vs) :
    ((r.provided vs).map Visit.waiter).Perm r.gate.handed := by
  have hsub : ((r.provided vs).map Visit.waiter).Sublist (vs.map Visit.waiter) :=
    List.filter_sublist.map _
  refine (List.perm_ext_iff_of_nodup (h.seats.nodup.sublist hsub)
    h.seats.orderly.nodup_handed).mpr ?_
  intro w
  constructor
  · intro hw
    obtain ⟨v, hv, rfl⟩ := List.mem_map.mp hw
    have hmem := (List.mem_filter.mp hv).2
    exact (of_decide_eq_true hmem).2
  · intro hw
    refine List.mem_map.mpr ⟨inLine w, ?_, rfl⟩
    exact List.mem_filter.mpr ⟨h.seats.handed w hw, decide_eq_true ⟨rfl, hw⟩⟩

theorem length_provided (h : r.Attended vs) :
    (r.provided vs).length = r.gate.handed.length := by
  rw [← h.perm_provided.length_eq, List.length_map]

theorem resume_ne_waiting (h : r.Attended vs) {w : Waiter} (hw : w ∈ r.gate.handed) :
    (r.resume w).2 ≠ .waiting w := by
  cases hshut : r.gate.shut with
  | true =>
    obtain ⟨-, f, hf⟩ := resume_of_shut hshut w
    rw [hf]
    exact nofun
  | false =>
    obtain ⟨-, a, ha⟩ := resume_of_handed (h.ready_of_handed hshut hw) hshut hw
    rw [ha]
    exact nofun

theorem handed_eq_nil (h : r.Attended vs) (hrest : r.AtRest vs) : r.gate.handed = [] := by
  rw [List.eq_nil_iff_forall_not_mem]
  intro w hw
  exact h.resume_ne_waiting hw (hrest _ (h.seats.handed w hw) rfl)

end Attended

/-- In every state of a run each slot is free, held by a pending request, or handed to a
registration that waits. So no more slots are free, in flight or held than there are, and
when everything is at rest the slots in flight are those of the pending requests. -/
theorem slots_add_up {ceiling : Nat} {policy : Policy} (hmake : make ceiling policy = .ok r)
    (ops : List Op) :
    let s := r.run ops
    let vs := r.visits ops
    s.gate.free + s.ordinary.length + (s.provided vs).length = ceiling ∧
      s.gate.free ≤ s.gate.ceiling ∧ s.gate.inflight ≤ ceiling ∧
      s.ordinary.length ≤ ceiling ∧
      s.gate.inflight = s.ordinary.length + (s.provided vs).length ∧
      (s.AtRest vs → s.gate.inflight = s.ordinary.length) := by
  intro s vs
  have hattended : s.Attended vs := attended_visits hmake ops
  have hsound : Sound s := sound_run (sound_of_make hmake) ops
  have hceiling : s.gate.ceiling = ceiling :=
    (ceiling_run r ops).trans (ceiling_of_make hmake).1
  have hslots : s.gate.free + s.gate.handed.length + s.ordinary.length = ceiling := by
    rw [length_ordinary, ← hceiling]
    exact hsound.slots
  have hprovided := hattended.length_provided
  have hinflight : s.gate.inflight = ceiling - s.gate.free := by rw [Gate.inflight, hceiling]
  refine ⟨by omega, by omega, by omega, by omega, by omega, ?_⟩
  intro hrest
  have hnobody : s.gate.handed.length = 0 := by rw [hattended.handed_eq_nil hrest]; rfl
  omega

/-- Both slots are in use when the crowd has been seated: one is held by a request, the other
is on its way. After the end, the latter comes back when its owner does. -/
theorem slots_of_crowd :
    ∃ r, make 2 .block = .ok r ∧
      let s := r.run crowd
      let gone := crowd ++ [.failAll (.closing "gone")]
      let rest := gone ++ [.resume ⟨1⟩, .resume ⟨0⟩]
      s.gate.free = 0 ∧ s.ordinary.length = 1 ∧ (s.provided (r.visits crowd)).length = 1 ∧
        (r.run gone).gate.inflight = 1 ∧ ¬ (r.run gone).AtRest (r.visits gone) ∧
        (r.run rest).AtRest (r.visits rest) ∧ (r.run rest).gate.inflight = 0 := by
  have hmake : make 2 .block = .ok { gate := { ceiling := 2, policy := .block, free := 2 } } :=
    rfl
  have hgone := slots_add_up hmake (crowd ++ [.failAll (.closing "gone")])
  have hrest := slots_add_up hmake
    (crowd ++ [.failAll (.closing "gone")] ++ [.resume ⟨1⟩, .resume ⟨0⟩])
  refine ⟨_, hmake, by decide, by decide, by decide, hgone.2.2.2.2.1, by decide, by decide, ?_⟩
  exact hrest.2.2.2.2.2 (by decide)

end Switchboard.Registry
