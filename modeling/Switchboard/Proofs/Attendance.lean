import Switchboard.Proofs.Poisoning
import Switchboard.Proofs.Visits

/-!
The registrations of a run that had to wait. Their record is made from what the operations
answer: a registration that is told to wait is put down, one that is given up or told
something else when it comes back is marked. Nothing of the gate enters into it. `Attended`
says that in every run the gate and the record agree.
-/
namespace Switchboard

open Visit

namespace Registry

open Gate (Seats Attends)

/-- What an operation adds to the record. -/
def note (r : Registry) (vs : List Visit) : Op → List Visit
  | .register =>
    match r.register.2 with
    | .waiting w => vs ++ [inLine w]
    | _ => vs
  | .resume w =>
    match (r.resume w).2 with
    | .waiting _ => vs
    | a => vs.map (turn w (.ended a))
  | .abandon w => vs.map (turn w .givenUp)
  | _ => vs

def recordFrom : List Visit → Registry → List Op → List Visit
  | vs, _, [] => vs
  | vs, r, op :: ops => recordFrom (r.note vs op) (r.after op) ops

/-- The registrations of a run that had to wait, the first to wait first. -/
def visits (r : Registry) (ops : List Op) : List Visit := recordFrom [] r ops

theorem recordFrom_append (vs : List Visit) (r : Registry) (ops more : List Op) :
    recordFrom vs r (ops ++ more) = recordFrom (recordFrom vs r ops) (r.run ops) more := by
  induction ops generalizing vs r with
  | nil => rfl
  | cons op ops ih => exact ih _ _

theorem visits_concat (r : Registry) (ops : List Op) (op : Op) :
    r.visits (ops ++ [op]) = (r.run ops).note (r.visits ops) op := by
  rw [visits, recordFrom_append]
  rfl

/-- The record of a run agrees with the gate, and the gate with the lifecycle. -/
structure Attended (r : Registry) (vs : List Visit) : Prop where
  seats : r.gate.Seats vs
  shut : r.gate.shut = r.lifecycle.isShuttingDown
  connecting : r.lifecycle = .connecting → vs = []

variable {r : Registry} {vs : List Visit}

/-! What the operations do at the gate -/

theorem attends_tryEnter {g g' : Gate} (h : g.tryEnter = .ok g') : Attends g vs g' vs := by
  obtain ⟨-, rfl⟩ := Gate.eq_of_tryEnter h
  exact .enters rfl rfl rfl rfl

theorem gate_enroll_of_ready {g : Gate} (hready : r.lifecycle = .ready) :
    (enroll { r with gate := g }).1.gate = g ∧
      ∃ h, (enroll { r with gate := g }).2 = .ok h := by
  rw [enroll_of_ready (r := { r with gate := g }) hready]
  exact ⟨rfl, _, rfl⟩

theorem attends_register (r : Registry) (vs : List Visit) :
    Attends r.gate vs r.register.1.gate (r.note vs .register) := by
  unfold note register
  cases hrej : r.rejection with
  | some f => exact .enters rfl rfl rfl rfl
  | none =>
    have hready : r.lifecycle = .ready := (rejection_eq_none_iff r).mp hrej
    rcases r.gate.enter_cases with ⟨g, hg, henter⟩ | ⟨hopen, -, -, henter⟩ | ⟨f, -, henter⟩
    · obtain ⟨hgate, h, hgranted⟩ := gate_enroll_of_ready (g := g) hready
      simp only [henter, onAdmission, hgranted, Registration.ofExcept, hgate]
      exact attends_tryEnter hg
    · rw [henter]
      exact .joins hopen
    · rw [henter]
      exact .enters rfl rfl rfl rfl

theorem attends_tryRegister (r : Registry) (vs : List Visit) :
    Attends r.gate vs r.tryRegister.1.gate vs := by
  unfold tryRegister
  cases hrej : r.rejection with
  | some f => exact .enters rfl rfl rfl rfl
  | none =>
    have hready : r.lifecycle = .ready := (rejection_eq_none_iff r).mp hrej
    cases htry : r.gate.tryEnter with
    | error f => exact .enters rfl rfl rfl rfl
    | ok g =>
      dsimp only
      rw [(gate_enroll_of_ready hready).1]
      exact attends_tryEnter htry

theorem resume_of_shut (hshut : r.gate.shut = true) (w : Waiter) :
    (r.resume w).1.gate = r.gate.withdraw w ∧ ∃ f, (r.resume w).2 = .refused f := by
  have hclaim : r.gate.claim w = (r.gate.withdraw w, .refused Gate.shutFailure) := by
    simp [Gate.claim, hshut]
  rw [resume, hclaim]
  exact ⟨rfl, _, rfl⟩

/-- Whoever comes for the slot it has is admitted by a registry that is ready. -/
theorem resume_of_handed (hready : r.lifecycle = .ready) (hopen : r.gate.shut = false)
    {w : Waiter} (hw : w ∈ r.gate.handed) :
    (r.resume w).1.gate = { r.gate with handed := r.gate.handed.erase w } ∧
      ∃ h, (r.resume w).2 = .granted h := by
  have hclaim : r.gate.claim w =
      ({ r.gate with handed := r.gate.handed.erase w }, .admitted) := by
    simp [Gate.claim, hopen, hw]
  obtain ⟨hgate, h, hgranted⟩ :=
    gate_enroll_of_ready (r := r) (g := { r.gate with handed := r.gate.handed.erase w }) hready
  rw [resume, hclaim]
  simp only [onAdmission, hgranted, Registration.ofExcept]
  exact ⟨hgate, h, rfl⟩

theorem resume_of_notMem (hopen : r.gate.shut = false) {w : Waiter} (hw : w ∉ r.gate.handed) :
    r.resume w = (r, .waiting w) := by
  have hclaim : r.gate.claim w = (r.gate, .waiting w) := by
    simp [Gate.claim, hopen, hw]
  rw [resume, hclaim]
  rfl

theorem Attended.ready_of_handed (h : r.Attended vs) (hopen : r.gate.shut = false) {w : Waiter}
    (hw : w ∈ r.gate.handed) : r.lifecycle = .ready := by
  have hnot := h.shut.symm.trans hopen
  cases hlife : r.lifecycle with
  | ready => rfl
  | connecting =>
    have hmem := h.seats.handed w hw
    rw [h.connecting hlife] at hmem
    exact absurd hmem List.not_mem_nil
  | closing => simp [hlife, Lifecycle.isShuttingDown] at hnot
  | closed => simp [hlife, Lifecycle.isShuttingDown] at hnot

theorem attends_resume (h : r.Attended vs) (w : Waiter) :
    Attends r.gate vs (r.resume w).1.gate (r.note vs (.resume w)) := by
  cases hshut : r.gate.shut with
  | true =>
    obtain ⟨hgate, f, hf⟩ := resume_of_shut hshut w
    simp only [note, hf, hgate]
    exact .refuses w f hshut
  | false =>
    by_cases hw : w ∈ r.gate.handed
    · have hready := h.ready_of_handed hshut hw
      obtain ⟨hgate, a, ha⟩ := resume_of_handed hready hshut hw
      simp only [note, ha, hgate]
      exact .admits a hshut hw
    · simp only [note, resume_of_notMem hshut hw]
      exact .enters rfl rfl rfl rfl

theorem attends_settle (r : Registry) (vs : List Visit) (id : RequestId) (o : Outcome) :
    Attends r.gate vs (r.settle id o).1.gate vs := by
  unfold settle
  split
  · simp only [discharge_eq]
    split
    · exact .enters rfl rfl rfl rfl
    · exact .leaves
  · exact .enters rfl rfl rfl rfl

@[simp] theorem serial_drain (hs : List Handle) (o : Outcome) (r : Registry) :
    (hs.foldl (discharge o) r).gate.serial = r.gate.serial := by
  induction hs generalizing r with
  | nil => rfl
  | cons h hs ih =>
    refine (ih _).trans ?_
    simp only [discharge_eq]
    split
    · rfl
    · exact Gate.serial_leave _

theorem attends_failAll (r : Registry) (vs : List Visit) (f : Failure) :
    Attends r.gate vs (r.failAll f).1.gate vs := by
  by_cases hclosed : r.lifecycle = .closed
  · rw [failAll_of_closed hclosed]
    exact .enters rfl rfl rfl rfl
  · have hover := over_failAll hclosed f
    refine .shuts hover.line (handed_failAll hclosed f) ?_ hover.shut
    rw [failAll_of_open hclosed, serial_drain]
    rfl

/-- Whatever is done to a registry, its gate and the record go together. -/
theorem attends_after (h : r.Attended vs) (op : Op) :
    Attends r.gate vs (r.after op).gate (r.note vs op) := by
  cases op with
  | register => exact attends_register r vs
  | tryRegister => exact attends_tryRegister r vs
  | resume w => exact attends_resume h w
  | abandon w => exact .givesUp w
  | settle id o => exact attends_settle r vs id o
  | failAll f => exact attends_failAll r vs f
  | greet =>
    simp only [after, act, greet]
    split
    · exact .enters rfl rfl rfl rfl
    · split
      · exact .enters rfl rfl rfl rfl
      · exact .enters rfl rfl rfl rfl
  | markReady =>
    simp only [after, act, markReady]
    split
    · exact .enters rfl rfl rfl rfl
    · exact .enters rfl rfl rfl rfl
  | beginClosing =>
    simp only [after, act, beginClosing]
    split
    · exact .enters rfl rfl rfl rfl
    · exact .shuts rfl rfl rfl rfl

theorem note_of_connecting (hc : r.lifecycle = .connecting) (op : Op) : r.note [] op = [] := by
  have hrej : r.rejection = some (.notReady .connecting) := by simp [rejection, hc]
  cases op with
  | register => simp [note, register, hrej]
  | resume w =>
    simp only [note]
    split
    · rfl
    · rfl
  | _ => rfl

namespace Attended

theorem after (h : r.Attended vs) (op : Op) : (r.after op).Attended (r.note vs op) where
  seats := (attends_after h op).seats h.seats
  shut := (change_of_act r op).shut h.shut
  connecting hc := by
    have hbefore : r.lifecycle = .connecting := by
      rcases (change_of_act r op).lifecycle with hsame | ⟨-, -, hs⟩ | ⟨-, -, hs⟩ | ⟨-, -, hs⟩
      · exact hsame.symm.trans hc
      · exact absurd (hs.symm.trans hc) (by decide)
      · exact absurd (hs.symm.trans hc) (by decide)
      · exact absurd (hs.symm.trans hc) (by decide)
    rw [h.connecting hbefore]
    exact note_of_connecting hbefore op

theorem recordFrom (h : r.Attended vs) (ops : List Op) :
    (r.run ops).Attended (recordFrom vs r ops) := by
  induction ops generalizing r vs with
  | nil => exact h
  | cons op ops ih => exact ih (h.after op)

end Attended

/-- In every run the record agrees with the gate. -/
theorem attended_visits {ceiling : Nat} {policy : Policy} (hmake : make ceiling policy = .ok r)
    (ops : List Op) : (r.run ops).Attended (r.visits ops) := by
  obtain ⟨g, hgate, rfl⟩ := eq_of_make hmake
  refine Attended.recordFrom ⟨?_, Gate.shut_of_make hgate, fun _ => rfl⟩ ops
  obtain ⟨-, -, rfl⟩ := Gate.eq_of_make hgate
  exact ⟨⟨List.nodup_nil, nofun⟩, nofun, List.nodup_nil, nofun, fun _ => rfl,
    fun _ => ⟨[], rfl, nofun⟩⟩

end Registry

end Switchboard
