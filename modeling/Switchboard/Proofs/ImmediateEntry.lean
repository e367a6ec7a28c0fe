import Switchboard.Proofs.RefusedPayloads

/-!
The two ways to register a request: at once or not at all, and if need be after a wait.
They differ only at a full gate that lets its callers wait. Everywhere else the caller who
may wait is answered on the spot, with the answer and the effect of the caller who may not.
Two facts about every run carry this: no slot is free while somebody is in line, and the gate
is shut exactly when the lifecycle turns everybody away. A gate that lets nobody wait has no
line at all, so what is not in flight can be had by those who come next, and no more.
-/
namespace Switchboard

namespace Gate

theorem invariant_policy (policy : Policy) : Invariant fun g => g.policy = policy where
  take h _ := h
  joinLine h _ _ := h
  leave h := (policy_leave _).trans h
  eraseLine _ h := h
  eraseHanded _ h := h
  shutDown h := h

theorem Passes.policy {g g' : Gate} (h : Passes g g') : g'.policy = g.policy :=
  (invariant_policy g.policy).passes h rfl

/-- Nobody waits at a gate, neither in line nor with a slot. -/
structure Deserted (g : Gate) : Prop where
  policy : g.policy = .reject
  line : g.line = []
  handed : g.handed = []

theorem invariant_deserted : Invariant Deserted where
  take h _ := ⟨h.policy, h.line, h.handed⟩
  joinLine h _ hblock := Policy.noConfusion (hblock.symm.trans h.policy)
  leave h := by
    rw [leave_of_line_nil h.line]
    exact ⟨h.policy, h.line, h.handed⟩
  eraseLine w h := ⟨h.policy, by rw [h.line, List.erase_nil], h.handed⟩
  eraseHanded w h := ⟨h.policy, h.line, by rw [h.handed, List.erase_nil]⟩
  shutDown h := ⟨h.policy, rfl, h.handed⟩

theorem Passes.deserted {g g' : Gate} (hp : Passes g g') (h : g.Deserted) : g'.Deserted :=
  invariant_deserted.passes hp h

theorem policy_of_make {ceiling : Nat} {policy : Policy} {g : Gate}
    (h : make ceiling policy = .ok g) : g.policy = policy ∧ g.handed = [] := by
  obtain ⟨-, -, rfl⟩ := eq_of_make h
  exact ⟨rfl, rfl⟩

theorem tryEnter_of_free {g : Gate} (hopen : g.shut = false) (hfree : g.free ≠ 0) :
    g.tryEnter = .ok { g with free := g.free - 1 } := by
  simp [tryEnter, hopen, hfree]

theorem tryEnter_of_full {g : Gate} (hopen : g.shut = false) (hfree : g.free = 0) :
    g.tryEnter = .error (.admissionRejected g.ceiling g.ceiling) := by
  simp [tryEnter, hopen, hfree, inflight]

end Gate

namespace Registry

/-- A registration that joins the line. -/
def queueUp (r : Registry) : Registry × Registration :=
  ({ r with gate := r.gate.joinLine.1 }, .waiting r.gate.joinLine.2)

/-- A registration that does not wait. -/
def registerNow (r : Registry) : Registry × Registration :=
  (r.tryRegister.1, .ofExcept r.tryRegister.2)

/-- The registry with one more request, in a slot that was free. -/
def takeIn (r : Registry) : Registry :=
  fileNext { r with gate := { r.gate with free := r.gate.free - 1 } }

variable {r : Registry}

@[simp] theorem free_takeIn (r : Registry) : r.takeIn.gate.free = r.gate.free - 1 := rfl

theorem registerNow_of_rejection {f : Failure} (h : r.rejection = some f) :
    r.register = r.registerNow ∧ r.tryRegister = (r, .error f) := by
  simp [registerNow, register, tryRegister, h, Registration.ofExcept]

/-- With a slot free, both ways lead in. -/
theorem registerNow_of_free (hready : r.lifecycle = .ready) (hopen : r.gate.shut = false)
    (hfree : r.gate.free ≠ 0) :
    r.register = r.registerNow ∧
      r.tryRegister = (r.takeIn, .ok (r.nextHandle r.ids.acquire.1)) := by
  have hrej := (rejection_eq_none_iff r).mpr hready
  have htry := Gate.tryEnter_of_free hopen hfree
  have hready' : Registry.lifecycle
      { r with gate := { r.gate with free := r.gate.free - 1 } } = .ready := hready
  constructor
  · simp [registerNow, register, tryRegister, hrej, Gate.enter, htry, onAdmission]
  · simp only [tryRegister, hrej, htry, enroll_of_ready hready']
    rfl

/-- At a full gate the one who may not wait is turned away, and the other one waits if the
policy allows it. -/
theorem registerNow_of_full (hready : r.lifecycle = .ready) (hopen : r.gate.shut = false)
    (hfree : r.gate.free = 0) :
    r.tryRegister = (r, .error (.admissionRejected r.gate.ceiling r.gate.ceiling)) ∧
      r.register = if r.gate.policy = .block then r.queueUp else r.registerNow := by
  have hrej := (rejection_eq_none_iff r).mpr hready
  have htry := Gate.tryEnter_of_full hopen hfree
  have himmediate : r.tryRegister =
      (r, .error (.admissionRejected r.gate.ceiling r.gate.ceiling)) := by
    simp [tryRegister, hrej, htry]
  refine ⟨himmediate, ?_⟩
  rw [registerNow, himmediate]
  cases hpolicy : r.gate.policy <;>
    simp [register, hrej, Gate.enter, htry, Gate.mayWait, hopen, hpolicy, onAdmission, queueUp,
      Registration.ofExcept]

/-- The state explains a refusal as full only when the registry has come to its end for that
very reason. -/
theorem rejection_eq_admissionRejected_iff {i n : Nat} :
    r.rejection = some (.admissionRejected i n) ↔
      r.lifecycle = .closed ∧ r.closedWith = some (.admissionRejected i n) := by
  cases hlife : r.lifecycle with
  | closed => cases hwith : r.closedWith <;> simp [rejection, hlife, hwith]
  | connecting => simp [rejection, hlife]
  | ready => simp [rejection, hlife]
  | closing => simp [rejection, hlife]

/-- Unless the gate is full, both ways lead to the same, and a refusal as full is the end of
the registry. -/
theorem registerNow_of_not_full (hopen : r.lifecycle = .ready → r.gate.shut = false)
    (hnot : r.lifecycle = .ready → r.gate.free ≠ 0) :
    r.register = r.registerNow ∧ ∀ i n, r.tryRegister.2 = .error (.admissionRejected i n) ↔
      r.lifecycle = .closed ∧ r.closedWith = some (.admissionRejected i n) := by
  cases hrej : r.rejection with
  | some f =>
    obtain ⟨hsame, htry⟩ := registerNow_of_rejection hrej
    refine ⟨hsame, fun i n => ?_⟩
    rw [← rejection_eq_admissionRejected_iff, hrej, htry]
    simp
  | none =>
    have hready : r.lifecycle = .ready := (rejection_eq_none_iff r).mp hrej
    obtain ⟨hsame, htry⟩ := registerNow_of_free hready (hopen hready) (hnot hready)
    refine ⟨hsame, fun i n => ?_⟩
    simp [htry, hready]

/-- Whether an operation registers a request, in one way or the other. -/
def Op.isRegistration : Op → Bool
  | .register | .tryRegister => true
  | _ => false

/-- Where both ways lead to the same, it makes no difference which one is taken. -/
theorem act_of_isRegistration {op : Op} (hop : op.isRegistration = true)
    (hsame : r.register = r.registerNow) :
    r.act op = (r.tryRegister.1, r.tryRegister.2.toOption) := by
  cases op with
  | register =>
    rw [act, hsame, registerNow]
    cases r.tryRegister.2 <;> rfl
  | tryRegister => rfl
  | _ => cases hop

theorem length_granted (hready : r.lifecycle = .ready) (hopen : r.gate.shut = false)
    (hpolicy : r.gate.policy = .reject) {tries : List Op}
    (htries : ∀ op ∈ tries, op.isRegistration = true) :
    (r.granted tries).length = min tries.length r.gate.free := by
  induction tries generalizing r with
  | nil => simp [granted]
  | cons op tries ih =>
    obtain ⟨hop, hrest⟩ := List.forall_mem_cons.mp htries
    by_cases hfree : r.gate.free = 0
    · -- nothing changes, so neither do the next ones get in
      obtain ⟨htry, hsame⟩ := registerNow_of_full hready hopen hfree
      rw [if_neg (by simp [hpolicy])] at hsame
      have hact := act_of_isRegistration hop hsame
      rw [htry] at hact
      rw [granted, grants, Registry.after, hact, List.length_append, ih hready hopen hpolicy hrest]
      simp [hfree, Except.toOption]
    · obtain ⟨hsame, htry⟩ := registerNow_of_free hready hopen hfree
      have hact := act_of_isRegistration hop hsame
      rw [htry] at hact
      have hnext := ih (r := r.takeIn) hready hopen hpolicy hrest
      rw [granted, grants, Registry.after, hact, List.length_append, hnext, free_takeIn]
      simp only [Except.toOption, Option.toList_some, List.length_cons, List.length_nil]
      omega

theorem terms_of_run {ceiling : Nat} {policy : Policy} (hmake : make ceiling policy = .ok r)
    (ops : List Op) :
    let s := r.run ops
    s.gate.ceiling = ceiling ∧ 1 ≤ ceiling ∧ s.gate.policy = policy ∧
      (policy = .reject → s.gate.Deserted) := by
  obtain ⟨g, hgate, rfl⟩ := eq_of_make hmake
  obtain ⟨hpolicy, hhanded⟩ := Gate.policy_of_make hgate
  obtain ⟨hceiling, -, hpos, -⟩ := Gate.slots_of_make hgate
  have hkept : (run { gate := g } ops).gate.policy = policy :=
    run_induction (P := fun s => s.gate.policy = policy) hpolicy
      (fun s op hs => (passes_after s op).policy.trans hs) ops
  refine ⟨(ceiling_run _ ops).trans hceiling, hpos, hkept, ?_⟩
  intro hreject
  have hstart : g.Deserted := ⟨hpolicy.trans hreject, Gate.line_of_make hgate, hhanded⟩
  exact run_induction (P := fun s => s.gate.Deserted) hstart
    (fun s op hs => (passes_after s op).deserted hs) ops

/-- In every state of every run, a caller who may wait gets the answer of one who may not,
with the same effect, unless the gate is full and lets its callers wait; then the one joins
the line and the other is turned away. The latter is told that the gate is full exactly when
it is, or when the registry has come to its end with that failure. Where nobody may wait,
those who register one after the other are admitted as long as there are slots. -/
theorem register_agrees {ceiling : Nat} {policy : Policy} (hmake : make ceiling policy = .ok r)
    (ops : List Op) :
    let s := r.run ops
    let full := s.lifecycle = .ready ∧ s.gate.inflight = ceiling
    (policy = .reject → s.register = s.registerNow) ∧
      (policy = .block → ¬ full → s.register = s.registerNow) ∧
      (policy = .block → full → s.register = s.queueUp) ∧
      (full → s.tryRegister = (s, .error (.admissionRejected ceiling ceiling))) ∧
      (∀ i n, s.tryRegister.2 = .error (.admissionRejected i n) ↔
        full ∧ i = ceiling ∧ n = ceiling ∨
          s.lifecycle = .closed ∧ s.closedWith = some (.admissionRejected i n)) ∧
      (policy = .reject → s.lifecycle = .ready →
        ∀ tries : List Op, (∀ op ∈ tries, op.isRegistration = true) →
          (s.granted tries).length = min tries.length (ceiling - s.ordinary.length)) := by
  intro s full
  obtain ⟨hceiling, hpos, hpolicy, hdeserted⟩ := terms_of_run hmake ops
  have hattended : s.Attended (r.visits ops) := attended_visits hmake ops
  have hopen := hattended.gate_open
  have hle : s.gate.free ≤ ceiling := hceiling ▸ (sound_run (sound_of_make hmake) ops).free_le
  have hfull : s.gate.inflight = ceiling ↔ s.gate.free = 0 := by
    rw [Gate.inflight, hceiling]
    omega
  have htaken : full → s.tryRegister = (s, .error (.admissionRejected ceiling ceiling)) ∧
      s.register = if policy = .block then s.queueUp else s.registerNow := by
    rintro ⟨hready, hinflight⟩
    have h := registerNow_of_full hready (hopen hready) (hfull.mp hinflight)
    rwa [hceiling, hpolicy] at h
  have hroom : ¬ full → s.register = s.registerNow ∧
      ∀ i n, s.tryRegister.2 = .error (.admissionRejected i n) ↔
        s.lifecycle = .closed ∧ s.closedWith = some (.admissionRejected i n) :=
    fun hnot => registerNow_of_not_full hopen fun hready hfree => hnot ⟨hready, hfull.mpr hfree⟩
  refine ⟨?_, fun _ hnot => (hroom hnot).1, ?_, fun h => (htaken h).1, ?_, ?_⟩
  · intro hreject
    by_cases h : full
    · rw [(htaken h).2, if_neg (by simp [hreject])]
    · exact (hroom h).1
  · intro hblock h
    rw [(htaken h).2, if_pos hblock]
  · intro i n
    by_cases h : full
    · have hopen : s.lifecycle ≠ .closed := by simp [h.1]
      simp [(htaken h).1, h, hopen, eq_comm]
    · simp [(hroom h).2, h]
  · intro hreject hready tries htries
    have hnobody : (s.provided (r.visits ops)).length = 0 := by
      rw [hattended.length_provided, (hdeserted hreject).handed]
      rfl
    have hslots := (slots_add_up hmake ops).1
    have hfree : s.gate.free = ceiling - s.ordinary.length := by
      change s.gate.free + s.ordinary.length + (s.provided (r.visits ops)).length = ceiling
        at hslots
      omega
    rw [← hfree]
    exact length_granted hready (hopen hready) (hpolicy.trans hreject) htries

/-- Two slots are taken: whoever may wait joins the line. Three slots and one request: of five
that come, two get in. -/
theorem register_agrees_at_ceiling :
    (∃ r, make 2 .block = .ok r ∧
      let s := r.run [.markReady, .register, .register]
      s.register = s.queueUp ∧ s.tryRegister.2 = .error (.admissionRejected 2 2)) ∧
    ∃ r, make 3 .reject = .ok r ∧
      let s := r.run [.markReady, .register]
      s.register = s.registerNow ∧
        (s.granted (List.replicate 5 .register)).length = 2 := by
  have hblock : make 2 .block =
      .ok { gate := { ceiling := 2, policy := .block, free := 2 } } := rfl
  have hreject : make 3 .reject =
      .ok { gate := { ceiling := 3, policy := .reject, free := 3 } } := rfl
  obtain ⟨-, -, hwait, hfull, -, -⟩ :=
    register_agrees hblock [.markReady, .register, .register]
  obtain ⟨hnow, -, -, -, -, hmany⟩ := register_agrees hreject [.markReady, .register]
  refine ⟨⟨_, hblock, hwait rfl (by decide), by rw [hfull (by decide)]⟩,
    _, hreject, hnow rfl, ?_⟩
  rw [hmany rfl (by decide) _ (fun op hop => by rw [List.eq_of_mem_replicate hop]; rfl)]
  decide

/-- A registry that has come to its end with such a failure says that it is full, though it
holds no request, and then nobody waits. -/
theorem full_only_in_name :
    ∃ r, make 2 .block = .ok r ∧
      let s := r.run [.failAll (.admissionRejected 7 3)]
      s.lifecycle = .closed ∧ s.gate.inflight = 0 ∧
        s.tryRegister.2 = .error (.admissionRejected 7 3) ∧
        s.register.2 = .refused (.admissionRejected 7 3) := by
  refine ⟨{ gate := { ceiling := 2, policy := .block, free := 2 } }, rfl, ?_⟩
  decide

end Registry

end Switchboard
