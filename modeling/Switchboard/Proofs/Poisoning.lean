import Switchboard.Proofs.LinkFailure
import Switchboard.Proofs.WaitingLine

/-!
A registry after its end. The failure that closes it is the outcome of every request that
was pending, and the answer to every request that wants to be registered from then on: to
those who come later, to those who stood in line, and to those who had been handed a slot
and had not come for it. All they can still do is to give that slot back. `Over` is what
the end leaves behind and what no operation changes; the answers in `Poisoned` are read
off it. That the gate never answers in its own name rests on `Change.shut`: it is shut just
when the registry itself turns requests away.
-/
namespace Switchboard

/-- The waiter who comes for a slot or gives up waiting. -/
def Registry.Op.waiter? : Registry.Op → Option Waiter
  | .resume w => some w
  | .abandon w => some w
  | _ => none

namespace Registry

variable {r s : Registry} {f : Failure}

/-- A request to register is turned away with this failure, at once or when it comes back
from the line. -/
def Refuses (r : Registry) (f : Failure) : Prop :=
  r.register.2 = .refused f ∨ r.tryRegister.2 = .error f ∨ ∃ w, (r.resume w).2 = .refused f

/-- What every operation answers once the registry has been closed with a failure. -/
structure Poisoned (r : Registry) (f : Failure) : Prop where
  lifecycle : r.lifecycle = .closed
  closedWith : r.closedWith = some f
  pending : r.pending = []
  outstanding : r.ids.outstanding = 0
  register : r.register = (r, .refused f)
  tryRegister : r.tryRegister = (r, .error f)
  resume : ∀ w, r.resume w = ({ r with gate := r.gate.withdraw w }, .refused f)
  /-- The call that has waited in line, whatever its errand. -/
  poll : ∀ l : Link, l.registry = r → ∀ now w e,
    ((Call.inLine w e).poll now l).2 = .finished (.failed f)
  greet : r.greet = (r, .error f)
  settle : ∀ id o, r.settle id o = ({ r with unmatched := r.unmatched ++ [id] }, false)
  failAll : ∀ g, r.failAll g = (r, false)
  beginClosing : r.beginClosing = (r, false)
  markReady : r.markReady = (r, false)

/-! The gate and the lifecycle -/

@[simp] theorem shut_discharge (o : Outcome) (r : Registry) (h : Handle) :
    (discharge o r h).gate.shut = r.gate.shut := by
  rw [discharge_eq]
  split <;> simp

@[simp] theorem shut_drain (hs : List Handle) (o : Outcome) (r : Registry) :
    (hs.foldl (discharge o) r).gate.shut = r.gate.shut := by
  induction hs generalizing r with
  | nil => rfl
  | cons h hs ih => exact (ih _).trans (shut_discharge o r h)

/-- The gate is shut just when the registry is shutting down. -/
theorem Change.shut {op : Op} {granted : Option Handle} (hc : Change r op s granted)
    (h : r.gate.shut = r.lifecycle.isShuttingDown) :
    s.gate.shut = s.lifecycle.isShuttingDown := by
  cases hc with
  | waits _ hg => exact hg.shut.trans h
  | enters _ _ hg => exact hg.shut.trans h
  | strikes _ => exact (shut_discharge _ _ _).trans h
  | opens hconnecting =>
    rw [hconnecting] at h
    exact h
  | closes _ => rfl
  | fails _ =>
    rw [shut_drain, lifecycle_drain]
    rfl
  | stays _ => exact h
  | greets _ _ => exact h
  | notes _ => exact h
  | failsLate _ => exact h

theorem shut_run (h : r.gate.shut = r.lifecycle.isShuttingDown) (ops : List Op) :
    (r.run ops).gate.shut = (r.run ops).lifecycle.isShuttingDown :=
  run_induction (P := fun s => s.gate.shut = s.lifecycle.isShuttingDown) h
    (fun s op hs => (change_of_act s op).shut hs) ops

/-! Who turns requests away -/

theorem tryEnter_eq_error {g : Gate} (hopen : g.shut = false) (h : g.tryEnter = .error f) :
    f = .admissionRejected g.ceiling g.ceiling := by
  rcases Gate.error_of_tryEnter h with ⟨hshut, -⟩ | ⟨-, -, hf⟩
  · exact Bool.noConfusion (hopen.symm.trans hshut)
  · exact hf

/-- A ready registry turns nobody away who has been admitted, and passes on what the gate
says. -/
theorem onAdmission_refused {a : Gate × Admission} (hready : r.rejection = none)
    (h : (r.onAdmission a).2 = .refused f) : a.2 = .refused f := by
  have hlife : r.lifecycle = .ready := (rejection_eq_none_iff r).mp hready
  obtain ⟨g, a⟩ := a
  cases a with
  | admitted =>
    simp only [onAdmission, enroll_of_ready (r := { r with gate := g }) hlife] at h
    cases h
  | waiting w => cases h
  | refused e =>
    simp only [onAdmission, hready, Option.getD_none, Registration.refused.injEq] at h
    exact congrArg Admission.refused h

theorem onAdmission_refused_of_rejection {a : Gate × Admission} {e : Failure}
    (hrej : r.rejection = some e) (h : (r.onAdmission a).2 = .refused f) : f = e := by
  obtain ⟨g, a⟩ := a
  cases a with
  | admitted =>
    simp only [onAdmission, enroll_of_rejection (r := { r with gate := g }) hrej] at h
    cases h
    rfl
  | waiting w => cases h
  | refused e' =>
    simp only [onAdmission, hrej, Option.getD_some, Registration.refused.injEq] at h
    exact h.symm

theorem enter_refused {g : Gate} (hopen : g.shut = false) (h : g.enter.2 = .refused f) :
    f = .admissionRejected g.ceiling g.ceiling := by
  rcases g.enter_cases with ⟨g', -, henter⟩ | ⟨-, -, -, henter⟩ | ⟨e, htry, henter⟩
  · rw [henter] at h
    cases h
  · rw [henter] at h
    cases h
  · rw [henter] at h
    cases h
    exact tryEnter_eq_error hopen htry

theorem claim_not_refused {g : Gate} (hopen : g.shut = false) (w : Waiter) :
    (g.claim w).2 ≠ .refused f := by
  unfold Gate.claim
  rw [hopen, if_neg Bool.false_ne_true]
  split
  · exact nofun
  · exact nofun

/-- Requests are turned away for the reason of the registry, or since all slots are taken. -/
theorem Refuses.reason (hshut : r.gate.shut = r.lifecycle.isShuttingDown) (h : r.Refuses f) :
    r.rejection = some f ∨
      r.lifecycle = .ready ∧ f = .admissionRejected r.gate.ceiling r.gate.ceiling := by
  cases hrej : r.rejection with
  | some e =>
    left
    rcases h with h | h | ⟨w, h⟩
    · simp only [register, hrej, Registration.refused.injEq] at h
      exact congrArg some h
    · simp only [tryRegister, hrej, Except.error.injEq] at h
      exact congrArg some h
    · exact congrArg some (onAdmission_refused_of_rejection hrej h).symm
  | none =>
    right
    have hready : r.lifecycle = .ready := (rejection_eq_none_iff r).mp hrej
    have hopen : r.gate.shut = false := by
      rw [hshut, hready]
      rfl
    refine ⟨hready, ?_⟩
    rcases h with h | h | ⟨w, h⟩
    · simp only [register, hrej] at h
      exact enter_refused hopen (onAdmission_refused hrej h)
    · simp only [tryRegister, hrej] at h
      cases htry : r.gate.tryEnter with
      | ok g =>
        rw [htry] at h
        simp only [enroll_of_ready (r := { r with gate := g }) hready] at h
        cases h
      | error e =>
        simp only [htry, Option.getD_none, Except.error.injEq] at h
        exact h ▸ tryEnter_eq_error hopen htry
    · exact absurd (onAdmission_refused hrej h) (claim_not_refused hopen w)

/-- The registry says the words of the gate only if it has been closed with them. -/
theorem closedWith_of_shutFailure (h : r.rejection = some Gate.shutFailure ∨
    r.lifecycle = .ready ∧ Gate.shutFailure = .admissionRejected r.gate.ceiling r.gate.ceiling) :
    r.closedWith = some Gate.shutFailure := by
  rcases h with h | ⟨-, h⟩
  · unfold rejection at h
    split at h
    · cases h
    · cases h
    · exact absurd h (by decide)
    · cases hclosed : r.closedWith with
      | none =>
        rw [hclosed] at h
        exact absurd h (by decide)
      | some e =>
        rw [hclosed, Option.getD_some] at h
        exact h
  · cases h

/-! The end -/

/-- What is left of a registry that has been closed with a failure. -/
structure Over (r : Registry) (f : Failure) : Prop where
  lifecycle : r.lifecycle = .closed
  closedWith : r.closedWith = some f
  pending : r.pending = []
  shut : r.gate.shut = true
  line : r.gate.line = []

@[simp] theorem closedWith_drain (hs : List Handle) (o : Outcome) (r : Registry) :
    (hs.foldl (discharge o) r).closedWith = r.closedWith := by
  induction hs generalizing r with
  | nil => rfl
  | cons h hs ih => exact ih _

theorem line_leave {g : Gate} (h : g.line = []) : g.leave.line = [] := by
  simp [Gate.leave, h]

theorem handed_leave {g : Gate} (h : g.line = []) : g.leave.handed = g.handed := by
  simp [Gate.leave, h]

theorem line_drain (hs : List Handle) {o : Outcome} (h : r.gate.line = []) :
    (hs.foldl (discharge o) r).gate.line = [] := by
  induction hs generalizing r with
  | nil => exact h
  | cons a hs ih =>
    refine ih ?_
    simp only [discharge_eq]
    split
    · exact h
    · exact line_leave h

theorem handed_drain {hs : List Handle} {o : Outcome} (h : r.gate.line = []) :
    (hs.foldl (discharge o) r).gate.handed = r.gate.handed := by
  induction hs generalizing r with
  | nil => rfl
  | cons a hs ih =>
    have hline : (discharge o r a).gate.line = [] := line_drain [a] h
    refine (ih hline).trans ?_
    simp only [discharge_eq]
    split
    · rfl
    · exact handed_leave h

/-- The failure of all brings the end. -/
theorem over_failAll (h : r.lifecycle ≠ .closed) (f : Failure) : Over (r.failAll f).1 f := by
  have hline : (r.shutDown f).gate.line = [] := rfl
  rw [failAll_of_open h]
  refine ⟨?_, ?_, ?_, ?_, line_drain _ hline⟩
  · rw [lifecycle_drain, lifecycle_shutDown]
  · rw [closedWith_drain]
    rfl
  · rw [pending_drain]
    rfl
  · rw [shut_drain]
    rfl

theorem handed_failAll (h : r.lifecycle ≠ .closed) (f : Failure) :
    (r.failAll f).1.gate.handed = r.gate.handed := by
  have hline : (r.shutDown f).gate.line = [] := rfl
  rw [failAll_of_open h, handed_drain hline]
  rfl

theorem withdraw_of_line {g : Gate} (h : g.line = []) (w : Waiter) :
    (g.withdraw w).line = [] ∧ (g.withdraw w).handed = g.handed.erase w := by
  unfold Gate.withdraw
  split_ifs with hmem
  · have hline : ({ g with handed := g.handed.erase w } : Gate).line = [] := h
    exact ⟨line_leave hline, handed_leave hline⟩
  · constructor
    · simp [h]
    · exact (List.erase_of_not_mem hmem).symm

namespace Over

theorem rejection (h : Over r f) : r.rejection = some f := by
  simp [Registry.rejection, h.lifecycle, h.closedWith]

theorem resume (h : Over r f) (w : Waiter) :
    r.resume w = ({ r with gate := r.gate.withdraw w }, .refused f) := by
  simp [Registry.resume, Gate.claim, h.shut, onAdmission, h.rejection]

theorem settle (h : Over r f) (id : RequestId) (o : Outcome) :
    r.settle id o = ({ r with unmatched := r.unmatched ++ [id] }, false) := by
  simp [Registry.settle, h.pending]

theorem failAll (h : Over r f) (g : Failure) : r.failAll g = (r, false) := by
  simp [Registry.failAll, isClosed, Lifecycle.isClosed, h.lifecycle]

theorem beginClosing (h : Over r f) : r.beginClosing = (r, false) := by
  simp [Registry.beginClosing, Lifecycle.isShuttingDown, h.lifecycle]

theorem markReady (h : Over r f) : r.markReady = (r, false) := by
  simp [Registry.markReady, h.lifecycle]

theorem register (h : Over r f) : r.register = (r, .refused f) := by
  simp [Registry.register, h.rejection]

theorem tryRegister (h : Over r f) : r.tryRegister = (r, .error f) := by
  simp [Registry.tryRegister, h.rejection]

theorem greet (h : Over r f) : r.greet = (r, .error f) := by
  simp [Registry.greet, h.lifecycle, h.rejection]

theorem poll (h : Over r f) {l : Link} (hl : l.registry = r) (now : Instant) (w : Waiter)
    (e : Errand) : ((Call.inLine w e).poll now l).2 = .finished (.failed f) := by
  subst hl
  simp [Call.poll, Link.via, h.resume w, Link.proceed]

/-- At the end the books are empty, and so is the pool of identifiers. -/
theorem poisoned (h : Over r f) (hr : Sound r) : Poisoned r f := by
  have hids : r.ordinaryIds = [] := by simp [ordinaryIds, h.pending]
  obtain ⟨peak, -, hlends⟩ := hr.lends
  have hout : r.ids.outstanding = 0 := by
    rw [hlends.balance.outstanding, hids]
    rfl
  exact ⟨h.lifecycle, h.closedWith, h.pending, hout, h.register, h.tryRegister, h.resume,
    fun _ hl now w e => h.poll hl now w e, h.greet, h.settle, h.failAll, h.beginClosing,
    h.markReady⟩

/-- A slot that is not in the gate for anybody to take has been handed to a waiter. -/
theorem inflight (h : Over r f) (hr : Sound r) :
    r.gate.inflight = r.gate.handed.length := by
  have hids : r.ordinaryIds = [] := by simp [ordinaryIds, h.pending]
  have hslots := hr.slots
  simp only [hids, Gate.slots, List.length_nil] at hslots
  simp only [Gate.inflight]
  omega

/-- All that an operation can still do: a waiter gives back its slot, or an answer is noted
that comes to nobody. -/
theorem after (h : Over r f) (op : Op) :
    Over (r.after op) f ∧ (r.after op).ledger = r.ledger ∧
      (r.after op).gate.handed =
        match op.waiter? with
        | some w => r.gate.handed.erase w
        | none => r.gate.handed := by
  have hsame : ∀ {s : Registry}, s = r → Over s f ∧ s.ledger = r.ledger ∧
      s.gate.handed = r.gate.handed := by
    rintro s rfl
    exact ⟨h, rfl, rfl⟩
  cases op with
  | resume w =>
    have hafter : r.after (.resume w) = { r with gate := r.gate.withdraw w } :=
      congrArg Prod.fst (h.resume w)
    obtain ⟨hline, hhanded⟩ := withdraw_of_line h.line w
    have hshut := (Gate.takes_withdraw r.gate w).shut.trans h.shut
    rw [hafter]
    exact ⟨⟨h.lifecycle, h.closedWith, h.pending, hshut, hline⟩, rfl, hhanded⟩
  | abandon w =>
    obtain ⟨hline, hhanded⟩ := withdraw_of_line h.line w
    have hshut := (Gate.takes_withdraw r.gate w).shut.trans h.shut
    exact ⟨⟨h.lifecycle, h.closedWith, h.pending, hshut, hline⟩, rfl, hhanded⟩
  | settle id o =>
    have hafter : r.after (.settle id o) = { r with unmatched := r.unmatched ++ [id] } :=
      congrArg Prod.fst (h.settle id o)
    rw [hafter]
    exact ⟨⟨h.lifecycle, h.closedWith, h.pending, h.shut, h.line⟩, rfl, rfl⟩
  | greet => exact hsame (congrArg Prod.fst h.greet)
  | register => exact hsame (congrArg Prod.fst h.register)
  | tryRegister => exact hsame (congrArg Prod.fst h.tryRegister)
  | markReady => exact hsame (congrArg Prod.fst h.markReady)
  | beginClosing => exact hsame (congrArg Prod.fst h.beginClosing)
  | failAll g => exact hsame (congrArg Prod.fst (h.failAll g))

theorem run (h : Over r f) (ops : List Op) :
    Over (r.run ops) f ∧ (r.run ops).ledger = r.ledger := by
  refine run_induction (P := fun s => Over s f ∧ s.ledger = r.ledger) ⟨h, rfl⟩ ?_ ops
  intro s op hs
  obtain ⟨hover, hledger, -⟩ := hs.1.after op
  exact ⟨hover, hledger.trans hs.2⟩

/-- Whoever still has a slot has had one before and has not come since. -/
theorem mem_handed_run (h : Over r f) (ho : r.gate.Orderly) {ops : List Op} {w : Waiter}
    (hw : w ∈ (r.run ops).gate.handed) :
    w ∈ r.gate.handed ∧ ∀ op ∈ ops, op.waiter? ≠ some w := by
  induction ops generalizing r with
  | nil => exact ⟨hw, fun _ hop => absurd hop List.not_mem_nil⟩
  | cons op ops ih =>
    obtain ⟨hover, -, hhanded⟩ := h.after op
    obtain ⟨hafter, hlater⟩ := ih hover ((passes_after r op).orderly ho) hw
    have hnodup : r.gate.handed.Nodup := (List.nodup_append.mp ho.nodup).2.1
    rw [hhanded] at hafter
    cases hwaiter : op.waiter? with
    | none =>
      rw [hwaiter] at hafter
      refine ⟨hafter, ?_⟩
      intro op' hop'
      rcases List.mem_cons.mp hop' with rfl | hrest
      · rw [hwaiter]
        exact nofun
      · exact hlater op' hrest
    | some v =>
      rw [hwaiter] at hafter
      obtain ⟨hne, hmem⟩ := hnodup.mem_erase_iff.mp hafter
      refine ⟨hmem, ?_⟩
      intro op' hop'
      rcases List.mem_cons.mp hop' with rfl | hrest
      · rw [hwaiter]
        exact fun heq => hne (Option.some.inj heq).symm
      · exact hlater op' hrest

/-- Once everybody who had been handed a slot has come, no slot is taken. -/
theorem inflight_run_eq_zero (h : Over r f) (hr : Sound r) (ho : r.gate.Orderly) {ops : List Op}
    (hcome : ∀ w ∈ r.gate.handed, ∃ op ∈ ops, op.waiter? = some w) :
    (r.run ops).gate.inflight = 0 := by
  rw [(h.run ops).1.inflight (sound_run hr ops), List.length_eq_zero_iff,
    List.eq_nil_iff_forall_not_mem]
  intro w hw
  obtain ⟨hmem, hnot⟩ := h.mem_handed_run ho hw
  obtain ⟨op, hop, hwaiter⟩ := hcome w hmem
  exact hnot op hop hwaiter

end Over

/-! Those who were pending -/

theorem outcome?_drain_of_notMem {hs : List Handle} {t : Ticket} (o : Outcome)
    (h : t ∉ hs.map Handle.ticket) :
    (hs.foldl (discharge o) r).ledger.outcome? t = r.ledger.outcome? t := by
  induction hs generalizing r with
  | nil => rfl
  | cons a hs ih =>
    simp only [List.map_cons, List.mem_cons, not_or] at h
    rw [List.foldl_cons, ih h.2, ledger_discharge]
    exact Ledger.outcome?_settle_ne o (Ne.symm h.1)

/-- The failure of all is the outcome of just those who were pending. -/
theorem outcome?_failAll (hr : Sound r) (h : r.lifecycle ≠ .closed) (f : Failure)
    (t : Ticket) :
    (r.failAll f).1.ledger.outcome? t =
      if t ∈ r.pending.map Handle.ticket then some (.error f) else r.ledger.outcome? t := by
  rw [failAll_of_open h]
  split_ifs with hmem
  · obtain ⟨a, ha, rfl⟩ := List.mem_map.mp hmem
    exact outcome?_drain (r := r.shutDown f) _ ha (hr.isOpen ha)
  · exact outcome?_drain_of_notMem (r := r.shutDown f) _ hmem

/-- A registry that has not been closed is closed by a failure, which becomes the outcome of
just those requests that were pending. From then on, whatever is done, it is the answer to
every request that wants to be registered, no outcome changes, and no slot is taken but by
those who were handed one before and have not come since. At no time does the gate answer
in its own name. -/
theorem drained_for_good {ceiling : Nat} {policy : Policy} {r : Registry}
    (hmake : make ceiling policy = .ok r) (before : List Op)
    (hopen : (r.run before).lifecycle ≠ .closed) (f : Failure) :
    let s := r.run before
    let d := (s.failAll f).1
    (s.failAll f).2 = true ∧
      (∀ t, d.ledger.outcome? t =
        if t ∈ s.pending.map Handle.ticket then some (.error f) else s.ledger.outcome? t) ∧
      (∀ more, (d.run more).Poisoned f ∧
        (∀ t, (d.run more).ledger.outcome? t = d.ledger.outcome? t) ∧
        (d.run more).gate.inflight = (d.run more).gate.handed.length ∧
        ((∀ w ∈ s.gate.handed, ∃ op ∈ more, op.waiter? = some w) →
          (d.run more).gate.inflight = 0)) ∧
      ∀ ops e, (r.run ops).Refuses e →
        ((r.run ops).rejection = some e ∨ (r.run ops).lifecycle = .ready ∧
          e = .admissionRejected (r.run ops).gate.ceiling (r.run ops).gate.ceiling) ∧
        (e = Gate.shutFailure → (r.run ops).closedWith = some Gate.shutFailure) := by
  intro s d
  obtain ⟨g, hgate, hr⟩ := eq_of_make hmake
  have hsound : Sound s := sound_run (sound_of_make hmake) before
  have hdsound : Sound d := (change_of_act s (.failAll f)).sound hsound
  have hover : Over d f := over_failAll hopen f
  have horderly : ∀ ops, (r.run ops).gate.Orderly := by
    subst hr
    exact orderly_run (Gate.orderly_of_make hgate)
  have hdorderly : d.gate.Orderly := (passes_after s (.failAll f)).orderly (horderly before)
  have hshut : r.gate.shut = r.lifecycle.isShuttingDown := by
    subst hr
    exact Gate.shut_of_make hgate
  refine ⟨?_, outcome?_failAll hsound hopen f, ?_, ?_⟩
  · simp [s, failAll, isClosed, Lifecycle.isClosed, hopen]
  · intro more
    obtain ⟨hlater, hledger⟩ := hover.run more
    have hlaterSound := sound_run hdsound more
    refine ⟨hlater.poisoned hlaterSound, fun t => by rw [hledger],
      hlater.inflight hlaterSound, ?_⟩
    intro hcome
    refine hover.inflight_run_eq_zero hdsound hdorderly ?_
    rw [handed_failAll hopen]
    exact hcome
  · intro ops e he
    have hreason := he.reason (shut_run hshut ops)
    refine ⟨hreason, ?_⟩
    rintro rfl
    exact closedWith_of_shutFailure hreason

/-- Two slots and four requests: the first has its answer, so that one of those in line has
been handed its slot; the handshake and the second are pending, and the fourth is in line. -/
def crowd : List Op :=
  [.greet, .markReady, .register, .register, .register, .register, .settle ⟨1⟩ (.ok .nil)]

theorem drained_when_crowded :
    ∃ r, make 2 .block = .ok r ∧
      let s := r.run crowd
      let d := (s.failAll (.closing "gone")).1
      s.pending.map Handle.ticket = [⟨0⟩, ⟨2⟩] ∧ s.gate.line = [⟨1⟩] ∧
        s.gate.handed = [⟨0⟩] ∧ d.ledger.outcome? ⟨2⟩ = some (.error (.closing "gone")) ∧
        d.ledger.outcome? ⟨1⟩ = some (.ok .nil) ∧ d.gate.inflight = 1 ∧
        (d.run [.resume ⟨1⟩, .register, .resume ⟨0⟩]).Poisoned (.closing "gone") ∧
        (d.run [.resume ⟨1⟩, .register, .resume ⟨0⟩]).gate.inflight = 0 := by
  have hmake : make 2 .block = .ok { gate := { ceiling := 2, policy := .block, free := 2 } } :=
    rfl
  obtain ⟨-, houtcome, hmore, -⟩ := drained_for_good hmake crowd nofun (.closing "gone")
  obtain ⟨hpoisoned, -, -, hinflight⟩ := hmore [.resume ⟨1⟩, .register, .resume ⟨0⟩]
  refine ⟨_, hmake, rfl, rfl, rfl, houtcome ⟨2⟩, houtcome ⟨1⟩, (hmore []).2.2.1, hpoisoned, ?_⟩
  refine hinflight ?_
  intro w hw
  have hfirst : w = ⟨0⟩ := List.mem_singleton.mp hw
  exact ⟨.resume ⟨0⟩, by simp, by rw [hfirst]; rfl⟩

end Registry

end Switchboard
