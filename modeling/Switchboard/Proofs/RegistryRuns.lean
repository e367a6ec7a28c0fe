import Switchboard.Proofs.GateSlots
import Switchboard.Registry

/-!
Runs of a registry: what callers, the peer and the connection may do to it, one operation
after the other, and the handles that it grants on the way. `change_of_act` says once and
for all what an operation can do to a registry; every invariant of a run is proved by the
cases of `Change`.
-/
namespace Switchboard

/-- The handle that a registration ends with. -/
def Registration.handle? : Registration → Option Handle
  | .granted h => some h
  | _ => none

namespace Registry

/-- What is done to a registry. A waiter may be polled or given up at any time, also one
that does not stand in line. -/
inductive Op where
  | greet
  | register
  | tryRegister
  | resume (w : Waiter)
  | abandon (w : Waiter)
  | settle (id : RequestId) (o : Outcome)
  | markReady
  | beginClosing
  | failAll (f : Failure)

/-- Carries out an operation. A registration that succeeds grants a handle. -/
def act (r : Registry) : Op → Registry × Option Handle
  | .greet => (r.greet.1, r.greet.2.toOption)
  | .register => (r.register.1, r.register.2.handle?)
  | .tryRegister => (r.tryRegister.1, r.tryRegister.2.toOption)
  | .resume w => ((r.resume w).1, (r.resume w).2.handle?)
  | .abandon w => (r.abandon w, none)
  | .settle id o => ((r.settle id o).1, none)
  | .markReady => (r.markReady.1, none)
  | .beginClosing => (r.beginClosing.1, none)
  | .failAll f => ((r.failAll f).1, none)

/-- The registry after an operation. -/
def after (r : Registry) (op : Op) : Registry := (r.act op).1

/-- The handle that an operation grants. -/
def grants (r : Registry) (op : Op) : Option Handle := (r.act op).2

/-- The registry after a list of operations. -/
def run (r : Registry) (ops : List Op) : Registry := ops.foldl after r

/-- The handles that a list of operations grants, the oldest first. -/
def granted : Registry → List Op → List Handle
  | _, [] => []
  | r, op :: ops => (r.grants op).toList ++ granted (r.after op) ops

@[simp] theorem run_nil (r : Registry) : r.run [] = r := rfl

@[simp] theorem run_cons (r : Registry) (op : Op) (ops : List Op) :
    r.run (op :: ops) = (r.after op).run ops := rfl

@[simp] theorem run_append (r : Registry) (ops more : List Op) :
    r.run (ops ++ more) = (r.run ops).run more :=
  List.foldl_append

/-- Whether an operation asks for a slot, or gives up asking. -/
def Op.isAtGate : Op → Bool
  | .register | .tryRegister | .resume _ | .abandon _ => true
  | _ => false

/-- Whether an operation moves the lifecycle forward if its time has come. -/
def Op.isTimed : Op → Bool
  | .greet | .markReady | .beginClosing => true
  | _ => false

/-- The handle of the next request under an identifier. -/
def nextHandle (r : Registry) (id : RequestId) : Handle := ⟨id, r.ledger.issue.1⟩

/-- The registry with one more request. -/
def file (r : Registry) (id : RequestId) : Registry :=
  { r with ledger := r.ledger.issue.2, pending := r.pending ++ [r.nextHandle id] }

/-- The registry with one more ordinary request. -/
def fileNext (r : Registry) : Registry :=
  { r.file r.ids.acquire.1 with ids := r.ids.acquire.2 }

/-- The registry without a request of the table, which has ended. -/
def strike (r : Registry) (h : Handle) (o : Outcome) : Registry :=
  discharge o { r with pending := r.pending.erase h } h

@[simp] theorem ledger_strike (r : Registry) (h : Handle) (o : Outcome) :
    (r.strike h o).ledger = r.ledger.settle h.ticket o :=
  ledger_discharge o _ h

/-- The registry at its end, when nothing has been told to the requests of the table. -/
def shutDown (r : Registry) (f : Failure) : Registry :=
  { r.moveTo .closed with closedWith := some f, pending := [], gate := r.gate.shutDown }

/-- All that an operation can do to a registry, and the handle it grants. -/
inductive Change (r : Registry) : Op → Registry → Option Handle → Prop
  | waits {op : Op} {g : Gate} :
      op.isAtGate = true → r.gate.Takes 0 g → Change r op { r with gate := g } none
  | enters {op : Op} {g : Gate} :
      op.isAtGate = true → r.lifecycle = .ready → r.gate.Takes 1 g →
      Change r op (fileNext { r with gate := g }) (some (r.nextHandle r.ids.acquire.1))
  | stays {op : Op} : op.isTimed = true → Change r op r none
  | greets :
      r.lifecycle = .connecting → r.greeted = false →
      Change r .greet { r.file RequestId.handshake with greeted := true }
        (some (r.nextHandle RequestId.handshake))
  | notes {id : RequestId} {o : Outcome} :
      r.isPending id = false →
      Change r (.settle id o) { r with unmatched := r.unmatched ++ [id] } none
  | strikes {h : Handle} {o : Outcome} :
      h ∈ r.pending → Change r (.settle h.id o) (r.strike h o) none
  | opens : r.lifecycle = .connecting → Change r .markReady (r.moveTo .ready) none
  | closes :
      r.lifecycle.isShuttingDown = false →
      Change r .beginClosing { r.moveTo .closing with gate := r.gate.shutDown } none
  | fails {f : Failure} :
      r.lifecycle ≠ .closed →
      Change r (.failAll f) (r.pending.foldl (discharge (.error f)) (r.shutDown f)) none
  | failsLate {f : Failure} : r.lifecycle = .closed → Change r (.failAll f) r none

theorem rejection_eq_none_iff (r : Registry) :
    r.rejection = none ↔ r.lifecycle = .ready := by
  unfold rejection
  cases r.lifecycle <;> simp

theorem enroll_of_ready {r : Registry} (h : r.lifecycle = .ready) :
    r.enroll = (r.fileNext, .ok (r.nextHandle r.ids.acquire.1)) := by
  simp [enroll, rejection_ready h, fileNext, file, nextHandle]

theorem enroll_of_rejection {r : Registry} {f : Failure} (h : r.rejection = some f) :
    r.enroll = ({ r with gate := r.gate.leave }, .error f) := by
  simp [enroll, h]

/-- A request that has taken a slot enters the table or gives the slot back. -/
theorem change_of_enroll {r : Registry} {op : Op} {g : Gate} (hop : op.isAtGate = true)
    (hg : r.gate.Takes 1 g) :
    Change r op (enroll { r with gate := g }).1 (enroll { r with gate := g }).2.toOption := by
  cases hrej : r.rejection with
  | none =>
    have hready : r.lifecycle = .ready := (rejection_eq_none_iff r).mp hrej
    rw [enroll_of_ready (r := { r with gate := g }) hready]
    exact Change.enters hop hready hg
  | some f =>
    rw [enroll_of_rejection (r := { r with gate := g }) hrej]
    exact Change.waits hop hg.leave

theorem change_of_onAdmission {r : Registry} {op : Op} (a : Gate × Admission)
    (hop : op.isAtGate = true) (ha : r.gate.Takes a.2.cost a.1) :
    Change r op (r.onAdmission a).1 (r.onAdmission a).2.handle? := by
  obtain ⟨g, a⟩ := a
  cases a with
  | admitted =>
    have h := change_of_enroll hop ha
    cases houtcome : (enroll { r with gate := g }).2 with
    | ok h' => simpa [onAdmission, houtcome, Registration.ofExcept, Registration.handle?,
        Except.toOption] using h
    | error f => simpa [onAdmission, houtcome, Registration.ofExcept, Registration.handle?,
        Except.toOption] using h
  | waiting w => exact Change.waits hop ha
  | refused f => exact Change.waits hop ha

theorem change_of_register (r : Registry) :
    Change r .register r.register.1 r.register.2.handle? := by
  unfold register
  cases r.rejection with
  | none => exact change_of_onAdmission _ rfl (Gate.takes_enter _)
  | some f => exact Change.waits rfl (Gate.Takes.refl _)

theorem change_of_tryRegister (r : Registry) :
    Change r .tryRegister r.tryRegister.1 r.tryRegister.2.toOption := by
  unfold tryRegister
  cases r.rejection with
  | none =>
    cases htry : r.gate.tryEnter with
    | ok g => exact change_of_enroll rfl (Gate.takes_tryEnter htry)
    | error f => exact Change.waits rfl (Gate.Takes.refl _)
  | some f => exact Change.waits rfl (Gate.Takes.refl _)

theorem change_of_greet (r : Registry) : Change r .greet r.greet.1 r.greet.2.toOption := by
  unfold greet
  by_cases hc : r.lifecycle = .connecting
  · rw [if_neg (not_not_intro hc)]
    cases hg : r.greeted with
    | true => exact Change.stays rfl
    | false => exact Change.greets hc hg
  · rw [if_pos hc]
    exact Change.stays rfl

theorem change_of_settle (r : Registry) (id : RequestId) (o : Outcome) :
    Change r (.settle id o) (r.settle id o).1 none := by
  unfold settle
  cases hfind : r.pending.find? fun h => h.id = id with
  | none =>
    apply Change.notes
    simpa [isPending] using hfind
  | some h =>
    have hid : h.id = id := by simpa using List.find?_some hfind
    subst hid
    exact Change.strikes (List.mem_of_find?_eq_some hfind)

/-- What an operation does is one of the changes. -/
theorem change_of_act (r : Registry) (op : Op) : Change r op (r.after op) (r.grants op) := by
  cases op with
  | greet => exact change_of_greet r
  | register => exact change_of_register r
  | tryRegister => exact change_of_tryRegister r
  | resume w => exact change_of_onAdmission _ rfl (Gate.takes_claim _ w)
  | abandon w => exact Change.waits rfl (Gate.takes_withdraw _ w)
  | settle id o => exact change_of_settle r id o
  | markReady =>
    simp only [after, grants, act, markReady]
    by_cases hc : r.lifecycle = .connecting
    · rw [if_pos hc]
      exact Change.opens hc
    · rw [if_neg hc]
      exact Change.stays rfl
  | beginClosing =>
    simp only [after, grants, act, beginClosing]
    cases hs : r.lifecycle.isShuttingDown with
    | true => exact Change.stays rfl
    | false => exact Change.closes hs
  | failAll f =>
    simp only [after, grants, act, failAll, isClosed, Lifecycle.isClosed]
    by_cases hc : r.lifecycle = .closed
    · simpa [hc] using Change.failsLate hc
    · simpa [hc, shutDown] using Change.fails hc

/-- What every operation keeps, a run keeps. -/
theorem run_induction {P : Registry → Prop} {r : Registry} (h : P r)
    (hstep : ∀ s op, P s → P (s.after op)) (ops : List Op) : P (r.run ops) :=
  List.foldlRecOn ops after h fun s hs op _ => hstep s op hs

end Registry

end Switchboard
