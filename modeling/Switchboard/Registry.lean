import Switchboard.Gate
import Switchboard.IdPool
import Switchboard.Ledger

/-!
The registry of pending requests. It admits requests through its gate, gives each an
identifier, and settles it by that identifier; it moves the lifecycle forward and, at
its end, fails whatever is pending. Every request in the table holds a slot of the gate
and an identifier of the pool, except the handshake, which holds neither.
-/
namespace Switchboard

structure Registry where
  lifecycle : Lifecycle := .connecting
  gate : Gate
  ids : IdPool := {}
  /-- The requests without an outcome, the oldest first. -/
  pending : List Handle := []
  /-- Whether the handshake has been registered. -/
  greeted : Bool := false
  /-- The failure with which the registry was closed. -/
  closedWith : Option Failure := none
  ledger : Ledger := {}
  /-- The changes of the lifecycle, the oldest first. -/
  moves : List Move := []
  /-- The identifiers of answers that no pending request was waiting for. -/
  unmatched : List RequestId := []

/-- What becomes of the wish to register a request. -/
inductive Registration where
  | granted (h : Handle)
  | waiting (w : Waiter)
  | refused (f : Failure)
deriving DecidableEq

/-- What becomes of a request that does not wait. -/
def Registration.ofExcept : Except Failure Handle → Registration
  | .ok h => granted h
  | .error f => refused f

namespace Registry

def make (ceiling : Nat) (policy : Policy) : Except Failure Registry :=
  match Gate.make ceiling policy with
  | .ok g => .ok { gate := g }
  | .error f => .error f

/-- Why no request can be registered, if so. -/
def rejection (r : Registry) : Option Failure :=
  match r.lifecycle with
  | .ready => none
  | .connecting => some (.notReady .connecting)
  | .closing => some (.closing "connection is closing")
  | .closed => some (r.closedWith.getD (.closing "connection closed"))

def isPending (r : Registry) (id : RequestId) : Bool := r.pending.any fun h => h.id = id

def isDrained (r : Registry) : Bool := r.pending.isEmpty

def isClosed (r : Registry) : Bool := r.lifecycle.isClosed

/-! Registration -/

/-- Registers the handshake, once and only while connecting. -/
def greet (r : Registry) : Registry × Except Failure Handle :=
  if r.lifecycle ≠ .connecting then
    (r, .error (r.rejection.getD (.handshakeFailed "connection already established")))
  else if r.greeted then (r, .error (.handshakeFailed "handshake already in progress"))
  else
    let (ticket, ledger) := r.ledger.issue
    let h : Handle := ⟨RequestId.handshake, ticket⟩
    ({ r with ledger := ledger, pending := r.pending ++ [h], greeted := true }, .ok h)

/-- Enters a request that holds a slot. If the lifecycle has moved on, the slot is given
back. -/
def enroll (r : Registry) : Registry × Except Failure Handle :=
  match r.rejection with
  | some f => ({ r with gate := r.gate.leave }, .error f)
  | none =>
    let (id, ids) := r.ids.acquire
    let (ticket, ledger) := r.ledger.issue
    let h : Handle := ⟨id, ticket⟩
    ({ r with ids := ids, ledger := ledger, pending := r.pending ++ [h] }, .ok h)

/-- Registers a request at once or not at all. The state of the registry explains a
refusal better than the gate does. -/
def tryRegister (r : Registry) : Registry × Except Failure Handle :=
  match r.rejection with
  | some f => (r, .error f)
  | none =>
    match r.gate.tryEnter with
    | .ok g => enroll { r with gate := g }
    | .error f => (r, .error (r.rejection.getD f))

/-- Goes on with what the gate has answered. -/
def onAdmission (r : Registry) : Gate × Admission → Registry × Registration
  | (g, .admitted) =>
    let (r, outcome) := enroll { r with gate := g }
    (r, .ofExcept outcome)
  | (g, .waiting w) => ({ r with gate := g }, .waiting w)
  | (g, .refused f) => ({ r with gate := g }, .refused (r.rejection.getD f))

/-- Registers a request, if need be after a wait in line. -/
def register (r : Registry) : Registry × Registration :=
  match r.rejection with
  | some f => (r, .refused f)
  | none => r.onAdmission r.gate.enter

/-- A request that waits in line comes to see whether it can be registered. -/
def resume (r : Registry) (w : Waiter) : Registry × Registration :=
  r.onAdmission (r.gate.claim w)

/-- A request that waits in line is given up. -/
def abandon (r : Registry) (w : Waiter) : Registry := { r with gate := r.gate.withdraw w }

/-! Settlement -/

/-- The failure of a request that is let go of without an outcome. -/
def abandoned : Failure := .closing "request abandoned before completion"

/-- Lets go of a request that has left the table. Its identifier and its slot become free,
and it fails if it has no outcome yet. -/
def release (r : Registry) (h : Handle) : Registry :=
  { r with
    ids := r.ids.release h.id
    ledger := r.ledger.settle h.ticket (.error abandoned)
    gate := if h.id.isHandshake then r.gate else r.gate.leave }

/-- Enters the outcome of a request that has left the table, and lets go of it. -/
def discharge (o : Outcome) (r : Registry) (h : Handle) : Registry :=
  release { r with ledger := r.ledger.settle h.ticket o } h

/-- Settles the pending request with this identifier. An answer to no pending request is
only noted. -/
def settle (r : Registry) (id : RequestId) (o : Outcome) : Registry × Bool :=
  match r.pending.find? fun h => h.id = id with
  | some h => (discharge o { r with pending := r.pending.erase h } h, true)
  | none => ({ r with unmatched := r.unmatched ++ [id] }, false)

/-! Lifecycle -/

def moveTo (r : Registry) (target : Lifecycle) : Registry :=
  { r with lifecycle := target, moves := r.moves ++ [⟨r.lifecycle, target⟩] }

def markReady (r : Registry) : Registry × Bool :=
  if r.lifecycle = .connecting then (r.moveTo .ready, true) else (r, false)

/-- From now on no request is admitted; those in line are refused. -/
def beginClosing (r : Registry) : Registry × Bool :=
  if r.lifecycle.isShuttingDown then (r, false)
  else ({ r.moveTo .closing with gate := r.gate.shutDown }, true)

/-- Closes the registry and fails every pending request. -/
def failAll (r : Registry) (f : Failure) : Registry × Bool :=
  if r.isClosed then (r, false)
  else
    let shut : Registry :=
      { r.moveTo .closed with closedWith := some f, pending := [], gate := r.gate.shutDown }
    (r.pending.foldl (discharge (.error f)) shut, true)

/-- The registry goes away, and lets go of whatever is pending. -/
def dissolve (r : Registry) : Registry := r.pending.foldl release { r with pending := [] }

/-- A request keeps the outcome that was entered before it is let go of. -/
theorem discharge_eq (o : Outcome) (r : Registry) (h : Handle) :
    discharge o r h = { r with
      ids := r.ids.release h.id
      ledger := r.ledger.settle h.ticket o
      gate := if h.id.isHandshake then r.gate else r.gate.leave } := by
  simp only [discharge, release, Ledger.settle_settle]

/-- What is let go of without an outcome is discharged with a failure. -/
theorem dissolve_eq (r : Registry) :
    r.dissolve = r.pending.foldl (discharge (.error abandoned)) { r with pending := [] } := by
  have hrelease : release = discharge (.error abandoned) := by
    funext r h
    rw [discharge_eq, release]
  rw [dissolve, hrelease]

theorem isPending_iff {r : Registry} {id : RequestId} :
    r.isPending id = true ↔ ∃ h ∈ r.pending, h.id = id := by
  simp [isPending]

@[simp] theorem lifecycle_discharge (o : Outcome) (r : Registry) (h : Handle) :
    (discharge o r h).lifecycle = r.lifecycle := rfl

@[simp] theorem pending_discharge (o : Outcome) (r : Registry) (h : Handle) :
    (discharge o r h).pending = r.pending := rfl

@[simp] theorem ledger_discharge (o : Outcome) (r : Registry) (h : Handle) :
    (discharge o r h).ledger = r.ledger.settle h.ticket o := by
  rw [discharge_eq]

@[simp] theorem rejection_ready {r : Registry} (h : r.lifecycle = .ready) :
    r.rejection = none := by
  simp [rejection, h]

end Registry

end Switchboard
