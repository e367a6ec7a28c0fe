import Switchboard.Failure

/-!
Admission of requests. A gate owns a fixed number of slots. A request enters with a
slot of its own and leaves by giving it back. At the ceiling the policy decides: the
caller waits in line, or is turned away. A freed slot belongs to the first waiter at
once, also before that waiter comes to claim it.
-/
namespace Switchboard

/-- What happens to a request that finds no free slot. -/
inductive Policy where
  | block
  | reject
deriving DecidableEq

namespace Policy

def name : Policy → String
  | block => "block"
  | reject => "reject"

end Policy

/-- A place in the line of a gate; no two places are equal. -/
structure Waiter where
  serial : Nat
deriving DecidableEq

structure Gate where
  ceiling : Nat
  policy : Policy
  /-- Slots that nobody holds. -/
  free : Nat
  /-- Waiters without a slot, the first in line first. -/
  line : List Waiter := []
  /-- Waiters that were handed a slot and have not claimed it. -/
  handed : List Waiter := []
  shut : Bool := false
  /-- Serial number of the next waiter. -/
  serial : Nat := 0

/-- The outcome of asking for a slot. -/
inductive Admission where
  | admitted
  | waiting (w : Waiter)
  | refused (f : Failure)
deriving DecidableEq

namespace Gate

/-- The highest ceiling a gate can have. -/
def maxCeiling : Nat := 16777216

/-- A gate with all its slots free. -/
def make (ceiling : Nat) (policy : Policy) : Except Failure Gate :=
  if 1 ≤ ceiling ∧ ceiling ≤ maxCeiling then
    .ok { ceiling := ceiling, policy := policy, free := ceiling }
  else
    .error (.config ("inflight limit must be in 1..=" ++ Nat.repr maxCeiling ++
      ", got " ++ Nat.repr ceiling))

/-- Slots that are held or handed to a waiter. -/
def inflight (g : Gate) : Nat := g.ceiling - g.free

/-- The refusal of a shut gate. -/
def shutFailure : Failure := .closing "inflight limiter closed"

/-- Takes a free slot, or is refused. -/
def tryEnter (g : Gate) : Except Failure Gate :=
  if g.shut then .error shutFailure
  else if g.free = 0 then .error (.admissionRejected g.inflight g.ceiling)
  else .ok { g with free := g.free - 1 }

/-- Whether a request that finds no free slot may wait for one. -/
def mayWait (g : Gate) : Bool := !g.shut && decide (g.policy = .block)

/-- Joins the line. -/
def joinLine (g : Gate) : Gate × Waiter :=
  ({ g with line := g.line ++ [⟨g.serial⟩], serial := g.serial + 1 }, ⟨g.serial⟩)

/-- Takes a free slot; without one the policy decides between waiting and refusal. -/
def enter (g : Gate) : Gate × Admission :=
  match g.tryEnter with
  | .ok g => (g, .admitted)
  | .error f =>
    if g.mayWait then
      let (g, w) := g.joinLine
      (g, .waiting w)
    else (g, .refused f)

/-- Gives a slot back: the first in line gets it, or it is free. -/
def leave (g : Gate) : Gate :=
  match g.line with
  | w :: rest => { g with line := rest, handed := g.handed ++ [w] }
  | [] => { g with free := g.free + 1 }

/-- A waiter gives up its place, and the slot it was handed, if any. -/
def withdraw (g : Gate) (w : Waiter) : Gate :=
  if w ∈ g.handed then leave { g with handed := g.handed.erase w }
  else { g with line := g.line.erase w }

/-- A waiter comes to see whether it may enter. -/
def claim (g : Gate) (w : Waiter) : Gate × Admission :=
  if g.shut then (g.withdraw w, .refused shutFailure)
  else if w ∈ g.handed then ({ g with handed := g.handed.erase w }, .admitted)
  else (g, .waiting w)

/-- Nobody enters a shut gate, and its line is empty. -/
def shutDown (g : Gate) : Gate := { g with line := [], shut := true }

@[simp] theorem ceiling_leave (g : Gate) : g.leave.ceiling = g.ceiling := by
  unfold leave
  split <;> rfl

@[simp] theorem shut_leave (g : Gate) : g.leave.shut = g.shut := by
  unfold leave
  split <;> rfl

@[simp] theorem ceiling_withdraw (g : Gate) (w : Waiter) :
    (g.withdraw w).ceiling = g.ceiling := by
  unfold withdraw
  split <;> simp

/-- No slot is lost or made when one is given back. -/
theorem slots_leave (g : Gate) :
    g.leave.free + g.leave.handed.length = g.free + g.handed.length + 1 := by
  unfold leave
  split
  · simp; omega
  · simp; omega

end Gate

end Switchboard
