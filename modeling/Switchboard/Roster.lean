import Switchboard.Gate

/-!
A gate together with the names of those who use it: who is inside, and who waits in
line. A name stands for one place inside and one place in line at most; taking a new
place under a name gives up the old one.
-/
namespace Switchboard

structure Roster where
  gate : Gate
  inside : List String := []
  waiting : List (String × Waiter) := []

namespace Roster

/-- A name takes the slot it was given. -/
def seat (r : Roster) (name : String) : Roster :=
  if name ∈ r.inside then { r with gate := r.gate.leave }
  else { r with inside := name :: r.inside }

/-- A name takes a place in line. -/
def queue (r : Roster) (name : String) (w : Waiter) : Roster :=
  match r.waiting.lookup name with
  | some old =>
    { r with
      gate := r.gate.withdraw old
      waiting := (name, w) :: r.waiting.filter fun p => p.1 != name }
  | none => { r with waiting := (name, w) :: r.waiting }

/-- Notes the outcome of asking for a slot. -/
def record (r : Roster) (name : String) : Gate × Admission → Roster × Admission
  | (g, .admitted) => (seat { r with gate := g } name, .admitted)
  | (g, .waiting w) => (queue { r with gate := g } name w, .waiting w)
  | (g, .refused f) => ({ r with gate := g }, .refused f)

def enter (r : Roster) (name : String) : Roster × Admission := r.record name r.gate.enter

def tryEnter (r : Roster) (name : String) : Roster × Admission :=
  match r.gate.tryEnter with
  | .ok g => r.record name (g, .admitted)
  | .error f => (r, .refused f)

/-- A waiting name comes to claim a slot; nothing is answered for any other name. -/
def claim (r : Roster) (name : String) : Roster × Option Admission :=
  match r.waiting.lookup name with
  | none => (r, none)
  | some w =>
    match r.gate.claim w with
    | (g, .waiting w) => ({ r with gate := g }, some (.waiting w))
    | (g, a) =>
      let (r, a) :=
        record { r with waiting := r.waiting.filter fun p => p.1 != name } name (g, a)
      (r, some a)

/-- A name gives its slot back, if it has one. -/
def leave (r : Roster) (name : String) : Roster × Bool :=
  if name ∈ r.inside then
    ({ r with gate := r.gate.leave, inside := r.inside.erase name }, true)
  else (r, false)

/-- A name gives up its place in line, if it has one. -/
def withdraw (r : Roster) (name : String) : Roster × Bool :=
  match r.waiting.lookup name with
  | some w =>
    ({ r with
      gate := r.gate.withdraw w
      waiting := r.waiting.filter fun p => p.1 != name }, true)
  | none => (r, false)

def shutDown (r : Roster) : Roster := { r with gate := r.gate.shutDown }

end Roster

end Switchboard
