import Switchboard.RequestId

/-!
The pool of identifiers for ordinary requests. A returned identifier is the first
to be issued again; with none returned, the counter moves on. Identifier zero is
never issued.
-/
namespace Switchboard

structure IdPool where
  /-- The next number that has never been issued. -/
  next : UInt32 := 1
  /-- Returned identifiers, the latest first. -/
  free : List RequestId := []
  /-- How many identifiers are checked out. -/
  outstanding : Nat := 0

namespace IdPool

/-- The counter after one more fresh number; past the last number it skips zero. -/
def following (n : UInt32) : UInt32 := if n + 1 = 0 then 1 else n + 1

def acquire (p : IdPool) : RequestId × IdPool :=
  match p.free with
  | id :: rest => (id, { p with free := rest, outstanding := p.outstanding + 1 })
  | [] => (⟨p.next⟩, { p with next := following p.next, outstanding := p.outstanding + 1 })

/-- Returning the handshake identifier has no effect. -/
def release (p : IdPool) (id : RequestId) : IdPool :=
  if id.isHandshake then p
  else { p with free := id :: p.free, outstanding := p.outstanding - 1 }

/-- The highest number issued so far. -/
def highWater (p : IdPool) : UInt32 := p.next - 1

/-- Checks out `n` identifiers, in the order in which they were issued. -/
def acquireMany : Nat → IdPool → List RequestId × IdPool
  | 0, p => ([], p)
  | n + 1, p =>
    let (id, p) := p.acquire
    let (ids, p) := acquireMany n p
    (id :: ids, p)

theorem following_ne_zero (n : UInt32) : following n ≠ 0 := by
  unfold following
  split
  · decide
  · assumption

@[simp] theorem outstanding_acquire (p : IdPool) :
    p.acquire.2.outstanding = p.outstanding + 1 := by
  unfold acquire
  split <;> rfl

@[simp] theorem release_handshake (p : IdPool) : p.release RequestId.handshake = p := by
  simp [release, RequestId.isHandshake]

/-- A returned identifier is the next one issued. -/
theorem acquire_release {p : IdPool} {id : RequestId} (h : id ≠ RequestId.handshake) :
    (p.release id).acquire.1 = id := by
  simp [release, acquire, RequestId.isHandshake, h]

end IdPool

end Switchboard
