/-!
Request identifiers: unsigned 32-bit numbers that pair a request with its answer.
Zero belongs to the handshake, every other number to an ordinary request.
-/
namespace Switchboard

structure RequestId where
  val : UInt32
deriving DecidableEq

namespace RequestId

/-- The identifier under which the handshake travels. -/
def handshake : RequestId := ⟨0⟩

def isHandshake (i : RequestId) : Bool := decide (i = handshake)

/-- Decimal digits. -/
def text (i : RequestId) : String := Nat.repr i.val.toNat

/-- Identifiers are ordered as numbers. -/
def compare (i j : RequestId) : Ordering := Ord.compare i.val.toNat j.val.toNat

theorem isHandshake_iff (i : RequestId) : i.isHandshake = true ↔ i = handshake := by
  simp [isHandshake]

end RequestId

end Switchboard
