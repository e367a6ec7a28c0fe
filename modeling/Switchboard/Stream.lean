/-!
A stream between a link and its peer: bytes on their way in each direction, and the two
ends, each of which may be closed. A direction may be bounded; then bytes wait at the
writer until the reader has made room.
-/
namespace Switchboard

structure Stream where
  /-- How many unread bytes each direction holds; `none` stands for any number. -/
  capacity : Option Nat := none
  /-- Written by the peer, not yet read by the link. -/
  inbound : ByteArray := .empty
  /-- Written by the link, not yet read by the peer. -/
  outbound : ByteArray := .empty
  linkOpen : Bool := true
  peerOpen : Bool := true

namespace Stream

/-- How many of `wanted` bytes fit in a direction that holds `held`. -/
def room (s : Stream) (held wanted : Nat) : Nat :=
  match s.capacity with
  | none => wanted
  | some c => min wanted (c - held)

/-- The link writes; what does not fit is left over. -/
def write (s : Stream) (b : ByteArray) : Stream × ByteArray :=
  let n := s.room s.outbound.size b.size
  ({ s with outbound := s.outbound ++ b.extract 0 n }, b.extract n b.size)

/-- Whether the link gets rid of some of `b` by writing it, or is told that nobody reads. -/
def writable (s : Stream) (b : ByteArray) : Bool :=
  !s.peerOpen || b.isEmpty || decide (0 < s.room s.outbound.size b.size)

/-- The peer writes; what does not fit is left over. Nothing is written to a link that
has closed its end. -/
def peerWrite (s : Stream) (b : ByteArray) : Stream × ByteArray :=
  if s.linkOpen then
    let n := s.room s.inbound.size b.size
    ({ s with inbound := s.inbound ++ b.extract 0 n }, b.extract n b.size)
  else (s, b)

/-- The peer reads all that is there. -/
def peerRead (s : Stream) : ByteArray × Stream := (s.outbound, { s with outbound := .empty })

/-- Whether the link has read all that the peer will ever have written. -/
def ended (s : Stream) : Bool := !s.peerOpen

def closeLink (s : Stream) : Stream := { s with linkOpen := false, inbound := .empty }

def closePeer (s : Stream) : Stream := { s with peerOpen := false, outbound := .empty }

end Stream

end Switchboard
