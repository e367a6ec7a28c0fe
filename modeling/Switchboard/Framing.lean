import Switchboard.Codec

/-!
Frames on a stream of bytes. A frame is its length, written as four bytes, the highest
first, and then its body. Bodies of more than eight mebibytes are refused both ways.
-/
namespace Switchboard

/-- What is wrong with a stream of frames. -/
inductive FrameFault where
  | tooBig
  | truncated
deriving DecidableEq

namespace FrameFault

def message : FrameFault → String
  | tooBig => "frame size too big"
  | truncated => "bytes remaining on stream"

end FrameFault

namespace Frame

/-- The longest body. -/
def maxSize : Nat := 8388608

def headerSize : Nat := 4

/-- The length of a body in four bytes. -/
def header (n : Nat) : ByteArray :=
  ⟨#[UInt8.ofNat (n / 16777216), UInt8.ofNat (n / 65536), UInt8.ofNat (n / 256),
    UInt8.ofNat n]⟩

/-- The number that four bytes stand for. -/
def headerValue (b : ByteArray) : Nat :=
  b.data.foldl (fun n x => n * 256 + x.toNat) 0

/-- The bytes of a frame on the stream. -/
def toBytes (f : Frame) : Except FrameFault ByteArray :=
  if maxSize < f.size then .error .tooBig else .ok (header f.size ++ f)

end Frame

/-- Takes frames off a stream of bytes. -/
structure Deframer where
  /-- The length of the body that comes next, once its header has been taken off. -/
  announced : Option Nat := none
  buffer : ByteArray := .empty

/-- What comes off a stream next. -/
inductive Inbound where
  | frame (f : Frame)
  | fault (f : FrameFault)
  /-- The stream has ended between two frames. -/
  | finished
  /-- More bytes are needed. -/
  | starved

namespace Deframer

def feed (d : Deframer) (b : ByteArray) : Deframer := { d with buffer := d.buffer ++ b }

/-- Takes a header off the buffer if none is outstanding and its four bytes are there. -/
def takeHeader (d : Deframer) : Deframer :=
  match d.announced with
  | some _ => d
  | none =>
    if d.buffer.size < Frame.headerSize then d
    else
      { announced := some (Frame.headerValue (d.buffer.extract 0 Frame.headerSize))
        buffer := d.buffer.extract Frame.headerSize d.buffer.size }

/-- The next item when a header is outstanding or cannot be had. A stream that has ended
leaves nothing behind in the buffer. -/
def takeBody (d : Deframer) (ended : Bool) : Inbound × Deframer :=
  let lacking : Inbound :=
    if ended then (if d.buffer.isEmpty then .finished else .fault .truncated) else .starved
  match d.announced with
  | none => (lacking, d)
  | some n =>
    if Frame.maxSize < n then (.fault .tooBig, d)
    else if d.buffer.size < n then (lacking, d)
    else (.frame (d.buffer.extract 0 n), { buffer := d.buffer.extract n d.buffer.size })

/-- The next item of the stream; `ended` says that no more bytes will come. -/
def next (d : Deframer) (ended : Bool) : Inbound × Deframer := d.takeHeader.takeBody ended

/-- Takes off every frame that is complete, at most `fuel` of them. -/
def frames : Nat → Deframer → List Frame × Deframer
  | 0, d => ([], d)
  | fuel + 1, d =>
    match d.next false with
    | (.frame f, d) =>
      let (fs, d) := frames fuel d
      (f :: fs, d)
    | (_, d) => ([], d)

end Deframer

end Switchboard
