import Switchboard.Link.Basic

/-!
The loop of a link. Whenever something is there for it to do, it does one thing: it takes
a frame off the stream, writes one, or comes to its end. While it is in the middle of
writing a frame it does nothing else. However it ends, the link is closed and the stream
released.
-/
namespace Switchboard.Link

/-- What the loop can do next. -/
inductive Event where
  /-- Takes the next item off the stream. -/
  | receive
  /-- Takes up a frame that waits to be written. -/
  | send
  /-- Goes on writing a frame. -/
  | continueWriting
  /-- Ends on request. -/
  | stop
  /-- Ends since nobody holds the link. -/
  | release
deriving DecidableEq

/-- The next item of the stream and what stays behind. -/
def inboundItem (l : Link) : Inbound × Deframer :=
  (l.deframer.feed l.stream.inbound).next l.stream.ended

/-- Whether there are bytes to read, or an item can be had without. -/
def canReceive (l : Link) : Bool :=
  !l.stream.inbound.isEmpty ||
    match l.inboundItem.1 with
    | .starved => false
    | _ => true

/-- Everything the loop could do now; `held` says whether somebody holds the link. -/
def ready (l : Link) (held : Bool) : List Event :=
  match l.loop with
  | .ended => []
  | .writing rest => if l.stream.writable rest then [.continueWriting] else []
  | .running =>
    (if l.canReceive then [.receive] else []) ++
    (if l.outbox.isEmpty then [] else [.send]) ++
    (if l.shutdown then [.stop] else []) ++
    (if !held && l.outbox.isEmpty then [.release] else [])

/-- The end of the loop: a link that is not closed yet is now. -/
def endLoop (l : Link) : Link :=
  let l := l.onTransportError loopGone
  { l with loop := .ended, outbox := [], stream := l.stream.closeLink }

/-- Writes bytes to the stream. Writing to a peer that is gone ends the loop. -/
def writeBytes (l : Link) (b : ByteArray) : Link :=
  if l.stream.peerOpen then
    let (s, rest) := l.stream.write b
    { l with stream := s, loop := if rest.isEmpty then .running else .writing rest }
  else (l.onTransportError (.io "broken pipe")).endLoop

/-- Reads what is there and deals with the next item. -/
def receive (l : Link) : Link :=
  let (item, d) := l.inboundItem
  let l := { l with deframer := d, stream := { l.stream with inbound := .empty } }
  match item with
  | .frame f => l.onFrame f
  | .fault f => (l.onTransportError (.io f.message)).endLoop
  | .finished => (l.onTransportError (.closing "connection closed by peer")).endLoop
  | .starved => l

/-- The first frame of the queue is taken up. One that is too long ends the loop. -/
def takeUp (l : Link) : Link :=
  match l.outbox with
  | [] => l
  | f :: rest =>
    let l := { l with outbox := rest }
    match Frame.toBytes f with
    | .ok b => l.writeBytes b
    | .error e => (l.onTransportError (.io e.message)).endLoop

/-- What an event does. -/
def handle (l : Link) : Event → Link
  | .receive => l.receive
  | .send => l.takeUp
  | .continueWriting =>
    match l.loop with
    | .writing rest => l.writeBytes rest
    | _ => l
  | .stop => l.endLoop
  | .release => l.endLoop

/-- A bound on the number of events until the loop has nothing to do. -/
def work (l : Link) : Nat :=
  l.deframer.buffer.size + 2 * l.stream.inbound.size + 2 * l.outbox.length + 4

/-- Lets the loop work, at most `fuel` times. Of several things it does the first. -/
def runLoop (held : Bool) : Nat → Link → Link
  | 0, l => l
  | fuel + 1, l =>
    match l.ready held with
    | [] => l
    | e :: _ => runLoop held fuel (l.handle e)

/-- Lets the loop work until it has nothing to do. -/
def run (l : Link) (held : Bool) : Link := runLoop held l.work l

/-- The loop is gone without any cleanup; its end of the stream is closed. -/
def kill (l : Link) : Link :=
  { l with loop := .ended, outbox := [], stream := l.stream.closeLink }

end Switchboard.Link
