import Switchboard.Clock
import Switchboard.Framing
import Switchboard.Registry
import Switchboard.Stream

/-!
A link to a peer: the registry of pending requests, the queue of frames to be written,
and the stream that a loop reads and writes. Callers register requests and queue frames;
frames from the peer settle requests, and whatever breaks the link closes it.
-/
namespace Switchboard

/-- What the loop of a link is at. -/
inductive Loop where
  | running
  /-- In the middle of a frame: these bytes are still to be written. -/
  | writing (rest : ByteArray)
  | ended

namespace Loop

def isEnded : Loop → Bool
  | ended => true
  | _ => false

end Loop

structure Link where
  registry : Registry
  codec : Codec := Codec.json
  /-- How long a close waits for the pending requests. -/
  closeTimeout : Duration := Duration.ofSeconds 5
  /-- Frames that the loop has not yet taken up, the oldest first. -/
  outbox : List Frame := []
  /-- Whether the loop has been asked to end. -/
  shutdown : Bool := false
  loop : Loop := .running
  stream : Stream := {}
  deframer : Deframer := {}

namespace Link

/-- A registry on its own: there is no peer, and no loop. -/
def bare (r : Registry) : Link where
  registry := r
  loop := .ended
  stream := { linkOpen := false, peerOpen := false }

/-- Applies an operation of the registry. -/
def via {α : Type} (l : Link) (f : Registry → Registry × α) : Link × α :=
  let (r, a) := f l.registry
  ({ l with registry := r }, a)

def lifecycle (l : Link) : Lifecycle := l.registry.lifecycle

/-- The failure of a link whose loop is gone. -/
def loopGone : Failure := .closing "connection event loop terminated"

/-! What breaks a link -/

/-- Fails every pending request and closes the link. A link that got beyond connecting
passes through closing. -/
def fail (l : Link) (f : Failure) : Link :=
  let l := if l.lifecycle = .connecting then l else (l.via Registry.beginClosing).1
  let (l, moved) := l.via (·.failAll f)
  if moved then { l with shutdown := true } else l

/-- The failure that a link in this state reports for a broken stream. -/
def lossOf (state : Lifecycle) (f : Failure) : Failure :=
  if state = .connecting then .handshakeFailed f.message
  else if f.isClosing then f
  else .closing ("connection lost: " ++ f.message)

/-- The stream is broken. A closed link takes no notice. -/
def onTransportError (l : Link) (f : Failure) : Link :=
  if l.lifecycle.isClosed then l else l.fail (lossOf l.lifecycle f)

/-! Frames from the peer -/

/-- Why an answer to the handshake does not complete it; `none` if it does. -/
def handshakeComplaint : Body → Option String
  | .ok => none
  | .nil => some "empty handshake response"
  | .value v => some ("unexpected handshake response: " ++ v.text)
  | .requestError k m => some (k.label ++ ": " ++ m)
  | .closingError m => some ("connection closed: " ++ m)

/-- The failure of a handshake that is answered after the link has moved on. -/
def lateHandshake (r : Registry) : Failure :=
  r.rejection.getD (.handshakeFailed "duplicate handshake response")

/-- An answer to the handshake. -/
def onHandshake (l : Link) (b : Body) : Link :=
  if l.lifecycle ≠ .connecting then
    (l.via (·.settle RequestId.handshake (.error (lateHandshake l.registry)))).1
  else
    match handshakeComplaint b with
    | none =>
      let l := (l.via Registry.markReady).1
      (l.via (·.settle RequestId.handshake (.ok .ok))).1
    | some m => l.fail (.handshakeFailed m)

/-- An answer of the peer. The announcement that the peer closes breaks the link. -/
def onResponse (l : Link) (a : Response) : Link :=
  if a.id.isHandshake then l.onHandshake a.body
  else
    let l := (l.via (·.settle a.id a.body.outcome)).1
    match a.body with
    | .closingError m => l.onTransportError (.closing m)
    | _ => l

/-- A frame of the peer. One that cannot be understood breaks the link. -/
def onFrame (l : Link) (f : Frame) : Link :=
  match l.codec.deserialize f with
  | .ok a => l.onResponse a
  | .error e => l.onTransportError e

/-! What callers do -/

/-- Puts a frame into the queue, if there is a loop to take it. -/
def enqueue (l : Link) (f : Frame) : Option Link :=
  if l.loop.isEnded then none else some { l with outbox := l.outbox ++ [f] }

/-- Registers the handshake and queues the setup. If the setup cannot be sent, the link
fails, and so does the handshake. -/
def connect (l : Link) (s : Setup) : Link × Except Failure Handle :=
  match l.via Registry.greet with
  | (l, .error f) => (l, .error f)
  | (l, .ok h) =>
    match l.codec.serialize RequestId.handshake (.connect s) with
    | .error f => (l.fail (.handshakeFailed ("cannot encode setup: " ++ f.message)), .ok h)
    | .ok frame =>
      match l.enqueue frame with
      | some l => (l, .ok h)
      | none => (l.onTransportError loopGone, .ok h)

/-- Queues a frame while the link is ready. -/
def send (l : Link) (f : Frame) : Link × Except Failure Unit :=
  match l.registry.rejection with
  | some e => (l, .error e)
  | none =>
    match l.enqueue f with
    | some l => (l, .ok ())
    | none => (l, .error loopGone)

/-- Sends the payload of a registered request. If that fails, the request has failed
before anybody was told of it. -/
def transmit (l : Link) (h : Handle) (p : Payload) : Link × Except Failure Handle :=
  match l.codec.serialize h.id p with
  | .error f => ((l.via (·.settle h.id (.error f))).1, .error f)
  | .ok frame =>
    match l.send frame with
    | (l, .ok ()) => (l, .ok h)
    | (l, .error f) => ((l.via (·.settle h.id (.error f))).1, .error f)

/-- The last act of a close: what is still pending fails, and the loop is asked to end. -/
def finishClose (l : Link) : Link :=
  let l := (l.via (·.failAll (.closing "connection closed by client"))).1
  { l with shutdown := true }

/-- Nobody holds the link or its loop any more. -/
def dissolve (l : Link) : Link := { l with registry := l.registry.dissolve }

end Link

end Switchboard
