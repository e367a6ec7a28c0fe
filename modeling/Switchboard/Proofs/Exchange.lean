import Switchboard.Proofs.SceneRuns
import Switchboard.Proofs.Wire

/-!
A client and its companion. The client sets up its link, submits requests, waits and gives
up waiting, and closes the link, in any order and while the loop does its work bit by bit.
The companion reads and writes as many bytes at a time as it likes, and answers each frame
that it has received at most once, under the identifier of that frame. It keeps the stream
open. What stands for the work of the companion is `readId`, which reads the identifier of
a request off its frame.
-/
namespace Switchboard

/-- The process at the far end of the stream. -/
structure Companion where
  deframer : Deframer := {}
  /-- The frames that have arrived, the oldest first, each with the body of its answer, if
  there is one. -/
  received : List (Frame × Option Body) := []
  /-- The bytes of answers that are still to be written. -/
  unsent : ByteArray := .empty

namespace Companion

/-- Takes in bytes and every frame that they complete. -/
def read (c : Companion) (b : ByteArray) : Companion :=
  let d := c.deframer.feed b
  let taken := d.frames (d.buffer.size + 1)
  { c with deframer := taken.2, received := c.received ++ taken.1.map fun f => (f, none) }

/-- The frames that have no answer so far. -/
def unanswered (c : Companion) : List Frame :=
  c.received.filterMap fun q => if q.2.isNone then some q.1 else none

end Companion

/-- The payload that an errand sends. -/
def Errand.payload? : Errand → Option Payload
  | .register => none
  | .submit p => some p
  | .execute p _ => some p

/-- The bytes that the loop has in hand. -/
def Loop.rest : Loop → ByteArray
  | .writing rest => rest
  | _ => .empty

namespace Link

/-- The request whose frame is queued when the payload of a handle is sent. -/
def posted (l : Link) (h : Handle) (p : Payload) : List (Handle × Payload) :=
  match (l.transmit h p).2 with
  | .ok h => [(h, p)]
  | .error _ => []

/-- The request whose frame is queued when an errand goes on. -/
def postedBy (e : Errand) : Link × Registration → List (Handle × Payload)
  | (l, .granted h) =>
    match e.payload? with
    | some p => l.posted h p
    | none => []
  | (_, .waiting _) => []
  | (_, .refused _) => []

end Link

namespace Scene

/-- Whether an action is one of a client that is being set up or in use, of its loop, or of
the clock. -/
def Action.isClients : Action → Bool
  | .start e => e.payload?.isSome
  | .trySubmit _ | .close | .closed | .settled _ | .waitFor _ _ | .poll _ | .drop _ => true
  | .loop _ | .advance _ | .clone | .release => true
  | _ => false

/-- The requests whose frames an action queues. -/
def posted (s : Scene) : Action → List (Handle × Payload)
  | .start e => Link.postedBy e (s.link.via Registry.register)
  | .trySubmit p =>
    match s.link.via Registry.tryRegister with
    | (l, .ok h) => l.posted h p
    | (_, .error _) => []
  | .poll i =>
    match s.calls[i]? with
    | some (.inLine w e) => Link.postedBy e (s.link.via (·.resume w))
    | _ => []
  | _ => []

theorem posted_trySubmit_iff (s : Scene) (p : Payload) (h : Handle) :
    s.posted (.trySubmit p) = [(h, p)] ↔ (s.link.trySubmit p).2 = .ok h := by
  unfold posted Link.trySubmit
  generalize s.link.via Registry.tryRegister = a
  obtain ⟨l, granted⟩ := a
  cases granted with
  | error f => simp
  | ok g =>
    simp only [Link.posted]
    cases (l.transmit g p).2 with
    | ok g => simp
    | error f => simp

end Scene

structure Exchange where
  scene : Scene
  companion : Companion := {}
  /-- The requests whose frames have been queued, the oldest first. -/
  requests : List (Handle × Payload) := []

namespace Exchange

def link (x : Exchange) : Link := x.scene.link

inductive Action where
  | client (a : Scene.Action)
  /-- The companion reads at most `n` bytes. -/
  | read (n : Nat)
  /-- The companion answers the frame at `k` with the frame `g`. -/
  | answer (k : Nat) (g : Frame)
  /-- The companion writes at most `n` bytes, and no more than the stream holds. -/
  | write (n : Nat)

/-- A link on which a client sets out to connect. -/
def opening (l : Link) (now : Instant) (s : Setup) (limit : Duration) (deadline : Instant) :
    Exchange where
  scene := Scene.join { link := l, now := now } (l.establish now s limit deadline)
  requests :=
    match (l.connect s).2 with
    | .ok h => [(h, .connect s)]
    | .error _ => []

def read (x : Exchange) (n : Nat) : Exchange :=
  let b := x.link.stream.outbound
  { x with
    scene.link.stream.outbound := b.extract n b.size
    companion := x.companion.read (b.extract 0 n) }

/-- Answers a frame that has no answer yet, in a frame that the stream takes and with the
identifier that it was sent under. -/
def answer (readId : Frame → Option RequestId) (x : Exchange) (k : Nat) (g : Frame) :
    Exchange :=
  match x.companion.received[k]?, x.link.codec.deserialize g with
  | some (f, none), .ok a =>
    if readId f = some a.id ∧ g.size ≤ Frame.maxSize then
      { x with companion :=
        { x.companion with
          received := x.companion.received.set k (f, some a.body)
          unsent := x.companion.unsent ++ g.packet } }
    else x
  | _, _ => x

def write (x : Exchange) (n : Nat) : Exchange :=
  let b := x.companion.unsent
  let written := x.link.stream.peerWrite (b.extract 0 n)
  { x with
    scene.link.stream := written.1
    companion.unsent := written.2 ++ b.extract n b.size }

def perform (readId : Frame → Option RequestId) (x : Exchange) : Action → Exchange
  | .client a =>
    if a.isClients then
      { x with scene := x.scene.perform a, requests := x.requests ++ x.scene.posted a }
    else x
  | .read n => x.read n
  | .answer k g => x.answer readId k g
  | .write n => x.write n

def run (readId : Frame → Option RequestId) (x : Exchange) (acts : List Action) : Exchange :=
  acts.foldl (perform readId) x

/-! What is under way -/

/-- The frames on their way to the companion, those in its buffer included. -/
def outward (x : Exchange) : List Frame :=
  (x.companion.deframer.feed (x.link.stream.outbound ++ x.link.loop.rest)).decoded

/-- The frames on their way to the client, those in its buffer included. -/
def inward (x : Exchange) : List Frame :=
  (x.link.deframer.feed (x.link.stream.inbound ++ x.companion.unsent)).decoded

/-- The identifiers of the requests that have no answer and of the answers that have not
arrived. -/
def underWay (readId : Frame → Option RequestId) (x : Exchange) : List RequestId :=
  (x.companion.unanswered ++ x.outward ++ x.link.outbox).filterMap readId ++
    x.inward.filterMap fun g => (x.link.codec.deserialize g).toOption.map Response.id

end Exchange

end Switchboard
