import Switchboard.Client
import Switchboard.Link.Loop

/-!
A session: a link, those who hold it, the calls that wait on it, its peer, and the clock.
Between two steps of a session everything runs until it comes to rest: the loop of the
link works as long as it can, the peer reads what has arrived, and the calls have a look
in the order in which they were made.
-/
namespace Switchboard

/-- The last change of the lifecycle that a subscriber has seen. -/
structure Subscription where
  seen : Nat
deriving DecidableEq

/-- The far end of the stream. -/
structure Peer where
  deframer : Deframer := {}
  /-- The frames that have arrived, the oldest first. -/
  received : List Frame := []
  /-- Whether the peer has come to the end of the stream. -/
  sawEnd : Bool := false

/-- What a session is about: a registry on its own, a link, or a client. -/
inductive Subject where
  | registry
  | link
  | client
deriving DecidableEq

structure Session where
  subject : Subject
  link : Link
  now : Instant := ⟨0⟩
  /-- The calls that wait, the oldest first, each under its name. One that has ended
  stays in its place until everything is at rest. -/
  calls : List (String × Progress) := []
  /-- The names under which the link is held. -/
  holders : List String := []
  handles : List (String × Handle) := []
  subscriptions : List (String × Subscription) := []
  /-- How long a client waits for an answer. -/
  responseTimeout : Duration := Duration.ofSeconds 30
  peer : Peer := {}
  /-- What calls ended with after they had to wait, the oldest first. -/
  finished : List (String × Answer) := []

namespace Session

/-- A session in which nothing could be set up. There may be a peer, which finds its
stream closed. -/
def void (subject : Subject) (peer : Bool) : Session where
  subject := subject
  link := {
    registry := { gate := { ceiling := 0, policy := .reject, free := 0 } }
    loop := .ended
    stream := { linkOpen := false, peerOpen := peer } }

/-- Sets what a name stands for. -/
def assign {α : Type} (name : String) (a : α) (l : List (String × α)) : List (String × α) :=
  (name, a) :: l.filter fun p => p.1 != name

def hold (s : Session) (name : String) : Session :=
  { s with holders := name :: s.holders.erase name }

/-- Whether a name or a call holds the link. -/
def isHeld (s : Session) : Bool :=
  !s.holders.isEmpty || s.calls.any fun p => p.2.holdsLink

/-- Whether link and loop are gone, and the registry with them. -/
def isGone (s : Session) : Bool := !s.isHeld && s.link.loop.isEnded

/-- A registry that is gone leaves nothing pending. -/
def sweep (s : Session) : Session :=
  if s.isGone then { s with link := s.link.dissolve } else s

/-- Keeps under a name what a call ended with. -/
def keep (s : Session) (name : String) : Answer → Session
  | .registered h => { s with handles := assign name h s.handles }
  | .submitted h => { s with handles := assign name h s.handles }
  | .linked => s.hold name
  | .connected => s.hold name
  | _ => s

/-- Applies an operation of the link. -/
def via {α : Type} (s : Session) (f : Link → Link × α) : Session × α :=
  let (l, a) := f s.link
  ({ s with link := l }, a)

/-! Coming to rest -/

/-- The peer reads what has arrived. -/
def peerReads (s : Session) : Session :=
  if s.link.stream.peerOpen then
    let (b, stream) := s.link.stream.peerRead
    let d := s.peer.deframer.feed b
    let (frames, d) := d.frames (d.buffer.size + 1)
    { s with
      link := { s.link with stream := stream }
      peer := {
        deframer := d
        received := s.peer.received ++ frames
        sawEnd := s.peer.sawEnd || !stream.linkOpen } }
  else s

/-- Every call that waits has a look, the oldest first. -/
def pollEach (now : Instant) : Link → List (String × Progress) →
    Link × List (String × Progress)
  | l, [] => (l, [])
  | l, (name, p) :: rest =>
    let (l, p) := p.poll now l
    let (l, rest) := pollEach now l rest
    (l, (name, p) :: rest)

def pollCalls (s : Session) : Session :=
  let (l, calls) := pollEach s.now s.link s.calls
  { s with link := l, calls := calls }

/-- Everything has its turn once. -/
def round (s : Session) : Session :=
  ({ s with link := s.link.run s.isHeld }.sweep.peerReads.pollCalls).sweep

/-- Whether nothing can go on. -/
def atRest (s : Session) : Bool :=
  (s.link.ready s.isHeld).isEmpty &&
  s.link.stream.outbound.isEmpty &&
  (s.peer.sawEnd || s.link.stream.linkOpen || !s.link.stream.peerOpen) &&
  s.calls.all fun p => p.2.isStuck s.now s.link

/-- Gives everything its turn until nothing can go on, at most `fuel` times. -/
def settleDown : Nat → Session → Session
  | 0, s => s
  | fuel + 1, s => if s.atRest then s else settleDown fuel s.round

/-- The answer of a call that has ended. -/
def ended? : String × Progress → Option (String × Answer)
  | (name, .finished a) => some (name, a)
  | _ => none

/-- Strikes the calls that have ended off the list, and keeps what they ended with. -/
def collect (s : Session) : Session :=
  let ended := s.calls.filterMap ended?
  let waiting : Session :=
    { s with
      calls := s.calls.filter fun p => (ended? p).isNone
      finished := s.finished ++ ended }
  ended.foldl (fun s p => s.keep p.1 p.2) waiting

/-- Runs until everything is at rest. A call goes on three times at most. -/
def rest (s : Session) : Session := (settleDown (3 * s.calls.length + 8) s).collect

/-! The clock -/

/-- The longest time that passes millisecond by millisecond. -/
def smoothLimit : Nat := 100 * nanosPerMilli

/-- Lets milliseconds pass, with a rest after each. -/
def tick : Nat → Session → Session
  | 0, s => s
  | n + 1, s => tick n ({ s with now := s.now.advance (Duration.ofMillis 1) }).rest

/-- Lets time pass: a short time by milliseconds, a long one at once. The rest after the
last millisecond is left to the caller. -/
def advance (s : Session) (d : Duration) : Session :=
  let steps := if d.nanos ≤ smoothLimit then (d.nanos - 1) / nanosPerMilli else 0
  let s := tick steps s
  { s with now := s.now.advance (Duration.ofNanos (d.nanos - steps * nanosPerMilli)) }

/-! Calls -/

/-- Takes up a call that has had its first look: it ends at once, or joins those that
wait. -/
def join (s : Session) (name : String) : Link × Progress → Session × Option Answer
  | (l, .waiting c) =>
    ({ s with link := l, calls := s.calls ++ [(name, .waiting c)] }, none)
  | (l, .finished a) => ((keep { s with link := l } name a).sweep, some a)

/-- Gives up the first waiting call of a name, if there is one. -/
def cancel (s : Session) (name : String) : Option Session :=
  match s.calls.find? fun p => p.1 = name with
  | none => none
  | some p =>
    some { s with
      link := p.2.drop s.link
      calls := s.calls.eraseP fun q => q.1 = name }.sweep

/-- Lets go of the link under a name. -/
def letGo (s : Session) (name : String) : Session :=
  { s with holders := s.holders.erase name }.sweep

/-- The loop is gone, and with it every call that waits. -/
def killLoop (s : Session) : Session :=
  { s with
    link := (s.calls.foldl (fun l (p : String × Progress) => p.2.drop l) s.link).kill
    calls := [] }.sweep

/-! The peer -/

/-- The peer writes bytes. The answer says whether they arrive; without a peer there is
none. -/
def peerWrite (s : Session) (b : ByteArray) : Session × Option Bool :=
  if s.link.stream.peerOpen then
    let (stream, _) := s.link.stream.peerWrite b
    ({ s with link := { s.link with stream := stream } }, some s.link.stream.linkOpen)
  else (s, none)

/-- The peer closes its end. The answer says whether there was one. -/
def peerClose (s : Session) : Session × Bool :=
  if s.link.stream.peerOpen then
    ({ s with link := { s.link with stream := s.link.stream.closePeer } }, true)
  else (s, false)

/-! Subscriptions -/

def subscribe (s : Session) (name : String) : Session :=
  { s with subscriptions := assign name ⟨s.link.registry.moves.length⟩ s.subscriptions }

/-- Whether the lifecycle has changed since a subscriber last looked; there is no answer
once the registry is gone. -/
def observe (s : Session) (name : String) (sub : Subscription) : Session × Option Bool :=
  let changes := s.link.registry.moves.length
  ({ s with subscriptions := assign name ⟨changes⟩ s.subscriptions },
    if s.isGone then none else some (decide (sub.seen ≠ changes)))

end Session

end Switchboard
