import Switchboard.Link.Basic

/-!
Calls that may have to wait. A call looks at the link whenever it is polled; it finishes
with an answer, or waits on. What a call waits for is looked at before the clock is.
-/
namespace Switchboard

/-- What a slot at the gate is wanted for. -/
inductive Errand where
  | register
  /-- Registers a request and sends it. -/
  | submit (p : Payload)
  /-- Registers a request, sends it, and waits for the answer up to a limit. -/
  | execute (p : Payload) (limit : Duration)
deriving DecidableEq

inductive Call where
  /-- Waits in line at the gate. -/
  | inLine (w : Waiter) (e : Errand)
  /-- Waits until nothing is pending. -/
  | drained
  /-- Waits until the link is closed. -/
  | closed
  /-- Waits until nothing is pending, or the deadline, and then closes the link. -/
  | closing (deadline? : Option Instant)
  /-- Waits for the outcome of a request. -/
  | settled (h : Handle)
  /-- Waits for the outcome of a request until a deadline. -/
  | settledBy (h : Handle) (limit : Duration) (deadline? : Option Instant)
  /-- Waits for the answer to a request of its own until a deadline. -/
  | answered (h : Handle) (limit : Duration) (deadline? : Option Instant)
  /-- Waits for a socket to be connected. -/
  | linking
  /-- Waits for a socket to be connected, and then sends the handshake. -/
  | dialling (s : Setup) (limit : Duration) (deadline : Instant)
  /-- Waits for the answer to the handshake until a deadline. -/
  | greeted (h : Handle) (limit : Duration) (deadline : Instant)
deriving DecidableEq

/-- What a call ends with. -/
inductive Answer where
  | done
  | registered (h : Handle)
  | submitted (h : Handle)
  | outcome (o : Outcome)
  | failed (f : Failure)
  | linked
  | connected

inductive Progress where
  | waiting (c : Call)
  | finished (a : Answer)

namespace Call

/-- Whether the call keeps the link alive. Who waits for the outcome of a request needs
the handle only. -/
def holdsLink : Call → Bool
  | settled _ => false
  | settledBy _ _ _ => false
  | _ => true

end Call

namespace Link

def outcome? (l : Link) (h : Handle) : Option Outcome := l.registry.ledger.outcome? h.ticket

/-- The failure of a wait that has run out. -/
def responseTimeout (h : Handle) (limit : Duration) : Failure :=
  .responseTimeout h.id limit.wholeMillis

/-- Waits for an outcome as the call `c` until a deadline, if there is one. -/
def awaitBy (l : Link) (now : Instant) (h : Handle) (limit : Duration)
    (deadline? : Option Instant) (c : Call) : Progress :=
  match l.outcome? h with
  | some o => .finished (.outcome o)
  | none =>
    if now.passed deadline? then .finished (.outcome (.error (responseTimeout h limit)))
    else .waiting c

/-- What a call ends with that failed or has its handle. -/
def sent (answer : Handle → Answer) : Except Failure Handle → Progress
  | .ok h => .finished (answer h)
  | .error f => .finished (.failed f)

/-- Goes on with an errand once its slot is granted or refused. -/
def proceed (now : Instant) (e : Errand) : Link × Registration → Link × Progress
  | (l, .waiting w) => (l, .waiting (.inLine w e))
  | (l, .refused f) => (l, .finished (.failed f))
  | (l, .granted h) =>
    match e with
    | .register => (l, .finished (.registered h))
    | .submit p =>
      let (l, r) := l.transmit h p
      (l, sent .submitted r)
    | .execute p limit =>
      match l.transmit h p with
      | (l, .error f) => (l, .finished (.failed f))
      | (l, .ok h) =>
        let deadline? := now.add? limit
        (l, l.awaitBy now h limit deadline? (.answered h limit deadline?))

/-- The failure of a handshake that nobody has answered in time. -/
def connectTimeout (limit : Duration) : Failure := .connectionTimeout limit.wholeMillis

/-- Waits for the answer to the handshake. When time has run out, the link fails. -/
def awaitGreeting (l : Link) (now : Instant) (h : Handle) (limit : Duration)
    (deadline : Instant) : Link × Progress :=
  match l.outcome? h with
  | some (.ok _) => (l, .finished .connected)
  | some (.error f) => (l, .finished (.failed f))
  | none =>
    if now.reached deadline then
      (l.onTransportError (connectTimeout limit), .finished (.failed (connectTimeout limit)))
    else (l, .waiting (.greeted h limit deadline))

/-- Sends the handshake and waits for its answer. -/
def establish (l : Link) (now : Instant) (s : Setup) (limit : Duration) (deadline : Instant) :
    Link × Progress :=
  match l.connect s with
  | (l, .error f) => (l, .finished (.failed f))
  | (l, .ok h) => l.awaitGreeting now h limit deadline

end Link

namespace Call

/-- Has a look at the link and the clock. -/
def poll (now : Instant) (l : Link) : Call → Link × Progress
  | inLine w e => Link.proceed now e (l.via (·.resume w))
  | drained => (l, if l.registry.isDrained then .finished .done else .waiting drained)
  | closed => (l, if l.registry.isClosed then .finished .done else .waiting closed)
  | closing deadline? =>
    if l.registry.isDrained || now.passed deadline? then (l.finishClose, .finished .done)
    else (l, .waiting (closing deadline?))
  | settled h =>
    (l, match l.outcome? h with
      | some o => .finished (.outcome o)
      | none => .waiting (settled h))
  | settledBy h limit deadline? =>
    (l, l.awaitBy now h limit deadline? (settledBy h limit deadline?))
  | answered h limit deadline? =>
    (l, l.awaitBy now h limit deadline? (answered h limit deadline?))
  | linking => (l, .finished .linked)
  | dialling s limit deadline => l.establish now s limit deadline
  | greeted h limit deadline => l.awaitGreeting now h limit deadline

/-- A call that is given up. Only a place in line leaves a trace. -/
def drop (l : Link) : Call → Link
  | inLine w _ => { l with registry := l.registry.abandon w }
  | _ => l

/-- Whether the call would wait on unchanged. -/
def isStuck (now : Instant) (l : Link) (c : Call) : Bool :=
  match (c.poll now l).2 with
  | .waiting d => decide (d = c)
  | .finished _ => false

end Call

namespace Progress

/-- A call that has ended looks no more. -/
def poll (now : Instant) (l : Link) : Progress → Link × Progress
  | waiting c => c.poll now l
  | finished a => (l, finished a)

def drop (l : Link) : Progress → Link
  | waiting c => c.drop l
  | finished _ => l

/-- Whether a look would change nothing. -/
def isStuck (now : Instant) (l : Link) : Progress → Bool
  | waiting c => c.isStuck now l
  | finished _ => true

/-- Whether the link is kept alive; one that has just been made is about to be held. -/
def holdsLink : Progress → Bool
  | waiting c => c.holdsLink
  | finished .linked => true
  | finished .connected => true
  | finished _ => false

end Progress

namespace Link

/-! The first look of each kind of call -/

def start (l : Link) (now : Instant) (e : Errand) : Link × Progress :=
  proceed now e (l.via Registry.register)

/-- Registers and sends a request without waiting. -/
def trySubmit (l : Link) (p : Payload) : Link × Except Failure Handle :=
  match l.via Registry.tryRegister with
  | (l, .ok h) => l.transmit h p
  | (l, .error f) => (l, .error f)

/-- The first to close a link waits for what is pending, as long as the link allows;
whoever comes later waits for the end. -/
def close (l : Link) (now : Instant) : Link × Progress :=
  match l.via Registry.beginClosing with
  | (l, false) => Call.closed.poll now l
  | (l, true) =>
    if l.closeTimeout.isZero then (l.finishClose, .finished .done)
    else (Call.closing (now.add? l.closeTimeout)).poll now l

/-- Waits for the outcome of a request up to a limit. -/
def waitFor (l : Link) (now : Instant) (h : Handle) (limit : Duration) : Link × Progress :=
  (Call.settledBy h limit (now.add? limit)).poll now l

/-- Waits on the spot for the outcome of a request. Nothing else happens meanwhile, so
the wait is over at once or runs out. -/
def blockingWait (l : Link) (h : Handle) (limit : Duration) : Outcome :=
  (l.outcome? h).getD (.error (responseTimeout h limit))

end Link

end Switchboard
