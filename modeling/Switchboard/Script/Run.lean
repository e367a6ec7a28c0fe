import Switchboard.Script.Step

/-!
Running a script: each step is carried out, then everything runs until it is at rest, and
what happened is reported.
-/
namespace Switchboard

namespace Session

/-- What is missing when nobody holds the registry by name any more. -/
def rootName (s : Session) : String :=
  match s.subject with
  | .registry => "dispatcher"
  | _ => "link"

/-- The name under which the registry, the first link or the first client is held. -/
def firstName : Subject → String
  | .registry => "dispatcher"
  | .link => "l"
  | .client => "c"

/-- The identifier a target stands for, or the name that stands for nothing. -/
def resolveTarget (s : Session) : Target → Except (Option String) RequestId
  | .id i => .ok i
  | .name n =>
    match n.bind fun n => s.handles.lookup n with
    | some h => .ok h.id
    | none => .error n

/-- Carries out an operation on the request that a target stands for. -/
def withTarget (s : Session) (t : Target) (f : RequestId → Session × Result) :
    Session × Result :=
  match s.resolveTarget t with
  | .ok i => f i
  | .error n => (s, .missing n)

def withFlag : Session × Bool → Session × Result
  | (s, b) => (s, .flag b)

/-- Takes up a call and tells how its first look went. -/
def begin (s : Session) (name : String) (r : Link × Progress) : Session × Result :=
  match s.join name r with
  | (s, none) => (s, .pending)
  | (s, some a) => (s, .answer a)

/-- Tells how an operation went that yields a handle, and keeps the handle. -/
def handOut (s : Session) (name : String) (answer : Handle → Answer) :
    Link × Except Failure Handle → Session × Result
  | (l, r) => s.begin name (l, Link.sent answer r)

/-- Applies an operation of the registry. -/
def onRegistry {α : Type} (s : Session) (f : Registry → Registry × α) : Session × α :=
  s.via (·.via f)

def registryStep (s : Session) : RegistryStep → Session × Result
  | .handshake name => s.handOut name .submitted (s.link.via Registry.greet)
  | .register name => s.begin name (s.link.start s.now .register)
  | .tryRegister name => s.handOut name .registered (s.link.via Registry.tryRegister)
  | .resolve t reply =>
    s.withTarget t fun i => withFlag (s.onRegistry (·.settle i (.ok reply)))
  | .resolveError t f =>
    s.withTarget t fun i => withFlag (s.onRegistry (·.settle i (.error f)))
  | .isPending t => s.withTarget t fun i => (s, .flag (s.link.registry.isPending i))
  | .markReady => withFlag (s.onRegistry Registry.markReady)
  | .beginClosing => withFlag (s.onRegistry Registry.beginClosing)
  | .failAll f => withFlag (s.onRegistry (·.failAll f))
  | .drained name => s.begin name (Call.drained.poll s.now s.link)
  | .closed name => s.begin name (Call.closed.poll s.now s.link)
  | .subscribe name => (s.subscribe name, .nothing)
  | .info =>
    let r := s.link.registry
    (s, .registryInfo r.gate.ceiling r.gate.policy r.rejection r.closedWith)
  | .release => (s.letGo (firstName .registry), .flag true)

/-- Queues a frame. -/
def sendFrame (s : Session) (f : Frame) : Session × Result :=
  match s.via (·.send f) with
  | (s, .ok ()) => (s, .queued)
  | (s, .error e) => (s, .answer (.failed e))

def linkStep (s : Session) (on : String) : LinkStep → Session × Result
  | .connect name setup => s.handOut name .submitted (s.link.connect setup)
  | .send f => s.sendFrame f
  | .sendPayload t p =>
    s.withTarget t fun i =>
      match s.link.codec.serialize i p with
      | .ok f => s.sendFrame f
      | .error e => (s, .answer (.failed e))
  | .onFrame f => ({ s with link := s.link.onFrame f }, .nothing)
  | .transportError f => ({ s with link := s.link.onTransportError f }, .nothing)
  | .state => (s, .state s.link.lifecycle)
  | .close name => s.begin name (s.link.close s.now)
  | .closed name => s.begin name (Call.closed.poll s.now s.link)
  | .clone name => (s.hold name, .nothing)
  | .drop => (s.letGo on, .nothing)

def clientStep (s : Session) (on : String) : ClientStep → Session × Result
  | .submit name p => s.begin name (s.link.start s.now (.submit p))
  | .trySubmit name p => s.handOut name .submitted (s.link.trySubmit p)
  | .execute name p => s.begin name (s.link.start s.now (.execute p s.responseTimeout))
  | .info =>
    (s, .clientInfo s.link.lifecycle.isReady s.link.registry.closedWith s.link.text)
  | .subscribe name => (s.subscribe name, .nothing)
  | .close name => s.begin name (s.link.close s.now)
  | .closed name => s.begin name (Call.closed.poll s.now s.link)
  | .clone name => (s.hold name, .nothing)
  | .drop => (s.letGo on, .nothing)

def handleStep (s : Session) (h : Handle) : HandleStep → Session × Result
  | .poll =>
    (s, match s.link.outcome? h with
      | some o => .answer (.outcome o)
      | none => .pending)
  | .isDone => (s, .flag (s.link.outcome? h).isSome)
  | .display => (s, .shown h.id (h.text (s.link.outcome? h).isSome))
  | .clone name => ({ s with handles := assign name h s.handles }, .nothing)
  | .wait name => s.begin name ((Call.settled h).poll s.now s.link)
  | .waitFor name limit => s.begin name (s.link.waitFor s.now h limit)
  | .blockingWait limit => (s, .answer (.outcome (s.link.blockingWait h limit)))

/-- The four bytes of the length, and the frame. -/
def framed (f : Frame) : ByteArray := Frame.header f.size ++ f

/-- The answer to a write of the peer. -/
def written : Session × Option Bool → Session × Result
  | (s, some b) => (s, .flag b)
  | (s, none) => (s, .nothing)

mutual

/-- Carries out a step. -/
def step (s : Session) : Step → Session × Result
  | .batch steps =>
    let (s, results) := stepEach s steps
    (s, .each results)
  | .advance d => (s.advance d, .nothing)
  | .cancel none => (s, .missing none)
  | .cancel (some name) =>
    match s.cancel name with
    | some s => (s, .nothing)
    | none => (s, .missing (some name))
  | .observe none => (s, .missing none)
  | .observe (some name) =>
    match s.subscriptions.lookup name with
    | none => (s, .missing (some name))
    | some sub =>
      let (s, changed) := s.observe name sub
      (s, .observed changed s.link.lifecycle)
  | .peerSend f => written (s.peerWrite (framed f))
  | .peerWrite b => written (s.peerWrite b)
  | .peerClose => withFlag s.peerClose
  | .killLoop => (s.killLoop, .nothing)
  | .handle none _ => (s, .missing none)
  | .handle (some name) h =>
    match s.handles.lookup name with
    | some handle => s.handleStep handle h
    | none => (s, .missing (some name))
  | .registry r =>
    if s.holders.isEmpty then (s, .missing (some s.rootName)) else s.registryStep r
  | .link on l =>
    if s.holders.isEmpty then (s, .missing (some s.rootName))
    else if on ∈ s.holders then s.linkStep on l
    else (s, .missing (some on))
  | .client on c =>
    if on ∈ s.holders then s.clientStep on c else (s, .missing (some on))

/-- Carries out steps one after the other. -/
def stepEach (s : Session) : List Step → Session × List Result
  | [] => (s, [])
  | st :: rest =>
    let (s, r) := step s st
    let (s, rs) := stepEach s rest
    (s, r :: rs)

end

/-- Where the registry stands, as long as it is held by name. -/
def status (s : Session) : Option Status :=
  if s.holders.isEmpty then none
  else
    let r := s.link.registry
    some ⟨r.lifecycle, r.pending.length, r.gate.inflight⟩

/-- What happened from an earlier state of the session on. The state `acted` is the one
in which everything began to come to rest. -/
def reportSince (s before acted : Session) (result : Result) : Report where
  result := result
  finished := s.finished.drop before.finished.length
  received := s.peer.received.drop before.peer.received.length
  ended := s.peer.sawEnd && !acted.peer.sawEnd
  moves := s.link.registry.moves.drop before.link.registry.moves.length
  unmatched := s.link.registry.unmatched.drop before.link.registry.unmatched.length
  status := s.status

/-- Carries out a step, comes to rest, and reports. -/
def report (before : Session) (st : Step) : Session × Report :=
  let (acted, result) := before.step st
  let s := acted.rest
  (s, s.reportSince before acted result)

/-- Comes to rest after the beginning, and reports. -/
def reportFirst (s : Session) (result : Result) : Session × Report :=
  let rested := s.rest
  (rested, rested.reportSince (void s.subject false) s result)

/-- The reports of a script. -/
def run : Session → List Step → List Report
  | _, [] => []
  | s, st :: rest =>
    let (s, r) := s.report st
    r :: run s rest

end Session

end Switchboard
