import Switchboard.Session

/-!
The steps of a scripted session and what they result in. Steps name links, requests,
waiting calls and subscriptions; a name that stands for nothing is reported as missing.
-/
namespace Switchboard

/-- A request, by its identifier or by the name of its handle. -/
inductive Target where
  | id (i : RequestId)
  | name (n : Option String)

/-- What is done to the registry of pending requests. -/
inductive RegistryStep where
  | handshake (name : String)
  | register (name : String)
  | tryRegister (name : String)
  | resolve (target : Target) (reply : Reply)
  | resolveError (target : Target) (f : Failure)
  | isPending (target : Target)
  | markReady
  | beginClosing
  | failAll (f : Failure)
  | drained (name : String)
  | closed (name : String)
  | subscribe (name : String)
  | info
  /-- The registry is let go of. -/
  | release

/-- What is done to a link. -/
inductive LinkStep where
  | connect (name : String) (s : Setup)
  | send (f : Frame)
  | sendPayload (target : Target) (p : Payload)
  | onFrame (f : Frame)
  | transportError (f : Failure)
  | state
  | close (name : String)
  | closed (name : String)
  | clone (name : String)
  | drop

/-- What is done to a client. -/
inductive ClientStep where
  | submit (name : String) (p : Payload)
  | trySubmit (name : String) (p : Payload)
  | execute (name : String) (p : Payload)
  | info
  | subscribe (name : String)
  | close (name : String)
  | closed (name : String)
  | clone (name : String)
  | drop

/-- What is done with the handle of a request. -/
inductive HandleStep where
  | poll
  | isDone
  | display
  | clone (name : String)
  | wait (name : String)
  | waitFor (name : String) (limit : Duration)
  | blockingWait (limit : Duration)

inductive Step where
  /-- Steps between which nothing else happens. -/
  | batch (steps : List Step)
  | advance (span : Duration)
  | cancel (call : Option String)
  | observe (subscription : Option String)
  | peerSend (f : Frame)
  | peerWrite (b : ByteArray)
  | peerClose
  | killLoop
  | handle (name : Option String) (step : HandleStep)
  | registry (step : RegistryStep)
  | link (on : String) (step : LinkStep)
  | client (on : String) (step : ClientStep)

/-- What a step results in. -/
inductive Result where
  | nothing
  | flag (b : Bool)
  | missing (name : Option String)
  | pending
  | made
  | queued
  | answer (a : Answer)
  | shown (id : RequestId) (text : String)
  | observed (changed : Option Bool) (state : Lifecycle)
  | state (l : Lifecycle)
  | registryInfo (ceiling : Nat) (policy : Policy) (rejection closedWith : Option Failure)
  | clientInfo (ready : Bool) (closedWith : Option Failure) (text : String)
  | each (results : List Result)

/-- Where the registry of a session stands. -/
structure Status where
  state : Lifecycle
  pending : Nat
  inflight : Nat

/-- What is told of a step: its result, and what happened until everything was at rest
again. -/
structure Report where
  result : Result
  /-- Calls that had been waiting and ended. -/
  finished : List (String × Answer)
  /-- Frames that reached the peer. -/
  received : List Frame
  /-- Whether the peer came to the end of the stream after the step had been carried
  out. -/
  ended : Bool
  moves : List Move
  /-- The identifiers of answers nobody was waiting for. -/
  unmatched : List RequestId
  /-- There is none once nobody holds the registry by name. -/
  status : Option Status

end Switchboard
