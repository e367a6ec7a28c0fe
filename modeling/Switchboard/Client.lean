import Switchboard.Call
import Switchboard.Endpoint
import Switchboard.Options

/-!
Clients: a link with a handshake, set up according to options. Options are looked at
before the endpoint is, and the endpoint before it is tried.
-/
namespace Switchboard

/-- All that a client needs to know before it connects. -/
structure Plan where
  options : Options := {}
  setup : Setup := {}
  endpoint : Endpoint := .missing
  codec : Codec := Codec.json

namespace Plan

/-- The policy of a plan that can be tried. A stream that is open already needs no
endpoint. -/
def validate (p : Plan) : Except Failure Policy :=
  match p.options.validate with
  | .error d => .error (.config d.message)
  | .ok policy =>
    match p.endpoint.complaint with
    | some f => .error f
    | none => .ok policy

/-- The link of a plan, before anything has been sent. -/
def link (p : Plan) (policy : Policy) (stream : Stream) : Except Failure Link :=
  match Registry.make p.options.limit policy with
  | .error f => .error f
  | .ok r =>
    .ok {
      registry := r
      codec := p.codec
      closeTimeout := p.options.closeTimeout
      stream := stream }

/-- The link of a plan has a registry of its own, and nothing has been done with it. -/
theorem eq_of_link {p : Plan} {policy : Policy} {stream : Stream} {l : Link}
    (h : p.link policy stream = .ok l) :
    ∃ r, Registry.make p.options.limit policy = .ok r ∧
      l = { registry := r, codec := p.codec, closeTimeout := p.options.closeTimeout,
            stream := stream } := by
  unfold link at h
  cases hmake : Registry.make p.options.limit policy with
  | error f =>
    rw [hmake] at h
    cases h
  | ok r =>
    rw [hmake] at h
    exact ⟨r, rfl, (Except.ok.inj h).symm⟩

/-- How an attempt to connect begins. -/
inductive Attempt where
  | failed (f : Failure)
  /-- The time at which to give up is beyond what a clock can hold. -/
  | noDeadline
  | under (l : Link) (p : Progress)

/-- Begins to connect. An open stream is used at once, a socket when it is connected. -/
def attempt (p : Plan) (now : Instant) : Attempt :=
  match p.validate with
  | .error f => .failed f
  | .ok policy =>
    let limit := p.options.connectTimeout
    match now.add? limit with
    | none => .noDeadline
    | some deadline =>
      match p.endpoint.failure with
      | some f => .failed f
      | none =>
        match p.link policy {} with
        | .error f => .failed f
        | .ok l =>
          match p.endpoint with
          | .stream =>
            let (l, progress) := l.establish now p.setup limit deadline
            .under l progress
          | _ => .under l (.waiting (.dialling p.setup limit deadline))

end Plan

/-- How a client shows itself. -/
def Link.text (l : Link) : String :=
  "Client \x7b state: " ++ l.lifecycle.name ++ ", pending: " ++
    Nat.repr l.registry.pending.length ++ ", ceiling: " ++ Nat.repr l.registry.gate.ceiling ++
    ", .. \x7d"

end Switchboard
