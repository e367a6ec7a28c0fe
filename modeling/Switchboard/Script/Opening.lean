import Switchboard.Script.Run

/-!
How scripted sessions begin: with a registry of its own, with a link, or with a client
that connects.
-/
namespace Switchboard

/-- How a link is set up. -/
structure LinkPlan where
  limit : Nat
  policy : Policy
  closeTimeout : Duration := Duration.ofSeconds 5
  codec : Codec := Codec.json
  endpoint : Endpoint := .stream

inductive Opening where
  | registry (limit : Nat) (policy : Policy)
  | link (p : LinkPlan)
  | client (p : Plan)

namespace Opening

/-- The session of a registry. -/
def openRegistry (limit : Nat) (policy : Policy) : Session × Result :=
  match Registry.make limit policy with
  | .error f => (Session.void .registry false, .answer (.failed f))
  | .ok r =>
    (Session.hold { subject := .registry, link := Link.bare r } (Session.firstName .registry),
      .made)

/-- The session of a link. A socket takes a moment to be connected. -/
def openLink (p : LinkPlan) : Session × Result :=
  match Registry.make p.limit p.policy with
  | .error f => (Session.void .link false, .answer (.failed f))
  | .ok r =>
    match p.endpoint.failure with
    | some f => (Session.void .link false, .answer (.failed f))
    | none =>
      let l : Link := { registry := r, codec := p.codec, closeTimeout := p.closeTimeout }
      let s : Session := { subject := .link, link := l }
      s.begin (Session.firstName .link)
        (l, match p.endpoint with
          | .stream => .finished .linked
          | _ => .waiting .linking)

/-- The session of a client, unless the time at which to give up is out of reach. -/
def openClient (p : Plan) : Option (Session × Result) :=
  match p.attempt ⟨0⟩ with
  | .noDeadline => none
  | .failed f =>
    let peer := match p.endpoint with
      | .stream => true
      | _ => false
    some (Session.void .client peer, .answer (.failed f))
  | .under l progress =>
    let s : Session :=
      { subject := .client, link := l, responseTimeout := p.options.responseTimeout }
    some (s.begin (Session.firstName .client) (l, progress))

def start : Opening → Option (Session × Result)
  | registry limit policy => some (openRegistry limit policy)
  | link p => some (openLink p)
  | client p => openClient p

end Opening

/-- The reports of a session from its opening on. There are none if the opening asks for
a time that the clock cannot hold. -/
def runScript (o : Opening) (steps : List Step) : Option (List Report) :=
  o.start.map fun (s, result) =>
    let (s, first) := s.reportFirst result
    first :: s.run steps

end Switchboard
