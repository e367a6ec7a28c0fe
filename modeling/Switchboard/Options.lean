import Switchboard.Clock
import Switchboard.Gate
import Switchboard.Json.Shape

/-!
The settings of a client: how many requests may be in flight, what happens beyond that,
and how long to wait for the connection, for an answer, and for the end. The policy has
no default; a client without one is refused.
-/
namespace Switchboard

/-- The policies by name, as settings hold them. -/
def Policy.enumeration : Json.Enumeration Policy := ⟨[.block, .reject], Policy.name⟩

structure Options where
  limit : Nat := 1000
  policy : Option Policy := none
  connectTimeout : Duration := Duration.ofSeconds 30
  responseTimeout : Duration := Duration.ofSeconds 30
  closeTimeout : Duration := Duration.ofSeconds 5
deriving DecidableEq

namespace Options

/-- Why options cannot be used. -/
inductive Defect where
  | noPolicy
  | limitOutOfRange (limit : Nat)
  | noConnectTime
  | noResponseTime
deriving DecidableEq

namespace Defect

def message : Defect → String
  | noPolicy =>
    "Admission policy is required. Use .with_admission_policy() to choose " ++
      "AdmissionPolicy::Block or AdmissionPolicy::Reject."
  | limitOutOfRange n =>
    "Inflight limit must be between 1 and " ++ Nat.repr Gate.maxCeiling ++ ", got " ++ Nat.repr n
  | noConnectTime => "Connect timeout must be greater than zero"
  | noResponseTime => "Response timeout must be greater than zero"

end Defect

/-- The policy of usable options. The time for closing may be zero. -/
def validate (o : Options) : Except Defect Policy :=
  match o.policy with
  | none => .error .noPolicy
  | some p =>
    if o.limit = 0 ∨ Gate.maxCeiling < o.limit then .error (.limitOutOfRange o.limit)
    else if o.connectTimeout.isZero then .error .noConnectTime
    else if o.responseTimeout.isZero then .error .noResponseTime
    else .ok p

end Options

end Switchboard
