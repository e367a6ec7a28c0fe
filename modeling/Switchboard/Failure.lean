import Switchboard.Lifecycle
import Switchboard.RequestId

/-!
What can go wrong with a request or with the connection as a whole, the wording of
each failure, and the classes into which callers sort them.
-/
namespace Switchboard

/-- How the peer classifies a request that it could not serve. -/
inductive ErrorKind where
  | unspecified
  | execAbort
  | timeout
  | disconnect
deriving DecidableEq

namespace ErrorKind

/-- The name shown to people. -/
def label : ErrorKind → String
  | unspecified => "Unspecified"
  | execAbort => "ExecAbort"
  | timeout => "Timeout"
  | disconnect => "Disconnect"

end ErrorKind

inductive Failure where
  /-- The caller's settings are unusable. -/
  | config (message : String)
  /-- Every slot is taken. -/
  | admissionRejected (inflight ceiling : Nat)
  /-- The connection is not yet, or no longer, open for requests. -/
  | notReady (state : Lifecycle)
  | handshakeFailed (message : String)
  /-- The connection is closing or closed. -/
  | closing (message : String)
  | connectionTimeout (millis : Nat)
  /-- A frame could not be understood. -/
  | decode (message : String)
  /-- A payload could not be written. -/
  | encode (message : String)
  /-- The peer refused the request. -/
  | request (kind : ErrorKind) (message : String)
  /-- Nobody answered within the caller's limit. -/
  | responseTimeout (id : RequestId) (millis : Nat)
  /-- The byte stream failed. -/
  | io (message : String)
deriving DecidableEq

namespace Failure

def message : Failure → String
  | config m => "Configuration error: " ++ m
  | admissionRejected i c =>
    "Admission rejected: " ++ Nat.repr i ++ "/" ++ Nat.repr c ++ " requests in flight"
  | notReady s => "Connection not ready: " ++ s.name
  | handshakeFailed m => "Handshake failed: " ++ m
  | closing m => "Connection closed: " ++ m
  | connectionTimeout t => "Connection timeout after " ++ Nat.repr t ++ "ms"
  | decode m => "Decode error: " ++ m
  | encode m => "Encode error: " ++ m
  | request k m => "Request failed (" ++ k.label ++ "): " ++ m
  | responseTimeout i t => "Request " ++ i.text ++ " timed out after " ++ Nat.repr t ++ "ms"
  | io m => "IO error: " ++ m

/-- Somebody waited too long: a caller, or the peer on a caller's behalf. -/
def isTimeout : Failure → Bool
  | connectionTimeout _ => true
  | responseTimeout _ _ => true
  | request .timeout _ => true
  | _ => false

/-- The connection as a whole is affected. -/
def isConnectionError : Failure → Bool
  | handshakeFailed _ => true
  | closing _ => true
  | connectionTimeout _ => true
  | decode _ => true
  | io _ => true
  | _ => false

def isClosing : Failure → Bool
  | closing _ => true
  | _ => false

/-- The same request may succeed later on the same connection. -/
def isRecoverable : Failure → Bool
  | admissionRejected _ _ => true
  | responseTimeout _ _ => true
  | request .timeout _ => true
  | request .disconnect _ => true
  | _ => false

theorem isConnectionError_of_isClosing {f : Failure} (h : f.isClosing = true) :
    f.isConnectionError = true := by
  cases f <;> simp_all [isClosing, isConnectionError]

end Failure

end Switchboard
