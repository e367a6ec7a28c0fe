/-!
The lifecycle of a connection. It starts out connecting, serves requests while
ready, lets the pending ones finish while closing, and ends closed.
-/
namespace Switchboard

inductive Lifecycle where
  | connecting
  | ready
  | closing
  | closed
deriving DecidableEq

namespace Lifecycle

def all : List Lifecycle := [connecting, ready, closing, closed]

def name : Lifecycle → String
  | connecting => "Connecting"
  | ready => "Ready"
  | closing => "Closing"
  | closed => "Closed"

def ofName? (s : String) : Option Lifecycle := all.find? fun l => l.name = s

def isReady (l : Lifecycle) : Bool := decide (l = ready)

/-- Closing and closed connections take no new requests for good. -/
def isShuttingDown (l : Lifecycle) : Bool := decide (l = closing ∨ l = closed)

def isClosed (l : Lifecycle) : Bool := decide (l = closed)

theorem ofName?_name (l : Lifecycle) : ofName? l.name = some l := by
  cases l <;> decide

end Lifecycle

/-- One change of the lifecycle, as it is logged. -/
structure Move where
  source : Lifecycle
  target : Lifecycle
deriving DecidableEq

def Move.text (m : Move) : String := m.source.name ++ ">" ++ m.target.name

end Switchboard
