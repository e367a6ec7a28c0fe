import Switchboard.Failure

/-!
Where a link leads: to a stream that is open already, or to a socket that is found by its
path. Sockets are refused in the words of the operating system.
-/
namespace Switchboard

inductive Endpoint where
  /-- A stream that is open already. -/
  | stream
  /-- A socket on which the peer listens. -/
  | socket
  /-- A socket on which nobody listens. -/
  | deserted
  /-- A path at which nobody listens. -/
  | path (p : String)
  /-- No endpoint was given. -/
  | missing

namespace Endpoint

/-- The longest path of a socket is a byte shorter than this. -/
def pathLimit : Nat := 108

def refused : Failure := .io "Connection refused (os error 111)"

def notFound : Failure := .io "No such file or directory (os error 2)"

def notDirectory : Failure := .io "Not a directory (os error 20)"

/-- Directories that every system has, by the names on the way to them. -/
def directories : List (List String) :=
  [[], ["bin"], ["dev"], ["etc"], ["home"], ["lib"], ["proc"], ["root"], ["run"], ["sys"],
    ["tmp"], ["usr"], ["usr", "bin"], ["usr", "lib"], ["var"], ["var", "tmp"]]

/-- Files that every system has and that are not sockets. -/
def files : List (List String) :=
  [["dev", "full"], ["dev", "null"], ["dev", "random"], ["dev", "tty"], ["dev", "urandom"],
    ["dev", "zero"], ["etc", "group"], ["etc", "hosts"], ["etc", "passwd"]]

/-- Follows the names of a path from a directory. Nothing is known of the directory in
which the program runs but that it is there, and so are those above it. -/
def walk (dir : List String) : List String → Failure
  | [] => refused
  | name :: rest =>
    if name = "" ∨ name = "." then walk dir rest
    else if name = ".." then walk dir.dropLast rest
    else if dir ++ [name] ∈ directories then walk (dir ++ [name]) rest
    else if dir ++ [name] ∈ files then (if rest.isEmpty then refused else notDirectory)
    else notFound

/-- The failure of a path that names no socket anybody listens on. -/
def lookUp (p : String) : Failure :=
  if p.toList.head? = some '/' then walk [] (p.splitOn "/")
  else if (p.splitOn "/").all fun n => n = "" ∨ n = "." ∨ n = ".." then refused
  else notFound

/-- Why nobody is reached at a path. A path that starts with the zero byte names a socket
outside the file system. -/
def pathFailure (p : String) : Failure :=
  if p.toList.head? = some '\x00' then
    if pathLimit < p.utf8ByteSize then
      .io "abstract socket name must be shorter than SUN_LEN"
    else refused
  else if '\x00' ∈ p.toList then .io "paths must not contain interior null bytes"
  else if pathLimit ≤ p.utf8ByteSize then .io "path must be shorter than SUN_LEN"
  else if p = "" then .io "Invalid argument (os error 22)"
  else lookUp p

/-- Why no stream can be had, if so. -/
def failure : Endpoint → Option Failure
  | stream => none
  | socket => none
  | deserted => some refused
  | path p => some (pathFailure p)
  | missing => none

/-- What a client has to say about its endpoint before it tries it. -/
def complaint : Endpoint → Option Failure
  | missing =>
    some (.config ("Endpoint is required. Use .endpoint() to set it.\n" ++
      "Example: Client::builder().endpoint(\"/tmp/companion.sock\")"))
  | path p => if p = "" then some (.config "Endpoint path must not be empty") else none
  | _ => none

end Endpoint

end Switchboard
