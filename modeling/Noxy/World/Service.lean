import Noxy.Sql.Statement
import Noxy.World.Disk

/-!
# Services

What the system does for a program: it executes command lines, carries what is sent to other
programs, and knows the language of databases.  Any functions will do.
-/

namespace Noxy

/-- What is left when a command line has been executed. -/
structure Executed where
  status : Nat
  output : List UInt8
  errors : List UInt8
  disk : Disk

/-- The answers of a network, by the number of the request.  A refused request says why. -/
structure Network where
  listens : Nat → String → Nat → Except String Unit
  accepts : Nat → Nat → Except String (String × Nat)
  connects : Nat → String → Nat → Except String Unit
  receives : Nat → Nat → Nat → Except String (List UInt8)
  sends : Nat → Nat → List UInt8 → Except String Nat

/-- Sockets listen on the machine itself, and nobody is there. -/
def Network.silent : Network where
  listens _ host _ :=
    if ["127.0.0.1", "localhost", "0.0.0.0", ""].contains host then .ok ()
    else .error "[Errno -2] Name or service not known"
  accepts _ _ := .error "[Errno 11] Resource temporarily unavailable"
  connects _ _ _ := .error "[Errno 111] Connection refused"
  receives _ _ size :=
    if size = 0 then .ok [] else .error "[Errno 107] Transport endpoint is not connected"
  sends _ _ _ := .error "[Errno 32] Broken pipe"

structure Services where
  shell : Path → List (String × String) → Disk → String → Executed
  network : Network
  grammar : String → Except Sql.SyntaxError Sql.Statement

/-- There is no shell. -/
def Services.local : Services where
  shell _ _ disk line := ⟨127, [], Text.Utf8.encode (line ++ ": not found\n"), disk⟩
  network := .silent
  grammar := Sql.Statement.parse

end Noxy
