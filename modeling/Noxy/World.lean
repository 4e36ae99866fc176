import Noxy.Sql.Engine
import Noxy.World.File
import Noxy.World.Service

/-!
# The world around a program

What programs can reach outside their own memory: files and directories, sockets, databases, the
variables and arguments they are started with, a clock, and the services of the system.
-/

namespace Noxy

structure Socket where
  blocking : Bool

structure World where
  disk : Disk
  workingDirectory : Path
  library : Path
  files : Handles OpenFile
  sockets : Handles Socket
  databases : Sql.Engine
  environment : List (String × String)
  arguments : List String
  clock : Nat
  services : Services
  /-- How often something was asked of the network. -/
  requests : Nat

namespace World

def start (disk : Disk) (workingDirectory library : Path) (arguments : List String)
    (clock : Nat) : World :=
  { disk := disk
    workingDirectory := workingDirectory
    library := library
    files := .startingAt 3
    sockets := .startingAt 1000
    databases := .empty
    environment := []
    arguments := arguments
    clock := clock
    services := .local
    requests := 0 }

def without (world : World) (path : Path) : World :=
  if world.workingDirectory = path then { world with workingDirectory := Disk.removedPath path }
  else world

end World

end Noxy
