import Noxy.Builtin.Database
import Noxy.Builtin.Net
import Noxy.Builtin.Strings
import Noxy.Builtin.System
import Noxy.Builtin.Time

/-!
# The table of builtin functions
-/

namespace Noxy.Builtin

def all : List Builtin :=
  conversions ++ collections ++ files ++ net ++ system ++ strings ++ databases ++ time

def find? (name : String) : Option Builtin :=
  all.find? fun builtin => builtin.name = name

end Noxy.Builtin
