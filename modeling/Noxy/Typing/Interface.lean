import Noxy.Bindings
import Noxy.Modules
import Noxy.Program.Parser
import Noxy.Program.Stmt

/-!
# Interfaces of modules

What the checker knows of a module: its functions, its structs, and the types of its global
variables and of the modules inside it.
-/

namespace Noxy

inductive Member where
  | function (function : Function)
  | struct (struct : Struct)
  | global (type : Ty)

structure Interface where
  name : String
  members : List (String × Member)

def Stmt.member? : Stmt → Option (String × Member)
  | .function name params returns body location =>
    some (name, .function ⟨name, params, returns, body, location⟩)
  | .struct name fields location => some (name, .struct ⟨name, fields, location⟩)
  | .globalVar name type _ _ => some (name, .global type)
  | _ => none

namespace Interface

def membersOf (program : Program) : List (String × Member) :=
  (program.filterMap Stmt.member?).foldl
    (fun members (name, member) => Bindings.put name member members) []

def program (disk : Disk) (path : String) (content : Nat) : Except Failure Program :=
  match Modules.sourceText disk content with
  | .error error => .error (.fault (.encoding error.message))
  | .ok source => Program.parse source path

mutual

def load (disk : Disk) : Nat → Path → String → String → Array Interface →
    Except Failure (Nat × Array Interface)
  | 0, _, _, _, _ => .error .exhausted
  | fuel + 1, place, path, name, known =>
    match disk.node? place with
    | some (.file content) => do
      let program ← program disk path content
      return (known.size, known.push ⟨name, membersOf program⟩)
    | some .directory => do
      let (members, known) ←
        loadMembers disk fuel place path (Modules.members disk place) [] known
      return (known.size, known.push ⟨name, members⟩)
    | none => .ok (known.size, known.push ⟨name, []⟩)

def loadMembers (disk : Disk) : Nat → Path → String → List (String × String) →
    List (String × Member) → Array Interface →
    Except Failure (List (String × Member) × Array Interface)
  | 0, _, _, _, _, _ => .error .exhausted
  | _ + 1, _, _, [], members, known => .ok (members, known)
  | fuel + 1, place, path, (name, file) :: rest, members, known => do
    let (number, known) ← load disk fuel (place ++ [file]) (Modules.join path file) name known
    loadMembers disk fuel place path rest
      (Bindings.put name (.global (.imported name number)) members) known

end

end Interface

end Noxy
