import Noxy.Eval
import Noxy.Typing.Stmt

/-!
# Sessions

A session runs programs one after another with one checker and one machine, so that each program
finds what those before it have declared.
-/

namespace Noxy

inductive Phase where
  | lexing
  | parsing
  | checking
  | running
  deriving DecidableEq, Repr

structure Settings where
  isChecked : Bool
  isTraced : Bool
  deriving DecidableEq, Repr

structure Session where
  checker : Checker
  machine : Machine

abbrev Step :=
  EStateM (Phase × Signal) Session

namespace Session

def start (world : World) (basePath : String) : Session :=
  ⟨.fresh, .start world basePath⟩

def fail (phase : Phase) (failure : Failure) : Step α :=
  throw (phase, .failure failure)

def ofExcept (phase : Phase) : Except Failure α → Step α
  | .ok value => pure value
  | .error failure => fail phase failure

def report (settings : Settings) (lines : List String) : Step Unit :=
  if settings.isTraced then
    modify fun session =>
      let text := String.join (lines.map fun line => line ++ "\n")
      { session with machine := { session.machine with output := session.machine.output ++ text } }
  else
    pure ()

def check (program : Program) : Step Unit := fun session =>
  match program.check session.machine.world session.machine.basePath session.checker with
  | .ok () checker => .ok () { session with checker := checker }
  | .error failure checker =>
    .error (.checking, .failure failure) { session with checker := checker }

def execute (program : Program) : Step Unit := fun session =>
  let checker := session.checker
  match program.run standardFuel session.machine with
  | .ok () machine => .ok () ⟨checker, machine⟩
  | .error signal machine => .error (.running, signal) ⟨checker, machine⟩

def run (settings : Settings) (source : String) (file : String := standardInput) : Step Unit := do
  report settings ["=== Tokenização ==="]
  let tokens ← ofExcept .lexing (tokenize source file)
  report settings (tokens.map (fun token => "  " ++ token.listing) ++ [""])
  report settings ["=== Parsing ==="]
  let program ← ofExcept .parsing (Program.ofTokens tokens)
  report settings [s!"  {program.length} statements", ""]
  if settings.isChecked then
    report settings ["=== Type Checking ==="]
    check program
    report settings ["  OK", ""]
  report settings ["=== Execução ==="]
  execute program

end Session

end Noxy
