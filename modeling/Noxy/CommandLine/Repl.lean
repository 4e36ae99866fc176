import Noxy.Eval
import Noxy.Text.Case
import Noxy.Text.Search

/-!
# The interactive loop

Lines are collected until they make a program, which is then executed in the machine that all
programs of the loop share.
-/

namespace Noxy

structure Repl where
  machine : Machine
  buffer : List String

/-- What follows after a line: another line is read, the loop ends, or it is left by a signal. -/
inductive Reply where
  | reading
  | ended
  | left (signal : Signal)

namespace Repl

def start (world : World) : Repl :=
  ⟨.start world ".", []⟩

def write (text : String) (repl : Repl) : Repl :=
  { repl with machine := { repl.machine with output := repl.machine.output ++ text } }

def banner : String :=
  "Noxy Interpreter v0.1.0\nDigite 'exit' ou Ctrl+C para sair.\n\n"

def prompt (repl : Repl) : String :=
  if repl.buffer.isEmpty then ">>> " else "... "

def isExit (line : String) : Bool :=
  Text.trim line.toList = "exit".toList

def isIncomplete (message : String) : Bool :=
  let characters := message.toList
  Text.occurs "esperado".toList (Text.toLower message).toList &&
    (Text.occurs "end".toList characters || Text.occurs ['\''] characters)

def execute (source : String) : Exec Unit := do
  let program ← Exec.ofExcept (Program.parse source)
  program.run standardFuel

def feed (repl : Repl) (line : String) : Repl × Reply :=
  if isExit line then
    (repl, .ended)
  else
    let buffer := repl.buffer ++ [line]
    match execute ("\n".intercalate buffer) repl.machine with
    | .ok () machine => (⟨machine, []⟩, .reading)
    | .error (.failure (.error error)) machine =>
      if isIncomplete error.message then
        (⟨machine, buffer⟩, .reading)
      else
        (write s!"Erro: {error.message}\n" ⟨machine, []⟩, .reading)
    | .error signal machine => (⟨machine, buffer⟩, .left signal)

def run (isInterrupted : Bool) (repl : Repl) : List String → Repl × Option Signal
  | [] =>
    let repl := repl.write repl.prompt
    (if isInterrupted then repl.write "\nSaindo...\n" else repl, none)
  | line :: rest =>
    match (repl.write repl.prompt).feed line with
    | (repl, .reading) => run isInterrupted repl rest
    | (repl, .ended) => (repl, none)
    | (repl, .left signal) => (repl, some signal)

end Repl

end Noxy
