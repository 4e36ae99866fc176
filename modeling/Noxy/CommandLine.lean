import Noxy.CommandLine.Options
import Noxy.CommandLine.Repl

/-!
# The command line

With the name of a file the program in it is run; without one the interactive loop starts.
-/

namespace Noxy

inductive Ending where
  | finished
  | exited (code : Value)
  | left (signal : Signal)

/-- What a run leaves: what it wrote to the output and to the error output, how it ended, and the
machine afterwards. -/
structure Outcome where
  machine : Machine
  errors : String
  ending : Ending

namespace CommandLine

def endingOf : Signal → Ending
  | .exit code => .exited code
  | signal => .left signal

def complaint : Signal → String
  | .failure (.error error) => s!"Erro: {error.message}\n"
  | .failure failure => s!"Erro interno: {failure.message}\n"
  | _ => "Erro interno: \n"

def runFile (settings : Settings) (world : World) (file : String) : Outcome :=
  let left fault : Outcome := ⟨.start world ".", "", .left (.failure (.fault fault))⟩
  let place := Disk.pathText (Disk.normalize world.workingDirectory file)
  let warning := if (Modules.splitExtension (Modules.lastName place)).2 = Modules.extension then ""
    else s!"Aviso: Arquivo não tem extensão .nx: {file}\n"
  let found := if file.contains (Char.ofNat 0) then .error .nullCharacter
    else world.disk.find [] place
  match found with
  | .ok (path, .file content) =>
    let directory := Disk.pathText path.dropLast
    let session := Session.start world directory
    match Modules.sourceText world.disk content with
    | .error error =>
      ⟨session.machine, warning, .left (.failure (.fault (.encoding error.message)))⟩
    | .ok source =>
      match Session.run settings source (Disk.pathText path) session with
      | .ok () session => ⟨session.machine, warning, .finished⟩
      | .error (_, .exit code) session => ⟨session.machine, warning, .exited code⟩
      | .error (_, signal) session =>
        ⟨session.machine, warning ++ complaint signal, .exited (.int 1)⟩
  | .ok (_, .directory) =>
    let fault := Fault.directory (DiskError.isDirectory.message (Text.quoted place))
    { left fault with errors := warning }
  | .error .nullCharacter => left (.value (DiskError.nullCharacter.message place))
  | .error .tooLong => left (.system (DiskError.tooLong.message (Text.quoted place)))
  | .error _ => ⟨.start world ".", s!"Erro: Arquivo não encontrado: {file}\n", .exited (.int 1)⟩

def runRepl (world : World) (lines : List String) (isInterrupted : Bool) : Outcome :=
  let (repl, signal) := Repl.run isInterrupted ((Repl.start world).write Repl.banner) lines
  ⟨repl.machine, "", (signal.map endingOf).getD .finished⟩

def run (world : World) (lines : List String) (isInterrupted : Bool) : Outcome :=
  let program := Modules.lastName (world.arguments.head?.getD "")
  match Options.parse world.arguments.tail with
  | .error error =>
    ⟨.start world ".", Options.usage program ++ s!"{program}: error: {error.message}\n",
      .exited (.int 2)⟩
  | .ok options =>
    if options.isHelp then
      let machine := Machine.start world "."
      ⟨{ machine with output := Options.usage program }, "", .exited (.int 0)⟩
    else
      match options.file.filter (· ≠ "") with
      | some file => runFile options.settings world file
      | none => runRepl world lines isInterrupted

end CommandLine

end Noxy
