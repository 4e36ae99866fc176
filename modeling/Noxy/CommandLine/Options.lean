import Noxy.CommandLine.Argument
import Noxy.Session

/-!
# The options of a command line

A command line asks for a file, of which there is at most one, and for options.
-/

namespace Noxy

structure Options where
  file : Option String
  settings : Settings
  isHelp : Bool
  deriving DecidableEq, Repr

namespace Options

def standard : Options :=
  ⟨none, ⟨true, false⟩, false⟩

def add (options : Options) : Switch → Options
  | .noTypecheck => { options with settings := { options.settings with isChecked := false } }
  | .debug => { options with settings := { options.settings with isTraced := true } }
  | .help => { options with isHelp := true }

def addLetters (options : Options) (rest : List Char) : Except UsageError Options :=
  match rest.dropWhile (· = 'h') with
  | [] => if rest.isEmpty then .error (.ignoredValue .help "") else .ok (options.add .help)
  | value => .error (.ignoredValue .help (String.ofList value))

def readFrom (options : Options) (unrecognized : List String) :
    List Argument → Except UsageError Options
  | [] => if unrecognized.isEmpty then .ok options else .error (.unrecognized unrecognized)
  | .option .help none :: _ => .ok (options.add .help)
  | .option switch none :: rest => readFrom (options.add switch) unrecognized rest
  | .option switch (some value) :: _ => .error (.ignoredValue switch value)
  | .letters letters :: _ => options.addLetters letters
  | .unknown text :: rest => readFrom options (unrecognized ++ [text]) rest
  | .word text :: .divider :: rest =>
    if options.file.isNone then readFrom { options with file := some text } unrecognized rest
    else readFrom options (unrecognized ++ [text, Argument.dividerText]) rest
  | .word text :: rest =>
    if options.file.isNone then readFrom { options with file := some text } unrecognized rest
    else readFrom options (unrecognized ++ [text]) rest
  | .divider :: rest =>
    if options.file.isNone then readFrom options unrecognized rest
    else readFrom options (unrecognized ++ [Argument.dividerText]) rest

def parse (arguments : List String) : Except UsageError Options := do
  let arguments ← Argument.classifyAll arguments
  readFrom standard [] arguments

def usage (program : String) : String :=
  s!"usage: {program} [-h] [--no-typecheck] [--debug] [file]\n"

end Options

end Noxy
