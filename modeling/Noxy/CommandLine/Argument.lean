import Noxy.Text.Digit
import Noxy.Text.Quoted

/-!
# The arguments of the command line

Every argument is classified before any is acted on.
-/

namespace Noxy

inductive Switch where
  | help
  | noTypecheck
  | debug
  deriving DecidableEq, Repr

namespace Switch

def all : List Switch :=
  [help, noTypecheck, debug]

def text : Switch → String
  | help => "--help"
  | noTypecheck => "--no-typecheck"
  | debug => "--debug"

def title : Switch → String
  | help => "-h/" ++ help.text
  | switch => switch.text

def startingWith (name : List Char) : List Switch :=
  all.filter fun switch => name.isPrefixOf switch.text.toList

end Switch

inductive UsageError where
  | ambiguous (argument : String) (candidates : List Switch)
  | ignoredValue (switch : Switch) (value : String)
  | unrecognized (arguments : List String)
  deriving DecidableEq, Repr

def UsageError.message : UsageError → String
  | ambiguous argument candidates =>
    s!"ambiguous option: {argument} could match " ++ ", ".intercalate (candidates.map Switch.text)
  | ignoredValue switch value =>
    s!"argument {switch.title}: ignored explicit argument " ++ Text.quoted value
  | unrecognized arguments => "unrecognized arguments: " ++ " ".intercalate arguments

/-- What an argument is: the name of a file, the divider after which no argument is an option, an
option with the value after its equals sign, the short option with what stands after it, or an
option that there is not. -/
inductive Argument where
  | word (text : String)
  | divider
  | option (switch : Switch) (value : Option String)
  | letters (rest : List Char)
  | unknown (text : String)
  deriving DecidableEq, Repr

namespace Argument

def dividerText : String :=
  "--"

def isNumber (text : List Char) : Bool :=
  let isDecimal := fun c => (Text.decimalValue? c).isSome
  let text := if text.getLast? = some '\n' then text.dropLast else text
  match text.dropWhile isDecimal with
  | [] => !text.isEmpty
  | '.' :: places => !places.isEmpty && places.all isDecimal
  | _ => false

def unnamed (argument : String) : Argument :=
  let characters := argument.toList
  if isNumber (characters.drop 1) || characters.contains ' ' then word argument
  else unknown argument

def classifyLong (argument : String) : Except UsageError Argument :=
  let characters := argument.toList
  let value := match characters.dropWhile (· ≠ '=') with
    | [] => none
    | _ :: value => some (String.ofList value)
  match Switch.startingWith (characters.takeWhile (· ≠ '=')) with
  | [] => .ok (unnamed argument)
  | [switch] => .ok (option switch value)
  | candidates => .error (.ambiguous argument candidates)

def classify (argument : String) : Except UsageError Argument :=
  match argument.toList with
  | '-' :: '-' :: _ => classifyLong argument
  | ['-', 'h'] => .ok (option .help none)
  | '-' :: 'h' :: '=' :: rest => .ok (letters rest)
  | '-' :: 'h' :: rest => .ok (letters rest)
  | '-' :: _ :: _ => .ok (unnamed argument)
  | _ => .ok (word argument)

def classifyAll : List String → Except UsageError (List Argument)
  | [] => .ok []
  | argument :: rest =>
    if argument = dividerText then .ok (divider :: rest.map word)
    else do
      let first ← classify argument
      let others ← classifyAll rest
      return first :: others

end Argument

end Noxy
