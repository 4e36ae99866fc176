/-!
# Places in source text

A location names a file, a line and a column, both counted from one.
-/

namespace Noxy

structure Position where
  line : Nat
  column : Nat
  deriving DecidableEq, Repr

def Position.start : Position :=
  ⟨1, 1⟩

def Position.next (position : Position) (c : Char) : Position :=
  if c = '\n' then ⟨position.line + 1, 1⟩ else ⟨position.line, position.column + 1⟩

def Position.back (position : Position) : Position :=
  { position with column := position.column - 1 }

def Position.after (position : Position) (chars : List Char) : Position :=
  chars.foldl Position.next position

structure Location where
  line : Nat
  column : Nat
  file : String
  deriving DecidableEq, Repr

def Position.inFile (position : Position) (file : String) : Location :=
  ⟨position.line, position.column, file⟩

def standardInput : String :=
  "<stdin>"

def Location.text (location : Location) : String :=
  let line := toString location.line
  let column := toString location.column
  s!"{location.file}:{line}:{column}"

end Noxy
