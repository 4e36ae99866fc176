import Mathlib.Tactic.SplitIfs
import Noxy.Proofs.Places

/-!
# The name of a file does not matter to its program

Places carry the name under which their file was read.
-/

namespace Noxy

/-- A place without the name of its file. -/
def Location.unfiled (location : Location) : Location :=
  { location with file := standardInput }

abbrev Token.unfiled : Token → Token :=
  Token.moved Location.unfiled

abbrev Stmt.unfiled : Stmt → Stmt :=
  Stmt.moved Location.unfiled

abbrev Stmt.listUnfiled : List Stmt → List Stmt :=
  Stmt.listMoved Location.unfiled

def Function.unfiled (function : Function) : Function :=
  { function with
    body := Stmt.listUnfiled function.body
    location := function.location.unfiled }

def Struct.unfiled (struct : Struct) : Struct :=
  { struct with location := struct.location.unfiled }

/-! ### Splitting a text into tokens -/

namespace Lexer

variable {read : Lexeme}

theorem stringBody_file (reads : stringBody file done position chars = .ok read) :
    stringBody other done position chars = .ok read := by
  fun_induction stringBody file done position chars <;> grind [stringBody]

theorem templateBody_file (reads : templateBody file pieces mode position chars = .ok read) :
    templateBody other pieces mode position chars = .ok read := by
  fun_induction templateBody file pieces mode position chars <;> unfold templateBody <;> grind

theorem bytesBody_file (reads : bytesBody file quote done position chars = .ok read) :
    bytesBody other quote done position chars = .ok read := by
  fun_induction bytesBody file quote done position chars <;> grind [bytesBody]

theorem lexeme_file (reads : lexeme file position first rest = .ok read) :
    lexeme other position first rest = .ok read := by
  unfold lexeme at reads ⊢
  split_ifs at reads ⊢
  · exact reads
  · exact reads
  · exact reads
  · exact reads
  · exact stringBody_file reads
  · unfold nameLexeme at reads ⊢
    split at reads
    · exact templateBody_file reads
    · exact bytesBody_file reads
    · exact bytesBody_file reads
    · exact reads
  · unfold symbolLexeme at reads ⊢
    split at reads
    · exact reads
    · cases reads

theorem scan_unfiled (scans : scan file position chars = .ok tokens) :
    scan standardInput position chars = .ok (tokens.map Token.unfiled) := by
  refine scan_induction ?ended ?next scans
  case ended =>
    intro _
    rw [scan]
    rfl
  case next =>
    intro _ _ _ read _ reads scanned
    rw [scan_cons (lexeme_file reads) scanned, List.map_append, Lexeme.tokens, Lexeme.tokens]
    cases read.kind <;> rfl

end Lexer

theorem Parser.map_unfiled_of_tokenize (tokenized : tokenize source = .ok tokens) :
    tokens.map Token.unfiled = tokens :=
  Except.ok.inj ((Lexer.scan_unfiled tokenized).symm.trans tokenized)

end Noxy
