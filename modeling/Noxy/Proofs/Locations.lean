import Mathlib.Data.List.Induction
import Noxy.Proofs.LexicalErrors

/-!
# Where tokens stand

The place of a token is counted from the text before it.
-/

namespace Noxy

/-- The place where a text ends. -/
def Location.atEnd (file : String) (text : List Char) : Location :=
  ⟨1 + text.count '\n', 1 + (text.reverse.takeWhile (· ≠ '\n')).length, file⟩

def Location.Precedes (location later : Location) : Prop :=
  location.line < later.line ∨ location.line = later.line ∧ location.column < later.column

theorem Location.Precedes.trans {last : Location} (precedes : Precedes location later)
    (next : later.Precedes last) : location.Precedes last := by
  unfold Precedes at *
  omega

theorem Location.atEnd_eq (file : String) (text : List Char) :
    atEnd file text = (Position.start.after text).inFile file := by
  induction text using List.reverseRecOn with
  | nil => rfl
  | append_singleton text c ih =>
    have isNext : Position.start.after (text ++ [c]) = (Position.start.after text).next c :=
      List.foldl_append
    rw [isNext]
    by_cases isNewline : c = '\n' <;> simp_all [atEnd, Position.inFile, Position.next] <;> omega

theorem Location.precedes_after (file : String) (position : Position) (c : Char) (run : List Char) :
    (position.inFile file).Precedes ((position.after (c :: run)).inFile file) := by
  have isNext (position : Position) (c : Char) :
      (position.inFile file).Precedes ((position.next c).inFile file) := by
    by_cases isNewline : c = '\n' <;>
      simp [Precedes, Position.inFile, Position.next, isNewline]
  induction run generalizing position c with
  | nil => exact isNext position c
  | cons _ _ ih => exact (isNext position c).trans (ih _ _)

namespace Lexer

theorem exists_cons_counted (kind : Option TokenKind) :
    ∃ c more, counted kind (first :: run) = c :: more := by
  unfold counted
  split
  · unfold doubled
    split <;> simp_all
  · exact ⟨_, _, rfl⟩

theorem counted_eq (kind : Option TokenKind) (isPlain : ¬ ['\\', 'x'] <:+: text) :
    counted kind text = text := by
  unfold counted
  split
  · fun_induction doubled text <;> grind [List.infix_cons_iff]
  · rfl

/-- The rest of a text is divided into lexemes, and each token stands where that ends which is
counted of the text before it. -/
inductive Located (file : String) (count : Option TokenKind → List Char → List Char) :
    List Char → List Char → List Token → Prop where
  | ended : Located file count before [] [⟨.eof, .atEnd file before⟩]
  | next {read : Lexeme} (reads : lexeme file position first (run ++ read.rest) = .ok read)
      (others : Located file count (before ++ count read.kind (first :: run)) read.rest tokens) :
      Located file count before (first :: (run ++ read.rest))
        (read.tokens (.atEnd file before) ++ tokens)

theorem located_of_scan {count : Option TokenKind → List Char → List Char}
    (scans : scan file position chars = .ok tokens) :
    ∀ before, position = Position.start.after before →
      (∀ kind run, run <:+: chars → count kind run = counted kind run) →
      Located file count before chars tokens := by
  -- The position stays the one after what was counted of the text before it.
  refine scan_induction ?ended ?next scans
  case ended =>
    rintro _ before rfl _
    rw [← Location.atEnd_eq]
    exact .ended
  case next =>
    rintro _ first _ read _ reads ih before rfl counts
    obtain ⟨_, run, isRun, isNext⟩ := lexeme_takes reads
    cases isRun
    rw [← counts _ _ (List.prefix_append (first :: run) _).isInfix] at isNext
    rw [← Location.atEnd_eq]
    exact .next reads (ih _ (isNext.trans List.foldl_append.symm) fun kind _ inside =>
      counts kind _ (inside.trans (List.suffix_append (first :: run) _).isInfix))

theorem increasing_of_scan (scans : scan file position chars = .ok tokens) :
    tokens.Pairwise (fun token later => token.location.Precedes later.location) ∧
      ∀ token ∈ tokens, token.location = position.inFile file ∨
        (position.inFile file).Precedes token.location := by
  refine scan_induction (fun _ => by simp) ?_ scans
  intro position _ _ read tokens reads ih
  have later : ∀ token ∈ tokens, (position.inFile file).Precedes token.location := by
    obtain ⟨_, _, _, isNext⟩ := lexeme_takes reads
    obtain ⟨c, more, isCounted⟩ := exists_cons_counted read.kind
    rw [isNext, isCounted] at ih
    have precedes := Location.precedes_after file position c more
    grind [Location.Precedes.trans]
  unfold Lexeme.tokens
  cases read.kind <;> grind

end Lexer

/-- Each token stands where the text before it ends, and the end where the whole text does, but the
second digit of a hexadecimal escape in a bytes literal is counted twice.  Places always increase.
-/
theorem tokens_located (tokenized : tokenize source file = .ok tokens) :
    Lexer.Located file Lexer.counted [] source.toList tokens ∧
      (¬ ['\\', 'x'] <:+: source.toList →
        Lexer.Located file (fun _ text => text) [] source.toList tokens) ∧
      tokens.Pairwise fun token later => token.location.Precedes later.location := by
  refine ⟨Lexer.located_of_scan tokenized [] rfl fun _ _ _ => rfl, fun isPlain => ?_,
    (Lexer.increasing_of_scan tokenized).1⟩
  exact Lexer.located_of_scan tokenized [] rfl fun kind _ inside =>
    (Lexer.counted_eq kind fun escapes => isPlain (escapes.trans inside)).symm

theorem tokens_located_two_lines :
    ¬ ['\\', 'x'] <:+: "a\n b".toList ∧
      Lexer.Located standardInput (fun _ text => text) [] "a\n b".toList
        [⟨.identifier "a", 1, 1, standardInput⟩, ⟨.newline, 1, 2, standardInput⟩,
          ⟨.identifier "b", 2, 2, standardInput⟩, ⟨.eof, 2, 3, standardInput⟩] := by
  have isPlain : ¬ ['\\', 'x'] <:+: "a\n b".toList := by decide
  exact ⟨isPlain, (tokens_located (by decide +kernel)).2.1 isPlain⟩

/-- The second digit of a hexadecimal escape is counted twice. -/
theorem hexadecimal_escape_shifts :
    tokenize "b'\\x41'" =
        .ok [⟨.bytes [0x41, 0x31], 1, 1, standardInput⟩, ⟨.eof, 1, 9, standardInput⟩] ∧
      Location.atEnd standardInput "b'\\x41'".toList = ⟨1, 8, standardInput⟩ := by
  constructor <;> decide +kernel

end Noxy
