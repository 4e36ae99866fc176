import Noxy.Proofs.TokenSize

/-!
# How the reading of a text ends

Most errors of a text are lexical ones and have a place.  The others come from numbers and bytes.
-/

namespace Noxy

namespace Lexer

/-- What keeps the text from being read: digits that are no number, a character of a bytes literal
that is no byte, or a bytes literal that ends within an escape. -/
inductive Unconvertible (chars : List Char) : Fault → Prop where
  | int (isPart : digits <:+: chars) (areDigits : ∀ c ∈ digits, Text.isDigit c = true)
      (fails : Number.readInt 10 digits = .error cause) : Unconvertible chars (.value message)
  | float (isPart : whole ++ '.' :: decimals <:+: chars)
      (areDigits : ∀ c ∈ whole ++ decimals, Text.isDigit c = true)
      (fails : Number.readFloat? (whole ++ '.' :: decimals) = none) :
      Unconvertible chars (.value message)
  | byte (isQuote : quote = '"' ∨ quote = '\'') (isPart : 'b' :: quote :: (body ++ [c]) <:+: chars)
      (large : 256 ≤ c.toNat) : Unconvertible chars (.value "byte must be in range(0, 256)")
  | escape (isQuote : quote = '"' ∨ quote = '\'')
      (isEnd : 'b' :: quote :: (body ++ ['\\']) <:+ chars) :
      Unconvertible chars (.kind "ord() expected string of length 1, but NoneType found")

/-- The causes for which a text is not read. -/
inductive Rejects (chars : List Char) : Failure → Prop where
  | lexical (cause : LexicalCause) (location : Location) :
      Rejects chars (.error (.lexical cause location))
  | fault (unconvertible : Unconvertible chars fault) : Rejects chars (.fault fault)

theorem Rejects.of_suffix (rejects : Rejects rest cause) (isSuffix : rest <:+ chars) :
    Rejects chars cause := by
  cases rejects with
  | lexical => exact .lexical _ _
  | fault unconvertible =>
    refine .fault ?_
    cases unconvertible with
    | int isPart areDigits fails => exact .int (isPart.trans isSuffix.isInfix) areDigits fails
    | float isPart areDigits fails => exact .float (isPart.trans isSuffix.isInfix) areDigits fails
    | byte isQuote isPart large => exact .byte isQuote (isPart.trans isSuffix.isInfix) large
    | escape isQuote isEnd => exact .escape isQuote (isEnd.trans isSuffix)

theorem stringBody_rejects (failed : stringBody file done position chars = .error cause)
    (whole : List Char) : Rejects whole cause := by
  fun_induction stringBody file done position chars <;> grind [Rejects]

theorem templateBody_rejects
    (failed : templateBody file pieces mode position chars = .error cause) (whole : List Char) :
    Rejects whole cause := by
  fun_induction templateBody file pieces mode position chars <;> grind [Rejects]

theorem byteOfChar_unescape (failed : byteOfChar (unescape c) = .error cause) :
    byteOfChar c = .error cause := by
  unfold unescape at failed
  split at failed
  case h_4 => exact failed
  all_goals cases failed

theorem rejects_byteOfChar (failed : byteOfChar c = .error cause)
    (isQuote : quote = '"' ∨ quote = '\'') (body rest : List Char) :
    Rejects ('b' :: quote :: (body ++ c :: rest)) cause := by
  have isPart : 'b' :: quote :: (body ++ [c]) <:+: 'b' :: quote :: (body ++ c :: rest) :=
    ⟨[], rest, by simp⟩
  unfold byteOfChar at failed
  split at failed
  · cases failed
  · next small =>
    cases failed
    exact .fault (.byte isQuote isPart (Nat.le_of_not_lt small))

-- The part of the literal that is read already stands in front.
theorem bytesBody_rejects (failed : bytesBody file quote done position chars = .error cause)
    (isQuote : quote = '"' ∨ quote = '\'') (body : List Char) :
    Rejects ('b' :: quote :: (body ++ chars)) cause := by
  fun_induction bytesBody file quote done position chars generalizing body with
  | case1 | case4 | case6 | case8 | case11 =>
    cases failed
    exact .lexical _ _
  | case2 => cases failed
  | case3 =>
    cases failed
    exact .fault (.escape isQuote List.suffix_rfl)
  | case5 _ _ high _ _ _ _ _ ih | case7 _ _ high _ _ _ _ _ _ _ ih =>
    simpa using ih failed (body ++ ['\\', 'x', high])
  | case9 _ _ escape _ _ _ _ _ _ _ _ ih => simpa using ih failed (body ++ ['\\', escape])
  | case12 _ _ c _ _ _ _ _ _ ih => simpa using ih failed (body ++ [c])
  | case10 _ _ _ _ _ _ _ _ fails =>
    cases failed
    simpa using rejects_byteOfChar (byteOfChar_unescape fails) isQuote (body ++ ['\\']) _
  | case13 _ _ _ _ _ _ _ _ fails =>
    cases failed
    exact rejects_byteOfChar fails isQuote body _

theorem intValue_rejects (failed : intValue digits = .error cause)
    (isPart : digits <:+: chars) (areDigits : ∀ c ∈ digits, Text.isDigit c = true) :
    Rejects chars cause := by
  unfold intValue at failed
  split at failed
  · cases failed
  all_goals
    next fails =>
    cases failed
    exact .fault (.int isPart areDigits fails)

theorem floatValue_rejects (failed : floatValue (whole ++ '.' :: decimals) = .error cause)
    (isPart : whole ++ '.' :: decimals <:+: chars)
    (areDigits : ∀ c ∈ whole ++ decimals, Text.isDigit c = true) : Rejects chars cause := by
  unfold floatValue at failed
  split at failed
  · cases failed
  · next fails =>
    cases failed
    exact .fault (.float isPart areDigits fails)

theorem numberLexeme_rejects (failed : numberLexeme position first rest = .error cause)
    (isDigit : Text.isDigit first = true) : Rejects (first :: rest) cause := by
  have areDigits : ∀ c ∈ first :: rest.takeWhile Text.isDigit, Text.isDigit c = true :=
    List.forall_mem_cons.mpr ⟨isDigit, List.all_eq_true.mp List.all_takeWhile⟩
  unfold numberLexeme at failed
  dsimp only at failed
  split at failed
  · split at failed
    · cases failed
    · next fails =>
      cases failed
      exact intValue_rejects fails
        (List.cons_prefix_cons.mpr ⟨rfl, List.takeWhile_prefix _⟩).isInfix areDigits
  · next found =>
    obtain ⟨isPrefix, arePlaces⟩ := prefix_of_places found
    split at failed
    · cases failed
    · next fails =>
      cases failed
      refine floatValue_rejects fails (List.IsPrefix.isInfix ?_)
        (List.forall_mem_append.mpr ⟨areDigits, arePlaces⟩)
      obtain ⟨after, isAfter⟩ := isPrefix
      exact ⟨after, by rw [List.append_assoc, isAfter, List.cons_append,
        List.takeWhile_append_dropWhile]⟩

theorem nameLexeme_rejects (failed : nameLexeme file position first rest = .error cause) :
    Rejects (first :: rest) cause := by
  unfold nameLexeme at failed
  split at failed
  · exact templateBody_rejects failed _
  · exact bytesBody_rejects failed (.inl rfl) []
  · exact bytesBody_rejects failed (.inr rfl) []
  · cases failed

theorem lexeme_rejects (failed : lexeme file position first rest = .error cause) :
    Rejects (first :: rest) cause := by
  unfold lexeme at failed
  split at failed
  · cases failed
  split at failed
  · cases failed
  split at failed
  · cases failed
  split at failed
  · exact numberLexeme_rejects failed ‹_›
  split at failed
  · exact stringBody_rejects failed _
  split at failed
  · exact nameLexeme_rejects failed
  · unfold symbolLexeme at failed
    split at failed
    · cases failed
    · cases failed
      exact .lexical _ _

theorem scan_rejects (failed : scan file position chars = .error cause) : Rejects chars cause := by
  fun_induction scan file position chars with
  | case1 => cases failed
  | case2 _ _ _ _ failedFirst =>
    cases failed
    exact lexeme_rejects failedFirst
  | case3 _ _ _ _ reads _ _ failedRest ih =>
    cases failed
    obtain ⟨first, run, isRun, _⟩ := lexeme_takes reads
    exact (ih failedRest).of_suffix ⟨first :: run, isRun.symm⟩
  | case4 => cases failed
  | case5 => cases failed

theorem scan_ne_exhausted (failed : scan file position chars = .error cause) :
    cause ≠ .exhausted := by
  cases scan_rejects failed <;> exact nofun

end Lexer

/-- Every text gives tokens of which only the last is an end, or a lexical error and its place,
unless it has digits that are no number or a bytes literal that holds no bytes. -/
theorem tokenize_outcomes (source file : String) :
    (∃ tokens location, tokenize source file = .ok (tokens ++ [⟨.eof, location⟩]) ∧
      ∀ token ∈ tokens, token.kind ≠ .eof) ∨
    (∃ cause location, tokenize source file = .error (.error (.lexical cause location))) ∨
    ∃ fault, tokenize source file = .error (.fault fault) ∧
      Lexer.Unconvertible source.toList fault := by
  cases tokenized : tokenize source file with
  | ok =>
    obtain ⟨earlier, ⟨kind, location⟩, rfl, noEnd, isEnd⟩ := Lexer.scan_ends tokenized
    cases isEnd
    exact .inl ⟨earlier, location, rfl, noEnd⟩
  | error =>
    cases Lexer.scan_rejects tokenized with
    | lexical cause location => exact .inr (.inl ⟨cause, location, rfl⟩)
    | fault unconvertible => exact .inr (.inr ⟨_, rfl, unconvertible⟩)

/-- A bytes literal that ends within an escape. -/
theorem unfinished_escape_faults :
    tokenize "b\"\\" =
      .error (.fault (.kind "ord() expected string of length 1, but NoneType found")) := by
  cbv

end Noxy
