import Noxy.Proofs.Lexing

/-!
# Bytes literals

A byte may be written as itself, by the name of its escape or by two hexadecimal digits.
-/

namespace Noxy

open Lexer

def hexDigit (value : Nat) (isUpper : Bool) : Char :=
  if isUpper then value.digitChar.toUpper else value.digitChar

/-- The ways to write a byte in a literal between these quotes. -/
inductive ByteForm (quote : Char) : UInt8 → List Char → Prop where
  | itself {c : Char} (isPrintable : ' ' ≤ c ∧ c ≤ '~') (isPlain : c ≠ quote ∧ c ≠ '\\') :
      ByteForm quote c.toNat.toUInt8 [c]
  | named {c : Char} (hasName : c ∈ ['\n', '\t', '\r', '\\', '"', '\'']) :
      ByteForm quote c.toNat.toUInt8 ['\\', escapeLetter c]
  | hexadecimal (byte : UInt8) (isUpper isUpper' : Bool) :
      ByteForm quote byte
        ['\\', 'x', hexDigit (byte.toNat / 16) isUpper, hexDigit (byte.toNat % 16) isUpper']

/-- What is read from a form beyond its byte: the second digit of a hexadecimal escape. -/
def ByteForm.surplus : List Char → List UInt8
  | [_, _, _, low] => [low.toNat.toUInt8]
  | _ => []

theorem byteOfDigits?_hexDigit :
    byteOfDigits? [hexDigit (byte.toNat / 16) isUpper, hexDigit (byte.toNat % 16) isUpper'] =
      some byte := by
  have all : ∀ value : Fin 256, ∀ isUpper isUpper' : Bool,
      byteOfDigits? [hexDigit (value / 16) isUpper, hexDigit (value % 16) isUpper'] =
        some value.val.toUInt8 := by decide +kernel
  have read := all ⟨byte.toNat, byte.toNat_lt⟩ isUpper isUpper'
  simpa using read

theorem hexDigit_plain (isQuote : quote = '"' ∨ quote = '\'') (isDigit : value < 16) :
    hexDigit value isUpper ≠ quote ∧ hexDigit value isUpper ≠ '\\' ∧
      hexDigit value isUpper ≠ '\n' ∧ (hexDigit value isUpper).toNat < 256 := by
  have all : ∀ value : Fin 16, ∀ isUpper : Bool,
      hexDigit value isUpper ≠ '"' ∧ hexDigit value isUpper ≠ '\'' ∧ hexDigit value isUpper ≠ '\\' ∧
        hexDigit value isUpper ≠ '\n' ∧ (hexDigit value isUpper).toNat < 256 := by decide +kernel
  obtain ⟨notDouble, notSingle, others⟩ := all ⟨value, isDigit⟩ isUpper
  rcases isQuote with rfl | rfl
  · exact ⟨notDouble, others⟩
  · exact ⟨notSingle, others⟩

section Body

variable (file : String) (done : List UInt8) (rest : List Char)

theorem bytesBody_plain (position : Position) (notQuote : c ≠ quote)
    (isPlain : c ≠ '\\' ∧ c ≠ '\n' ∧ c.toNat < 256) :
    bytesBody file quote done position (c :: rest) =
      bytesBody file quote (c.toNat.toUInt8 :: done) (position.next c) rest := by
  obtain ⟨notBackslash, notNewline, isByte⟩ := isPlain
  rw [bytesBody, if_neg notQuote, if_neg notBackslash, if_neg notNewline, byteOfChar, if_pos isByte]

theorem bytesBody_form (isQuote : quote = '"' ∨ quote = '\'') (form : ByteForm quote byte chars)
    (position : Position) :
    ∃ after, bytesBody file quote done position (chars ++ rest) =
      bytesBody file quote ((ByteForm.surplus chars).reverse ++ byte :: done) after rest := by
  have notQuote : '\\' ≠ quote := by rcases isQuote with rfl | rfl <;> decide
  cases form with
  | @itself c isPrintable isPlain =>
    have isSmall : c.toNat ≤ 126 := isPrintable.2
    have notNewline : c ≠ '\n' := by
      rintro rfl
      exact absurd isPrintable.1 (by decide)
    exact ⟨_, bytesBody_plain _ _ _ position isPlain.1 ⟨isPlain.2, notNewline, by omega⟩⟩
  | @named c hasName =>
    have isOne : c = '\n' ∨ c = '\t' ∨ c = '\r' ∨ c = '\\' ∨ c = '"' ∨ c = '\'' := by
      simpa using hasName
    rcases isOne with rfl | rfl | rfl | rfl | rfl | rfl <;>
      exact ⟨_, by rw [List.cons_append, bytesBody, if_neg notQuote, if_pos rfl]; rfl⟩
  | hexadecimal _ _ isUpper' =>
    obtain ⟨lowNotQuote, isPlain⟩ :=
      hexDigit_plain isQuote (Nat.mod_lt byte.toNat (by decide))
    constructor
    rw [List.cons_append, bytesBody, if_neg notQuote, if_pos rfl]
    simp only [List.cons_append, List.nil_append, byteOfDigits?_hexDigit]
    exact bytesBody_plain _ _ _ _ lowNotQuote isPlain

theorem bytesBody_forms (isQuote : quote = '"' ∨ quote = '\'') (forms : List (UInt8 × List Char))
    (areForms : ∀ form ∈ forms, ByteForm quote form.1 form.2) (done : List UInt8)
    (position : Position) :
    ∃ after, bytesBody file quote done position (forms.flatMap Prod.snd ++ quote :: rest) =
      .ok ⟨some (.bytes (done.reverse ++ forms.flatMap fun form =>
        form.1 :: ByteForm.surplus form.2)), after, rest⟩ := by
  induction forms generalizing done position with
  | nil => exact ⟨position.next quote, by rw [List.flatMap_nil, List.nil_append, bytesBody]; simp⟩
  | cons _ forms ih =>
    obtain ⟨isForm, areForms⟩ := List.forall_mem_cons.mp areForms
    obtain ⟨middle, first⟩ := bytesBody_form file done
      (forms.flatMap Prod.snd ++ quote :: rest) isQuote isForm position
    obtain ⟨after, others⟩ := ih areForms _ middle
    refine ⟨after, ?_⟩
    rw [List.flatMap_cons, List.append_assoc, first, others]
    simp

end Body

theorem lexes_bytes (isQuote : quote = '"' ∨ quote = '\'') {forms : List (UInt8 × List Char)}
    (areForms : ∀ form ∈ forms, ByteForm quote form.1 form.2) (rest : List Char) :
    Lexes ('b' :: quote :: (forms.flatMap Prod.snd ++ quote :: rest))
      (some (.bytes (forms.flatMap fun form => form.1 :: ByteForm.surplus form.2))) rest := by
  refine ⟨'b', _, rfl, fun file position => ?_⟩
  obtain ⟨after, read⟩ := bytesBody_forms file rest isQuote forms areForms []
    ((position.next 'b').next quote)
  refine ⟨after, ?_⟩
  rw [lexeme_of_startsName rfl]
  rcases isQuote with rfl | rfl <;> exact read

theorem length_le_flatMap_surplus (forms : List (UInt8 × List Char)) :
    forms.length ≤ (forms.flatMap fun form => form.1 :: ByteForm.surplus form.2).length := by
  induction forms with
  | nil => exact Nat.le_refl _
  | cons =>
    rw [List.flatMap_cons, List.cons_append, List.length_cons, List.length_cons, List.length_append]
    omega

theorem flatMap_surplus_eq_iff {forms : List (UInt8 × List Char)}
    (areForms : ∀ form ∈ forms, ByteForm quote form.1 form.2) :
    (forms.flatMap fun form => form.1 :: ByteForm.surplus form.2) = forms.map Prod.fst ↔
      ∀ form ∈ forms, form.2.length ≠ 4 := by
  induction forms with
  | nil => simp
  | cons form forms ih =>
    obtain ⟨_, _⟩ := form
    obtain ⟨isForm, others⟩ := List.forall_mem_cons.mp areForms
    dsimp only at isForm
    rw [List.forall_mem_cons, ← ih others, List.flatMap_cons, List.map_cons, List.cons_append,
      List.cons.injEq]
    cases isForm with
    | itself | named => simp [ByteForm.surplus]
    | hexadecimal =>
      refine iff_of_false (fun same => ?_) (fun other => other.1 rfl)
      have noFewer := length_le_flatMap_surplus forms
      have lengths := congrArg List.length same.2
      rw [List.length_append, ByteForm.surplus, List.length_singleton, List.length_map] at lengths
      omega

/--
A literal whose bytes are written each in one of its forms is one token.  Its value has the bytes,
and the second digit of each hexadecimal escape after its byte, so it is what was written exactly if
there is no such escape.
-/
theorem tokenize_bytes (quote : Char) (forms : List (UInt8 × List Char)) (file : String)
    (isQuote : quote = '"' ∨ quote = '\'')
    (areForms : ∀ form ∈ forms, ByteForm quote form.1 form.2) :
    ∃ tokens value,
      tokenize (String.ofList ('b' :: quote :: (forms.flatMap Prod.snd ++ [quote]))) file =
        .ok tokens ∧
      tokens.map Token.kind = [.bytes value, .eof] ∧
      value = (forms.flatMap fun form => form.1 :: ByteForm.surplus form.2) ∧
      (value = forms.map Prod.fst ↔ ∀ form ∈ forms, form.2.length ≠ 4) := by
  obtain ⟨tokens, scanned, kinds⟩ :=
    (lexes_bytes isQuote areForms []).scans Scans.nil file Position.start
  refine ⟨tokens, _, ?_, kinds, rfl, flatMap_surplus_eq_iff areForms⟩
  rw [tokenize, String.toList_ofList]
  exact scanned

/-- A quote, a tab and a byte above the printable ones. -/
def quotedForms : List (UInt8 × List Char) :=
  [(34, ['"']), (9, ['\\', 't']), (39, ['\\', '\'']), (255, ['\\', 'x', 'F', 'f'])]

theorem tokenize_bytes_quoted :
    (∀ form ∈ quotedForms, ByteForm '\'' form.1 form.2) ∧
    ∃ tokens value,
      tokenize (String.ofList ('b' :: '\'' :: (quotedForms.flatMap Prod.snd ++ ['\'']))) =
        .ok tokens ∧
      tokens.map Token.kind = [.bytes value, .eof] ∧ value = [34, 9, 39, 255, 102] ∧
      (value = quotedForms.map Prod.fst ↔ ∀ form ∈ quotedForms, form.2.length ≠ 4) := by
  have areForms : ∀ form ∈ quotedForms, ByteForm '\'' form.1 form.2 := by
    simp only [quotedForms, List.forall_mem_cons]
    refine ⟨.itself (c := '"') (by decide) (by decide), .named (c := '\t') (by decide),
      .named (c := '\'') (by decide), .hexadecimal 255 true false, nofun⟩
  exact ⟨areForms, tokenize_bytes '\'' quotedForms standardInput (.inr rfl) areForms⟩

/-- `b"\x41"` has two bytes. -/
theorem hexadecimal_read_twice :
    ByteForm '"' 65 ['\\', 'x', '4', '1'] ∧
    ∃ tokens, tokenize "b\"\\x41\"" = .ok tokens ∧
      tokens.map Token.kind = [.bytes [65, 49], .eof] := by
  have form : ByteForm '"' 65 ['\\', 'x', '4', '1'] := .hexadecimal 65 false false
  have areForms : ∀ written ∈ [((65 : UInt8), ['\\', 'x', '4', '1'])],
      ByteForm '"' written.1 written.2 := by simpa using form
  exact ⟨form, (lexes_bytes (.inl rfl) areForms []).scans Scans.nil standardInput Position.start⟩

end Noxy
