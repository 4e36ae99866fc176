import Noxy.Proofs.Pieces

/-!
# Texts in SQL statements

A text is written between quotes, with two quotes for each of its own.
-/

namespace Noxy

namespace Sql

theorem readQuoted_of_ne (other : c ≠ quote) (rest : List Char) :
    readQuoted quote (c :: rest) =
      (readQuoted quote rest).map fun (content, rest) => (c :: content, rest) := by
  rw [readQuoted.eq_def]
  exact if_neg other

theorem readQuoted_escaped (follows : rest.head? ≠ some '\'') (text : List Char) :
    readQuoted '\'' (Builtin.escaped text ++ '\'' :: rest) = some (text, rest) := by
  induction text with
  | nil =>
    cases rest with
    | nil => rfl
    | cons next =>
      have other : next ≠ '\'' := fun same => follows (congrArg some same)
      simp [Builtin.escaped, readQuoted, other]
  | cons c text ih =>
    rw [Builtin.escaped, List.flatMap_cons, ← Builtin.escaped]
    by_cases isQuote : c = '\''
    · simp [readQuoted, isQuote, ih]
    · simp [readQuoted_of_ne isQuote, isQuote, ih]

end Sql

namespace Builtin

/-- An escaped text between quotes is read back as that text, up to where the quotes end.  So no two
texts are escaped alike. -/
theorem escaped_texts_read_back (text rest : String) (follows : rest.toList.head? ≠ some '\'')
    (machine : Machine) : ∃ escaped : String,
      called "sqlite_escape" [.string text] machine = .ok (.string escaped) machine ∧
      Sql.readWord ("'" ++ escaped ++ "'" ++ rest).toList = .ok (.text text, rest.toList) ∧
      ∀ other, called "sqlite_escape" [.string other] machine = .ok (.string escaped) machine →
        other = text := by
  refine ⟨String.ofList (escaped text.toList), rfl, ?_, fun other same => ?_⟩
  · have read := Sql.readQuoted_escaped follows text.toList
    simp [Sql.readWord, read]
  · have here := Sql.readQuoted_escaped follows text.toList
    have there := Sql.readQuoted_escaped follows other.toList
    have alike : String.ofList (escaped other.toList) = String.ofList (escaped text.toList) := by
      injection same with isText
      injection isText
    rw [String.ofList_injective alike, here] at there
    exact (String.toList_inj.mp (Prod.mk.inj (Option.some.inj there)).1).symm

theorem escaped_texts_read_back_quotes : ", 1)".toList.head? ≠ some '\'' ∧ ∃ escaped : String,
    called "sqlite_escape" [.string "'o''"] (.start (.start .empty [] [] [] 0) ".") =
      .ok (.string escaped) (.start (.start .empty [] [] [] 0) ".") ∧
    Sql.readWord ("'" ++ escaped ++ "'" ++ ", 1)").toList = .ok (.text "'o''", ", 1)".toList) := by
  obtain ⟨escaped, isEscaped, read, _⟩ := escaped_texts_read_back "'o''" ", 1)" (by decide)
    (.start (.start .empty [] [] [] 0) ".")
  exact ⟨by decide, escaped, isEscaped, read⟩

end Builtin

end Noxy
