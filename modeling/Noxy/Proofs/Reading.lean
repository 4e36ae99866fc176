import Mathlib.Order.Filter.AtTopBot.Basic
import Noxy.Proofs.Printing

/-!
# What readers read

`Reads` states that a reader with enough depth consumes tokens of certain kinds and gives a certain
result, provided that what comes next may follow them.
-/

namespace Noxy.Parser

variable {token : Token} {α β : Type}

def frontKind : List Token → TokenKind
  | token :: _ => token.kind
  | [] => .eof

theorem bind_of_ok {next : β → Reader α} (read : first tokens = .ok (result, rest)) :
    (first >>= next) tokens = next result rest := by
  change Except.bind (first tokens) _ = _
  rw [read]
  rfl

theorem peek_eq (tokens : List Token) :
    ∃ token, token.kind = frontKind tokens ∧ peek tokens = .ok (token, tokens) := by
  cases tokens with
  | nil => exact ⟨_, rfl, rfl⟩
  | cons token => exact ⟨token, rfl, rfl⟩

@[simp]
theorem enter_none (tokens : List Token) : enter none tokens = .ok (none, tokens) :=
  rfl

theorem discard_of_ok (read : reader tokens = .ok (result, rest)) :
    (discard reader : Reader Unit) tokens = .ok ((), rest) := by
  change Except.bind (reader tokens) _ = _
  rw [read]
  rfl

theorem advance_cons (notEnd : token.kind ≠ .eof) :
    (discard advance : Reader Unit) (token :: tokens) = .ok ((), tokens) := by
  have advanced : advance (token :: tokens) = .ok (token, tokens) := by
    change (if token.kind = .eof then Pure.pure token
      else (modify List.tail >>= fun _ => Pure.pure token) : Reader Token) (token :: tokens) = _
    rw [if_neg notEnd]
    rfl
  exact discard_of_ok advanced

@[simp]
theorem frontKind_cons : frontKind (token :: tokens) = token.kind := by
  cases token
  rfl

theorem atKind_eq (kind : TokenKind) (tokens : List Token) :
    (do return decide ((← peek).kind = kind) : Reader Bool) tokens =
      .ok (decide (frontKind tokens = kind), tokens) := by
  rcases peek_eq tokens with ⟨_, isKind, peeked⟩
  rw [bind_of_ok peeked, isKind]
  rfl

theorem atSymbol_eq (symbol : Symbol) (tokens : List Token) :
    atSymbol symbol tokens = .ok (decide (frontKind tokens = .symbol symbol), tokens) :=
  atKind_eq _ tokens

theorem atEnd_eq (tokens : List Token) :
    atEnd tokens = .ok (decide (frontKind tokens = .eof), tokens) :=
  atKind_eq _ tokens

theorem accept_eq (notEnd : kind ≠ .eof)
    (isAt : present tokens = .ok (decide (frontKind tokens = kind), tokens)) :
    (do
      let found ← present
      if found then
        discard advance
      return found : Reader Bool) tokens = .ok (decide (frontKind tokens = kind),
        if frontKind tokens = kind then tokens.tail else tokens) := by
  rw [bind_of_ok isAt]
  by_cases isThere : frontKind tokens = kind
  · cases tokens with
    | nil => exact absurd isThere.symm notEnd
    | cons =>
      rw [decide_eq_true isThere, if_pos isThere]
      exact bind_of_ok (advance_cons (frontKind_cons ▸ isThere ▸ notEnd))
  · rw [decide_eq_false isThere, if_neg isThere]
    rfl

theorem acceptSymbol_eq (symbol : Symbol) (tokens : List Token) :
    acceptSymbol symbol tokens = .ok (decide (frontKind tokens = .symbol symbol),
      if frontKind tokens = .symbol symbol then tokens.tail else tokens) :=
  accept_eq nofun (atKind_eq _ tokens)

theorem acceptKeyword_eq (word : Keyword) (tokens : List Token) :
    acceptKeyword word tokens = .ok (decide (frontKind tokens = .keyword word),
      if frontKind tokens = .keyword word then tokens.tail else tokens) :=
  accept_eq nofun (atKind_eq _ tokens)

theorem acceptSymbol_cons (isSymbol : token.kind = .symbol symbol) :
    acceptSymbol symbol (token :: tokens) = .ok (true, tokens) := by
  simp [acceptSymbol_eq, isSymbol]

theorem acceptSymbol_of_ne (absent : frontKind tokens ≠ .symbol symbol) :
    acceptSymbol symbol tokens = .ok (false, tokens) := by
  simp [acceptSymbol_eq, absent]

theorem acceptKeyword_cons (isWord : token.kind = .keyword word) :
    acceptKeyword word (token :: tokens) = .ok (true, tokens) := by
  simp [acceptKeyword_eq, isWord]

theorem acceptKeyword_of_ne (absent : frontKind tokens ≠ .keyword word) :
    acceptKeyword word tokens = .ok (false, tokens) := by
  simp [acceptKeyword_eq, absent]

theorem expectName_cons (isName : token.kind = .identifier name) :
    expectName required (token :: tokens) = .ok (name, tokens) := by
  have notEnd : token.kind ≠ .eof := fun isEnd => nomatch isName.symm.trans isEnd
  have peeked : peek (token :: tokens) = .ok (token, token :: tokens) := rfl
  rw [expectName, bind_of_ok peeked, isName]
  exact bind_of_ok (advance_cons notEnd)

theorem skipNewlines_of_ne (absent : frontKind tokens ≠ .newline) :
    skipNewlines tokens = .ok ((), tokens) := by
  have kept : tokens.dropWhile (fun token => token.kind = .newline) = tokens := by
    cases tokens with
    | nil => rfl
    | cons => exact List.dropWhile_cons_of_neg (by simpa [frontKind] using absent)
  change Except.ok ((), tokens.dropWhile _) = _
  rw [kept]

theorem skipNewlines_cons (isNewline : token.kind = .newline)
    (absent : frontKind tokens ≠ .newline) : skipNewlines (token :: tokens) = .ok ((), tokens) := by
  have dropped : (token :: tokens).dropWhile (fun token => token.kind = .newline) =
      tokens.dropWhile (fun token => token.kind = .newline) :=
    List.dropWhile_cons_of_pos (decide_eq_true isNewline)
  have kept := skipNewlines_of_ne absent
  change Except.ok ((), (token :: tokens).dropWhile _) = _
  rw [dropped]
  exact kept

/-! ### Readers as functions -/

theorem bind_apply (first : Reader β) (next : β → Reader α) (tokens : List Token) :
    (first >>= next) tokens = (first tokens >>= fun read => next read.1 read.2) :=
  rfl

theorem map_apply (change : β → α) (reader : Reader β) (tokens : List Token) :
    (change <$> reader) tokens = (reader tokens >>= fun read => .ok (change read.1, read.2)) :=
  rfl

theorem pure_apply (value : α) (tokens : List Token) :
    (pure value : Reader α) tokens = .ok (value, tokens) :=
  rfl

theorem ok_bind (value : β) (next : β → Except Failure α) : (.ok value >>= next) = next value :=
  rfl

theorem peek_cons (token : Token) (tokens : List Token) :
    peek (token :: tokens) = .ok (token, token :: tokens) :=
  rfl

theorem expectSymbol_cons (isSymbol : token.kind = .symbol symbol) :
    expectSymbol symbol required (token :: tokens) = .ok ((), tokens) :=
  bind_of_ok (acceptSymbol_cons isSymbol)

theorem expectKeyword_cons (isWord : token.kind = .keyword word) :
    expectKeyword word required (token :: tokens) = .ok ((), tokens) :=
  bind_of_ok (acceptKeyword_cons isWord)

/-! ### Tokens without places -/

def placed (kinds : List TokenKind) : List Token :=
  kinds.map (⟨·, .nowhere⟩)

@[simp]
theorem placed_nil : placed [] = [] :=
  rfl

@[simp]
theorem placed_cons (kind : TokenKind) (kinds : List TokenKind) :
    placed (kind :: kinds) = ⟨kind, .nowhere⟩ :: placed kinds :=
  rfl

@[simp]
theorem placed_append (kinds others : List TokenKind) :
    placed (kinds ++ others) = placed kinds ++ placed others :=
  List.map_append

open Filter in
def Reads (reader : Nat → Reader α) (kinds : List TokenKind) (follow : TokenKind → Prop)
    (result : α) : Prop :=
  ∀ rest, follow (frontKind rest) →
    ∀ᶠ depth in atTop, reader depth (placed kinds ++ rest) = .ok (result, rest)

open Filter in
theorem eventually_succ {holds : Nat → Prop} (later : ∀ᶠ depth in atTop, holds (depth + 1)) :
    ∀ᶠ depth in atTop, holds depth := by
  rwa [← map_add_atTop_eq_nat 1, eventually_map]

end Noxy.Parser
