import Noxy.Proofs.Reading

/-!
# Reading printed types

A type that can be written is read from its tokens.
-/

namespace Noxy

theorem Keyword.text_of_ofText? (isWord : ofText? name = some word) : word.text = name := by
  simpa using List.find?_some isWord

theorem nameToken_cases (legal : isNameOr allowed name = true) :
    nameToken name = .identifier name ∨
      ∃ word ∈ allowed, nameToken name = .keyword word ∧ word.text = name := by
  unfold isNameOr at legal
  unfold nameToken
  cases isWord : Keyword.ofText? name with
  | none => exact Or.inl rfl
  | some word =>
    rw [isWord] at legal
    exact Or.inr ⟨word, List.contains_iff_mem.mp legal, rfl, Keyword.text_of_ofText? isWord⟩

theorem nameToken_of_isName (legal : isName name = true) : nameToken name = .identifier name := by
  rcases nameToken_cases legal with isIdentifier | ⟨_, member, _⟩
  · exact isIdentifier
  · cases member

theorem nameToken_ne_eof (name : String) : nameToken name ≠ .eof := by
  unfold nameToken
  split <;> exact nofun

namespace Parser

open Filter

attribute [local simp] bind_apply map_apply pure_apply ok_bind peek_cons advance_cons
  acceptSymbol_eq expectSymbol_cons expectName_cons Ty.tokens type arraySuffixes structType

def LeadsToBrackets (written : Ty) : Prop :=
  ∀ ⦃rest : List Token⦄ ⦃outcome : Except Failure (Ty × List Token)⦄,
    frontKind rest ≠ .symbol .dot →
    (∀ᶠ depth in atTop, arraySuffixes depth written rest = outcome) →
    ∀ᶠ depth in atTop, type depth none (placed written.tokens ++ rest) = outcome

def EndsType (kind : TokenKind) : Prop :=
  kind ≠ .symbol .dot ∧ kind ≠ .symbol .openBracket

def IsTypeRead (written : Ty) : Prop :=
  Reads (type ·) written.tokens EndsType written

theorem leadsToBrackets_array {size : Option Nat} (leads : LeadsToBrackets element) :
    LeadsToBrackets (.array element size) := by
  intro _ _ _ goesOn
  cases size with
  | none | some =>
    simp only [Ty.tokens, placed_append, List.append_assoc]
    refine leads nofun (eventually_succ ?_)
    filter_upwards [goesOn] with depth next
    simpa using next

theorem leadsToBrackets_map (keyRead : IsTypeRead key) (valueRead : IsTypeRead value) :
    LeadsToBrackets (.map key value) := by
  intro rest _ _ goesOn
  refine eventually_succ ?_
  filter_upwards [goesOn, valueRead (⟨.symbol .closeBracket, .nowhere⟩ :: rest) ⟨nofun, nofun⟩,
    keyRead (⟨.symbol .comma, .nowhere⟩ :: (placed value.tokens ++
      ⟨.symbol .closeBracket, .nowhere⟩ :: rest)) ⟨nofun, nofun⟩] with depth next isValue isKey
  simpa [isKey, isValue] using next

theorem leadsToBrackets_struct (legal : isName name = true) (homeLegal : home.all isName = true) :
    LeadsToBrackets (.struct name home) := by
  intro _ _ noDot goesOn
  refine eventually_succ (eventually_succ (eventually_succ ?_))
  filter_upwards [(tendsto_add_atTop_nat 2).eventually goesOn] with depth next
  cases home with
  | none => simpa [nameToken_of_isName legal, noDot] using next
  | some home =>
    have isHome : nameToken home = .identifier home := nameToken_of_isName homeLegal
    simpa [nameToken_of_isName legal, isHome, noDot] using next

theorem LeadsToBrackets.isTypeRead (leads : LeadsToBrackets written) : IsTypeRead written := by
  intro _ ends
  refine leads ends.1 (eventually_succ (.of_forall fun _ => ?_))
  simp [ends.2]

theorem isTypeRead_of_isPrintable (isPrintable : written.isPrintable = true) :
    (written.isRef = false → LeadsToBrackets written) ∧ IsTypeRead written := by
  have both {written : Ty} (leads : LeadsToBrackets written) :
      (written.isRef = false → LeadsToBrackets written) ∧ IsTypeRead written :=
    ⟨fun _ => leads, leads.isTypeRead⟩
  induction written with
  | int | float | string | bool | bytes | void =>
    refine both fun _ _ _ goesOn => eventually_succ ?_
    filter_upwards [goesOn] with depth next
    simpa [primitive?] using next
  | array _ _ ih =>
    simp only [Ty.isPrintable, Bool.and_eq_true, Bool.not_eq_true'] at isPrintable
    exact both (leadsToBrackets_array ((ih isPrintable.1).1 isPrintable.2))
  | map _ _ keyRead valueRead =>
    simp only [Ty.isPrintable, Bool.and_eq_true] at isPrintable
    exact both (leadsToBrackets_map (keyRead isPrintable.1).2 (valueRead isPrintable.2).2)
  | struct =>
    simp only [Ty.isPrintable, Bool.and_eq_true] at isPrintable
    exact both (leadsToBrackets_struct isPrintable.1 isPrintable.2)
  | ref _ ih =>
    refine ⟨fun notRef => Bool.noConfusion notRef, fun rest ends => eventually_succ ?_⟩
    filter_upwards [(ih isPrintable).2 rest ends] with depth read
    simp [read]
  | imported => cases isPrintable
  | any => cases isPrintable

end Parser

end Noxy
