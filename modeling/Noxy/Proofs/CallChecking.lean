import Noxy.Proofs.Checked
import Noxy.Proofs.KnownDefinitions

/-!
# What calls are checked against

For a call of a name or of a member, the checker looks for something that can be called and checks
the arguments against its fields or parameters: a struct, a function, or a builtin function that has
a signature.
-/

namespace Noxy

namespace Checker

variable {known : Checker}

/-- Whether a function of the program has the name of a builtin function and only one of the checker
and the machine calls it: the checker does not call functions that have reserved names, and the
machine does not call them as methods. -/
def shadows (known : Checker) : Expr → Bool
  | .identifier name _ =>
    isReserved name && (known.struct? name).isNone && (known.function? name).isSome
  | .field object name _ =>
    match known.typeOf object with
    | .ok owner => owner.hasMethod name && (known.function? name).isSome
    | .error _ => false
  | _ => false

theorem Validates.callable?
    (validates : known.Validates arguments location (.identifier name place) target type) :
    known.callable? name = some target ∧ known.shadows (.identifier name place) = false ∨
      (∃ function builtin, known.callable? name = some (.function function) ∧
        target = .builtin builtin) ∧ known.shadows (.identifier name place) = true := by
  cases validates with
  | construct isStruct =>
    refine .inl ⟨by simp only [Checker.callable?, isStruct], ?_⟩
    rw [shadows, isStruct, Option.isNone_some, Bool.and_false, Bool.false_and]
  | function noStruct isFree isFunction =>
    refine .inl ⟨by simp only [Checker.callable?, noStruct, isFunction], ?_⟩
    rw [shadows, isFree, Bool.false_and, Bool.false_and]
  | @builtin _ _ builtin _ _ noStruct noFunction _ isBuiltin _ =>
    cases isFunction : known.function? name with
    | none =>
      refine .inl ⟨by simp only [Checker.callable?, noStruct, isFunction, isBuiltin,
        Option.map_some], ?_⟩
      rw [shadows, isFunction, Option.isSome_none, Bool.and_false]
    | some function =>
      have isReserved := noFunction.resolve_right (isFunction ▸ Option.some_ne_none _)
      refine .inr ⟨⟨function, builtin, by simp only [Checker.callable?, noStruct, isFunction],
        rfl⟩, ?_⟩
      rw [shadows, isReserved, noStruct, isFunction]
      rfl

end Checker

/-! ### Tables -/

theorem Contains.sameTables {part : Site} (contains : Contains known site last part) :
    last.functions = known.functions ∧ last.structs = known.structs ∧
      last.interfaces = known.interfaces := by
  cases contains with
  | rest checked =>
    have grows := (Stmt.check_passes checked).1
    exact ⟨grows.functions, grows.structs, grows.interfaces⟩
  | elseBody checked =>
    have grows := (Stmt.checkAll_passes checked rfl).1.leave
    exact ⟨grows.functions, grows.structs, grows.interfaces⟩
  | _ => exact ⟨rfl, rfl, rfl⟩

theorem Visits.sameTables (visits : Visits known site last part) :
    last.functions = known.functions ∧ last.structs = known.structs ∧
      last.interfaces = known.interfaces := by
  induction visits with
  | here => exact ⟨rfl, rfl, rfl⟩
  | inside contains _ ih =>
    obtain ⟨functions, structs, interfaces⟩ := contains.sameTables
    exact ⟨ih.1.trans functions, ih.2.1.trans structs, ih.2.2.trans interfaces⟩

end Noxy
