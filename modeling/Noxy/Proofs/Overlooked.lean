import Noxy.Proofs.Checked

/-!
# What the checker overlooks

Every expression of an accepted program is well typed in the scopes around it, or it stands inside
one of the three parts that the checker passes over.
-/

namespace Noxy

/-- The parts that are not looked at. -/
inductive Overlooks : Checker → Site → Site → Prop where
  | interpolated (member : .interpolation part format ∈ parts) :
      Overlooks known (.expr (.template parts location)) (.expr part)
  | callee (unnamed : callee.isNamed = false) :
      Overlooks known (.expr (.call callee arguments location)) (.expr callee)
  | returned (outside : known.returns = none) :
      Overlooks known (.stmt (.returning (some value) location)) (.expr value)

/-- The sites that stand in a site, and the state of the checker at each of them. -/
inductive Occurs : Checker → Site → Checker → Site → Prop where
  | here : Occurs known site known site
  | inside (contains : Contains known site state part) (occurs : Occurs state part last other) :
      Occurs known site last other
  | hidden (overlooks : Overlooks known site part) (occurs : Occurs known part last other) :
      Occurs known site last other

/-- The site with nothing in the place that is overlooked. -/
def Site.blanked : Site → Site
  | expr (.template _ location) => expr (.template [] location)
  | expr (.call _ arguments location) => expr (.call (.null location) arguments location)
  | stmt (.returning _ location) => stmt (.returning none location)
  | site => site

variable {known inner : Checker} {part : Site}

theorem Checker.typeOf_call_of_unnamed (known : Checker) (unnamed : callee.isNamed = false)
    (location : Location) :
    known.typeOf (.call callee arguments location) =
      known.typeOf (.call (.null location) arguments location) := by
  cases callee with
  | identifier | field => cases unnamed
  | _ => simp only [typeOf]

theorem Overlooks.accepted_iff (overlooks : Overlooks known site part) :
    site.Accepted known ↔ site.blanked.Accepted known := by
  cases overlooks with
  | interpolated => exact iff_of_true ⟨_, rfl⟩ ⟨_, rfl⟩
  | callee unnamed => exact exists_congr fun _ => by rw [known.typeOf_call_of_unnamed unnamed]
  | @returned known value location outside =>
    have passes (value : Option Expr) :
        (Stmt.returning value location).check known = .ok () known := by
      rw [Stmt.check, checkReturn, Check.bind_apply, Check.get_apply]
      simp only [outside]
      rfl
    exact iff_of_true ⟨_, passes _⟩ ⟨_, passes _⟩

theorem Occurs.visited_or_overlooked (occurs : Occurs known site inner part) :
    Visits known site inner part ∨ ∃ outer whole hidden, Visits known site outer whole ∧
      Overlooks outer whole hidden ∧ Occurs outer hidden inner part := by
  induction occurs with
  | here => exact .inl .here
  | inside contains _ ih =>
    rcases ih with visits | ⟨outer, whole, hidden, visits, rest⟩
    · exact .inl (.inside contains visits)
    · exact .inr ⟨outer, whole, hidden, .inside contains visits, rest⟩
  | hidden overlooks occurs => exact .inr ⟨_, _, _, .here, overlooks, occurs⟩

/-- In an accepted program an expression has a type in the scopes of its place, unless it is in a
part that is overlooked: then the program would be accepted whatever stood there. -/
theorem Program.expressions_checked (world : World) (basePath : String) (program : Program)
    {start final : Checker} (accepted : program.check world basePath start = .ok () final) :
    ∃ known, declareAll world basePath program start = .ok () known ∧
      ∀ inner part, Occurs known (.body program) inner (.expr part) →
        (∃ type, inner.typeOf part = .ok type) ∨
          ∃ outer whole hidden, Visits known (.body program) outer whole ∧
            Overlooks outer whole hidden ∧ Occurs outer hidden inner (.expr part) ∧
            (whole.Accepted outer ↔ whole.blanked.Accepted outer) := by
  obtain ⟨_, known, declared, checked⟩ := Check.ok_of_bind accepted
  refine ⟨known, declared, fun inner part occurs => ?_⟩
  rcases occurs.visited_or_overlooked with visits | ⟨outer, whole, hidden, visits, overlooks, rest⟩
  · exact .inl (visits.accepted ⟨final, checked⟩)
  · exact .inr ⟨outer, whole, hidden, visits, overlooks, rest, overlooks.accepted_iff⟩

/-- `let s: string = f"{y}"`, where `y` is nowhere declared. -/
def Program.undeclaredInTemplate : Program :=
  let place : Location := ⟨1, 1, ""⟩
  [.letVar "s" .string (some (.template [.interpolation (.identifier "y" place) none] place)) place]

theorem Program.accepts_undeclaredInTemplate :
    undeclaredInTemplate.check (.start ⟨[], #[]⟩ [] [] [] 0) "." .fresh =
        .ok () (Checker.fresh.define "s" .string) ∧
      Occurs .fresh (.body undeclaredInTemplate) .fresh (.expr (.identifier "y" ⟨1, 1, ""⟩)) ∧
      Checker.fresh.typeOf (.identifier "y" ⟨1, 1, ""⟩) =
        .error (.error (.typing (.undefinedVariable "y") ⟨1, 1, ""⟩)) :=
  ⟨rfl, .inside .first (.inside .initializer (.hidden (.interpolated (.head _)) .here)), rfl⟩

theorem Program.expressions_checked_template : ∃ outer whole hidden,
    Visits .fresh (.body undeclaredInTemplate) outer whole ∧ Overlooks outer whole hidden := by
  obtain ⟨known, declared, checked⟩ :=
    expressions_checked (.start ⟨[], #[]⟩ [] [] [] 0) "." undeclaredInTemplate rfl
  cases declared
  rcases checked .fresh (.identifier "y" ⟨1, 1, ""⟩)
    (.inside .first (.inside .initializer (.hidden (.interpolated (.head _)) .here)))
    with ⟨_, typed⟩ | ⟨outer, whole, hidden, visits, overlooks, _⟩
  · cases typed
  · exact ⟨outer, whole, hidden, visits, overlooks⟩

end Noxy
