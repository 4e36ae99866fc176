import Noxy.Proofs.GlobalScope
import Noxy.Proofs.KeptNames

/-!
# Activities without imports

Functions and structs come into the global scope by imports and by the definitions of a program,
both of which are over when its actions begin.
-/

namespace Noxy

open Exec

/-- Nothing is imported on the way. -/
def Quiet (fuel : Nat) (activity : Activity) (machine : Machine) : Prop :=
  ∀ fuel' part begun, Reaches fuel activity machine fuel' part begun → part.isLoading = false

def Bound.IsVariable (bound : Bound) : Prop :=
  ∃ name, bound = .var name

section

variable {activity : Activity}

theorem Quiet.here (quiet : Quiet fuel activity machine) : activity.isLoading = false :=
  quiet fuel activity machine .here

theorem Quiet.begins (quiet : Quiet (fuel + 1) activity machine)
    (begins : Begins fuel activity machine part begun) : Quiet fuel part begun :=
  fun fuel' inner moment reaches => quiet fuel' inner moment (.inside begins reaches)

theorem Activity.isVariable_of_writes (noLoading : activity.isLoading = false) {number : Nat}
    (writes : activity.Writes machine number bound) : bound.IsVariable := by
  cases activity with
  | bindAll params =>
    cases params with
    | nil => cases writes
    | cons => exact ⟨_, writes.2⟩
  | exec stmt =>
    cases stmt with
    | letVar | globalVar => exact ⟨_, writes.2⟩
    | _ => cases writes
  | assignTarget target =>
    cases target with
    | identifier => exact ⟨_, writes.2⟩
    | _ => cases writes
  | execUse | defineMembers | evalGlobals => cases noLoading
  | _ => cases writes

theorem Activity.Own.keepsDefinitions (noLoading : activity.isLoading = false)
    (own : activity.Own start machine later) : machine.KeepsRoot Bound.IsVariable later :=
  own.keepsRoot_unwritten.mono fun _ => Activity.isVariable_of_writes noLoading

theorem Activity.keepsDefinitions_opened (activity : Activity) (machine : Machine) :
    machine.KeepsRoot Bound.IsVariable (activity.opened machine) :=
  activity.related_opened (.refl _ _) fun _ _ => .of_eq rfl

theorem Quiet.final (quiet : Quiet fuel activity machine) (wellScoped : machine.WellScoped) :
    machine.KeepsRoot Bound.IsVariable (activity.final fuel machine) := by
  induction fuel generalizing activity machine with
  | zero =>
    refine Activity.relates_final_zero (Machine.KeepsRoot _) (.refl _) .trans
      (fun activity _ => activity.isLoading = false) (fun noLoading _ own => ?_)
      (fun {other _ _ _} noLoading direct begins => ?_) wellScoped quiet.here
    · exact own.keepsDefinitions noLoading
    · cases other with
      | bindAll =>
        cases begins
        rfl
      | defineMembers => cases noLoading
      | _ => cases direct
  | succ fuel ih =>
    exact (activity.keepsDefinitions_opened machine).trans (Activity.relates_along
      (Machine.KeepsRoot _) (.refl _) .trans wellScoped (·.keepsDefinitions quiet.here)
      fun _ _ begins => ih (quiet.begins begins)).1

theorem Quiet.keepsDefinitions (quiet : Quiet (fuel + 1) activity machine)
    (wellScoped : machine.WellScoped) (begins : Begins fuel activity machine part begun) :
    machine.KeepsRoot Bound.IsVariable begun := by
  obtain ⟨_, between⟩ := Activity.relates_along (Machine.KeepsRoot Bound.IsVariable)
    (.refl _) .trans
    wellScoped (·.keepsDefinitions quiet.here) fun _ _ begins => (quiet.begins begins).final
  exact (activity.keepsDefinitions_opened machine).trans (between part begun begins).1

theorem Quiet.reaches (quiet : Quiet fuel activity machine) (wellScoped : machine.WellScoped)
    (bare : machine.Bare) (reaches : Reaches fuel activity machine fuel' part begun) :
    begun.WellScoped ∧ begun.Bare ∧ machine.KeepsRoot Bound.IsVariable begun := by
  induction reaches with
  | here => exact ⟨wellScoped, bare, .refl _ _⟩
  | inside begins _ ih =>
    obtain ⟨isScoped, isBare, keeps⟩ := ih (quiet.begins begins) (begins.wellScoped wellScoped)
      (begins.bare wellScoped quiet.here bare)
    exact ⟨isScoped, isBare, (quiet.keepsDefinitions wellScoped begins).trans keeps⟩

end

end Noxy
