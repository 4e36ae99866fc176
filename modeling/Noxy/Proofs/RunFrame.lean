import Noxy.Proofs.ModuleRecord

/-!
# Frames of runs

A frame is a relation between machines that holds of whatever an activity does itself: of plain
steps, assignments, bindings, and scopes that are entered and left.
-/

namespace Noxy

open Exec

/-- A relation between machines that holds of whatever an activity does itself, and so of the
machines before and after everything that goes on in a run. -/
structure Machine.IsFrame (related : Machine → Machine → Prop) : Prop where
  refl : ∀ machine, related machine machine
  trans : ∀ {first second third}, related first second → related second third → related first third
  own : ∀ {activity : Activity} {start machine later}, activity.Own start machine later →
    related machine later
  remembering : ∀ machine resolved path, related machine (machine.remembering resolved path)

namespace Machine.IsFrame

variable {related : Machine → Machine → Prop}

variable (frame : IsFrame related)
include frame

theorem opened (activity : Activity) (machine : Machine) :
    related machine (activity.opened machine) :=
  activity.related_opened (frame.refl _) (frame.remembering machine)

section

variable {machine : Machine} (wellScoped : machine.WellScoped)
include wellScoped

theorem along (parts : ∀ part begun, Noxy.Begins fuel activity machine part begun →
      related begun (part.final fuel begun)) :
    related machine (activity.final (fuel + 1) machine) ∧
      ∀ part begun, Noxy.Begins fuel activity machine part begun →
        related machine begun ∧
          related (part.final fuel begun) (activity.final (fuel + 1) machine) := by
  obtain ⟨toEnd, between⟩ := Activity.relates_along related frame.refl frame.trans wellScoped
    frame.own fun part begun begins _ => parts part begun begins
  refine ⟨frame.trans (frame.opened _ _) toEnd, fun part begun begins => ?_⟩
  obtain ⟨before, after⟩ := between part begun begins
  exact ⟨frame.trans (frame.opened _ _) before, after⟩

theorem final (fuel : Nat) (activity : Activity) :
    related machine (activity.final fuel machine) := by
  induction fuel generalizing activity machine with
  | zero =>
    exact Activity.relates_final_zero related frame.refl frame.trans (fun _ _ => True)
      (fun _ _ own => frame.own own) (fun _ _ _ => trivial) wellScoped trivial
  | succ _ ih =>
    exact (frame.along wellScoped fun part _ begins => ih (begins.wellScoped wellScoped) part).1

theorem begins (begins : Noxy.Begins fuel activity machine part begun) :
    related machine begun ∧
      related (part.final fuel begun) (activity.final (fuel + 1) machine) :=
  (frame.along wellScoped fun part _ begins =>
    frame.final (begins.wellScoped wellScoped) fuel part).2 part begun begins

theorem reaches (reaches : Reaches fuel activity machine fuel' part begun) :
    begun.WellScoped ∧ related machine begun ∧
      related (part.final fuel' begun) (activity.final fuel machine) := by
  induction reaches with
  | here => exact ⟨wellScoped, frame.refl _, frame.refl _⟩
  | inside begins _ ih =>
    obtain ⟨innerScoped, before, after⟩ := ih (begins.wellScoped wellScoped)
    obtain ⟨outerBefore, outerAfter⟩ := frame.begins wellScoped begins
    exact ⟨innerScoped, frame.trans outerBefore before, frame.trans after outerAfter⟩

end

theorem after {step : Exec α} {next : α → Exec β}
    (rest : ∀ value middle, step machine = .ok value middle →
      related middle ((next value).final middle)) :
    related (step.final machine) ((step >>= next).final machine) := by
  cases ended : step machine with
  | ok value middle =>
    rw [final_bind_of_ok ended, final_of_ok ended]
    exact rest value middle ended
  | error =>
    rw [final_bind_of_error ended, final_of_error ended]
    exact frame.refl _

theorem phase (wellScoped : machine.WellScoped) {program : Program}
    (begins : program.Begins fuel machine activity begun) :
    begun.WellScoped ∧ related machine begun ∧
      related (activity.final fuel begun) ((program.run fuel).final machine) := by
  have ran (activity : Activity) {step : Exec Unit} {machine final : Machine}
      (runs : activity.run fuel = step) (isScoped : machine.WellScoped)
      (ended : step machine = .ok () final) : final.WellScoped ∧ related machine final := by
    have isFinal := (Activity.final_of_run runs machine).trans (final_of_ok ended)
    exact isFinal ▸ ⟨Activity.wellScoped_final isScoped fuel activity,
      frame.final isScoped fuel activity⟩
  have actions {defined : Machine} (isScoped : defined.WellScoped) :
      related defined ((execAll fuel (program.filter Stmt.isAction)).final defined) := by
    have related := frame.final isScoped fuel (.execAll (program.filter Stmt.isAction))
    rwa [Activity.final_of_run rfl] at related
  have definitions {imported : Machine} (isScoped : imported.WellScoped) :
      related ((defineMembers 0 none program).final imported) ((do
        defineMembers 0 none program
        execAll fuel (program.filter Stmt.isAction)).final imported) :=
    frame.after fun _ _ ended =>
      actions (ran (.defineMembers 0 none program) rfl isScoped ended).1
  cases begins with
  | imports =>
    refine ⟨wellScoped, frame.refl _, ?_⟩
    rw [Activity.final_of_run rfl]
    refine frame.after fun _ _ ended => ?_
    obtain ⟨isScoped, _⟩ := ran (.useAll program) rfl wellScoped ended
    refine frame.trans ?_ (definitions isScoped)
    have related := frame.final isScoped fuel (.defineMembers 0 none program)
    rwa [Activity.final_of_run rfl] at related
  | definitions imported =>
    obtain ⟨isScoped, before⟩ := ran (.useAll program) rfl wellScoped imported
    refine ⟨isScoped, before, ?_⟩
    rw [Activity.final_of_run rfl, Program.run, final_bind_of_ok imported]
    exact definitions isScoped
  | actions imported defined =>
    obtain ⟨isScoped, before⟩ := ran (.useAll program) rfl wellScoped imported
    obtain ⟨isScoped, between⟩ := ran (.defineMembers 0 none program) rfl isScoped defined
    refine ⟨isScoped, frame.trans before between, ?_⟩
    rw [Activity.final_of_run rfl, Program.run, final_bind_of_ok imported, final_bind_of_ok defined]
    exact frame.refl _

theorem moment (wellScoped : machine.WellScoped) {program : Program} {moment : Machine}
    (isMoment : program.IsMoment fuel machine moment) :
    related moment ((program.run fuel).final machine) := by
  obtain ⟨_, _, fuel', part, _, begins, reaches, isHere⟩ := isMoment
  obtain ⟨isScoped, _, toEnd⟩ := frame.phase wellScoped begins
  obtain ⟨innerScoped, _, outwards⟩ := frame.reaches isScoped reaches
  have fromEnd := frame.trans outwards toEnd
  rcases isHere with rfl | rfl
  · exact frame.trans (frame.final innerScoped fuel' part) fromEnd
  · exact fromEnd

end Machine.IsFrame

theorem Program.IsMoment.wellScoped {program : Program}
    (isMoment : program.IsMoment fuel machine moment) (wellScoped : machine.WellScoped) :
    moment.WellScoped := by
  have frame : Machine.IsFrame fun _ _ => True :=
    ⟨fun _ => trivial, fun _ _ => trivial, fun _ => trivial, fun _ _ _ => trivial⟩
  obtain ⟨_, _, fuel', part, _, begins, reaches, isHere⟩ := isMoment
  have innerScoped := (frame.reaches (frame.phase wellScoped begins).1 reaches).1
  rcases isHere with rfl | rfl
  · exact innerScoped
  · exact Activity.wellScoped_final innerScoped fuel' part

end Noxy
