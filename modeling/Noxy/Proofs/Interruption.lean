import Noxy.Proofs.Linked

/-!
# Signals that end a run

A loop catches the signal of a `break`, and a call that of a `return`.
-/

namespace Noxy

open Exec

def Signal.endsRun : Signal → Bool
  | .failure _ => true
  | .exit _ => true
  | .breaking => false
  | .returning _ => false

def Activity.catches : Activity → Signal → Bool
  | .callFunction _ _, .returning _ | .execLoop _ _, .breaking => true
  | _, _ => false

theorem Activity.catches_of_endsRun (activity : Activity) (endsRun : signal.endsRun = true) :
    activity.catches signal = false := by
  cases signal <;> cases activity <;> first | rfl | cases endsRun

namespace Exec

variable {α β : Type} {machine : Machine} {signal : Signal}

/-- A step ends with a signal. -/
def Signals (step : Exec α) (machine : Machine) (signal : Signal) : Prop :=
  ∃ final, step machine = .error signal final

namespace Signals

variable {step : Exec α} {next : α → Exec β}

theorem bind (signals : step.Signals machine signal) : (step >>= next).Signals machine signal := by
  obtain ⟨final, ended⟩ := signals
  refine ⟨final, ?_⟩
  simp only [Bind.bind, EStateM.bind, ended]

theorem after (ended : step machine = .ok value middle)
    (signals : (next value).Signals middle signal) : (step >>= next).Signals machine signal := by
  obtain ⟨final, isEnd⟩ := signals
  exact ⟨final, (bind_of_ok ended).trans isEnd⟩

theorem of_bind (signals : (step >>= next).Signals machine signal) :
    step.Signals machine signal ∨
      ∃ value middle, step machine = .ok value middle ∧ (next value).Signals middle signal := by
  obtain ⟨final, ended⟩ := signals
  simp only [Bind.bind, EStateM.bind] at ended
  cases first : step machine with
  | ok value middle =>
    rw [first] at ended
    exact .inr ⟨value, middle, rfl, final, ended⟩
  | error =>
    rw [first] at ended
    cases ended
    exact .inl ⟨_, first⟩

theorem of_discard (signals : (discard step).Signals machine signal) :
    step.Signals machine signal := by
  have asBind : (step >>= fun _ => pure PUnit.unit).Signals machine signal := signals
  rcases asBind.of_bind with signals | ⟨_, _, _, _, ended⟩
  · exact signals
  · cases ended

end Signals

theorem signals_inScope :
    (inScope outer step).Signals machine signal ↔ step.Signals (entered outer machine) signal := by
  rw [Signals, Signals, inScope_eq]
  cases step (entered outer machine) <;> simp [ending]

theorem signals_asCall : (asCall body).Signals machine signal ↔
    body.Signals machine signal ∧ ∀ value, signal ≠ .returning value := by
  rw [Signals, Signals, asCall]
  rcases body machine with _ | (_ | _ | _ | _) <;> simp +contextual [eq_comm]

theorem signals_proceeds :
    (proceeds turn).Signals machine signal ↔ turn.Signals machine signal ∧ signal ≠ .breaking := by
  rw [Signals, Signals, proceeds]
  rcases turn machine with _ | (_ | _ | _ | _) <;> simp +contextual [eq_comm]

end Exec

end Noxy
