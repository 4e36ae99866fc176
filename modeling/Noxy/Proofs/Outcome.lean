import Noxy.Eval

/-!
# How steps end

A step that is started in a machine ends with a value or with a signal, and leaves a machine behind
either way.
-/

namespace Noxy

namespace Exec

variable {α β : Type}

/-- What holds when a step ends, with a value or a signal. -/
def Ends (step : Exec α) (machine : Machine)
    (onValue : α → Machine → Prop) (onSignal : Signal → Machine → Prop) : Prop :=
  match step machine with
  | .ok value final => onValue value final
  | .error signal final => onSignal signal final

variable {machine : Machine} {onValue : α → Machine → Prop} {onSignal : Signal → Machine → Prop}

theorem Ends.imp (ends : Ends step machine onValue onSignal)
    (valueImplies : ∀ value final, onValue value final → onValue' value final)
    (signalImplies : ∀ signal final, onSignal signal final → onSignal' signal final) :
    Ends step machine onValue' onSignal' := by
  unfold Ends at ends ⊢
  split at ends
  · exact valueImplies _ _ ends
  · exact signalImplies _ _ ends

theorem Ends.and (ends : Ends step machine onValue onSignal)
    (ends' : Ends step machine onValue' onSignal') :
    Ends step machine
      (fun value final => onValue value final ∧ onValue' value final)
      (fun signal final => onSignal signal final ∧ onSignal' signal final) := by
  unfold Ends at ends ends' ⊢
  split at ends
  · rename_i value final ended
    rw [ended] at ends'
    exact ⟨ends, ends'⟩
  · rename_i signal final ended
    rw [ended] at ends'
    exact ⟨ends, ends'⟩

theorem Ends.of_ok (ends : Ends step machine onValue onSignal)
    (ended : step machine = .ok value final) : onValue value final := by
  simpa only [Ends, ended] using ends

@[simp]
theorem ends_pure (value : α) :
    Ends (pure value) machine onValue onSignal ↔ onValue value machine :=
  Iff.rfl

@[simp]
theorem ends_throw (signal : Signal) :
    Ends (throw signal) machine onValue onSignal ↔ onSignal signal machine :=
  Iff.rfl

theorem bind_of_ok {next : β → Exec α} (ended : step machine = .ok value final) :
    (step >>= next) machine = next value final := by
  simp only [bind, EStateM.bind, ended]

theorem get_bind (next : Machine → Exec α) : (get >>= next) machine = next machine machine :=
  rfl

theorem look_bind {read : Heap → β} :
    (look read >>= next) machine = next (read machine.heap) machine :=
  rfl

theorem object?_bind :
    (object? value >>= next) machine = next (machine.heap.object? value) machine :=
  rfl

theorem world_bind {read : World → β} :
    (world read >>= next) machine = next (read machine.world) machine :=
  rfl

@[simp]
theorem ends_bind (step : Exec β) (next : β → Exec α) :
    Ends (step >>= next) machine onValue onSignal ↔
      Ends step machine
        (fun value final => Ends (next value) final onValue onSignal) onSignal := by
  simp only [Ends, bind, EStateM.bind]
  cases step machine <;> rfl

@[simp]
theorem ends_get {onValue : Machine → Machine → Prop} :
    Ends get machine onValue onSignal ↔ onValue machine machine :=
  Iff.rfl

@[simp]
theorem ends_modify {onValue : Unit → Machine → Prop} (change : Machine → Machine) :
    Ends (modify change) machine onValue onSignal ↔ onValue () (change machine) :=
  Iff.rfl

@[simp]
theorem ends_ofExcept_error (cause : Failure) :
    Ends (ofExcept (.error cause)) machine onValue onSignal ↔ onSignal (.failure cause) machine :=
  Iff.rfl

theorem ends_view (read : Heap → Except Failure α) :
    Ends (view read) machine onValue onSignal ↔
      Ends (ofExcept (read machine.heap)) machine onValue onSignal :=
  Iff.rfl

instance {step : Exec α} [∀ value final, Decidable (onValue value final)]
    [∀ signal final, Decidable (onSignal signal final)] :
    Decidable (Ends step machine onValue onSignal) :=
  match ended : step machine with
  | .ok value final => decidable_of_iff (onValue value final) (by simp only [Ends, ended])
  | .error signal final => decidable_of_iff (onSignal signal final) (by simp only [Ends, ended])

def ending (change : Machine → Machine) :
    EStateM.Result Signal Machine α → EStateM.Result Signal Machine α
  | .ok value final => .ok value (change final)
  | .error signal final => .error signal (change final)

theorem ends_of_eq_ending (unchanged : step machine = ending change (step machine)) :
    Ends step machine (fun _ final => final = change final)
      (fun _ final => final = change final) := by
  unfold Ends
  cases ended : step machine with
  | ok =>
    rw [ended, ending, EStateM.Result.ok.injEq] at unchanged
    exact unchanged.2
  | error =>
    rw [ended, ending, EStateM.Result.error.injEq] at unchanged
    exact unchanged.2

theorem bind_commutes (first : step (change machine) = ending change (step machine))
    (rest : Ends step machine
      (fun value final => next value (change final) = ending change (next value final))
      (fun _ _ => True)) :
    (step >>= next) (change machine) = ending change ((step >>= next) machine) := by
  simp only [bind, EStateM.bind, first]
  unfold Ends at rest
  cases ended : step machine with
  | ok =>
    rw [ended] at rest
    exact rest
  | error => rfl

def entered (outer : Nat) (machine : Machine) : Machine :=
  { machine with
    scopes := (machine.scopes.child outer).2
    current := machine.scopes.scopes.size }

def left (before final : Machine) : Machine :=
  { final with
    scopes := final.scopes.shrink before.scopes.scopes.size
    current := before.current }

theorem ends_inScope (outer : Nat) (body : Exec α) :
    Ends (inScope outer body) machine onValue onSignal ↔
      Ends body (entered outer machine)
        (fun value final => onValue value (left machine final))
        (fun signal final => onSignal signal (left machine final)) := by
  simp only [Ends, inScope, entered, left]
  cases body _ <;> rfl

theorem ends_asCall {onValue : Value → Machine → Prop} (body : Exec Unit) :
    Ends (asCall body) machine onValue onSignal ↔
      Ends body machine
        (fun _ final => onValue .null final)
        (fun signal final =>
          match signal with
          | .returning value => onValue value final
          | signal => onSignal signal final) := by
  simp only [Ends, asCall]
  cases body machine with
  | ok => rfl
  | error signal => cases signal <;> rfl

def proceeds (turn : Exec Bool) : Exec Bool := fun machine =>
  match turn machine with
  | .error .breaking final => .ok false final
  | result => result

theorem ends_proceeds {onValue : Bool → Machine → Prop} (turn : Exec Bool) :
    Ends (proceeds turn) machine onValue onSignal ↔
      Ends turn machine onValue
        (fun signal final =>
          match signal with
          | .breaking => onValue false final
          | signal => onSignal signal final) := by
  simp only [Ends, proceeds]
  cases turn machine with
  | ok => rfl
  | error signal => cases signal <;> rfl

theorem truth_cases (value : Value) (machine : Machine) :
    (∃ cause, truth value machine = .error (.failure cause) machine) ∨
      ∃ holds, truth value machine = .ok holds machine := by
  change (∃ cause, ofExcept (machine.heap.isTrue value) machine = _) ∨
    ∃ holds, ofExcept (machine.heap.isTrue value) machine = _
  cases machine.heap.isTrue value with
  | error cause => exact Or.inl ⟨cause, rfl⟩
  | ok holds => exact Or.inr ⟨holds, rfl⟩

end Exec

def loopTurn (fuel : Nat) (condition : Expr) (body : List Stmt) : Exec Bool := do
  let value ← eval fuel condition
  if ← Exec.truth value then
    execBlock fuel body
    return true
  else
    return false

theorem execLoop_succ (fuel : Nat) (condition : Expr) (body : List Stmt) :
    execLoop (fuel + 1) condition body = (do
      if ← Exec.proceeds (loopTurn fuel condition body) then execLoop fuel condition body
      else pure ()) := by
  funext machine
  simp only [execLoop, bind, EStateM.bind, Exec.proceeds, loopTurn]
  cases eval fuel condition machine with
  | error signal => cases signal <;> rfl
  | ok value final =>
    rcases Exec.truth_cases value final with ⟨_, failed⟩ | ⟨holds, read⟩
    · simp only [failed]
    · cases holds with
      | false => simp only [read]; rfl
      | true =>
        simp only [read, if_true, EStateM.bind]
        cases execBlock fuel body final with
        | ok => rfl
        | error signal => cases signal <;> rfl

end Noxy
