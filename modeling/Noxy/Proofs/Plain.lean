import Noxy.Proofs.Outcome

/-!
# What builtin functions touch

A plain step is built from operations on the heap, the output and the world: it reads and changes
objects, writes text and acts on files, and it may end with a signal at any point.
-/

namespace Noxy

def Builtin.replacePart (value : Value) (name : String) (part : Value) : Exec Unit :=
  match value with
  | .object address =>
    Exec.apply ⟨address, fun object =>
      match object with
      | .struct struct fields =>
        .struct struct
          (if (Bindings.get? name fields).isSome then Bindings.put name part fields else fields)
      | .map entries => .map (Map.put (.string name) part entries)
      | object => object⟩
  | _ => pure ()

namespace Exec

inductive Plain : {α : Type} → Exec α → Prop where
  | pure {α : Type} (value : α) : Plain (pure value)
  | throw {α : Type} (signal : Signal) : Plain (throw signal : Exec α)
  | bind {α β : Type} {step : Exec β} {next : β → Exec α}
      (first : Plain step) (rest : ∀ value, Plain (next value)) : Plain (step >>= next)
  | view {α : Type} (read : Heap → Except Failure α) : Plain (view read)
  | look {α : Type} (read : Heap → α) : Plain (look read)
  | alloc (object : Object) : Plain (alloc object)
  | number (value : Float) : Plain (number value)
  | deepCopy (value : Value) : Plain (deepCopy value)
  | changeElements (address : Address) (change : Array Value → Array Value) :
      Plain (apply ⟨address, Object.mapElements change⟩)
  | changeEntries (address : Address) (change : List (Key × Value) → List (Key × Value)) :
      Plain (apply ⟨address, Object.mapEntries change⟩)
  | replacePart (value : Value) (name : String) (part : Value) :
      Plain (Builtin.replacePart value name part)
  | write (text : String) : Plain (write text)
  | world {α : Type} (read : World → α) : Plain (world read)
  | changeWorld (change : World → World) : Plain (changeWorld change)

variable {α β : Type}

attribute [grind ←] Plain.pure Plain.throw Plain.bind Plain.view Plain.look Plain.alloc
  Plain.number Plain.deepCopy Plain.changeElements Plain.changeEntries Plain.replacePart Plain.write
  Plain.world Plain.changeWorld

@[grind ←]
theorem fail_plain (cause : RuntimeCause) : Plain (fail cause : Exec α) :=
  .throw _

@[grind ←]
theorem fault_plain (cause : Fault) : Plain (fault cause : Exec α) :=
  .throw _

@[grind ←]
theorem ofExcept_plain : Plain (ofExcept result) := by
  cases result with
  | ok value => exact .pure value
  | error => exact .throw _

@[grind ←]
theorem object?_plain (value : Value) : Plain (object? value) :=
  .look _

@[grind ←]
theorem struct_plain (name : String) (fields : List (String × Value)) :
    Plain (struct name fields) :=
  .alloc _

@[grind ←]
theorem make_plain (made : Made) : Plain (make made) := by
  cases made with
  | value => exact .pure _
  | float => exact .number _
  | object => exact .alloc _

/-! ### Plain steps and scopes -/

def rescoped (scopes : Scopes) (current : Nat) (machine : Machine) : Machine :=
  { machine with scopes := scopes, current := current }

theorem Plain.commutes (plain : Plain step) (scopes : Scopes) (current : Nat) (machine : Machine) :
    step (rescoped scopes current machine) = ending (rescoped scopes current) (step machine) := by
  induction plain generalizing machine with
  | bind _ _ firstCommutes restCommutes =>
    refine bind_commutes (firstCommutes machine) ?_
    unfold Ends
    split
    · exact restCommutes _ _
    · trivial
  | view read =>
    change ofExcept (read machine.heap) _ = ending _ (ofExcept (read machine.heap) machine)
    cases read machine.heap <;> rfl
  | replacePart value => cases value <;> rfl
  | pure _ | throw _ | look _ | alloc _ | number _ | deepCopy _ | changeElements _ _
  | changeEntries | write | world | changeWorld => rfl

theorem Plain.keeps_scopes (plain : Plain step) (machine : Machine) :
    Ends step machine
      (fun _ final => final.scopes = machine.scopes ∧ final.current = machine.current)
      (fun _ final => final.scopes = machine.scopes ∧ final.current = machine.current) := by
  have kept (final : Machine) (unchanged : final = rescoped machine.scopes machine.current final) :
      final.scopes = machine.scopes ∧ final.current = machine.current := by
    rw [unchanged]
    exact ⟨rfl, rfl⟩
  have ends := ends_of_eq_ending (plain.commutes machine.scopes machine.current machine)
  exact ends.imp (fun _ => kept) (fun _ => kept)

end Exec

end Noxy
