import Noxy.Proofs.Nameless
import Noxy.Proofs.Plain

/-!
# Steps that end tamely

A tame step is a plain one that ends with a value, with a failure that is about no name, or with the
wish of the program to end.
-/

namespace Noxy

def Signal.isTame : Signal → Bool
  | .failure cause => !cause.isAboutName
  | .exit _ => true
  | _ => false

namespace Exec

inductive Tame : {α : Type} → Exec α → Prop where
  | pure {α : Type} (value : α) : Tame (pure value)
  | throw {α : Type} {signal : Signal} (isTame : signal.isTame = true) :
      Tame (throw signal : Exec α)
  | bind {α β : Type} {step : Exec β} {next : β → Exec α}
      (first : Tame step) (rest : ∀ value, Tame (next value)) : Tame (step >>= next)
  | view {α : Type} {read : Heap → Except Failure α} (nameless : ∀ heap, Nameless (read heap)) :
      Tame (view read)
  | look {α : Type} (read : Heap → α) : Tame (look read)
  | alloc (object : Object) : Tame (alloc object)
  | number (value : Float) : Tame (number value)
  | deepCopy (value : Value) : Tame (deepCopy value)
  | changeElements (address : Address) (change : Array Value → Array Value) :
      Tame (apply ⟨address, Object.mapElements change⟩)
  | changeEntries (address : Address) (change : List (Key × Value) → List (Key × Value)) :
      Tame (apply ⟨address, Object.mapEntries change⟩)
  | replacePart (value : Value) (name : String) (part : Value) :
      Tame (Builtin.replacePart value name part)
  | write (text : String) : Tame (write text)
  | world {α : Type} (read : World → α) : Tame (world read)
  | changeWorld (change : World → World) : Tame (changeWorld change)

variable {α β : Type}

theorem Tame.plain (tame : Tame step) : Plain step := by
  induction tame with
  | pure value => exact .pure value
  | throw => exact .throw _
  | bind _ _ first rest => exact .bind first rest
  | view => exact .view _
  | look read => exact .look read
  | alloc object => exact .alloc object
  | number value => exact .number value
  | deepCopy value => exact .deepCopy value
  | changeElements address change => exact .changeElements address change
  | changeEntries address change => exact .changeEntries address change
  | replacePart value name part => exact .replacePart value name part
  | write text => exact .write text
  | world read => exact .world read
  | changeWorld change => exact .changeWorld change

theorem Tame.signals (tame : Tame step) (machine : Machine) :
    Ends step machine (fun _ _ => True) (fun signal _ => signal.isTame = true) := by
  induction tame generalizing machine with
  | bind _ _ first rest =>
    rw [ends_bind]
    exact (first machine).imp (fun value final _ => rest value final) fun _ _ isTame => isTame
  | throw isTame => exact isTame
  | @view _ read nameless =>
    rw [ends_view]
    cases result : read machine.heap with
    | ok => trivial
    | error cause =>
      rw [ends_ofExcept_error, Signal.isTame, nameless _ cause result]
      rfl
  | replacePart value => cases value <;> trivial
  | _ => trivial

attribute [grind ←] Tame.pure Tame.throw Tame.bind Tame.view Tame.look Tame.alloc
  Tame.number Tame.deepCopy Tame.changeElements Tame.changeEntries Tame.replacePart Tame.write
  Tame.world Tame.changeWorld

@[grind ←]
theorem fail_tame (other : cause.isAboutName = false) : Tame (fail cause : Exec α) :=
  .throw (by rw [Signal.isTame, Failure.isAboutName_runtime, other]; rfl)

@[grind ←]
theorem fault_tame (cause : Fault) : Tame (fault cause : Exec α) :=
  .throw rfl

@[grind ←]
theorem ofExcept_tame (nameless : Nameless result) : Tame (ofExcept result) := by
  cases result with
  | ok value => exact .pure value
  | error cause => exact .throw (by rw [Signal.isTame, nameless cause rfl]; rfl)

@[grind ←]
theorem object?_tame : Tame (object? value) :=
  .look _

@[grind ←]
theorem make_tame (made : Made) : Tame (make made) := by
  cases made with
  | value => exact .pure _
  | float => exact .number _
  | object => exact .alloc _

theorem mapM_tame {items : List β} (each : ∀ item ∈ items, Tame (step item)) :
    Tame (items.mapM step) := by
  induction items with
  | nil => exact .pure _
  | cons item _ ih =>
    rw [List.mapM_cons]
    exact .bind (each item List.mem_cons_self) fun _ =>
      .bind (ih fun other member => each other (List.mem_cons_of_mem _ member)) fun _ => .pure _

theorem forM_tame {items : List β} (each : ∀ item ∈ items, Tame (step item)) :
    Tame (items.forM step) := by
  induction items with
  | nil => exact .pure _
  | cons item _ ih =>
    exact .bind (each item List.mem_cons_self) fun _ =>
      ih fun other member => each other (List.mem_cons_of_mem _ member)

end Exec

/-! ### Parts that are there -/

namespace Builtin

open Exec

def partIn (heap : Heap) (value : Value) (name : String) : Bool × Value :=
  match heap.object? value with
  | some (.struct _ fields) => (true, (Bindings.get? name fields).getD .null)
  | some (.map entries) => (true, (Map.get? (.string name) entries).getD .null)
  | _ => (false, .null)

theorem partOf_eq (name : String) :
    partOf value name = look fun heap => partIn heap value name := by
  funext machine
  rw [partOf, object?_bind]
  change _ = EStateM.Result.ok (partIn machine.heap value name) machine
  unfold partIn
  cases machine.heap.object? value with
  | none => rfl
  | some object => cases object <;> rfl

theorem apply_congr
    (same : ∀ object, machine.heap.get? address = some object → change object = other object) :
    apply ⟨address, change⟩ machine = apply ⟨address, other⟩ machine := by
  have sameHeap : machine.heap.apply ⟨address, change⟩ = machine.heap.apply ⟨address, other⟩ := by
    simp only [Heap.apply, Heap.modify, Heap.mk.injEq, and_true]
    refine Array.ext (by simp) fun position isOld isNew => ?_
    rw [Array.getElem_modify, Array.getElem_modify]
    split
    · rename_i isThere
      subst isThere
      refine same _ ?_
      rw [Heap.get?, Array.getElem?_eq_getElem]
    · rfl
  change EStateM.Result.ok () { machine with heap := _ } = .ok () { machine with heap := _ }
  rw [sameHeap]

theorem setPart_eq_replacePart {name : String}
    (filled : isFilled machine.heap (partIn machine.heap value name).2 = true) :
    setPart value name part machine = replacePart value name part machine := by
  cases value with
  | object address =>
    refine apply_congr fun object found => ?_
    have isObject : machine.heap.object? (.object address) = some object := found
    cases object with
    | struct _ fields =>
      simp only [partIn, isObject] at filled
      cases held : Bindings.get? name fields with
      | none =>
        rw [held] at filled
        cases filled
      | some => simp only [held, Option.isSome_some, if_true]
    | _ => rfl
  | _ => rfl

theorem setPart_bind_eq {name : String}
    (filled : isFilled machine.heap (partIn machine.heap value name).2 = true) :
    (setPart value name part >>= next) machine =
      (replacePart value name part >>= next) machine := by
  simp only [bind, EStateM.bind]
  rw [setPart_eq_replacePart filled]

theorem bind_congr_of_ok {step : Exec β} {next other : β → Exec α}
    (same : ∀ value final, step machine = .ok value final → next value final = other value final) :
    (step >>= next) machine = (step >>= other) machine := by
  cases ended : step machine with
  | ok value final => rw [bind_of_ok ended, bind_of_ok ended, same value final ended]
  | error => simp only [bind, EStateM.bind, ended]

theorem openHandle?_final {number : Option Nat}
    (ended : openHandle? handles value machine = .ok number final) : final = machine := by
  unfold openHandle? keyOf at ended
  split at ended
  · cases ended
    rfl
  · cases isKey : value.key? with
    | none =>
      rw [isKey] at ended
      cases ended
    | some =>
      rw [isKey] at ended
      cases ended
      rfl

theorem ioClose_eq (file : Value) : ioClose file = (do
    let (_, handle) ← partOf file "fd"
    let (_, isOpen) ← partOf file "open"
    if ← look fun heap => isFilled heap isOpen then
      let files ← world World.files
      if let some number ← openHandle? files handle then
        changeWorld fun world => { world with files := world.files.close number }
      replacePart file "open" (.bool false)
    return .null) := by
  funext machine
  simp only [ioClose, partOf_eq, look_bind]
  split
  · rename_i isFilled
    simp only [world_bind]
    refine bind_congr_of_ok fun number _ opened => ?_
    obtain rfl := openHandle?_final opened
    cases number with
    | none => exact setPart_bind_eq isFilled
    | some =>
      refine bind_congr_of_ok fun _ _ change => ?_
      cases change
      exact setPart_bind_eq isFilled
  · rfl

theorem netClose_eq (socket : Value) : netClose socket = (do
    let (_, handle) ← partOf socket "fd"
    let (_, isOpen) ← partOf socket "open"
    if ← look fun heap => isFilled heap isOpen then
      let isMap ← look fun heap =>
        match heap.object? socket with
        | some (.map _) => true
        | _ => false
      let sockets ← world World.sockets
      let closing ← openHandle? sockets handle
      if let some number := closing then
        changeWorld fun world => { world with sockets := world.sockets.close number }
      if isMap then
        fault (.part "'dict' object has no attribute 'fields'")
      else if closing.isSome then
        replacePart socket "open" (.bool false)
    return .null) := by
  funext machine
  simp only [netClose, partOf_eq, look_bind]
  split
  · rename_i isFilled
    refine bind_congr_of_ok fun _ _ looked => ?_
    cases looked
    simp only [world_bind]
    refine bind_congr_of_ok fun closing _ opened => ?_
    obtain rfl := openHandle?_final opened
    cases closing with
    | none => rfl
    | some =>
      refine bind_congr_of_ok fun _ _ change => ?_
      cases change
      split
      · rfl
      · exact setPart_bind_eq isFilled
  · rfl

end Builtin

end Noxy
