import Noxy.Proofs.Conduct

/-!
# What builtin functions can see

A builtin function gets at objects through its arguments only.
-/

namespace Noxy

open HasValues

namespace Builtin

open Exec (Respects)

variable {hidden : Hidden}

theorem last?_respects (seen : All (machine.heap.Sees hidden) value) :
    Respects hidden machine (last? value) := by
  refine .looked fun hides => ?_
  have seenParts := hides.object? seen
  split
  · exact all_back? (seenParts _ ‹_›)
  · exact all_back? (seenParts _ ‹_›)
  · simp

theorem replacePart_respects (name : String) (seen : All (machine.heap.Sees hidden) value)
    (seenPart : All (machine.heap.Sees hidden) part) :
    Respects hidden machine (replacePart value name part) := by
  unfold replacePart
  split
  · refine .apply ⟨seen, fun _ all => ?_⟩
    dsimp only
    split
    · split
      · exact all_put seenPart all
      · exact all
    · exact all_mapPut seenPart all
    · exact all
  · exact .pure trivial

end Builtin

def Exec.Respects.conduct (hidden : Hidden) : Conduct where
  Stage := Machine
  Knows machine := machine.heap.Sees hidden
  Later machine later := machine.HiddenKept hidden later
  Allows machine step := Respects hidden machine step
  bare {_ value} isBare := by
    cases value <;> trivial
  still {_ _ value} kept seen := show All _ value from kept.sees seen
  pure seen := .pure seen
  throw _ seen := .throw seen
  bind first rest := .bind first rest
  mapM each := .mapM each
  forM each := .forM each
  view _ := .view _
  add seenLeft seenRight := .viewed fun hides => hides.add seenLeft seenRight
  subtract left right := .viewed fun _ => Heap.all_subtract left right
  multiply seenLeft seenRight := .viewed fun hides => hides.multiply seenLeft seenRight
  look read := .look read
  object? seen := .object? seen
  last? seen := Builtin.last?_respects seen
  alloc seen := .alloc seen
  number value := .number value
  changeElements seen seenChange := .apply ⟨seen, fun _ => all_mapElements seenChange⟩
  changeEntries seen seenChange := .apply ⟨seen, fun _ => all_mapEntries seenChange⟩
  replacePart name seen seenPart := Builtin.replacePart_respects name seen seenPart
  write text := .write text
  world read := .world read
  changeWorld change := .changeWorld change

namespace Builtin

open Exec

variable {hidden : Hidden}

theorem keyOf_respects (value : Value) : Respects hidden machine (keyOf value) :=
  keyOf_allowed (c := Respects.conduct hidden) (s := machine) value

theorem call_respects {name : String} (found : find? name = some builtin)
    (seen : All (machine.heap.Sees hidden) arguments) :
    Respects hidden machine (builtin.call arguments) :=
  call_allowed (c := Respects.conduct hidden) (s := machine) found seen

end Builtin

end Noxy
