import Noxy.Proofs.Tame
import Noxy.Proofs.Sight

/-!
# Closing files, sockets and databases

Structs that hold a handle are copied, so that the handle may be closed already.
-/

namespace Noxy

open Builtin Exec

namespace Handles

variable {α β : Type} {handles : Handles α} {handle : Int}

/-- The open handle that is equal to a number. -/
def find? (handles : Handles α) (handle : Int) : Option Nat :=
  (handles.entries.find? fun entry => handle = entry.1).map Prod.fst

def closing (handles : Handles α) (handle : Int) : Handles α :=
  (handles.find? handle).elim handles handles.close

theorem find?_closing : (handles.closing handle).find? handle = none := by
  unfold closing
  cases found : handles.find? handle with
  | none => exact found
  | some =>
    obtain ⟨entry, isFound, rfl⟩ := Option.map_eq_some_iff.mp found
    have isHandle : handle = entry.1 := of_decide_eq_true (List.find?_some isFound :)
    simp only [find?, Option.elim, close, Option.map_eq_none_iff, List.find?_eq_none,
      List.mem_filter]
    rintro other ⟨_, isOther⟩ isSame
    have same := isHandle.symm.trans (of_decide_eq_true isSame)
    exact of_decide_eq_true isOther (Int.ofNat_inj.mp same.symm)

theorem closing_of_find?_eq_none (absent : handles.find? handle = none) :
    handles.closing handle = handles := by
  rw [closing, absent]
  rfl

theorem openHandle?_bind {next : Option Nat → Exec β} :
    (openHandle? handles (.int handle) >>= next) machine = next (handles.find? handle) machine := by
  have same (left right : Int) : (Key.int left).same (.int right) = decide (left = right) := by
    simp [Key.same, Key.value, Value.numeric?, Numeric.equal, Numeric.compare]
  simp only [find?, ← same]
  rfl

end Handles

/-- A struct holds a handle, and says whether it is open. -/
structure Heap.Holds (heap : Heap) (address : Address) (part : String) (handle : Int)
    (flag : Bool) : Prop where
  isStruct : ∃ struct fields, heap.get? address = some (.struct struct fields)
  isHandle : partIn heap (.object address) part = (true, .int handle)
  isFlag : partIn heap (.object address) "open" = (true, .bool flag)

theorem Heap.Holds.marked {machine : Machine} {address : Address} {handle : Int}
    (holds : machine.heap.Holds address "fd" handle flag) : ∃ later : Heap,
    (setPart (.object address) "open" (.bool false) >>= fun _ => pure Value.null) machine =
        .ok .null { machine with heap := later } ∧
      later.Holds address "fd" handle false := by
  obtain ⟨⟨struct, fields, isStruct⟩, isHandle, _⟩ := holds
  simp only [partIn, Heap.object?, isStruct] at isHandle
  refine ⟨_, rfl, ⟨struct, Bindings.put "open" (.bool false) fields, ?_⟩, ?_, ?_⟩
  · rw [Heap.get?_apply, if_pos rfl, isStruct]
    rfl
  · simp only [partIn, Heap.object?, Heap.get?_apply, if_true, isStruct, Option.map_some,
      Bindings.get?_put_of_ne (by decide : "open" ≠ "fd"), isHandle]
  · simp only [partIn, Heap.object?, Heap.get?_apply, if_true, isStruct, Option.map_some,
      Bindings.get?_put_self, Option.getD_some]

/-- Closing through a struct that says it is open always succeeds, leaves its handle in no table and
changes nothing when it is repeated.  A file's struct says from then on that it is closed.  That of
a socket does so only if its handle was still in the table, and that of a database never. -/
theorem closing_marks_closed (machine : Machine) (address : Address) (handle : Int) :
    (machine.heap.Holds address "fd" handle true → ∃ after,
      ioClose (.object address) machine = .ok .null after ∧
      after.world.files.find? handle = none ∧ after.heap.Holds address "fd" handle false ∧
      ioClose (.object address) after = .ok .null after) ∧
    (machine.heap.Holds address "fd" handle true → ∃ after,
      netClose (.object address) machine = .ok .null after ∧
      after.world.sockets.find? handle = none ∧
      after.heap.Holds address "fd" handle (machine.world.sockets.find? handle).isNone ∧
      netClose (.object address) after = .ok .null after) ∧
    (machine.heap.Holds address "handle" handle true → handle ≠ 0 → ∃ after,
      sqliteClose (.object address) machine = .ok .null after ∧
      after.world.databases.connections.find? handle = none ∧ after.heap = machine.heap ∧
      sqliteClose (.object address) after = .ok .null after) := by
  refine ⟨fun holds => ?file, fun holds => ?socket, fun holds notZero => ?database⟩
  case file =>
    let closed : Machine := { machine with world.files := machine.world.files.closing handle }
    have closes : ioClose (.object address) machine =
        (setPart (.object address) "open" (.bool false) >>= fun _ => pure .null) closed := by
      simp only [ioClose, partOf_eq, look_bind, holds.isHandle, holds.isFlag, isFilled, if_true,
        world_bind, Handles.openHandle?_bind, closed, Handles.closing]
      cases machine.world.files.find? handle <;> rfl
    have later : closed.heap.Holds address "fd" handle true := holds
    obtain ⟨_, isSet, isMarked⟩ := later.marked
    refine ⟨_, closes.trans isSet, Handles.find?_closing, isMarked, ?_⟩
    simp only [ioClose, partOf_eq, look_bind, isMarked.isFlag, isFilled]
    rfl
  case socket =>
    have closes (machine : Machine) {flag : Bool}
        (holds : machine.heap.Holds address "fd" handle flag) :
        netClose (.object address) machine =
          if flag && (machine.world.sockets.find? handle).isSome then
            (setPart (.object address) "open" (.bool false) >>= fun _ => pure .null)
              { machine with world.sockets := machine.world.sockets.closing handle }
          else .ok .null machine := by
      obtain ⟨struct, fields, isStruct⟩ := holds.isStruct
      simp only [netClose, partOf_eq, look_bind, holds.isHandle, holds.isFlag, isFilled]
      cases flag with
      | false => rfl
      | true =>
        simp only [if_true, look_bind, world_bind, Handles.openHandle?_bind, Handles.closing,
          Heap.object?, isStruct]
        cases machine.world.sockets.find? handle <;> rfl
    cases found : machine.world.sockets.find? handle with
    | none =>
      have idle := closes machine holds
      rw [found] at idle
      exact ⟨machine, idle, found, holds, idle⟩
    | some =>
      let closed : Machine := { machine with world.sockets := machine.world.sockets.closing handle }
      have later : closed.heap.Holds address "fd" handle true := holds
      obtain ⟨_, isSet, isMarked⟩ := later.marked
      have first := closes machine holds
      rw [found] at first
      refine ⟨_, first.trans isSet, Handles.find?_closing, isMarked, ?_⟩
      exact closes { closed with heap := _ } isMarked
  case database =>
    have closes (machine : Machine) (holds : machine.heap.Holds address "handle" handle true) :
        sqliteClose (.object address) machine = .ok .null { machine with
          world.databases.connections := machine.world.databases.connections.closing handle } := by
      simp only [sqliteClose, filledHandle?, bind_assoc, partOf_eq, look_bind, holds.isHandle,
        isFilled, notZero, ne_eq, not_false_eq_true, decide_true, if_true, openDatabase?, handleIn?,
        world_bind, Handles.openHandle?_bind, Handles.closing]
      cases machine.world.databases.connections.find? handle <;> rfl
    refine ⟨_, closes machine holds, Handles.find?_closing, rfl, ?_⟩
    rw [closes _ (by exact holds), Handles.closing_of_find?_eq_none Handles.find?_closing]

def Machine.holdingStale : Machine :=
  { Machine.start (.start .empty [] [] [] 0) "." with
    heap := (Heap.empty.alloc (.struct "Socket" [("fd", .int 1000), ("open", .bool true)])).2 }

theorem closing_marks_closed_stale : ∃ after,
    ioClose (.object 0) .holdingStale = .ok .null after ∧
      after.world.files.find? 1000 = none ∧ after.heap.Holds 0 "fd" 1000 false := by
  have holds : Machine.holdingStale.heap.Holds 0 "fd" 1000 true := ⟨⟨_, _, rfl⟩, rfl, rfl⟩
  obtain ⟨after, closed, absent, marked, _⟩ := (closing_marks_closed _ 0 1000).1 holds
  exact ⟨after, closed, absent, marked⟩

theorem stale_socket_stays_open :
    Machine.holdingStale.heap.Holds 0 "fd" 1000 true ∧ ∃ after,
      netClose (.object 0) .holdingStale = .ok .null after ∧
      ¬ after.heap.Holds 0 "fd" 1000 false := by
  refine ⟨⟨⟨_, _, rfl⟩, rfl, rfl⟩, _, rfl, fun holds => ?_⟩
  cases holds.isFlag

end Noxy
