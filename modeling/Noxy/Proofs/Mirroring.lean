import Noxy.Proofs.Copies

/-!
# What a copy looks like

A copy has the layout of what was copied, with a new object wherever a list or a struct instance
stands, even where the copied value has one object in several places.
-/

namespace Noxy.Heap

/-- All the objects are different, and none of them stood in the earlier heap. -/
structure Fresh (heap later : Heap) (nodes : List Address) : Prop where
  nodup : nodes.Nodup
  new : ∀ node ∈ nodes, heap.size ≤ node ∧ node < later.size

namespace Fresh

variable {heap : Heap}

theorem nil (heap later : Heap) : heap.Fresh later [] :=
  ⟨List.nodup_nil, by simp⟩

theorem append (fresh : heap.Fresh later nodes) (freshOthers : later.Fresh last others)
    (grown : heap.size ≤ later.size) (grownLater : later.size ≤ last.size) :
    heap.Fresh last (nodes ++ others) where
  nodup := by
    refine List.nodup_append.mpr ⟨fresh.nodup, freshOthers.nodup,
      fun node member other isOther => ?_⟩
    exact Nat.ne_of_lt (Nat.lt_of_lt_of_le (fresh.new node member).2
      (freshOthers.new other isOther).1)
  new node member := by
    rcases List.mem_append.mp member with member | member
    · have bounds := fresh.new node member
      exact ⟨bounds.1, Nat.lt_of_lt_of_le bounds.2 grownLater⟩
    · have bounds := freshOthers.new node member
      exact ⟨Nat.le_trans grown bounds.1, bounds.2⟩

theorem alloc (fresh : heap.Fresh later nodes) (grown : heap.size ≤ later.size) (object : Object) :
    heap.Fresh (later.alloc object).2 (later.size :: nodes) where
  nodup := List.nodup_cons.mpr
    ⟨fun member => Nat.lt_irrefl _ (fresh.new _ member).2, fresh.nodup⟩
  new node member := by
    rw [size_alloc]
    rcases List.mem_cons.mp member with rfl | member
    · exact ⟨grown, Nat.lt_succ_self _⟩
    · have bounds := fresh.new node member
      exact ⟨bounds.1, Nat.lt_succ_of_lt bounds.2⟩

end Fresh

mutual

/-- The copy, in the later heap, is laid out as the value is in the earlier one. The lists and
struct instances of the copy are listed as often as they stand in it, and everything else in it
is what the value has there. -/
inductive Mirrors (heap later : Heap) : Value → Value → List Address → Prop where
  | same {value : Value} (isEnd : heap.IsEnd value) : Mirrors heap later value value []
  | copied {address copy : Address} {object : Object} {parts copies : List Value}
      {nodes : List Address} (found : heap.get? address = some object)
      (hasParts : object.parts? = some parts)
      (made : later.get? copy = some (object.withParts copies))
      (each : MirrorsEach heap later parts copies nodes) :
      Mirrors heap later (.object address) (.object copy) (copy :: nodes)

inductive MirrorsEach (heap later : Heap) : List Value → List Value → List Address → Prop where
  | nil : MirrorsEach heap later [] [] []
  | cons {value copy : Value} {values copies : List Value} {nodes others : List Address}
      (first : Mirrors heap later value copy nodes)
      (rest : MirrorsEach heap later values copies others) :
      MirrorsEach heap later (value :: values) (copy :: copies) (nodes ++ others)

end

mutual

theorem Mirrors.extend {heap : Heap} (extended : later.Extends last) :
    heap.Mirrors later value copy nodes → heap.Mirrors last value copy nodes
  | .same isEnd => .same isEnd
  | .copied found hasParts made each =>
    .copied found hasParts (extended.get? made) (each.extend extended)

theorem MirrorsEach.extend {heap : Heap} (extended : later.Extends last) :
    heap.MirrorsEach later values copies nodes → heap.MirrorsEach last values copies nodes
  | .nil => .nil
  | .cons first rest => .cons (first.extend extended) (rest.extend extended)

end

variable {origin heap : Heap} {depth : Nat} {value : Value} {good : Value → Prop}

theorem copyList_mirrors
    (each : ∀ value (heap : Heap), origin.Extends heap → origin.Spans good depth value →
      ∃ nodes, origin.Mirrors (copyWithin depth value heap).2 value
          (copyWithin depth value heap).1 nodes ∧
        heap.Fresh (copyWithin depth value heap).2 nodes)
    (extended : origin.Extends heap) (spans : ∀ value ∈ values, origin.Spans good depth value) :
    ∃ nodes, origin.MirrorsEach (copyList (copyWithin depth) values heap).2 values
        (copyList (copyWithin depth) values heap).1 nodes ∧
      heap.Fresh (copyList (copyWithin depth) values heap).2 nodes := by
  induction values generalizing heap with
  | nil => exact ⟨[], .nil, .nil _ _⟩
  | cons value rest ih =>
    have grown := copyWithin_extends depth value heap
    have grownRest := copyList_extends (copyWithin_extends depth) rest
      (copyWithin depth value heap).2
    obtain ⟨nodes, first, fresh⟩ := each value heap extended (spans value List.mem_cons_self)
    obtain ⟨others, mirrors, freshOthers⟩ := ih (extended.trans grown) fun other member =>
      spans other (List.mem_cons_of_mem _ member)
    exact ⟨nodes ++ others, .cons (first.extend grownRest) mirrors,
      fresh.append freshOthers grown.grown grownRest.grown⟩

theorem copyWithin_mirrors (extended : origin.Extends heap)
    (spans : origin.Spans good depth value) :
    ∃ nodes, origin.Mirrors (copyWithin depth value heap).2 value
        (copyWithin depth value heap).1 nodes ∧
      heap.Fresh (copyWithin depth value heap).2 nodes := by
  induction depth generalizing value heap with
  | zero =>
    cases spans with
    | ended isEnd => exact ⟨[], .same isEnd, .nil _ _⟩
  | succ depth ih =>
    cases spans with
    | ended isEnd =>
      rw [(extended.isEnd isEnd).copyWithin]
      exact ⟨[], .same isEnd, .nil _ _⟩
    | copied found hasParts spansParts =>
      rename_i address object parts
      rw [copyWithin_of_parts (extended.get? found) hasParts]
      obtain ⟨nodes, mirrors, fresh⟩ := copyList_mirrors (fun _ _ => ih) extended spansParts
      have grown := copyList_extends (copyWithin_extends depth) parts heap
      refine ⟨_ :: nodes, .copied found hasParts ?_ (mirrors.extend (.alloc _ _)),
        fresh.alloc grown.grown _⟩
      exact (get?_alloc ..).trans (if_pos rfl)

/-- A value whose links go down through at most some number of lists and struct instances, that is,
without a cycle, is copied completely, and the objects that were there stay as they are. -/
theorem deepCopy_mirrors (acyclic : heap.Spans (fun _ => True) depth value) :
    heap.Extends (heap.deepCopy value).2 ∧
      ∃ nodes, heap.Mirrors (heap.deepCopy value).2 value (heap.deepCopy value).1 nodes ∧
        heap.Fresh (heap.deepCopy value).2 nodes :=
  ⟨deepCopy_extends value heap, copyWithin_mirrors (.refl heap) acyclic.within_depth⟩

/-- A struct instance with one list in both of its fields. -/
def sharedPair : Heap :=
  ⟨#[.list #[.int 1], .struct "Pair" [("left", .object 0), ("right", .object 0)]], 0⟩

theorem sharedPair_spans : sharedPair.Spans (fun _ => True) 2 (.object 1) := by
  have element : sharedPair.Spans (fun _ => True) 0 (.int 1) := .ended trivial trivial
  have list : sharedPair.Spans (fun _ => True) 1 (.object 0) :=
    .copied rfl rfl (by simpa using element)
  exact .copied rfl rfl (by simpa using list)

theorem deepCopy_mirrors_sharedPair :
    ∃ nodes, sharedPair.Mirrors (sharedPair.deepCopy (.object 1)).2 (.object 1)
        (sharedPair.deepCopy (.object 1)).1 nodes ∧
      sharedPair.Fresh (sharedPair.deepCopy (.object 1)).2 nodes :=
  (deepCopy_mirrors sharedPair_spans).2

end Noxy.Heap
