import Noxy.Proofs.HiddenNames
import Noxy.Proofs.Outcome

/-!
# What a machine can see

Objects are found by their addresses, so a running program can only get at the objects that its
variables and modules lead to.
-/

namespace Noxy

/-! ### Data that holds values -/

class HasValues (α : Type) where
  All : (Value → Prop) → α → Prop
  imp : ∀ {good better : Value → Prop} {data : α},
    (∀ value, good value → better value) → All good data → All better data
  all_true : ∀ data : α, All (fun _ => True) data

open HasValues

class NoValues (α : Type) [HasValues α] : Prop where
  all : ∀ (good : Value → Prop) (data : α), All good data

section Instances

variable {α β : Type} [HasValues α] [HasValues β]

instance : HasValues Value where
  All good value := good value
  imp better good := better _ good
  all_true _ := trivial

instance (priority := low) {γ : Type} : HasValues γ where
  All _ _ := True
  imp _ _ := trivial
  all_true _ := trivial

instance (priority := low) {γ : Type} : NoValues γ where
  all _ _ := trivial

instance : HasValues (Option α) where
  All good data := ∀ item ∈ data, All good item
  imp better all item member := imp better (all item member)
  all_true _ item _ := all_true item

instance [NoValues α] : NoValues (Option α) where
  all good _ item _ := NoValues.all good item

instance : HasValues (List α) where
  All good data := ∀ item ∈ data, All good item
  imp better all item member := imp better (all item member)
  all_true _ item _ := all_true item

instance [NoValues α] : NoValues (List α) where
  all good _ item _ := NoValues.all good item

instance : HasValues (Array α) where
  All good data := ∀ item ∈ data, All good item
  imp better all item member := imp better (all item member)
  all_true _ item _ := all_true item

instance : HasValues (α × β) where
  All good data := All good data.1 ∧ All good data.2
  imp better all := ⟨imp better all.1, imp better all.2⟩
  all_true data := ⟨all_true data.1, all_true data.2⟩

instance [NoValues α] [NoValues β] : NoValues (α × β) where
  all good data := ⟨NoValues.all good data.1, NoValues.all good data.2⟩

instance {ε : Type} : HasValues (Except ε α) where
  All good data := ∀ item, data = .ok item → All good item
  imp better all item isItem := imp better (all item isItem)
  all_true _ item _ := all_true item

instance {ε : Type} [NoValues α] : NoValues (Except ε α) where
  all good _ item _ := NoValues.all good item

instance : HasValues Target where
  All good
    | .value value => good value
    | .field object _ => good object
    | .key object key => good object ∧ good key
    | .index object index => good object ∧ good index
  imp {_ _ target} better all := by
    cases target with
    | value value => exact better _ all
    | field object name => exact better _ all
    | key object key => exact ⟨better _ all.1, better _ all.2⟩
    | index object index => exact ⟨better _ all.1, better _ all.2⟩
  all_true target := by
    cases target <;> simp

instance : HasValues Object where
  All good
    | .list elements => All good elements
    | .array elements _ => All good elements
    | .map entries => All good entries
    | .struct _ fields => All good fields
    | .ref target => All good target
    | .module _ members => All good members
  imp {_ _ object} better all := by
    cases object <;> exact imp better all
  all_true object := by
    cases object <;> exact all_true _

instance : HasValues Made where
  All good
    | .value value => good value
    | .float _ => True
    | .object object => All good object
  imp {_ _ made} better all := by
    cases made with
    | value value => exact better _ all
    | float number => trivial
    | object object => exact imp better all
  all_true made := by
    cases made <;> first | trivial | exact all_true _

instance : HasValues Signal where
  All good
    | .returning value => good value
    | .exit code => good code
    | _ => True
  imp {_ _ signal} better all := by
    cases signal with
    | failure cause => trivial
    | breaking => trivial
    | returning value => exact better _ all
    | exit code => exact better _ all
  all_true signal := by
    cases signal <;> trivial

instance : HasValues Variable where
  All good binding := good binding.value
  imp better all := better _ all
  all_true _ := trivial

instance : HasValues Function where
  All good function := good (.function function)
  imp better all := better _ all
  all_true _ := trivial

instance : HasValues Struct where
  All good struct := good (.struct struct)
  imp better all := better _ all
  all_true _ := trivial

instance : HasValues Scope where
  All good scope :=
    All good scope.bindings ∧ All good scope.functions ∧ All good scope.structs
  imp better all := ⟨imp better all.1, imp better all.2.1, imp better all.2.2⟩
  all_true scope := ⟨all_true scope.bindings, all_true scope.functions, all_true scope.structs⟩

end Instances

section Laws

variable {α β : Type} [HasValues α] [HasValues β] {good : Value → Prop}

@[simp, grind =]
theorem all_noValues [NoValues α] (data : α) : All good data = True :=
  eq_true (NoValues.all good data)

@[simp, grind =]
theorem all_none : All good (none : Option α) = True := by
  simp [All]

@[simp, grind =]
theorem all_some (item : α) : All good (some item) = All good item := by
  simp [All]

@[simp, grind =]
theorem all_nil : All good ([] : List α) = True := by
  simp [All]

@[simp, grind =]
theorem all_cons (item : α) (items : List α) :
    All good (item :: items) = (All good item ∧ All good items) := by
  simp [All]

@[simp, grind =]
theorem all_append (items others : List α) :
    All good (items ++ others) = (All good items ∧ All good others) := by
  simp only [All, List.mem_append, or_imp, forall_and]

@[simp, grind =]
theorem all_pair (first : α) (second : β) :
    All good (first, second) = (All good first ∧ All good second) :=
  rfl

@[simp, grind =]
theorem all_field (name : String) (value : Value) (rest : List (String × Value)) :
    All good ((name, value) :: rest) = (All good value ∧ All good rest) := by
  simp

@[simp]
theorem all_toArray (items : List α) : All good items.toArray = All good items := by
  simp [All]

@[simp]
theorem all_toList (items : Array α) : All good items.toList = All good items := by
  simp [All]

@[grind ←]
theorem all_replicate {item : α} (all : All good item) (count : Nat) :
    All good (List.replicate count item) := by
  intro _ member
  rw [List.eq_of_mem_replicate member]
  exact all

@[simp, grind =]
theorem all_list : All good (Object.list elements) = All good elements :=
  rfl

@[simp, grind =]
theorem all_array : All good (Object.array elements type) = All good elements :=
  rfl

@[simp, grind =]
theorem all_map : All good (Object.map entries) = All good entries :=
  rfl

@[simp, grind =]
theorem all_struct : All good (Object.struct name fields) = All good fields :=
  rfl

@[simp, grind =]
theorem all_module : All good (Object.module name members) = All good members :=
  rfl

@[simp, grind =]
theorem all_ref : All good (Object.ref target) = All good target :=
  rfl

theorem all_get? {bindings : List (String × α)} (all : All good bindings) :
    All good (Bindings.get? name bindings) := by
  intro _ found
  exact (all _ (Bindings.mem_of_get? found)).2

theorem all_put {bindings : List (String × α)} (allItem : All good item) (all : All good bindings) :
    All good (Bindings.put name item bindings) := by
  intro entry member
  rcases Bindings.mem_put member with rfl | isOld
  · exact ⟨trivial, allItem⟩
  · exact all entry isOld

end Laws

/-! ### Laws of heaps -/

namespace Heap

variable {heap : Heap}

@[simp]
theorem size_alloc (heap : Heap) (object : Object) : (heap.alloc object).2.size = heap.size + 1 :=
  Array.size_push _

theorem get?_alloc (heap : Heap) (object : Object) (address : Address) :
    (heap.alloc object).2.get? address =
      if address = heap.size then some object else heap.get? address :=
  Array.getElem?_push

@[simp]
theorem size_apply (heap : Heap) (change : Change) : (heap.apply change).size = heap.size :=
  Array.size_modify

theorem get?_apply (heap : Heap) (change : Change) (address : Address) :
    (heap.apply change).get? address =
      if change.address = address then (heap.get? address).map change.change
      else heap.get? address :=
  Array.getElem?_modify

theorem lt_size_of_get? (found : heap.get? address = some object) : address < heap.size :=
  (Array.getElem?_eq_some_iff.mp found).1

end Heap

/-! ### Hidden objects -/

/-- A value is seen if it leads to no hidden object and to none that does not exist; a function or
struct is seen if it mentions nothing hidden, and a function only if the program may get at it. -/
def Heap.Sees (hidden : Hidden) (heap : Heap) : Value → Prop
  | .object address => address < heap.size ∧ ¬ hidden.objects address
  | .function function => hidden.Allows function.mentions ∧ hidden.functions function
  | .struct struct => hidden.Allows struct.mentions
  | _ => True

/-- What is in sight leads to nothing hidden. -/
structure Heap.Hides (hidden : Hidden) (heap : Heap) : Prop where
  exist : ∀ address, hidden.objects address → address < heap.size
  objects : ∀ address object, heap.get? address = some object → ¬ hidden.objects address →
    All (heap.Sees hidden) object

structure Change.Seen (hidden : Hidden) (heap : Heap) (change : Change) : Prop where
  address : All (heap.Sees hidden) (Value.object change.address)
  change : ∀ object, All (heap.Sees hidden) object → All (heap.Sees hidden) (change.change object)

/-- No object leads to anything hidden, and no variable, function or struct under a name that is not
hidden does.  Modules that were loaded do not either, if they can be imported again. -/
structure Machine.Hides (hidden : Hidden) (machine : Machine) : Prop where
  heap : machine.heap.Hides hidden
  scopes : All (machine.heap.Sees hidden) (machine.without hidden).scopes.scopes
  modules : hidden.imports = true → All (machine.heap.Sees hidden) machine.modules

structure Heap.HiddenKept (hidden : Hidden) (heap later : Heap) : Prop where
  hides : later.Hides hidden
  grown : heap.size ≤ later.size
  same : ∀ address, hidden.objects address → later.get? address = heap.get? address

/-- A later machine in which hidden objects are as they were, and still hidden.  Functions and
structs are added to the global scope by imports only. -/
structure Machine.HiddenKept (hidden : Hidden) (machine later : Machine) : Prop where
  hides : later.Hides hidden
  heap : machine.heap.HiddenKept hidden later.heap
  definitions : hidden.imports = false → later.scopes.definitions = machine.scopes.definitions

section Sight

variable {α : Type} [HasValues α] {hidden : Hidden} {heap later : Heap} {machine : Machine}

@[simp, grind =]
theorem all_null : All (heap.Sees hidden) Value.null = True :=
  rfl

@[simp, grind =]
theorem all_bool (flag : Bool) : All (heap.Sees hidden) (Value.bool flag) = True :=
  rfl

@[simp, grind =]
theorem all_int (number : Int) : All (heap.Sees hidden) (Value.int number) = True :=
  rfl

@[simp, grind =]
theorem all_float : All (heap.Sees hidden) (Value.float number) = True :=
  rfl

@[simp, grind =]
theorem all_nan : All (heap.Sees hidden) (Value.nan mark) = True :=
  rfl

@[simp, grind =]
theorem all_string (text : String) : All (heap.Sees hidden) (Value.string text) = True :=
  rfl

@[simp, grind =]
theorem all_bytes (content : List UInt8) : All (heap.Sees hidden) (Value.bytes content) = True :=
  rfl

namespace Heap

theorem Hides.object? (hides : heap.Hides hidden) (seen : All (heap.Sees hidden) value) :
    All (heap.Sees hidden) (heap.object? value) := by
  intro object found
  cases value with
  | object address => exact hides.objects address object found seen.2
  | _ => cases found

theorem Sees.of_size_le
    (grown : heap.size ≤ later.size) {data : α} (seen : All (heap.Sees hidden) data) :
    All (later.Sees hidden) data := by
  refine imp (fun value seenValue => ?_) seen
  cases value with
  | object => exact ⟨Nat.lt_of_lt_of_le seenValue.1 grown, seenValue.2⟩
  | _ => exact seenValue

theorem HiddenKept.sees
    (kept : heap.HiddenKept hidden later) {data : α} (seen : All (heap.Sees hidden) data) :
    All (later.Sees hidden) data :=
  Sees.of_size_le kept.grown seen

theorem HiddenKept.refl (hides : heap.Hides hidden) : heap.HiddenKept hidden heap :=
  ⟨hides, Nat.le_refl _, fun _ _ => rfl⟩

theorem HiddenKept.trans (kept : heap.HiddenKept hidden later)
    (keptLast : later.HiddenKept hidden last) : heap.HiddenKept hidden last :=
  ⟨keptLast.hides, Nat.le_trans kept.grown keptLast.grown, fun address isHidden =>
    (keptLast.same address isHidden).trans (kept.same address isHidden)⟩

theorem Hides.alloc (hides : heap.Hides hidden) (seen : All (heap.Sees hidden) object) :
    heap.HiddenKept hidden (heap.alloc object).2 := by
  have grown : heap.size ≤ (heap.alloc object).2.size := by simp
  refine ⟨⟨fun address isHidden => ?_, fun address other found notHidden => ?_⟩, grown, ?_⟩
  · exact Nat.lt_of_lt_of_le (hides.exist address isHidden) grown
  · rw [get?_alloc] at found
    split at found
    · cases found
      exact Sees.of_size_le grown seen
    · exact Sees.of_size_le grown (hides.objects address other found notHidden)
  · intro address isHidden
    rw [get?_alloc, if_neg (Nat.ne_of_lt (hides.exist address isHidden))]

theorem Hides.sees_new (hides : heap.Hides hidden) (object : Object) :
    All ((heap.alloc object).2.Sees hidden) (heap.alloc object).1 := by
  refine ⟨?_, fun isHidden => Nat.lt_irrefl _ (hides.exist _ isHidden)⟩
  rw [size_alloc]
  exact Nat.lt_succ_self _

theorem Hides.apply (hides : heap.Hides hidden) (seen : change.Seen hidden heap) :
    heap.HiddenKept hidden (heap.apply change) := by
  have grown : heap.size ≤ (heap.apply change).size := by simp
  refine ⟨⟨fun address isHidden => ?_, fun address object found notHidden => ?_⟩, grown, ?_⟩
  · exact Nat.lt_of_lt_of_le (hides.exist address isHidden) grown
  · apply Sees.of_size_le grown
    rw [get?_apply] at found
    split at found
    · rcases Option.map_eq_some_iff.mp found with ⟨old, foundOld, rfl⟩
      exact seen.change old (hides.objects address old foundOld notHidden)
    · exact hides.objects address object found notHidden
  · intro _ isHidden
    rw [get?_apply, if_neg]
    rintro rfl
    exact seen.address.2 isHidden

end Heap

theorem Machine.HiddenKept.refl (hides : machine.Hides hidden) :
    machine.HiddenKept hidden machine :=
  ⟨hides, .refl hides.heap, fun _ => rfl⟩

theorem Machine.HiddenKept.trans (kept : machine.HiddenKept hidden final)
    (keptLast : final.HiddenKept hidden last) : machine.HiddenKept hidden last :=
  ⟨keptLast.hides, kept.heap.trans keptLast.heap, fun noImports =>
    (keptLast.definitions noImports).trans (kept.definitions noImports)⟩

@[grind →]
theorem Machine.HiddenKept.sees (kept : machine.HiddenKept hidden final) {data : α}
    (seen : All (machine.heap.Sees hidden) data) : All (final.heap.Sees hidden) data :=
  kept.heap.sees seen

theorem Machine.Hides.withHeap
    (hides : machine.Hides hidden) (kept : machine.heap.HiddenKept hidden heap) :
    machine.HiddenKept hidden { machine with heap := heap } :=
  ⟨⟨kept.hides, kept.sees hides.scopes, fun imports => kept.sees (hides.modules imports)⟩, kept,
    fun _ => rfl⟩

theorem Machine.Hides.withWorld (hides : machine.Hides hidden) (output : String) (world : World) :
    machine.HiddenKept hidden { machine with output := output, world := world } :=
  ⟨⟨hides.heap, hides.scopes, hides.modules⟩, .refl hides.heap, fun _ => rfl⟩

end Sight

/-! ### Steps that respect what is hidden -/

namespace Exec

/--
Started in the machine, the step leaves hidden objects as they are, and neither what it leaves
behind nor what it gives leads to them.  Started without the hidden names, it does the same.
-/
structure Respects {α : Type} [HasValues α] (hidden : Hidden) (machine : Machine)
    (step : Exec α) : Prop where
  same : machine.Hides hidden →
    step (machine.without hidden) = ending (Machine.without hidden) (step machine)
  ends : machine.Hides hidden →
    Ends step machine
      (fun value final => machine.HiddenKept hidden final ∧ All (final.heap.Sees hidden) value)
      (fun signal final => machine.HiddenKept hidden final ∧ All (final.heap.Sees hidden) signal)

namespace Respects

variable {α β : Type} [HasValues α] [HasValues β] {hidden : Hidden} {machine : Machine}

@[grind ←]
theorem pure {value : α} (seen : All (machine.heap.Sees hidden) value) :
    Respects hidden machine (pure value) :=
  ⟨fun _ => rfl, fun hides => ⟨.refl hides, seen⟩⟩

@[grind ←]
theorem throw (seen : All (machine.heap.Sees hidden) signal) :
    Respects hidden machine (throw signal : Exec α) :=
  ⟨fun _ => rfl, fun hides => ⟨.refl hides, seen⟩⟩

@[grind ←]
theorem fail (cause : RuntimeCause) : Respects hidden machine (fail cause : Exec α) :=
  throw trivial

@[grind ←]
theorem fault (cause : Fault) : Respects hidden machine (fault cause : Exec α) :=
  throw trivial

@[grind ←]
theorem bind {next : β → Exec α} (first : Respects hidden machine step)
    (rest : ∀ value final, machine.HiddenKept hidden final →
      All (final.heap.Sees hidden) value → Respects hidden final (next value)) :
    Respects hidden machine (step >>= next) := by
  constructor
  · intro hides
    refine bind_commutes (first.same hides) ((first.ends hides).imp ?_ fun _ _ _ => trivial)
    rintro value final ⟨kept, seen⟩
    exact (rest value final kept seen).same kept.hides
  · intro hides
    rw [ends_bind]
    refine (first.ends hides).imp ?_ fun _ _ ended => ended
    rintro value final ⟨kept, seen⟩
    refine ((rest value final kept seen).ends kept.hides).imp ?_ ?_
    · exact fun _ _ ended => ⟨kept.trans ended.1, ended.2⟩
    · exact fun _ _ ended => ⟨kept.trans ended.1, ended.2⟩

theorem of_hides {step : Exec α} (respects : machine.Hides hidden → Respects hidden machine step) :
    Respects hidden machine step :=
  ⟨fun hides => (respects hides).same hides, fun hides => (respects hides).ends hides⟩

theorem of_eq {step step' : Exec α} (respects : Respects hidden machine step')
    (here : step machine = step' machine)
    (there : step (machine.without hidden) = step' (machine.without hidden)) :
    Respects hidden machine step := by
  constructor
  · intro hides
    rw [there, here]
    exact respects.same hides
  · intro hides
    have ends := respects.ends hides
    rwa [Ends, ← here] at ends

@[grind ←]
theorem ofExcept {result : Except Failure α} (seen : All (machine.heap.Sees hidden) result) :
    Respects hidden machine (ofExcept result) := by
  cases result with
  | ok value => exact pure (seen value rfl)
  | error => exact throw trivial

theorem viewed {read : Heap → Except Failure α}
    (seen : machine.heap.Hides hidden → All (machine.heap.Sees hidden) (read machine.heap)) :
    Respects hidden machine (view read) :=
  ⟨fun hides => (ofExcept (seen hides.heap)).same hides,
    fun hides => (ofExcept (seen hides.heap)).ends hides⟩

theorem looked {read : Heap → α}
    (seen : machine.heap.Hides hidden → All (machine.heap.Sees hidden) (read machine.heap)) :
    Respects hidden machine (look read) :=
  ⟨fun _ => rfl, fun hides => ⟨.refl hides, seen hides.heap⟩⟩

@[grind ←]
theorem view [NoValues α] (read : Heap → Except Failure α) : Respects hidden machine (view read) :=
  viewed fun _ => by simp

@[grind ←]
theorem look [NoValues α] (read : Heap → α) : Respects hidden machine (look read) :=
  looked fun _ => by simp

@[grind ←]
theorem object? (seen : All (machine.heap.Sees hidden) value) :
    Respects hidden machine (object? value) :=
  looked fun hides => hides.object? seen

@[grind ←]
theorem world [NoValues α] (read : World → α) : Respects hidden machine (world read) :=
  ⟨fun _ => rfl, fun hides => ⟨.refl hides, NoValues.all _ _⟩⟩

@[grind ←]
theorem changeWorld (change : World → World) : Respects hidden machine (changeWorld change) :=
  ⟨fun _ => rfl, fun hides => ⟨hides.withWorld _ _, trivial⟩⟩

@[grind ←]
theorem write (text : String) : Respects hidden machine (write text) :=
  ⟨fun _ => rfl, fun hides => ⟨hides.withWorld _ _, trivial⟩⟩

theorem modifyHeap (change : Heap → α × Heap)
    (kept : machine.heap.Hides hidden → machine.heap.HiddenKept hidden (change machine.heap).2 ∧
      All ((change machine.heap).2.Sees hidden) (change machine.heap).1) :
    Respects hidden machine (modifyGet fun machine =>
      ((change machine.heap).1, { machine with heap := (change machine.heap).2 })) :=
  ⟨fun _ => rfl, fun hides => ⟨hides.withHeap (kept hides.heap).1, (kept hides.heap).2⟩⟩

@[grind ←]
theorem alloc (seen : All (machine.heap.Sees hidden) object) :
    Respects hidden machine (alloc object) :=
  modifyHeap (·.alloc object) fun hides => ⟨hides.alloc seen, hides.sees_new object⟩

@[grind ←]
theorem list (seen : All (machine.heap.Sees hidden) elements) :
    Respects hidden machine (list elements) :=
  alloc (by simpa using seen)

@[grind ←]
theorem struct (seen : All (machine.heap.Sees hidden) fields) :
    Respects hidden machine (struct name fields) :=
  alloc seen

@[grind ←]
theorem number (value : Float) : Respects hidden machine (number value) := by
  refine modifyHeap (·.number value) fun hides => ?_
  unfold Heap.number
  split
  · exact ⟨⟨⟨hides.exist, hides.objects⟩, Nat.le_refl _, fun _ _ => rfl⟩, trivial⟩
  · exact ⟨.refl hides, trivial⟩

theorem make (seen : All (machine.heap.Sees hidden) made) :
    Respects hidden machine (make made) := by
  cases made with
  | value => exact pure seen
  | float value => exact number value
  | object => exact alloc seen

theorem apply (seen : change.Seen hidden machine.heap) : Respects hidden machine (apply change) :=
  ⟨fun _ => rfl, fun hides => ⟨hides.withHeap (hides.heap.apply seen), trivial⟩⟩

theorem mapM {items : List γ} {step : γ → Exec α}
    (each : ∀ item final, item ∈ items → machine.HiddenKept hidden final →
      Respects hidden final (step item)) : Respects hidden machine (items.mapM step) := by
  induction items generalizing machine with
  | nil => exact pure (by simp)
  | cons item _ ih =>
    refine of_hides fun hides => ?_
    rw [List.mapM_cons]
    refine bind (each item machine List.mem_cons_self (.refl hides)) ?_
    intro _ _ kept seen
    refine bind (ih fun other later member keptLater =>
      each other later (List.mem_cons_of_mem _ member) (kept.trans keptLater)) ?_
    intro _ _ keptLast seenValues
    refine pure ?_
    rw [all_cons]
    exact ⟨keptLast.sees seen, seenValues⟩

theorem forM {items : List γ} {step : γ → Exec PUnit}
    (each : ∀ item final, item ∈ items → machine.HiddenKept hidden final →
      Respects hidden final (step item)) : Respects hidden machine (items.forM step) := by
  induction items generalizing machine with
  | nil => exact pure trivial
  | cons item _ ih =>
    refine of_hides fun hides => ?_
    refine bind (each item machine List.mem_cons_self (.refl hides)) ?_
    intro _ _ kept _
    exact ih fun other later member keptLater =>
      each other later (List.mem_cons_of_mem _ member) (kept.trans keptLater)

end Respects

end Exec

end Noxy
