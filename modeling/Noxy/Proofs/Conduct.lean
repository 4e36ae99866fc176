import Noxy.Proofs.SightHeap
import Noxy.Proofs.Tame

/-!
# How builtin functions behave

A conduct is a property of steps, at the stages of a run, that every step has that is built from
operations which have it.  Builtin functions are built that way, whatever the conduct.
-/

namespace Noxy

open HasValues

def Value.isBare : Value → Bool
  | .object _ | .function _ | .struct _ => false
  | _ => true

structure Conduct where
  Stage : Type
  /-- The values that a step may use. -/
  Knows : Stage → Value → Prop
  Later : Stage → Stage → Prop
  Allows : {α : Type} → [HasValues α] → Stage → Exec α → Prop
  bare : ∀ {stage : Stage} {value : Value}, value.isBare = true → Knows stage value
  still : ∀ {stage later : Stage} {value : Value}, Later stage later → Knows stage value →
    Knows later value
  pure : ∀ {α : Type} [HasValues α] {stage : Stage} {value : α}, All (Knows stage) value →
    Allows stage (Pure.pure value)
  throw : ∀ {α : Type} [HasValues α] {stage : Stage} {signal : Signal}, signal.isTame = true →
    All (Knows stage) signal → Allows stage (throw signal : Exec α)
  bind : ∀ {α β : Type} [HasValues α] [HasValues β] {stage : Stage} {step : Exec β}
    {next : β → Exec α}, Allows stage step →
    (∀ value later, Later stage later → All (Knows later) value → Allows later (next value)) →
    Allows stage (step >>= next)
  mapM : ∀ {α γ : Type} [HasValues α] {stage : Stage} {items : List γ} {step : γ → Exec α},
    (∀ item later, item ∈ items → Later stage later → Allows later (step item)) →
    Allows stage (items.mapM step)
  forM : ∀ {γ : Type} {stage : Stage} {items : List γ} {step : γ → Exec PUnit},
    (∀ item later, item ∈ items → Later stage later → Allows later (step item)) →
    Allows stage (items.forM step)
  view : ∀ {α : Type} [HasValues α] [NoValues α] {stage : Stage}
    {read : Heap → Except Failure α}, (∀ heap, Nameless (read heap)) →
    Allows stage (Exec.view read)
  add : ∀ {stage : Stage} {left right : Value}, All (Knows stage) left →
    All (Knows stage) right →
    Allows stage (Exec.view fun heap => heap.add left right)
  subtract : ∀ {stage : Stage} (left right : Value),
    Allows stage (Exec.view fun heap => heap.subtract left right)
  multiply : ∀ {stage : Stage} {left right : Value}, All (Knows stage) left →
    All (Knows stage) right →
    Allows stage (Exec.view fun heap => heap.multiply left right)
  look : ∀ {α : Type} [HasValues α] [NoValues α] {stage : Stage} (read : Heap → α),
    Allows stage (Exec.look read)
  object? : ∀ {stage : Stage} {value : Value}, All (Knows stage) value →
    Allows stage (Exec.object? value)
  last? : ∀ {stage : Stage} {value : Value}, All (Knows stage) value →
    Allows stage (Builtin.last? value)
  alloc : ∀ {stage : Stage} {object : Object}, All (Knows stage) object →
    Allows stage (Exec.alloc object)
  number : ∀ {stage : Stage} (value : Float), Allows stage (Exec.number value)
  changeElements : ∀ {stage : Stage} {address : Address} {change : Array Value → Array Value},
    All (Knows stage) (Value.object address) →
    (∀ elements, All (Knows stage) elements → All (Knows stage) (change elements)) →
    Allows stage (Exec.apply ⟨address, Object.mapElements change⟩)
  changeEntries : ∀ {stage : Stage} {address : Address}
    {change : List (Key × Value) → List (Key × Value)}, All (Knows stage) (Value.object address) →
    (∀ entries, All (Knows stage) entries → All (Knows stage) (change entries)) →
    Allows stage (Exec.apply ⟨address, Object.mapEntries change⟩)
  replacePart : ∀ {stage : Stage} {value part : Value} (name : String), All (Knows stage) value →
    All (Knows stage) part → Allows stage (Builtin.replacePart value name part)
  write : ∀ {stage : Stage} (text : String), Allows stage (Exec.write text)
  world : ∀ {α : Type} [HasValues α] [NoValues α] {stage : Stage} (read : World → α),
    Allows stage (Exec.world read)
  changeWorld : ∀ {stage : Stage} (change : World → World),
    Allows stage (Exec.changeWorld change)

namespace Conduct

attribute [grind ←] pure throw bind view look object? last? alloc number write world changeWorld

variable {α : Type} [HasValues α] {c : Conduct} {s : c.Stage}

@[grind →]
theorem Later.knows (isLater : c.Later s later) {data : α} (known : All (c.Knows s) data) :
    All (c.Knows later) data :=
  imp (fun _ => c.still isLater) known

@[simp, grind =]
theorem all_null : All (c.Knows s) Value.null = True :=
  eq_true (c.bare rfl)

@[simp, grind =]
theorem all_bool (flag : Bool) : All (c.Knows s) (Value.bool flag) = True :=
  eq_true (c.bare rfl)

@[simp, grind =]
theorem all_int (number : Int) : All (c.Knows s) (Value.int number) = True :=
  eq_true (c.bare rfl)

@[simp, grind =]
theorem all_string (text : String) : All (c.Knows s) (Value.string text) = True :=
  eq_true (c.bare rfl)

@[simp, grind =]
theorem all_bytes (content : List UInt8) : All (c.Knows s) (Value.bytes content) = True :=
  eq_true (c.bare rfl)

variable (c)

theorem null : c.Allows s (Pure.pure Value.null) :=
  c.pure (c.bare rfl)

@[grind ←]
theorem fail (other : cause.isAboutName = false) : c.Allows s (Exec.fail cause : Exec α) :=
  c.throw (by rw [Signal.isTame, Failure.isAboutName_runtime, other]; rfl) trivial

@[grind ←]
theorem fault (cause : Fault) : c.Allows s (Exec.fault cause : Exec α) :=
  c.throw rfl trivial

@[grind ←]
theorem ofExcept {result : Except Failure α} (nameless : Nameless result)
    (known : All (c.Knows s) result) : c.Allows s (Exec.ofExcept result) := by
  cases result with
  | ok value => exact c.pure (known value rfl)
  | error cause => exact c.throw (by rw [Signal.isTame, nameless cause rfl]; rfl) trivial

@[grind ←]
theorem list (known : All (c.Knows s) elements) : c.Allows s (Exec.list elements) :=
  c.alloc (by simpa using known)

@[grind ←]
theorem struct (known : All (c.Knows s) fields) : c.Allows s (Exec.struct name fields) :=
  c.alloc known

@[grind ←]
theorem numeric : c.Allows s (Exec.numeric value) := by
  cases value with
  | int => exact c.pure (c.bare rfl)
  | float number => exact c.number number

theorem make (known : All (c.Knows s) made) : c.Allows s (Exec.make made) := by
  cases made with
  | value => exact c.pure known
  | float value => exact c.number value
  | object => exact c.alloc known

/-- What a builtin function with this body does with known arguments is allowed. -/
def Permits (c : Conduct) (body : List Value → Exec Value) : Prop :=
  ∀ (s : c.Stage) (arguments : List Value), All (c.Knows s) arguments → c.Allows s (body arguments)

end Conduct

namespace Builtin

attribute [local grind =] notConvertible positionOf? queryFailure readClock secondsOf notNumeral

variable {α : Type} {c : Conduct} {s : c.Stage} {value : Value}
  (known : All (c.Knows s) value)

theorem unary_allowed {body : Value → Exec Value}
    (allowed : ∀ {s value}, All (c.Knows s) value → c.Allows s (body value)) :
    c.Permits (unary body) := by
  intro _ _ known
  unfold unary
  split
  · simp at known
    exact allowed known
  · exact c.null

theorem binary_allowed {body : Value → Value → Exec Value}
    (allowed : ∀ {s first second}, All (c.Knows s) first → All (c.Knows s) second →
      c.Allows s (body first second)) : c.Permits (binary body) := by
  intro _ _ known
  unfold binary
  split
  · simp at known
    exact allowed known.1 known.2
  · exact c.null

theorem ternary_allowed {body : Value → Value → Value → Exec Value}
    (allowed : ∀ {s first second third}, All (c.Knows s) first → All (c.Knows s) second →
      All (c.Knows s) third → c.Allows s (body first second third)) : c.Permits (ternary body) := by
  intro _ _ known
  unfold ternary
  split
  · simp at known
    exact allowed known.1 known.2.1 known.2.2
  · exact c.null

@[grind ←]
theorem wrongArgument_allowed [HasValues α] :
    c.Allows s (wrongArgument function expected value : Exec α) := by
  unfold wrongArgument
  grind

@[grind ←]
theorem bytesOfElements_allowed : c.Allows s (bytesOfElements values) := by
  induction values generalizing s with
  | nil => exact c.pure (by simp)
  | cons =>
    unfold bytesOfElements
    grind

theorem conversions_allowed : ∀ builtin ∈ conversions, c.Permits builtin.body := by
  simp only [conversions, plain, List.forall_mem_cons]
  and_intros
  · intro _ _ _
    exact c.bind (c.mapM fun _ _ _ _ => c.view fun heap => heap.display_nameless _) fun _ _ _ _ =>
      c.bind (c.write _) fun _ _ _ _ => c.null
  · exact unary_allowed (by unfold toStr; grind)
  · exact unary_allowed (by unfold toInt; grind)
  · exact unary_allowed (by unfold toFloat; grind)
  · exact unary_allowed (by unfold toBytes; grind)
  · exact unary_allowed (by unfold strlen; grind)
  · exact unary_allowed (by unfold ord; grind)
  · exact ternary_allowed (by unfold substring; grind)
  · exact ternary_allowed (by unfold slice; grind)
  · exact nofun

@[grind ←]
theorem keyOf_allowed (value : Value) : c.Allows s (keyOf value) := by
  unfold keyOf
  grind

@[grind ←]
theorem shown_allowed : c.Allows s (shown value) :=
  c.view fun heap => heap.plain_nameless value

include known

@[grind ←]
theorem elements?_allowed : c.Allows s (elements? value) := by
  unfold elements?
  grind

theorem changeElements_allowed (knownChange : ∀ elements, All (c.Knows s) elements →
      All (c.Knows s) (change elements)) : c.Allows s (changeElements value change) := by
  unfold changeElements
  split
  · exact c.changeElements known knownChange
  · exact c.pure trivial

@[grind ←]
theorem isArray_allowed : c.Allows s (isArray value) := by
  unfold isArray
  grind

@[grind ←]
theorem entriesOf_allowed : c.Allows s (entriesOf function value) := by
  unfold entriesOf
  grind

theorem remove_allowed : c.Allows s (remove value item) := by
  unfold remove
  refine c.bind (elements?_allowed known) fun _ _ kept _ => ?_
  split
  · grind
  · refine c.bind (c.look _) fun _ _ keptLater _ => ?_
    dsimp only
    split
    · exact c.bind (changeElements_allowed (keptLater.knows (kept.knows known)) fun _ all =>
        all_eraseIdxIfInBounds all _) fun _ _ _ _ => c.null
    · exact c.null

theorem append_allowed (knownItem : All (c.Knows s) item) : c.Allows s (append value item) := by
  unfold append
  refine c.bind (isArray_allowed known) fun _ _ kept _ => ?_
  split
  · exact c.bind (changeElements_allowed (kept.knows known) fun _ all =>
      all_push all (kept.knows knownItem)) fun _ _ _ _ => c.null
  · exact wrongArgument_allowed

theorem pop_allowed : c.Allows s (pop value) := by
  unfold pop
  refine c.bind (isArray_allowed known) fun _ _ kept _ => ?_
  split
  · refine c.bind (c.last? (kept.knows known)) fun _ _ keptLater knownElement => ?_
    split
    · exact c.fail rfl
    · have knownLater := keptLater.knows (kept.knows known)
      exact c.bind (changeElements_allowed knownLater fun _ => all_arrayPop) fun _ _ keptLast _ =>
        c.pure (keptLast.knows (knownElement _ rfl))
  · exact wrongArgument_allowed

theorem keys_allowed : c.Allows s (keys value) := by
  unfold keys
  refine c.bind (entriesOf_allowed known) fun entries _ _ _ => ?_
  refine c.list (all_listMap (fun entry => ?_) entries)
  cases entry.1 <;> exact c.bare rfl

theorem delete_allowed : c.Allows s (delete value key) := by
  unfold delete
  refine c.bind (entriesOf_allowed known) fun _ final kept _ =>
    c.bind (keyOf_allowed key) fun key later keptLater _ => ?_
  dsimp only
  split
  · exact c.bind (c.changeEntries (keptLater.knows (kept.knows known)) fun _ => all_mapRemove)
      fun _ _ _ _ => c.null
  · exact c.null

omit known

theorem collections_allowed : ∀ builtin ∈ collections, c.Permits builtin.body := by
  simp only [collections, plain, List.forall_mem_cons]
  and_intros
  · exact unary_allowed (by unfold length; grind)
  · exact unary_allowed (by unfold zeros; grind)
  · exact binary_allowed (fun knownArray _ => remove_allowed knownArray)
  · exact binary_allowed (append_allowed ·)
  · exact unary_allowed pop_allowed
  · exact unary_allowed keys_allowed
  · exact binary_allowed (by unfold hasKey; grind)
  · exact binary_allowed (fun knownMap _ => delete_allowed knownMap)
  · exact binary_allowed (by unfold contains; grind)
  · exact nofun

@[grind ←]
theorem openHandle?_allowed : c.Allows s (openHandle? handles value) := by
  unfold openHandle?
  grind

@[grind ←]
theorem openPath_allowed : c.Allows s (openPath path mode) := by
  unfold openPath
  grind

@[grind ←]
theorem ioResult_allowed (known : All (c.Knows s) data) : c.Allows s (ioResult ok data error) :=
  c.struct (by simpa using known)

@[grind ←]
theorem readFrom_allowed [HasValues α] [NoValues α]
    (read : OpenFile → Disk → Except ReadError α × OpenFile) :
    c.Allows s (readFrom handle file read) := by
  unfold readFrom
  grind

@[grind ←]
theorem nodeAt_allowed : c.Allows s (nodeAt path) :=
  c.world _

@[grind ←]
theorem notPath_allowed : c.Allows s (notPath operation accepted value) := by
  unfold notPath
  grind

@[grind ←]
theorem changing_allowed (change : World → Except DiskError World) :
    c.Allows s (changing change) := by
  unfold changing
  grind

@[grind ←]
theorem namesAt_allowed : c.Allows s (namesAt path) := by
  unfold namesAt
  grind

theorem ioOpen_allowed (known : All (c.Knows s) path) (knownMode : All (c.Knows s) mode) :
    c.Allows s (ioOpen path mode) := by
  unfold ioOpen
  split
  · grind
  · dsimp only
    split
    · exact c.bind openPath_allowed fun _ _ kept _ =>
        c.struct (by simpa using ⟨kept.knows known, kept.knows knownMode⟩)
    · exact c.struct (by simpa using ⟨known, knownMode⟩)

theorem ioStat_allowed : c.Allows s (ioStat value) := by
  unfold ioStat
  refine c.bind (c.world _) fun _ _ _ _ => ?_
  dsimp only
  split
  · refine c.bind nodeAt_allowed fun _ _ _ _ => ?_
    split <;> exact c.struct (by simp)
  · exact c.struct (by simp)

theorem listFailure_allowed : c.Allows s (do ioResult false (← Exec.list []) text) :=
  c.bind (c.list (by simp)) fun _ _ _ knownList => ioResult_allowed knownList

theorem ioListDir_allowed : c.Allows s (ioListDir value) := by
  unfold ioListDir
  extract_lets listed
  have listed_allowed (path : String) (name : String → Value)
      (bare : ∀ text, (name text).isBare = true) : c.Allows s (listed path name) := by
    refine c.bind namesAt_allowed fun _ _ _ _ => ?_
    split
    · exact c.bind (c.list (all_listMap (fun _ => c.bare (bare _)) _)) fun _ _ _ knownNames =>
        ioResult_allowed knownNames
    · exact c.bind (c.view fun heap => heap.quoted_nameless _) fun _ _ _ _ => listFailure_allowed
  split
  iterate 2
    exact listed_allowed _ _ fun _ => rfl
  · exact listed_allowed _ _ fun _ => rfl
  · split
    · exact c.bind shown_allowed fun _ _ _ _ => listFailure_allowed
    · exact c.bind notPath_allowed fun _ _ _ _ => listFailure_allowed

include known

@[grind ←]
theorem partOf_allowed (name : String) : c.Allows s (partOf value name) := by
  unfold partOf
  refine c.bind (c.object? known) fun _ _ _ knownParts => ?_
  split
  · exact c.pure ⟨trivial, all_getD (all_get? (knownParts _ rfl)) (c.bare rfl)⟩
  · exact c.pure ⟨trivial, all_getD (all_mapGet? (knownParts _ rfl)) (c.bare rfl)⟩
  · exact c.pure ⟨trivial, c.bare rfl⟩

@[grind ←]
theorem handleIn?_allowed (name : String) : c.Allows s (handleIn? handles value name) := by
  unfold handleIn?
  grind

@[grind ←]
theorem openFile?_allowed : c.Allows s (openFile? value) := by
  unfold openFile?
  grind

theorem closed_allowed :
    c.Allows s (do replacePart value "open" (.bool false); return Value.null) :=
  c.bind (c.replacePart _ known (c.bare rfl)) fun _ _ _ _ => c.null

theorem ioClose_allowed : c.Allows s (ioClose value) := by
  rw [ioClose_eq]
  refine c.bind (partOf_allowed known _) fun _ _ kept _ =>
    c.bind (partOf_allowed (kept.knows known) _) fun _ _ keptOpen _ =>
      c.bind (c.look _) fun _ _ keptLook _ => ?_
  dsimp only
  split
  · refine c.bind (c.world _) fun _ _ keptWorld _ =>
      c.bind openHandle?_allowed fun _ _ keptHandle _ => ?_
    have knownLater := keptHandle.knows (keptWorld.knows (keptLook.knows
      (keptOpen.knows (kept.knows known))))
    split
    · exact c.bind (c.changeWorld _) fun _ _ keptChange _ =>
        closed_allowed (keptChange.knows knownLater)
    · exact closed_allowed knownLater
  · exact c.null

theorem ioReadLines_allowed : c.Allows s (ioReadLines value) := by
  unfold ioReadLines
  refine c.bind (openFile?_allowed known) fun _ _ _ _ => ?_
  split
  · grind
  · refine c.bind (readFrom_allowed _) fun _ _ _ _ => ?_
    split
    · exact c.bind (c.list (all_listMap (fun _ => c.bare rfl) _)) fun _ _ _ knownLines =>
        ioResult_allowed knownLines
    · grind

omit known

theorem files_allowed : ∀ builtin ∈ files, c.Permits builtin.body := by
  simp only [files, plain, List.forall_mem_cons]
  and_intros
  · exact binary_allowed ioOpen_allowed
  · exact unary_allowed ioClose_allowed
  iterate 2
    exact unary_allowed (by unfold reading; grind)
  · exact unary_allowed ioReadLines_allowed
  · exact binary_allowed (fun known _ => c.bind (openFile?_allowed known) fun _ _ _ _ => by grind)
  · exact unary_allowed (by unfold ioExists; grind)
  · exact unary_allowed (fun _ => ioStat_allowed)
  · exact unary_allowed (by unfold ioRemove; grind)
  · exact binary_allowed (by unfold ioRename; grind)
  · exact unary_allowed (by unfold ioMkdir; grind)
  · exact unary_allowed (fun _ => ioListDir_allowed)
  · simp

@[grind ←]
theorem duration_allowed : c.Allows s (duration negative value) := by
  unfold duration
  grind

@[grind ←]
theorem socketStruct_allowed (knownHost : All (c.Knows s) host) (knownPort : All (c.Knows s) port) :
    c.Allows s (socketStruct handle host port isOpen) :=
  c.struct (by simpa using ⟨knownHost, knownPort⟩)

@[grind ←]
theorem netResult_allowed (data : List UInt8) :
    c.Allows s (netResult ok data countName count error) :=
  c.struct (by simp)

@[grind ←]
theorem netFailure_allowed : c.Allows s (netFailure error countName) :=
  netResult_allowed []

@[grind ←]
theorem asking_allowed {γ : Type} {request : Network → Nat → Except String γ}
    {answered : γ → Exec Value} {refused : String → Exec Value}
    (given : ∀ answer later, (∀ value, c.Knows s value → c.Knows later value) →
      c.Allows later (answered answer))
    (isRefused : ∀ problem later, (∀ value, c.Knows s value → c.Knows later value) →
      c.Allows later (refused problem)) : c.Allows s (asking request answered refused) := by
  refine c.bind (c.world _) fun answer _ kept _ => c.bind (c.changeWorld _) fun _ _ kept' _ => ?_
  have known (value : Value) (isKnown : c.Knows s value) := c.still kept' (c.still kept isKnown)
  cases answer with
  | ok answer => exact given answer _ known
  | error problem => exact isRefused problem _ known

@[grind ←]
theorem newSocket_allowed (knownHost : All (c.Knows s) host) (knownPort : All (c.Knows s) port) :
    c.Allows s (newSocket host port) := by
  unfold newSocket
  grind

theorem netOpen_allowed (knownHost : All (c.Knows s) host) (knownPort : All (c.Knows s) port) :
    c.Allows s (netOpen request host port) := by
  unfold netOpen
  split
  · exact socketStruct_allowed knownHost knownPort
  · exact asking_allowed
      (fun _ _ known => newSocket_allowed (known _ knownHost) (known _ knownPort))
      fun _ _ known => socketStruct_allowed (known _ knownHost) (known _ knownPort)

@[grind ←]
theorem emptySocket_allowed : c.Allows s emptySocket := by
  unfold emptySocket
  exact socketStruct_allowed (by simp) (by simp)

@[grind ←]
theorem netSocketSet_allowed : c.Allows s netSocketSet := by
  unfold netSocketSet
  exact c.bind (c.mapM fun _ _ _ _ => emptySocket_allowed) fun _ _ _ known => c.list known

@[grind ←]
theorem selectResult_allowed {reading : Value} (knownReading : All (c.Knows s) reading)
    (knownWriting : All (c.Knows s) writing) (knownFailing : All (c.Knows s) failing) :
    c.Allows s (selectResult reading writing failing) :=
  c.struct (by simpa using ⟨knownReading, knownWriting, knownFailing⟩)

@[grind ←]
theorem emptySockets_allowed : c.Allows s emptySockets := by
  unfold emptySockets
  grind

include known

@[grind ←]
theorem openSocket?_allowed : c.Allows s (openSocket? value) := by
  unfold openSocket?
  grind

@[grind ←]
theorem netReceive_allowed : c.Allows s (netReceive value size) := by
  unfold netReceive
  grind

@[grind ←]
theorem checkSockets_allowed : c.Allows s (checkSockets value) := by
  unfold checkSockets
  refine c.bind (elements?_allowed known) fun _ _ _ knownElements => ?_
  split
  · exact c.pure trivial
  · refine c.bind (c.world _) fun _ _ kept _ => c.forM fun socket _ member keptLater => ?_
    have knownSocket := (all_toList _).mpr (knownElements _ rfl) socket member
    exact c.bind (handleIn?_allowed (keptLater.knows (kept.knows knownSocket)) _) fun _ _ _ _ =>
      c.pure trivial

theorem netClose_allowed : c.Allows s (netClose value) := by
  rw [netClose_eq]
  refine c.bind (partOf_allowed known _) fun _ _ kept _ =>
    c.bind (partOf_allowed (kept.knows known) _) fun _ _ keptOpen _ =>
      c.bind (c.look _) fun _ _ keptLook _ => ?_
  dsimp only
  split
  · refine c.bind (c.look _) fun isMap _ keptMap _ => c.bind (c.world _) fun _ _ keptWorld _ =>
      c.bind openHandle?_allowed fun closing _ keptHandle _ => ?_
    have knownLater := keptHandle.knows (keptWorld.knows (keptMap.knows
      (keptLook.knows (keptOpen.knows (kept.knows known)))))
    grind [closed_allowed]
  · exact c.null

omit known

theorem netSelect_allowed {reading : Value} (knownReading : All (c.Knows s) reading)
    (knownWriting : All (c.Knows s) writing) (knownFailing : All (c.Knows s) failing) :
    c.Allows s (netSelect reading writing failing timeout) := by
  unfold netSelect
  refine c.bind (checkSockets_allowed knownReading) fun _ _ kept _ =>
    c.bind (checkSockets_allowed (kept.knows knownWriting)) fun _ _ kept' _ =>
      c.bind (checkSockets_allowed (kept'.knows (kept.knows knownFailing))) fun _ _ _ _ =>
        c.bind duration_allowed fun _ _ _ _ => ?_
  grind

theorem net_allowed : ∀ builtin ∈ net, c.Permits builtin.body := by
  simp only [net, plain, List.forall_mem_cons]
  and_intros
  · exact binary_allowed netOpen_allowed
  · exact unary_allowed (by unfold netAccept; grind)
  · exact binary_allowed netOpen_allowed
  · intro _ arguments known
    grind
  · exact binary_allowed (by unfold netSend; grind)
  · exact unary_allowed netClose_allowed
  · exact binary_allowed (by unfold netSetBlocking; grind)
  · intro _ _ known
    dsimp only
    split
    · simp at known
      exact netSelect_allowed known.1 known.2.1 known.2.2.1
    · exact c.null
  · exact fun _ _ _ => netSocketSet_allowed
  · exact nofun

@[grind ←]
theorem sysResult_allowed : c.Allows s (sysResult code output error) :=
  c.struct (by simp)

@[grind ←]
theorem commandLine_allowed (known : All (c.Knows s) value) : c.Allows s (commandLine value) := by
  unfold commandLine
  extract_lets single checked
  have single_allowed (value : Value) (s : c.Stage) : c.Allows s (single value) := by
    grind
  have checked_allowed (line : Except String String) (s : c.Stage) : c.Allows s (checked line) := by
    grind
  clear_value single checked
  grind

@[grind ←]
theorem envResult_allowed : c.Allows s (envResult ok text error) :=
  c.struct (by simp)

theorem system_allowed : ∀ builtin ∈ system, c.Permits builtin.body := by
  simp only [system, plain, List.forall_mem_cons]
  and_intros
  iterate 2
    exact unary_allowed (by unfold execute; grind)
  · exact unary_allowed (by unfold sysGetEnv; grind)
  · exact binary_allowed (by unfold sysSetEnv; grind)
  · exact fun s _ _ => show c.Allows s sysGetCwd by unfold sysGetCwd; grind
  · exact unary_allowed (by unfold sysChDir; grind)
  · exact unary_allowed (fun knownCode => c.throw rfl knownCode)
  · exact fun _ _ _ => c.bind (c.world _) fun _ _ _ _ =>
      c.list (all_listMap (fun _ => c.bare rfl) _)
  · exact unary_allowed (by unfold sysSleep; grind)
  · simp

theorem onText_allowed {body : List Char → Value} (scalar : ∀ text, All (c.Knows s) (body text)) :
    c.Allows s (onText function body value) := by
  unfold onText
  grind

theorem onTexts_allowed {body : List Char → List Char → Value}
    (scalar : ∀ text text', All (c.Knows s) (body text text')) :
    c.Allows s (onTexts function body first second) := by
  unfold onTexts
  grind

@[simp, grind =]
theorem all_ofChars : All (c.Knows s) (ofChars text) = True :=
  eq_true (c.bare rfl)

theorem joined_allowed : c.Allows s (joined values separator) := by
  unfold joined
  exact c.bind (c.mapM fun _ _ _ _ => shown_allowed) fun _ _ _ _ => c.pure (c.bare rfl)

theorem split_allowed : c.Allows s (split value separator) := by
  unfold split
  split
  · exact c.bind (c.list (all_listMap (fun _ => c.bare rfl) _)) fun _ _ _ known =>
      c.struct (by simpa using known)
  · exact c.fail rfl

theorem strings_allowed : ∀ builtin ∈ strings, c.Permits builtin.body := by
  simp only [strings, plain, List.forall_mem_cons]
  and_intros
  iterate 6
    exact binary_allowed (fun _ _ => onTexts_allowed (fun _ _ => c.bare rfl))
  iterate 6
    exact unary_allowed (fun _ => onText_allowed (fun _ => c.bare rfl))
  · exact binary_allowed (by unfold repeatText; grind)
  · exact ternary_allowed (by unfold substringWithin; grind)
  iterate 2
    exact ternary_allowed (by unfold onThreeTexts; grind)
  iterate 2
    exact ternary_allowed (by unfold pad; grind)
  · exact binary_allowed (fun _ _ => split_allowed)
  · exact binary_allowed (by unfold join; grind [joined_allowed])
  · exact ternary_allowed (by unfold joinCount; grind [joined_allowed])
  iterate 5
    exact unary_allowed (fun _ => onText_allowed (fun _ => c.bare rfl))
  · exact binary_allowed (by unfold charAt; grind)
  · exact unary_allowed (by unfold fromCharCode; grind)
  · exact nofun

theorem all_filledColumns [HasValues α] {items : List α} {filler : α} (all : All good items)
    (allFiller : All good filler) : All good (filledColumns items filler) := by
  unfold filledColumns
  rw [all_append]
  exact ⟨fun item member => all item (List.mem_of_mem_take member), all_replicate allFiller _⟩

@[grind ←]
theorem rowStruct_allowed : c.Allows s (rowStruct cells) := by
  unfold rowStruct
  refine c.bind (c.list (all_filledColumns (all_listMap (fun _ => c.bare rfl) _) (c.bare rfl))) ?_
  intro _ _ _ knownValues
  refine c.bind (c.list (all_filledColumns (all_listMap (fun _ => c.bare rfl) _) (c.bare rfl))) ?_
  intro _ _ kept knownTypes
  exact c.struct (by simpa using ⟨kept.knows knownValues, knownTypes⟩)

@[grind ←]
theorem queryResult_allowed : c.Allows s (queryResult ok outcome error) := by
  unfold queryResult
  refine c.bind (c.mapM fun _ _ _ _ => rowStruct_allowed) fun rows _ _ knownRows => ?_
  refine c.bind rowStruct_allowed fun empty _ keptEmpty knownEmpty => ?_
  have knownAll := (all_append rows (List.replicate (rowLimit - rows.length) empty)).mpr
    ⟨keptEmpty.knows knownRows, all_replicate knownEmpty _⟩
  refine c.bind (c.list knownAll) fun _ _ _ knownArray => ?_
  refine c.bind (c.list (all_filledColumns (all_listMap (fun _ => c.bare rfl) _) (c.bare rfl))) ?_
  intro _ _ kept knownColumns
  exact c.struct (by simpa using ⟨kept.knows knownArray, knownColumns⟩)

@[grind ←]
theorem execResult_allowed : c.Allows s (execResult ok changed lastRow error) :=
  c.struct (by simp)

@[grind ←]
theorem openDatabase_allowed : c.Allows s (openDatabase path) := by
  unfold openDatabase
  grind

@[grind ←]
theorem statementText_allowed : c.Allows s (statementText value) := by
  unfold statementText
  grind

@[grind ←]
theorem runStatement_allowed (parameters : Except Sql.SqlError (List Sql.Cell)) :
    c.Allows s (runStatement handle text parameters supplied) := by
  unfold runStatement
  grind

@[grind ←]
theorem reportExec_allowed : c.Allows s (reportExec result) := by
  unfold reportExec
  grind

@[grind ←]
theorem reportQuery_allowed : c.Allows s (reportQuery result) := by
  unfold reportQuery
  grind

@[grind ←]
theorem statementStruct_allowed (known : All (c.Knows s) text) (parameters : Nat) :
    c.Allows s (statementStruct handle text parameters ready) :=
  c.struct (by simpa using known)

@[grind ←]
theorem step_allowed : c.Allows s (step handle) := by
  unfold step
  grind

include known

theorem sqliteOpen_allowed : c.Allows s (sqliteOpen value) := by
  unfold sqliteOpen
  dsimp only
  split
  · exact c.bind openDatabase_allowed fun _ _ kept _ => c.struct (by simpa using kept.knows known)
  · exact c.struct (by simpa using known)

@[grind ←]
theorem openDatabase?_allowed : c.Allows s (openDatabase? value) := by
  unfold openDatabase?
  grind

@[grind ←]
theorem openStatement?_allowed : c.Allows s (openStatement? value) := by
  unfold openStatement?
  grind

theorem filledHandle?_allowed
    (allowed : ∀ {value : Value} {s : c.Stage}, All (c.Knows s) value → c.Allows s (find value)) :
    c.Allows s (filledHandle? find value) := by
  unfold filledHandle?
  refine c.bind (partOf_allowed known _) fun _ _ kept _ =>
    c.bind (c.look _) fun _ _ keptLook _ => ?_
  split
  · exact allowed (keptLook.knows (kept.knows known))
  · exact c.pure (by simp)

@[grind ←]
theorem placeholders?_allowed : c.Allows s (placeholders? value) := by
  unfold placeholders?
  grind

theorem sqlitePrepare_allowed (knownText : All (c.Knows s) text) :
    c.Allows s (sqlitePrepare value text) := by
  unfold sqlitePrepare
  refine c.bind (openDatabase?_allowed known) fun _ _ kept _ => ?_
  split
  · exact statementStruct_allowed (kept.knows knownText) _
  · refine c.bind (placeholders?_allowed (kept.knows knownText)) fun _ _ _ _ => ?_
    grind

theorem changeStatement_allowed
    (allowed : ∀ (prepared : Sql.Prepared) (s : c.Stage), c.Allows s (change prepared)) :
    c.Allows s (changeStatement value change) := by
  unfold changeStatement
  refine c.bind (filledHandle?_allowed known openStatement?_allowed) fun _ _ _ _ => ?_
  dsimp only
  split
  · refine c.bind (c.world _) fun _ _ _ _ => ?_
    grind
  · exact c.null

theorem sqliteTableExists_allowed (name : Value) : c.Allows s (sqliteTableExists value name) := by
  unfold sqliteTableExists
  refine c.bind (openDatabase?_allowed known) fun _ later _ _ => ?_
  split
  · rename_i handle name _
    have found : c.Allows later (do
        return Value.bool (← Exec.world fun world => world.databases.hasTable handle name)) :=
      c.bind (c.world _) fun _ _ _ _ => c.pure (c.bare rfl)
    exact found
  · exact c.pure (c.bare rfl)

omit known

theorem databases_allowed : ∀ builtin ∈ databases, c.Permits builtin.body := by
  simp only [databases, plain, List.forall_mem_cons]
  and_intros
  · exact unary_allowed sqliteOpen_allowed
  · exact unary_allowed (by unfold sqliteClose; grind [filledHandle?_allowed])
  · exact binary_allowed (by unfold sqliteExec; grind)
  · exact binary_allowed (by unfold sqliteQuery; grind)
  · exact binary_allowed (sqlitePrepare_allowed ·)
  iterate 3
    exact ternary_allowed (by unfold sqliteBind; grind [changeStatement_allowed])
  · exact binary_allowed (by unfold sqliteBind; grind [changeStatement_allowed])
  · exact unary_allowed (by unfold sqliteStepExec; grind)
  · exact unary_allowed (by unfold sqliteStepQuery; grind)
  · exact unary_allowed (by unfold sqliteReset; grind [changeStatement_allowed])
  · exact unary_allowed (by unfold sqliteFinalize; grind [filledHandle?_allowed])
  iterate 3
    exact unary_allowed (by unfold transaction; grind)
  · exact binary_allowed (fun knownDatabase _ => sqliteTableExists_allowed knownDatabase _)
  · exact unary_allowed (by unfold sqliteEscape; grind)
  · exact nofun

@[grind ←]
theorem momentStruct_allowed : c.Allows s (momentStruct moment timestamp) :=
  c.struct (by simp)

@[grind ←]
theorem momentPart_allowed : c.Allows s (momentPart value) := by
  unfold momentPart
  grind

@[grind ←]
theorem momentOfParts_allowed : c.Allows s (momentOfParts year month day hour minute second) := by
  unfold momentOfParts
  iterate 6
    refine c.bind momentPart_allowed fun _ _ _ _ => ?_
  exact c.pure (by simp)

@[grind ←]
theorem timeMakeDateTime_allowed :
    c.Allows s (timeMakeDateTime year month day hour minute second) := by
  unfold timeMakeDateTime
  grind

@[grind ←]
theorem momentOf_allowed (known : All (c.Knows s) value) : c.Allows s (momentOf value) := by
  unfold momentOf
  extract_lets part
  have part_allowed (name : String) (missing : Int) {s : c.Stage}
      (known : All (c.Knows s) value) : c.Allows s (part name missing) := by
    refine c.bind (c.object? known) fun _ _ _ knownParts => ?_
    split
    · exact c.pure (all_getD (all_get? (knownParts _ rfl)) (c.bare rfl))
    · exact c.pure (all_getD (all_mapGet? (knownParts _ rfl)) (c.bare rfl))
    · grind
  iterate 6
    refine c.bind (part_allowed _ _ ‹_›) fun _ _ kept _ => ?_
    replace known := kept.knows known
    clear kept
  grind

theorem timeAddDays_allowed (known : All (c.Knows s) first) (knownSecond : All (c.Knows s) second) :
    c.Allows s (timeAddDays first second) := by
  unfold timeAddDays
  refine c.bind (c.multiply knownSecond (c.bare rfl)) fun _ _ kept knownMade => ?_
  refine c.bind (c.make knownMade) fun _ _ keptMade knownSeconds => ?_
  exact c.bind (c.add (keptMade.knows (kept.knows known)) knownSeconds) fun _ _ _ knownMade =>
    c.make knownMade

theorem timeDiffDuration_allowed : c.Allows s (timeDiffDuration first second) := by
  unfold timeDiffDuration
  refine c.bind (c.subtract first second) fun _ _ _ _ => ?_
  refine c.bind c.numeric fun _ _ _ _ => c.bind c.numeric fun _ _ _ _ =>
    c.bind c.numeric fun _ _ _ _ =>
      c.bind c.numeric fun _ _ _ _ =>
        c.bind c.numeric fun _ _ _ _ => c.struct ?_
  simp only [all_field, all_nil, and_true]
  grind

@[grind ←]
theorem isMultiple_allowed : c.Allows s (isMultiple value divisor) :=
  c.view fun heap => .bind (heap.modulo_nameless _ _) fun _ => .pure _

@[grind ←]
theorem isBetween_allowed : c.Allows s (isBetween low value upTo high) := by
  unfold isBetween
  grind

theorem timeDaysInMonth_allowed : c.Allows s (timeDaysInMonth year month) := by
  unfold timeDaysInMonth
  refine c.bind isBetween_allowed fun _ _ _ _ => ?_
  split
  · refine c.bind isBetween_allowed fun _ _ _ _ => ?_
    grind
  · grind

theorem time_allowed : ∀ builtin ∈ time, c.Permits builtin.body := by
  simp only [time, plain, List.forall_mem_cons]
  and_intros
  · exact fun s _ _ => show c.Allows s timeNow by unfold timeNow; grind
  · exact fun s _ _ => show c.Allows s timeNowDateTime by unfold timeNowDateTime; grind
  · exact fun s _ _ => show c.Allows s timeNowMs by unfold timeNowMs; grind
  · exact unary_allowed (by unfold timeFromTimestamp; grind)
  · exact unary_allowed (by unfold timeToTimestamp; grind)
  · intro _ _ _
    dsimp only
    grind
  · exact unary_allowed (by unfold timeFormat; grind)
  · exact binary_allowed (by unfold timeFormatCustom; grind)
  iterate 2
    exact unary_allowed (by unfold timeFormat; grind)
  iterate 2
    exact unary_allowed (by unfold timeParse; grind)
  · exact binary_allowed (fun known knownSeconds =>
      c.bind (c.add known knownSeconds) fun _ _ _ => c.make)
  · exact binary_allowed timeAddDays_allowed
  · exact binary_allowed (fun _ _ => c.bind (c.subtract _ _) fun _ _ _ => c.make)
  · exact binary_allowed (fun _ _ => timeDiffDuration_allowed)
  iterate 2
    exact binary_allowed (by unfold timeCompare; grind)
  · exact unary_allowed (by unfold timeIsLeapYear; grind)
  · exact binary_allowed (fun _ _ => timeDaysInMonth_allowed)
  iterate 2
    exact unary_allowed (by unfold nameAt; grind)
  · exact nofun

theorem call_allowed {name : String} (found : find? name = some builtin)
    (known : All (c.Knows s) arguments) : c.Allows s (builtin.call arguments) := by
  have member : builtin ∈ all := List.mem_of_find?_eq_some found
  have permitted : ∀ builtin ∈ all, c.Permits builtin.body := by
    simp only [all, List.forall_mem_append]
    exact ⟨⟨⟨⟨⟨⟨⟨conversions_allowed, collections_allowed⟩, files_allowed⟩, net_allowed⟩,
      system_allowed⟩, strings_allowed⟩, databases_allowed⟩, time_allowed⟩
  have body := permitted builtin member s arguments known
  unfold call
  grind

end Builtin

/-! ### Tame steps -/

namespace Exec

def Tame.conduct : Conduct where
  Stage := Unit
  Knows _ _ := True
  Later _ _ := True
  Allows _ step := Tame step
  bare _ := trivial
  still _ _ := trivial
  pure _ := .pure _
  throw isTame _ := .throw isTame
  bind first rest := .bind first fun value => rest value () trivial (all_true value)
  mapM each := mapM_tame fun item member => each item () member trivial
  forM each := forM_tame fun item member => each item () member trivial
  view nameless := .view nameless
  add _ _ := .view fun heap => heap.add_nameless _ _
  subtract _ _ := .view fun heap => heap.subtract_nameless _ _
  multiply _ _ := .view fun heap => heap.multiply_nameless _ _
  look read := .look read
  object? _ := .look _
  last? _ := .look _
  alloc _ := .alloc _
  number value := .number value
  changeElements _ _ := .changeElements _ _
  changeEntries _ _ := .changeEntries _ _
  replacePart name _ _ := .replacePart _ name _
  write text := .write text
  world read := .world read
  changeWorld change := .changeWorld change

end Exec

namespace Builtin

open Exec

variable {name : String}

theorem keyOf_tame (value : Value) : Tame (keyOf value) :=
  keyOf_allowed (c := Tame.conduct) (s := ()) value

theorem call_tame (found : find? name = some builtin) (arguments : List Value) :
    Tame (builtin.call arguments) :=
  call_allowed (c := Tame.conduct) (s := ()) found (all_true arguments)

theorem keyOf_plain (value : Value) : Plain (keyOf value) :=
  (keyOf_tame value).plain

end Builtin

end Noxy
