import Noxy.Proofs.SightEval

/-!
# Running one program after another

A program runs in two phases: its functions and structs are bound, then its other statements are
executed.
-/

namespace Noxy

variable {program : Program} {machine : Machine}

open HasValues Exec

/-! ### Definitions of a program -/

namespace Bindings

variable {α : Type} {names : String → Bool}

theorem without_putAll {items bindings : List (String × α)}
    (areHidden : ∀ item ∈ items, names item.1 = true)
    (areShown : ∀ entry ∈ bindings, names entry.1 = false) :
    without names (putAll items bindings) = bindings := by
  have undone : without names (putAll items bindings) = without names bindings := by
    clear areShown
    induction items generalizing bindings with
    | nil => rfl
    | cons item rest ih =>
      have later : without names (putAll rest (put item.1 item.2 bindings)) =
          without names (put item.1 item.2 bindings) :=
        ih fun other member => areHidden other (List.mem_cons_of_mem _ member)
      rw [without_put, if_pos (areHidden item List.mem_cons_self)] at later
      exact later
  rw [undone, without]
  exact List.filter_eq_self.mpr fun entry member => by simp [areShown entry member]

end Bindings

def Program.definedFunctions (program : Program) : List (String × Function) :=
  program.filterMap fun stmt => stmt.function?.map fun function => (function.name, function)

def Program.definedStructs (program : Program) : List (String × Struct) :=
  program.filterMap fun stmt => stmt.struct?.map fun struct => (struct.name, struct)

def Program.definedNames (program : Program) : List String :=
  program.definedFunctions.map Prod.fst ++ program.definedStructs.map Prod.fst

def Program.names (program : Program) : List String :=
  (Stmt.listMentions program).filterMap Mention.name?

def Scope.defining (program : Program) (scope : Scope) : Scope :=
  { scope with
    functions := Bindings.putAll program.definedFunctions scope.functions
    structs := Bindings.putAll program.definedStructs scope.structs }

/-- The machine after the definitions of a program. -/
def Machine.defining (program : Program) (machine : Machine) : Machine :=
  { machine with scopes := machine.scopes.modify 0 (Scope.defining program) }

theorem Machine.defining_nil : machine.defining [] = machine := by
  have same : machine.scopes.modify 0 (Scope.defining []) = machine.scopes :=
    machine.scopes.modify_id 0
  rw [Machine.defining, same]

theorem Scope.defining_append (first second : Program) (scope : Scope) :
    scope.defining (first ++ second) = (scope.defining first).defining second := by
  simp only [Scope.defining, Program.definedFunctions, Program.definedStructs,
    List.filterMap_append, Bindings.putAll, List.foldl_append]

theorem Machine.defining_append (first second : Program) (machine : Machine) :
    machine.defining (first ++ second) = (machine.defining first).defining second := by
  simp only [Machine.defining, Scopes.modify_modify, ← Scope.defining_append]

theorem defineMembers_eq (program : Program) (machine : Machine) :
    defineMembers 0 none program machine = .ok () (machine.defining program) := by
  induction program generalizing machine with
  | nil => rw [Machine.defining_nil]; rfl
  | cons stmt rest ih =>
    have first : defineMembers 0 none (stmt :: rest) machine =
        defineMembers 0 none rest (machine.defining [stmt]) := by
      cases stmt with
      | function | struct => rfl
      | _ => exact congrArg (defineMembers 0 none rest) machine.defining_nil.symm
    rw [first, ih, ← Machine.defining_append]
    rfl

/-! ### The phases of a run -/

theorem grows_run : Grows fun fuel => program.run fuel :=
  fun fuel => .bind (fueled (.useAll program) fuel) fun _ => .after _ fun _ =>
    fueled (.execAll _) fuel

theorem useAll_eq (noUse : .ofModules ∉ Stmt.listMentions stmts) (enough : stmts.length < fuel) :
    useAll fuel stmts = pure () := by
  induction stmts generalizing fuel with
  | nil =>
    obtain ⟨_, rfl⟩ := Nat.exists_eq_succ_of_ne_zero (Nat.ne_zero_of_lt enough)
    rfl
  | cons stmt _ ih =>
    obtain ⟨_, rfl⟩ := Nat.exists_eq_succ_of_ne_zero (Nat.ne_zero_of_lt enough)
    rw [Stmt.listMentions, List.mem_append, not_or] at noUse
    have later := ih noUse.2 (Nat.lt_of_succ_lt_succ enough)
    cases stmt with
    | use => exact absurd List.mem_cons_self noUse.1
    | _ => exact later

theorem yields_run (noUse : .ofModules ∉ Stmt.listMentions program) :
    Yields (fun fuel => program.run fuel) machine result ↔
      Yields (fun fuel => execAll fuel (program.filter Stmt.isAction))
        (machine.defining program) result := by
  let extra := program.length + 1
  refine yields_congr grows_run (fueled (.execAll _)) extra extra fun fuel => ?_
  have imported := useAll_eq noUse (show program.length < fuel + extra by omega)
  simp only [Program.run, imported, Bind.bind, EStateM.bind, defineMembers_eq]
  rfl

theorem execAll_cons_bind :
    (do execAll (fuel + 1) (stmt :: rest); next) =
      (do exec fuel stmt; execAll fuel rest; next) := by
  simp only [execAll, bind_assoc]

theorem execAll_append_approximates (fuel : Nat) :
    Approximates (execAll fuel (first ++ second))
      (do execAll fuel first; execAll fuel second) := by
  induction first generalizing fuel with
  | nil =>
    cases fuel with
    | zero => exact .exhausted
    | succ => exact .refl _
  | cons _ rest ih =>
    cases fuel with
    | zero => exact .exhausted
    | succ fuel =>
      have later : Approximates (execAll fuel (rest ++ second))
          (do execAll fuel rest; execAll (fuel + 1) second) :=
        (ih fuel).trans (.after _ fun _ => fueled (.execAll second) fuel)
      rw [execAll_cons_bind]
      exact .after _ fun _ => later

theorem approximates_execAll_append (fuel : Nat) :
    Approximates (do execAll fuel first; execAll fuel second)
      (execAll (fuel + first.length) (first ++ second)) := by
  induction first generalizing fuel with
  | nil =>
    cases fuel with
    | zero => exact .exhausted
    | succ => exact .refl _
  | cons stmt rest ih =>
    cases fuel with
    | zero => exact .exhausted
    | succ fuel =>
      have head : Approximates (exec fuel stmt) (exec (fuel + 1 + rest.length) stmt) :=
        Grows.approximates (fueled (.exec stmt)) (by omega)
      have later : Approximates (do execAll fuel rest; execAll (fuel + 1) second)
          (execAll (fuel + 1 + rest.length) (rest ++ second)) :=
        .trans (.before (fueled (.execAll rest) fuel) _) (ih (fuel + 1))
      rw [execAll_cons_bind]
      exact .bind head fun _ => later

theorem yields_execAll_append :
    Yields (fun fuel => execAll fuel (first ++ second)) machine result ↔
      Yields (fun fuel => do execAll fuel first; execAll fuel second) machine result := by
  constructor
  · exact fun yields => yields.of_approximates fun fuel =>
      ⟨fuel, execAll_append_approximates fuel⟩
  · exact fun yields => yields.of_approximates fun fuel =>
      ⟨fuel + first.length, approximates_execAll_append fuel⟩

/-! ### Definitions that are not mentioned -/

def Hidden.ofDefinitions (names : List String) : Hidden where
  objects _ := False
  bindings _ := false
  definitions name := name ∈ names
  imports := false
  noNames := nofun

theorem allows_ofDefinitions (noUse : .ofModules ∉ Stmt.listMentions program)
    (apart : ∀ name ∈ names, name ∉ program.names) :
    (Hidden.ofDefinitions names).Allows (Stmt.listMentions program) := by
  intro mention member
  cases mention with
  | ofVariable => rfl
  | ofDefinition name =>
    rw [Hidden.allows_ofDefinition]
    refine decide_eq_false fun isHidden => apart name isHidden ?_
    exact List.mem_filterMap.mpr ⟨_, member, rfl⟩
  | ofModules => exact absurd member noUse

theorem Program.mem_definedFunctions (member : entry ∈ program.definedFunctions) :
    entry.1 = entry.2.name ∧ .ofDefinition entry.1 ∈ Stmt.listMentions program ∧
      entry.2.mentions ⊆ Stmt.listMentions program := by
  obtain ⟨_, isStmt, isEntry⟩ := List.mem_filterMap.mp member
  obtain ⟨_, isFunction, rfl⟩ := Option.map_eq_some_iff.mp isEntry
  have mentions := Stmt.function_mentions isFunction
  have within := Stmt.mentions_subset isStmt
  exact ⟨rfl, within mentions.1, List.Subset.trans mentions.2 within⟩

theorem Program.mem_definedStructs (member : entry ∈ program.definedStructs) :
    entry.1 = entry.2.name ∧ .ofDefinition entry.1 ∈ Stmt.listMentions program ∧
      entry.2.mentions ⊆ Stmt.listMentions program := by
  obtain ⟨_, isStmt, isEntry⟩ := List.mem_filterMap.mp member
  obtain ⟨_, isStruct, rfl⟩ := Option.map_eq_some_iff.mp isEntry
  have mentions := Stmt.struct_mentions isStruct
  have within := Stmt.mentions_subset isStmt
  exact ⟨rfl, within mentions.1, List.Subset.trans mentions.2 within⟩

def Scope.Lacks (program : Program) (scope : Scope) : Prop :=
  (∀ entry ∈ scope.functions, entry.1 ∉ program.definedNames) ∧
    ∀ entry ∈ scope.structs, entry.1 ∉ program.definedNames

theorem Scope.Lacks.without_eq {scope later : Scope} (lacks : scope.Lacks program)
    (functions : later.functions = Bindings.putAll program.definedFunctions scope.functions)
    (structs : later.structs = Bindings.putAll program.definedStructs scope.structs) :
    later.without (Hidden.ofDefinitions program.definedNames) =
      { later with functions := scope.functions, structs := scope.structs } := by
  have noVariables : Bindings.without (fun _ => false) later.bindings = later.bindings :=
    Bindings.without_none _ fun _ => rfl
  have onlyFunctions : Bindings.without (fun name => decide (name ∈ program.definedNames))
      (Bindings.putAll program.definedFunctions scope.functions) = scope.functions :=
    Bindings.without_putAll
      (fun _ member => decide_eq_true (List.mem_append_left _ (List.mem_map_of_mem member)))
      (fun entry member => decide_eq_false (lacks.1 entry member))
  have onlyStructs : Bindings.without (fun name => decide (name ∈ program.definedNames))
      (Bindings.putAll program.definedStructs scope.structs) = scope.structs :=
    Bindings.without_putAll
      (fun _ member => decide_eq_true (List.mem_append_right _ (List.mem_map_of_mem member)))
      (fun entry member => decide_eq_false (lacks.2 entry member))
  simp only [Scope.without, Hidden.ofDefinitions, functions, structs, noVariables, onlyFunctions,
    onlyStructs]

def Machine.Lacks (program : Program) (machine : Machine) : Prop :=
  ∀ scope, machine.scopes.scopes[0]? = some scope → scope.Lacks program

theorem Machine.Lacks.without_defining (lacks : machine.Lacks program) :
    (machine.defining program).without (Hidden.ofDefinitions program.definedNames) = machine := by
  have same : (machine.scopes.modify 0 (Scope.defining program)).without
      (Hidden.ofDefinitions program.definedNames) = machine.scopes := by
    apply Scopes.ext_getElem?
    intro number
    rw [Scopes.getElem?_without, Scopes.getElem?_modify]
    by_cases isRoot : 0 = number
    · subst isRoot
      rw [if_pos rfl, if_pos rfl]
      cases found : machine.scopes.scopes[0]? with
      | none => rfl
      | some scope => exact congrArg some ((lacks scope found).without_eq rfl rfl)
    · rw [if_neg isRoot, if_neg isRoot]
  rw [Machine.without, Machine.defining, same]

theorem Machine.Lacks.defining_without {later : Machine} (lacks : machine.Lacks program)
    (kept : later.scopes.definitions = (machine.defining program).scopes.definitions) :
    (later.without (Hidden.ofDefinitions program.definedNames)).defining program = later := by
  have same : (later.scopes.without (Hidden.ofDefinitions program.definedNames)).modify 0
      (Scope.defining program) = later.scopes := by
    apply Scopes.ext_getElem?
    intro number
    rw [Scopes.getElem?_modify, Scopes.getElem?_without]
    by_cases isRoot : 0 = number
    · subst isRoot
      rw [if_pos rfl, if_pos rfl]
      simp only [Scopes.definitions, Machine.defining, Scopes.getElem?_modify, if_pos] at kept
      cases found : later.scopes.scopes[0]? with
      | none => rfl
      | some =>
        cases foundBefore : machine.scopes.scopes[0]? with
        | none =>
          rw [found, foundBefore] at kept
          cases kept
        | some before =>
          rw [found, foundBefore] at kept
          simp only [Option.map_some, Option.some.injEq, Prod.mk.injEq] at kept
          rw [Option.map_some, Option.map_some,
            (lacks before foundBefore).without_eq kept.1 kept.2]
          simp only [Scope.defining] at kept ⊢
          rw [← kept.1, ← kept.2]
    · rw [if_neg isRoot, if_neg isRoot]
  rw [Machine.defining, Machine.without, same]

/-! ### The first program of a session -/

section Start

variable {world : World} {first : Program}

theorem lacks_start (apart : ∀ name ∈ second.definedNames, name ∉ first.names) :
    ((Machine.start world basePath).defining first).Lacks second := by
  have isName {name : String} (mentioned : .ofDefinition name ∈ Stmt.listMentions first) :
      name ∈ first.names := List.mem_filterMap.mpr ⟨_, mentioned, rfl⟩
  intro _ found
  cases found
  constructor
  · intro entry member isDefined
    rcases Bindings.mem_putAll member with isFunction | isOld
    · exact apart _ isDefined (isName (Program.mem_definedFunctions isFunction).2.1)
    · cases isOld
  · intro _ member isDefined
    rcases Bindings.mem_putAll member with isStruct | isOld
    · exact apart _ isDefined (isName (Program.mem_definedStructs isStruct).2.1)
    · cases isOld

theorem hides_start {hidden : Hidden} (allowed : hidden.Allows (Stmt.listMentions first))
    (noObjects : ∀ address, ¬ hidden.objects address) (noImports : hidden.imports = false)
    (start : machine.without hidden = (Machine.start world basePath).defining first)
    (reached : ∀ entry ∈ first.definedFunctions, hidden.functions entry.2 := by
      exact fun _ _ => trivial) :
    machine.Hides hidden := by
  have heap : machine.heap = .empty := congrArg Machine.heap start
  refine ⟨⟨fun address isHidden => absurd isHidden (noObjects address), ?_⟩, ?_, ?_⟩
  · intro _ _ found _
    rw [heap] at found
    cases found
  · rw [start]
    apply all_scopes
    intro number _ found
    cases number with
    | zero =>
      cases found
      refine ⟨nofun, fun entry member => ⟨trivial, ?_⟩, fun entry member => ⟨trivial, ?_⟩⟩
      · rcases Bindings.mem_putAll member with isFunction | isOld
        · exact ⟨allowed.of_subset (Program.mem_definedFunctions isFunction).2.2,
            reached entry isFunction⟩
        · cases isOld
      · rcases Bindings.mem_putAll member with isStruct | isOld
        · exact allowed.of_subset (Program.mem_definedStructs isStruct).2.2
        · cases isOld
    | succ => simp [Machine.defining, Machine.start, Scopes.single, Scopes.modify] at found
  · intro imports
    cases imports.symm.trans noImports

end Start

/-- Running one program after another gives what running both as one program gives, if the first one
mentions nothing that the second one defines. -/
theorem run_append (world : World) (basePath : String) (first second : Program) (middle : Machine)
    (noUse : .ofModules ∉ Stmt.listMentions (first ++ second))
    (apart : ∀ name ∈ second.definedNames, name ∉ first.names)
    (ends : Yields (fun fuel => first.run fuel) (Machine.start world basePath) (.ok () middle))
    (result : EStateM.Result Signal Machine Unit) :
    Yields (fun fuel => second.run fuel) middle result ↔
      Yields (fun fuel => Program.run fuel (first ++ second)) (Machine.start world basePath)
        result := by
  have listed : Stmt.listMentions (first ++ second) =
      Stmt.listMentions first ++ Stmt.listMentions second := Stmt.listMentions_append first second
  have noUseFirst : .ofModules ∉ Stmt.listMentions first := fun member =>
    noUse (listed ▸ List.mem_append_left _ member)
  have noUseSecond : .ofModules ∉ Stmt.listMentions second := fun member =>
    noUse (listed ▸ List.mem_append_right _ member)
  let hidden := Hidden.ofDefinitions second.definedNames
  let start := (Machine.start world basePath).defining first
  have lacks : start.Lacks second := lacks_start apart
  have allowed : hidden.Allows (Stmt.listMentions first) := allows_ofDefinitions noUseFirst apart
  have hides : (start.defining second).Hides hidden :=
    hides_start allowed (fun _ => not_false) rfl lacks.without_defining
  -- the first program does the same with the definitions of the second one and without them
  have firstEnds := (yields_run noUseFirst).mp ends
  obtain ⟨fuel, executed⟩ := firstEnds.eventually (fueled (.execAll _))
  have respects : Respects hidden (start.defining second)
      (execAll fuel (first.filter Stmt.isAction)) :=
    sighted hidden fuel (.execAll (allowed.of_subset (Stmt.listMentions_filter _ _)))
  have same := respects.same hides
  rw [lacks.without_defining, executed fuel (Nat.le_refl _)] at same
  cases executedToo : execAll fuel (first.filter Stmt.isAction) (start.defining second) with
  | error signal final =>
    rw [executedToo] at same
    cases same
  | ok value final =>
    rw [executedToo] at same
    cases same
    have kept := ((respects.ends hides).of_ok executedToo).1
    have restored := lacks.defining_without (kept.definitions rfl)
    have firstYields : Yields (fun fuel => execAll fuel (first.filter Stmt.isAction))
        (start.defining second) (.ok () final) := ⟨nofun, fuel, executedToo⟩
    -- so the second one starts where the joined program goes on
    rw [yields_run noUseSecond, restored, yields_run noUse, Machine.defining_append,
      List.filter_append, yields_execAll_append,
      yields_bind (fueled (.execAll _)) fun _ => fueled (.execAll _)]
    constructor
    · exact fun yields => Or.inl ⟨(), final, firstYields, yields⟩
    · rintro (⟨_, _, yieldsFirst, yieldsSecond⟩ | ⟨_, _, yieldsFirst, _⟩)
      · cases firstYields.unique yieldsFirst (fueled (.execAll _))
        exact yieldsSecond
      · cases firstYields.unique yieldsFirst (fueled (.execAll _))

def Program.sums : Program :=
  let here : Location := ⟨1, 1, "sums.nx"⟩
  let named (name : String) : Expr := .identifier name here
  [ .function "add" [⟨"a", .int⟩, ⟨"b", .int⟩] .int
      [.returning (some (.binary (named "a") .add (named "b") here)) here] here,
    .letVar "x" .int (some (.call (named "add") [.int 1 here, .int 2 here] here)) here ]

def Program.points : Program :=
  let here : Location := ⟨1, 1, "points.nx"⟩
  let named (name : String) : Expr := .identifier name here
  let called (name : String) (argument : Expr) : Expr := .call (named name) [argument] here
  [ .letVar "origin" (.struct "Point" none) none here,
    .expression (called "print" (called "to_str" (called "twice" (named "x")))) here,
    .struct "Point" [⟨"left", .int⟩] here,
    .function "twice" [⟨"n", .int⟩] .int
      [.returning (some (.call (named "add") [named "n", named "n"] here)) here] here ]

/-- Both programs run to their ends one after the other, and so they do as one. -/
theorem run_append_points :
    .ofModules ∉ Stmt.listMentions (Program.sums ++ Program.points) ∧
      (∀ name ∈ Program.points.definedNames, name ∉ Program.sums.names) ∧
      ∃ middle final,
        Yields (fun fuel => Program.sums.run fuel) (.start (.start .empty [] [] [] 0) ".")
          (.ok () middle) ∧
        Yields (fun fuel => Program.points.run fuel) middle (.ok () final) ∧
        final.output = "6\n" ∧
        Yields (fun fuel => Program.run fuel (Program.sums ++ Program.points))
          (.start (.start .empty [] [] [] 0) ".") (.ok () final) := by
  have noUse : .ofModules ∉ Stmt.listMentions (Program.sums ++ Program.points) := by
    decide +kernel
  have apart : ∀ name ∈ Program.points.definedNames, name ∉ Program.sums.names := by
    decide +kernel
  obtain ⟨middle, final, output, first, second⟩ :=
    Yields.of_passes_bind (fun fuel => Program.sums.run fuel) (fun fuel => Program.points.run fuel)
      40 (show passes _ (.start (.start .empty [] [] [] 0) ".")
        (fun _ final => final.output == "6\n") = true by decide +kernel)
  exact ⟨noUse, apart, middle, final, first, second, eq_of_beq output,
    (run_append _ _ _ _ middle noUse apart first _).mp second⟩

end Noxy
