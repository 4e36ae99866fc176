import Noxy.Proofs.Discipline
import Noxy.Proofs.SightBuiltin

/-!
# What steps on scopes can see

Names that are not hidden mean things that are seen, and binding such names to what is seen hides no
less than before.
-/

namespace Noxy

open HasValues

section Scopes

variable {good : Value → Prop} {scopes : Scopes}

theorem all_scope_of_getElem? {number : Nat} (all : All good scopes.scopes)
    (found : scopes.scopes[number]? = some scope) : All good scope :=
  all scope (Array.mem_of_getElem? found)

theorem all_scopes (each : ∀ (number : Nat) (scope : Scope), scopes.scopes[number]? = some scope →
      All good scope) :
    All good scopes.scopes := by
  intro scope member
  obtain ⟨number, found⟩ := Array.getElem?_of_mem member
  exact each number scope found

theorem all_modifyScope (all : All good scopes.scopes)
    (keeps : ∀ scope, All good scope → All good (change scope)) :
    All good (scopes.modify number change).scopes := by
  apply all_scopes
  intro _ _ found
  rw [Scopes.getElem?_modify] at found
  split at found
  · obtain ⟨old, foundOld, rfl⟩ := Option.map_eq_some_iff.mp found
    exact keeps old (all_scope_of_getElem? all foundOld)
  · exact all_scope_of_getElem? all found

theorem all_childScope (all : All good scopes.scopes) : All good (scopes.child outer).2.scopes := by
  apply all_scopes
  intro _ _ found
  rw [Scopes.getElem?_child] at found
  split at found
  · cases found
    exact ⟨nofun, nofun, nofun⟩
  · exact all_scope_of_getElem? all found

theorem all_shrinkScopes (all : All good scopes.scopes) :
    All good (scopes.shrink count).scopes := by
  apply all_scopes
  intro _ _ found
  rw [Scopes.getElem?_shrink] at found
  split at found
  · exact all_scope_of_getElem? all found
  · cases found

theorem all_find [HasValues α] {find : Scope → Option α}
    (each : ∀ scope, All good scope → All good (find scope)) (all : All good scopes.scopes) :
    All good ((scopes.find find number).map Prod.snd) := by
  intro item isItem
  obtain ⟨_, found, rfl⟩ := Option.map_eq_some_iff.mp isItem
  rw [Scopes.find_eq] at found
  obtain ⟨_, _, isFound⟩ := List.exists_of_findSome?_eq_some found
  obtain ⟨_, here, rfl⟩ := Option.map_eq_some_iff.mp isFound
  obtain ⟨scope, isScope, here⟩ := Option.bind_eq_some_iff.mp here
  exact each scope (all_scope_of_getElem? all isScope) _ here

end Scopes

namespace Machine

variable {hidden : Hidden} {machine : Machine}

theorem entered_without :
    Exec.entered outer (machine.without hidden) = (Exec.entered outer machine).without hidden := by
  simp only [Exec.entered, without, Scopes.without_child, Scopes.size_without]

theorem left_without (before final : Machine) :
    Exec.left (before.without hidden) (final.without hidden) =
      (Exec.left before final).without hidden := by
  simp only [Exec.left, without, Scopes.without_shrink, Scopes.size_without]

theorem Hides.entered (hides : machine.Hides hidden) (outer : Nat) :
    (Exec.entered outer machine).Hides hidden := by
  refine ⟨hides.heap, ?_, hides.modules⟩
  rw [← entered_without]
  exact all_childScope hides.scopes

theorem HiddenKept.left (kept : (Exec.entered outer machine).HiddenKept hidden final) :
    machine.HiddenKept hidden (Exec.left machine final) := by
  refine ⟨⟨kept.hides.heap, ?_, kept.hides.modules⟩, kept.heap, fun noImports => ?_⟩
  · rw [← left_without]
    exact all_shrinkScopes kept.hides.scopes
  · have same := kept.definitions noImports
    simp only [Scopes.definitions, Exec.entered, Exec.left, Scopes.getElem?_child,
      Scopes.getElem?_shrink] at same ⊢
    by_cases isEmpty : 0 = machine.scopes.scopes.size
    · rw [if_neg (by omega), Array.getElem?_eq_none (by omega)]
    · rw [if_pos (by omega), same, if_neg isEmpty]

end Machine

namespace Exec.Respects

variable {α : Type} [HasValues α] {hidden : Hidden} {machine : Machine}

theorem exhausted : Respects hidden machine (exhausted : Exec α) :=
  throw trivial

theorem truth (value : Value) : Respects hidden machine (truth value) :=
  view _

/-! ### Bodies in scopes of their own -/

theorem inScope {body : Exec α} (respects : Respects hidden (entered outer machine) body) :
    Respects hidden machine (inScope outer body) := by
  constructor
  · intro hides
    have same := respects.same (hides.entered outer)
    rw [inScope_eq, inScope_eq, Machine.entered_without, same]
    cases body (entered outer machine) <;> simp only [ending, Machine.left_without]
  · intro hides
    rw [ends_inScope]
    refine (respects.ends (hides.entered outer)).imp ?_ ?_
    · exact fun _ _ ended => ⟨ended.1.left, ended.2⟩
    · exact fun _ _ ended => ⟨ended.1.left, ended.2⟩

theorem asCall (respects : Respects hidden machine body) :
    Respects hidden machine (asCall body) := by
  refine ⟨fun hides => asCall_commutes (respects.same hides), fun hides => ?_⟩
  rw [ends_asCall]
  refine (respects.ends hides).imp (fun _ _ ended => ⟨ended.1, trivial⟩) ?_
  intro signal _ ended
  cases signal <;> exact ended

theorem proceeds (respects : Respects hidden machine turn) :
    Respects hidden machine (proceeds turn) := by
  constructor
  · intro hides
    simp only [Exec.proceeds, respects.same hides]
    cases turn machine with
    | ok => rfl
    | error signal => cases signal <;> rfl
  · intro hides
    rw [ends_proceeds]
    refine (respects.ends hides).imp (fun _ _ ended => ended) ?_
    intro signal _ ended
    cases signal with
    | breaking => exact ⟨ended.1, NoValues.all _ _⟩
    | _ => exact ended

/-! ### Names -/

theorem get_bind {next : Machine → Exec α} (same : next (machine.without hidden) = next machine)
    (respects : Respects hidden machine (next machine)) : Respects hidden machine (get >>= next) :=
  respects.of_eq rfl (congrFun same _)

theorem binding (shown : hidden.bindings name = false) :
    Respects hidden machine (binding name) := by
  refine of_hides fun hides => ?_
  have same := machine.binding?_without name shown
  have seen : All (machine.heap.Sees hidden)
      ((machine.without hidden).scopes.binding? machine.current name) :=
    all_find (fun _ all => all_get? all.1) hides.scopes
  rw [same] at seen
  refine get_bind ?_ ?_
  · simp only [Machine.current_without, same]
  · cases found : machine.scopes.binding? machine.current name with
    | none => exact fail _
    | some =>
      rw [found, all_some] at seen
      exact pure seen

theorem changeScopes (change : Nat → Scopes → Scopes)
    (same : (change machine.current machine.scopes).without hidden =
      change machine.current (machine.scopes.without hidden))
    (seen : ∀ scopes : Scopes, All (machine.heap.Sees hidden) scopes.scopes →
      All (machine.heap.Sees hidden) (change machine.current scopes).scopes)
    (definitions : hidden.imports = false →
      (change machine.current machine.scopes).definitions = machine.scopes.definitions) :
    Respects hidden machine (modify fun machine =>
      { machine with scopes := change machine.current machine.scopes }) := by
  constructor
  · intro _
    change EStateM.Result.ok () _ = .ok () _
    simp only [Machine.without, same]
  · intro hides
    refine ⟨⟨⟨hides.heap, ?_, hides.modules⟩, .refl hides.heap, definitions⟩, trivial⟩
    simp only [Machine.without, same]
    exact seen _ hides.scopes

theorem definition (scope : Nat → Nat) {binding : Variable}
    (shown : hidden.bindings name = false) (seen : All (machine.heap.Sees hidden) binding) :
    Respects hidden machine (modify fun machine =>
      { machine with scopes := machine.scopes.define (scope machine.current) name binding }) :=
  changeScopes (fun current scopes => scopes.define (scope current) name binding)
    (Scopes.without_modify (fun _ => by simp [Scope.without, Bindings.without_put, shown]) _)
    (fun _ all => all_modifyScope all fun _ all => ⟨all_put seen all.1, all.2⟩)
    (fun _ => by apply Scopes.definitions_modify; exact fun _ => ⟨rfl, rfl⟩)

theorem define {binding : Variable} (shown : hidden.bindings name = false)
    (seen : All (machine.heap.Sees hidden) binding) :
    Respects hidden machine (define scope name binding) :=
  definition (fun _ => scope) shown seen

theorem bindAll (shown : ∀ param ∈ params, hidden.bindings param.1.name = false)
    (seen : ∀ param ∈ params, All (machine.heap.Sees hidden) param.2) :
    Respects hidden machine (bindAll params) := by
  induction params generalizing machine with
  | nil => exact pure trivial
  | cons param _ ih =>
    refine bind (definition id (shown param List.mem_cons_self) (seen param List.mem_cons_self)) ?_
    intro _ _ kept _
    exact ih (fun other member => shown other (List.mem_cons_of_mem _ member))
      fun other member => kept.sees (seen other (List.mem_cons_of_mem _ member))

theorem assign (shown : hidden.bindings name = false)
    (seen : All (machine.heap.Sees hidden) value) :
    Respects hidden machine (assign name value) := by
  refine get_bind ?_ ?_
  · simp only [Machine.without, Scopes.owner?]
    rw [Scopes.find_without fun _ => Bindings.get?_without shown]
  · dsimp only
    cases machine.scopes.owner? machine.current name with
    | none => exact fail _
    | some owner =>
      refine changeScopes (fun _ scopes => scopes.assignIn owner name value)
        (Scopes.without_assignIn _ _ _ _) (fun _ all => all_modifyScope all ?_)
        (fun _ => by apply Scopes.definitions_modify; exact fun _ => ⟨rfl, rfl⟩)
      intro _ all
      refine ⟨?_, all.2⟩
      intro _ member
      obtain ⟨⟨_, _⟩, isOld, rfl⟩ := List.mem_map.mp member
      dsimp only
      split
      · exact ⟨trivial, seen⟩
      · exact all.1 _ isOld

end Exec.Respects

instance : HasValues Callable where
  All good
    | .struct struct => good (.struct struct)
    | .function function => good (.function function)
    | .builtin _ => True
  imp {_ _ callable} better all := by
    cases callable with
    | struct struct => exact better _ all
    | function function => exact better _ all
    | builtin builtin => trivial
  all_true callable := by
    cases callable <;> trivial

namespace Machine

variable {hidden : Hidden} {machine : Machine}

theorem callable?_without (shown : hidden.definitions name = false) :
    (machine.without hidden).callable? name = machine.callable? name := by
  simp only [callable?, current_without, struct?_without _ _ shown, function?_without _ _ shown]

theorem Hides.callable? (hides : machine.Hides hidden) (shown : hidden.definitions name = false) :
    All (machine.heap.Sees hidden) (machine.callable? name) := by
  have structs : All (machine.heap.Sees hidden)
      ((machine.without hidden).scopes.struct? machine.current name) :=
    all_find (fun _ all => all_get? all.2.2) hides.scopes
  have functions : All (machine.heap.Sees hidden)
      ((machine.without hidden).scopes.function? machine.current name) :=
    all_find (fun _ all => all_get? all.2.1) hides.scopes
  rw [struct?_without _ _ shown] at structs
  rw [function?_without _ _ shown] at functions
  unfold Machine.callable?
  split
  · rw [all_some]
    exact structs _ ‹_›
  · split
    · rw [all_some]
      exact functions _ ‹_›
    · intro _ found
      obtain ⟨_, _, rfl⟩ := Option.map_eq_some_iff.mp found
      trivial

theorem struct?_of_without (shown : hidden.definitions name = false) :
    (machine.without hidden).struct? name = machine.struct? name := by
  simp only [struct?, current_without, struct?_without _ _ shown]

theorem Hides.struct? (hides : machine.Hides hidden) (shown : hidden.definitions name = false) :
    All (machine.heap.Sees hidden) (machine.struct? name) := by
  have found (number : Nat) : All (machine.heap.Sees hidden)
      ((machine.without hidden).scopes.struct? number name) :=
    all_find (fun _ all => all_get? all.2.2) hides.scopes
  simp only [struct?_without _ _ shown] at found
  unfold Machine.struct?
  split
  · rw [all_some]
    exact found machine.current _ ‹_›
  · exact found 0

end Machine

/-! ### Steps next to the evaluator -/

namespace Exec.Respects

variable {hidden : Hidden} {machine : Machine}

theorem all_fieldsOf (fields : List Declared) (all : All good values) :
    All good (fieldsOf fields values) := by
  have each : ∀ (pairs : List (Declared × Value)) (done : List (String × Value)),
      (∀ pair ∈ pairs, All good pair.2) → All good done →
      All good (pairs.foldl (fun done pair => Bindings.put pair.1.name pair.2 done) done) := by
    intro pairs
    induction pairs with
    | nil => exact fun _ _ all => all
    | cons pair _ ih =>
      intro _ allPairs allDone
      exact ih _ (fun other member => allPairs other (List.mem_cons_of_mem _ member))
        (all_put (allPairs pair List.mem_cons_self) allDone)
  refine each _ [] (fun pair member => ?_) (by simp)
  exact all pair.2 (List.of_mem_zip member).2

theorem defaults (fuel : Nat) :
    (∀ type machine, hidden.Allows type.mentions →
      Respects hidden machine (defaultValue fuel type)) ∧
    (∀ types machine, (∀ type ∈ types, hidden.Allows type.mentions) →
      Respects hidden machine (defaultValues fuel types)) := by
  induction fuel with
  | zero => exact ⟨fun _ _ _ => exhausted, fun _ _ _ => exhausted⟩
  | succ _ ih =>
    constructor
    · intro type machine allowed
      cases type with
      | array _ size =>
        cases size with
        | none => exact list (by simp)
        | some =>
          refine bind (ih.2 _ machine ?_) fun _ _ _ seen => alloc (by simpa using seen)
          intro _ member
          rwa [List.eq_of_mem_replicate member]
      | struct name =>
        have shown : hidden.definitions name = false := by
          simpa [Ty.mentions] using allowed
        refine get_bind ?_ (of_hides fun hides => ?_)
        · simp only [Machine.struct?_of_without shown]
        · have seen := hides.struct? shown
          cases found : machine.struct? name with
          | none => exact fail _
          | some =>
            rw [found, all_some] at seen
            refine bind (ih.2 _ machine ?_) fun _ _ _ seenValues =>
              struct (all_fieldsOf _ seenValues)
            intro _ member
            obtain ⟨field, isField, rfl⟩ := List.mem_map.mp member
            exact Hidden.Allows.of_subset seen fun _ isMention =>
              List.mem_flatMap.mpr ⟨field, isField, List.mem_cons_of_mem _ isMention⟩
      | map => exact alloc (by simp)
      | _ => exact pure trivial
    · intro types machine allowed
      cases types with
      | nil => exact pure (by simp)
      | cons type rest =>
        refine bind (ih.1 type machine (allowed type List.mem_cons_self)) ?_
        intro _ final _ seen
        refine bind (ih.2 rest final fun other member =>
          allowed other (List.mem_cons_of_mem _ member)) ?_
        intro _ _ kept seenValues
        exact pure ((all_cons _ _).mpr ⟨kept.sees seen, seenValues⟩)

theorem passed (type : Ty) (seen : All (machine.heap.Sees hidden) value) :
    Respects hidden machine (passed type value) := by
  unfold Noxy.passed
  split
  · exact deepCopy seen
  · refine bind (object? seen) fun _ _ kept _ => ?_
    split
    · exact deepCopy (kept.sees seen)
    · exact pure (kept.sees seen)
  · exact pure seen

theorem checkKey (seen : All (machine.heap.Sees hidden) key) :
    Respects hidden machine (checkKey key) := by
  unfold Noxy.checkKey
  refine bind (object? seen) fun _ _ _ _ => ?_
  split
  · exact fail _
  · exact fail _
  · exact fail _
  · exact pure trivial

theorem setMember (name : String) (seen : All (machine.heap.Sees hidden) module)
    (seenValue : All (machine.heap.Sees hidden) value) :
    Respects hidden machine (setMember module name value) := by
  cases module with
  | object => exact apply ⟨seen, fun _ => all_mapMembers fun _ => all_put seenValue⟩
  | _ => exact pure trivial

theorem memberOf {module : Option Value} (seen : All (machine.heap.Sees hidden) module)
    (seenValue : All (machine.heap.Sees hidden) value) :
    Respects hidden machine (module.forM fun module => Noxy.setMember module name value) := by
  cases module with
  | none => exact pure trivial
  | some => exact setMember name ((all_some _).mp seen) seenValue

/-! ### Imports -/

section Imports

variable (imports : hidden.imports = true)
include imports

theorem changeScopesOnImport (change : Scopes → Scopes)
    (seen : ∀ scopes : Scopes, All (machine.heap.Sees hidden) scopes.scopes →
      All (machine.heap.Sees hidden) (change scopes).scopes) :
    Respects hidden machine (modify fun machine =>
      { machine with scopes := change machine.scopes }) :=
  changeScopes (fun _ => change) (by simp only [Scopes.without_of_imports imports]) seen
    fun noImports => absurd (imports.symm.trans noImports) Bool.noConfusion

theorem defineFunction (seen : All (machine.heap.Sees hidden) (Value.function function)) :
    Respects hidden machine (defineFunction scope function) :=
  changeScopesOnImport imports (·.defineFunction scope function) fun _ all =>
    all_modifyScope all fun _ all => ⟨all.1, all_put seen all.2.1, all.2.2⟩

theorem defineStruct {struct : Struct}
    (seen : All (machine.heap.Sees hidden) (Value.struct struct)) :
    Respects hidden machine (defineStruct scope struct) :=
  changeScopesOnImport imports (·.defineStruct scope struct) fun _ all =>
    all_modifyScope all fun _ all => ⟨all.1, all.2.1, all_put seen all.2.2⟩

theorem importMember (name : String) (seen : All (machine.heap.Sees hidden) value) :
    Respects hidden machine (importMember name value) := by
  have shown := (hidden.noNames imports name).1
  unfold Noxy.importMember
  split
  · exact defineFunction imports seen
  · exact defineStruct imports seen
  · refine bind (object? seen) fun _ _ kept _ => ?_
    split
    · exact define shown (kept.sees seen)
    · exact define shown (kept.sees seen)

theorem importSelection (selection : Selection) (newName : Option String) (location : Location)
    (seen : All (machine.heap.Sees hidden) module) :
    Respects hidden machine (importSelection selection newName location module) := by
  unfold Noxy.importSelection
  refine bind (object? seen) fun found final kept seenFound => ?_
  split
  · rename_i moduleName members
    rw [all_some] at seenFound
    cases selection with
    | whole => exact define (hidden.noNames imports _).1 (kept.sees seen)
    | all =>
      refine forM fun member _ isMember keptLater => ?_
      exact importMember imports _ (keptLater.sees (seenFound member isMember).2)
    | names =>
      refine forM fun name _ _ keptLater => ?_
      have seenMember : All (final.heap.Sees hidden) (Bindings.get? name members) :=
        all_get? seenFound
      split
      · exact importMember imports _ (keptLater.sees (seenMember _ ‹_›))
      · exact throw trivial
  · exact pure trivial

theorem defineMembers (stmts : List Stmt) (seen : All (machine.heap.Sees hidden) module) :
    Respects hidden machine (defineMembers scope module stmts) := by
  induction stmts generalizing machine with
  | nil => exact pure trivial
  | cons stmt rest ih =>
    unfold Noxy.defineMembers
    split
    · rename_i function _
      have allowed : All (machine.heap.Sees hidden) (Value.function function) :=
        ⟨Hidden.allows_of_imports imports _, hidden.anyFunction imports function⟩
      refine bind (defineFunction imports allowed) fun _ _ kept _ => ?_
      refine bind (memberOf (kept.sees seen) (kept.sees allowed)) fun _ _ later _ => ?_
      exact ih ((kept.trans later).sees seen)
    · rename_i struct _ _
      have allowed : All (machine.heap.Sees hidden) (Value.struct struct) :=
        Hidden.allows_of_imports imports _
      refine bind (defineStruct imports allowed) fun _ _ kept _ => ?_
      refine bind (memberOf (kept.sees seen) (kept.sees allowed)) fun _ _ later _ => ?_
      exact ih ((kept.trans later).sees seen)
    · exact ih seen

theorem remember (path : Path) (seen : All (machine.heap.Sees hidden) module) :
    Respects hidden machine (modify fun machine =>
      { machine with modules := machine.modules ++ [(path, module)] }) := by
  refine ⟨fun _ => rfl, fun hides => ⟨⟨⟨hides.heap, hides.scopes, fun _ => ?_⟩,
    .refl hides.heap, fun _ => rfl⟩, trivial⟩⟩
  rw [all_append]
  refine ⟨hides.modules imports, ?_⟩
  rw [all_cons]
  exact ⟨⟨NoValues.all _ _, seen⟩, by simp⟩

end Imports

theorem readModule (path : String) (content : Nat) :
    Respects hidden machine (readModule path content) := by
  unfold Noxy.readModule
  refine bind (world _) fun _ _ _ _ => ?_
  split
  · exact fault _
  · exact ofExcept (NoValues.all _ _)

end Exec.Respects

end Noxy
