import Noxy.Proofs.Outcome

/-!
# The moments of a run

Evaluation is a nest of activities: evaluating an expression, executing a statement, calling a
function, and so on.
-/

namespace Noxy

/-- What an interpreter can be doing. -/
inductive Activity where
  | eval (expr : Expr)
  | evalBinary (operator : BinaryOperator) (left right : Expr)
  | evalAll (exprs : List Expr)
  | evalEntries (entries : List (Expr × Expr)) (done : List (Key × Value))
  | evalParts (parts : List TemplatePart)
  | evalRef (expr : Expr)
  | evalCall (callee : Expr) (arguments : List Expr)
  | callValue (callee : Expr) (arguments : List Expr)
  | construct (struct : Struct) (arguments : List Expr)
  | callFunction (function : Function) (arguments : List Expr)
  | evalArguments (arguments : List (Declared × Expr))
  | bindAll (params : List (Declared × Value))
  | exec (stmt : Stmt)
  | execAll (stmts : List Stmt)
  | execBlock (stmts : List Stmt)
  | execLoop (condition : Expr) (body : List Stmt)
  | assignTarget (target : Expr) (value : Value)
  | execUse (names : List String) (selection : Selection) (newName : Option String)
      (location : Location)
  | loadModule (path : String)
  | loadMembers (module : Value) (path : String) (members : List (String × String))
  | useAll (stmts : List Stmt)
  | defineMembers (scope : Nat) (module : Option Value) (stmts : List Stmt)
  | evalGlobals (module : Value) (stmts : List Stmt)

namespace Activity

def run (fuel : Nat) : Activity → Exec Unit
  | eval expr => discard (Noxy.eval fuel expr)
  | evalBinary operator left right => discard (Noxy.evalBinary fuel operator left right)
  | evalAll exprs => discard (Noxy.evalAll fuel exprs)
  | evalEntries entries done => discard (Noxy.evalEntries fuel entries done)
  | evalParts parts => discard (Noxy.evalParts fuel parts)
  | evalRef expr => discard (Noxy.evalRef fuel expr)
  | evalCall callee arguments => discard (Noxy.evalCall fuel callee arguments)
  | callValue callee arguments => discard (Noxy.callValue fuel callee arguments)
  | construct struct arguments => discard (Noxy.construct fuel struct arguments)
  | callFunction function arguments => discard (Noxy.callFunction fuel function arguments)
  | evalArguments arguments => discard (Noxy.evalArguments fuel arguments)
  | bindAll params => Noxy.bindAll params
  | exec stmt => Noxy.exec fuel stmt
  | execAll stmts => Noxy.execAll fuel stmts
  | execBlock stmts => Noxy.execBlock fuel stmts
  | execLoop condition body => Noxy.execLoop fuel condition body
  | assignTarget target value => Noxy.assignTarget fuel target value
  | execUse names selection newName location => Noxy.execUse fuel names selection newName location
  | loadModule path => discard (Noxy.loadModule fuel path)
  | loadMembers module path members => Noxy.loadMembers fuel module path members
  | useAll stmts => Noxy.useAll fuel stmts
  | defineMembers scope module stmts => Noxy.defineMembers scope module stmts
  | evalGlobals module stmts => Noxy.evalGlobals fuel module stmts

def final (fuel : Nat) (activity : Activity) (machine : Machine) : Machine :=
  match activity.run fuel machine with
  | .ok _ final => final
  | .error _ final => final

end Activity

def Machine.remembering (machine : Machine) (resolved : Path) (path : String) : Machine :=
  { machine with
    heap := (machine.heap.alloc (.module (Modules.moduleName path) [])).2
    modules := machine.modules ++ [(resolved, .object machine.heap.objects.size)] }

/--
The parts of an activity: `Begins fuel activity machine part begun` says that the activity, started
in `machine` with fuel for one step more than `fuel`, begins the part in the machine `begun`.
-/
inductive Begins (fuel : Nat) : Activity → Machine → Activity → Machine → Prop where
  -- evaluating an expression
  | binary :
      Begins fuel (.eval (.binary left operator right location)) machine
        (.evalBinary operator left right) machine
  | unary :
      Begins fuel (.eval (.unary operator operand location)) machine (.eval operand) machine
  | call :
      Begins fuel (.eval (.call callee arguments location)) machine
        (.evalCall callee arguments) machine
  | indexObject :
      Begins fuel (.eval (.index object index location)) machine (.eval object) machine
  | indexPosition (objectEnded : eval fuel object machine = .ok value begun) :
      Begins fuel (.eval (.index object index location)) machine (.eval index) begun
  | fieldObject :
      Begins fuel (.eval (.field object name location)) machine (.eval object) machine
  | elements :
      Begins fuel (.eval (.array elements location)) machine (.evalAll elements) machine
  | entries :
      Begins fuel (.eval (.map entries location)) machine (.evalEntries entries []) machine
  | reference :
      Begins fuel (.eval (.ref value location)) machine (.evalRef value) machine
  | parts :
      Begins fuel (.eval (.template parts location)) machine (.evalParts parts) machine
  | zeros :
      Begins fuel (.eval (.zeros size location)) machine (.eval size) machine
  | group :
      Begins fuel (.eval (.group grouped location)) machine (.eval grouped) machine
  -- operands
  | leftOperand :
      Begins fuel (.evalBinary operator left right) machine (.eval left) machine
  | rightOfAnd (leftEnded : eval fuel left machine = .ok value begun)
      (isTrue : begun.heap.isTrue value = .ok true) :
      Begins fuel (.evalBinary .and left right) machine (.eval right) begun
  | rightOfOr (leftEnded : eval fuel left machine = .ok value begun)
      (isFalse : begun.heap.isTrue value = .ok false) :
      Begins fuel (.evalBinary .or left right) machine (.eval right) begun
  | rightOperand (leftEnded : eval fuel left machine = .ok value begun)
      (notAnd : operator ≠ .and) (notOr : operator ≠ .or) :
      Begins fuel (.evalBinary operator left right) machine (.eval right) begun
  -- several expressions
  | firstOfAll :
      Begins fuel (.evalAll (expr :: rest)) machine (.eval expr) machine
  | restOfAll (firstEnded : eval fuel expr machine = .ok value begun) :
      Begins fuel (.evalAll (expr :: rest)) machine (.evalAll rest) begun
  | entryKey :
      Begins fuel (.evalEntries ((key, value) :: rest) done) machine (.eval key) machine
  | entryValue (keyEnded : eval fuel key machine = .ok keyValue begun) :
      Begins fuel (.evalEntries ((key, value) :: rest) done) machine (.eval value) begun
  | restOfEntries (keyEnded : eval fuel key machine = .ok keyValue afterKey)
      (valueEnded : eval fuel value afterKey = .ok entryValue afterValue)
      (isKey : (do checkKey keyValue; Builtin.keyOf keyValue) afterValue = .ok mapKey begun) :
      Begins fuel (.evalEntries ((key, value) :: rest) done) machine
        (.evalEntries rest (Map.put mapKey entryValue done)) begun
  | restOfText :
      Begins fuel (.evalParts (.text content :: rest)) machine (.evalParts rest) machine
  | interpolation :
      Begins fuel (.evalParts (.interpolation expr format :: rest)) machine (.eval expr) machine
  | restOfParts (exprEnded : eval fuel expr machine = .ok value begun)
      (hasText : begun.heap.formatted value format = .ok text) :
      Begins fuel (.evalParts (.interpolation expr format :: rest)) machine (.evalParts rest) begun
  -- references
  | refField :
      Begins fuel (.evalRef (.field object name location)) machine (.eval object) machine
  | refIndex :
      Begins fuel (.evalRef (.index object index location)) machine (.eval index) machine
  | refObject (indexEnded : eval fuel index machine = .ok value begun) :
      Begins fuel (.evalRef (.index object index location)) machine (.eval object) begun
  | refValue (notName : ∀ name location, expr ≠ .identifier name location)
      (notField : ∀ object name location, expr ≠ .field object name location)
      (notIndex : ∀ object index location, expr ≠ .index object index location) :
      Begins fuel (.evalRef expr) machine (.eval expr) machine
  -- calls
  | callStruct (isStruct : machine.callable? name = some (.struct struct)) :
      Begins fuel (.evalCall (.identifier name location) arguments) machine
        (.construct struct arguments) machine
  | callNamed (isFunction : machine.callable? name = some (.function function)) :
      Begins fuel (.evalCall (.identifier name location) arguments) machine
        (.callFunction function arguments) machine
  | callBuiltin (isBuiltin : machine.callable? name = some (.builtin builtin)) :
      Begins fuel (.evalCall (.identifier name location) arguments) machine
        (.evalAll arguments) machine
  | methodObject :
      Begins fuel (.evalCall (.field object name location) arguments) machine
        (.eval object) machine
  | methodArguments (objectEnded : eval fuel object machine = .ok value begun)
      (hasMethods : begun.heap.receiver? value = some receiver)
      (isBuiltin : Builtin.find? (receiver.start ++ name) = some builtin) :
      Begins fuel (.evalCall (.field object name location) arguments) machine
        (.evalAll arguments) begun
  | callMember (objectEnded : eval fuel object machine = .ok value begun)
      (noMethods : begun.heap.receiver? value = none) :
      Begins fuel (.evalCall (.field object name location) arguments) machine
        (.callValue (.field object name location) arguments) begun
  | callOther (notName : ∀ name location, callee ≠ .identifier name location)
      (notField : ∀ object name location, callee ≠ .field object name location) :
      Begins fuel (.evalCall callee arguments) machine (.callValue callee arguments) machine
  | callee :
      Begins fuel (.callValue callee arguments) machine (.eval callee) machine
  | callFunctionValue (calleeEnded : eval fuel callee machine = .ok (.function function) begun) :
      Begins fuel (.callValue callee arguments) machine (.callFunction function arguments) begun
  | callStructValue (calleeEnded : eval fuel callee machine = .ok (.struct struct) begun) :
      Begins fuel (.callValue callee arguments) machine (.construct struct arguments) begun
  | fieldValues (complete : arguments.length = struct.fields.length) :
      Begins fuel (.construct struct arguments) machine (.evalAll arguments) machine
  | arguments (complete : arguments.length = function.params.length) :
      Begins fuel (.callFunction function arguments) machine
        (.evalArguments (function.params.zip arguments)) machine
  | params (complete : arguments.length = function.params.length)
      (passed : evalArguments fuel (function.params.zip arguments) machine = .ok values begun) :
      Begins fuel (.callFunction function arguments) machine
        (.bindAll (function.params.zip values)) (Exec.entered 0 begun)
  | body (complete : arguments.length = function.params.length)
      (passed : evalArguments fuel (function.params.zip arguments) machine = .ok values called)
      (bound : bindAll (function.params.zip values) (Exec.entered 0 called) = .ok () begun) :
      Begins fuel (.callFunction function arguments) machine (.execAll function.body) begun
  | firstArgument :
      Begins fuel (.evalArguments ((param, argument) :: rest)) machine (.eval argument) machine
  | restOfArguments (firstEnded : eval fuel argument machine = .ok value evaluated)
      (isPassed : passed param.type value evaluated = .ok copy begun) :
      Begins fuel (.evalArguments ((param, argument) :: rest)) machine (.evalArguments rest) begun
  | restOfParams (bound : Exec.defineHere param.name param.type value machine = .ok () begun) :
      Begins fuel (.bindAll ((param, value) :: rest)) machine (.bindAll rest) begun
  -- statements
  | initializer :
      Begins fuel (.exec (.letVar name type (some initializer) location)) machine
        (.eval initializer) machine
  | globalInitializer :
      Begins fuel (.exec (.globalVar name type initializer location)) machine
        (.eval initializer) machine
  | assignedValue :
      Begins fuel (.exec (.assign target value location)) machine (.eval value) machine
  | assignedTarget (valueEnded : eval fuel value machine = .ok assigned begun) :
      Begins fuel (.exec (.assign target value location)) machine
        (.assignTarget target assigned) begun
  | expression :
      Begins fuel (.exec (.expression expr location)) machine (.eval expr) machine
  | branchCondition :
      Begins fuel (.exec (.branch condition thenBody elseBody location)) machine
        (.eval condition) machine
  | thenBody (conditionEnded : eval fuel condition machine = .ok value begun)
      (isTrue : begun.heap.isTrue value = .ok true) :
      Begins fuel (.exec (.branch condition thenBody elseBody location)) machine
        (.execBlock thenBody) begun
  | elseBody (conditionEnded : eval fuel condition machine = .ok value begun)
      (isFalse : begun.heap.isTrue value = .ok false) :
      Begins fuel (.exec (.branch condition thenBody elseBody location)) machine
        (.execBlock elseBody) begun
  | loop :
      Begins fuel (.exec (.loop condition body location)) machine (.execLoop condition body) machine
  | returnedValue :
      Begins fuel (.exec (.returning (some value) location)) machine (.eval value) machine
  | use :
      Begins fuel (.exec (.use names selection newName location)) machine
        (.execUse names selection newName location) machine
  | firstStmt :
      Begins fuel (.execAll (stmt :: rest)) machine (.exec stmt) machine
  | restOfStmts (firstEnded : exec fuel stmt machine = .ok () begun) :
      Begins fuel (.execAll (stmt :: rest)) machine (.execAll rest) begun
  | block :
      Begins fuel (.execBlock stmts) machine
        (.execAll stmts) (Exec.entered machine.current machine)
  | loopCondition :
      Begins fuel (.execLoop condition body) machine (.eval condition) machine
  | loopBody (conditionEnded : eval fuel condition machine = .ok value begun)
      (isTrue : begun.heap.isTrue value = .ok true) :
      Begins fuel (.execLoop condition body) machine (.execBlock body) begun
  | nextTurn (conditionEnded : eval fuel condition machine = .ok value turned)
      (isTrue : turned.heap.isTrue value = .ok true)
      (bodyEnded : execBlock fuel body turned = .ok () begun) :
      Begins fuel (.execLoop condition body) machine (.execLoop condition body) begun
  | targetObject :
      Begins fuel (.assignTarget (.index object index location) value) machine
        (.eval object) machine
  | targetIndex (objectEnded : eval fuel object machine = .ok container begun) :
      Begins fuel (.assignTarget (.index object index location) value) machine
        (.eval index) begun
  | targetField :
      Begins fuel (.assignTarget (.field object name location) value) machine
        (.eval object) machine
  -- modules
  | located (found : Modules.locate machine.world machine.basePath names = .ok (some path)) :
      Begins fuel (.execUse names selection newName location) machine (.loadModule path) machine
  | directory
      (found : machine.world.disk.find machine.world.workingDirectory path =
        .ok (resolved, .directory))
      (isNew : machine.modules.lookup resolved = none) :
      Begins fuel (.loadModule path) machine
        (.loadMembers (.object machine.heap.objects.size) path
          (Modules.members machine.world.disk resolved))
        (machine.remembering resolved path)
  | moduleImports
      (found : machine.world.disk.find machine.world.workingDirectory path =
        .ok (resolved, .file content))
      (isNew : machine.modules.lookup resolved = none)
      (read : readModule path content (machine.remembering resolved path) = .ok program begun) :
      Begins fuel (.loadModule path) machine (.useAll program) (Exec.entered 0 begun)
  | moduleDefinitions
      (found : machine.world.disk.find machine.world.workingDirectory path =
        .ok (resolved, .file content))
      (isNew : machine.modules.lookup resolved = none)
      (read : readModule path content (machine.remembering resolved path) = .ok program inside)
      (imported : useAll fuel program (Exec.entered 0 inside) = .ok () begun) :
      Begins fuel (.loadModule path) machine
        (.defineMembers begun.current (some (.object machine.heap.objects.size)) program) begun
  | moduleGlobals
      (found : machine.world.disk.find machine.world.workingDirectory path =
        .ok (resolved, .file content))
      (isNew : machine.modules.lookup resolved = none)
      (read : readModule path content (machine.remembering resolved path) = .ok program inside)
      (imported : useAll fuel program (Exec.entered 0 inside) = .ok () afterImports)
      (defined : defineMembers afterImports.current (some (.object machine.heap.objects.size))
        program afterImports = .ok () begun) :
      Begins fuel (.loadModule path) machine
        (.evalGlobals (.object machine.heap.objects.size) program) begun
  | firstMember :
      Begins fuel (.loadMembers module path ((name, file) :: rest)) machine
        (.loadModule (Modules.join path file)) machine
  | restOfMembers
      (loaded : loadModule fuel (Modules.join path file) machine = .ok member afterMember)
      (isSet : setMember module name member afterMember = .ok () begun) :
      Begins fuel (.loadMembers module path ((name, file) :: rest)) machine
        (.loadMembers module path rest) begun
  | firstUse :
      Begins fuel (.useAll (.use names selection newName location :: rest)) machine
        (.execUse names selection newName location) machine
  | restAfterUse (used : execUse fuel names selection newName location machine = .ok () begun) :
      Begins fuel (.useAll (.use names selection newName location :: rest)) machine
        (.useAll rest) begun
  | restOfUses
      (notUse : ∀ names selection newName location,
        stmt ≠ .use names selection newName location) :
      Begins fuel (.useAll (stmt :: rest)) machine (.useAll rest) machine
  | restOfDefinitions (firstDefined : defineMembers scope module [stmt] machine = .ok () begun) :
      Begins fuel (.defineMembers scope module (stmt :: rest)) machine
        (.defineMembers scope module rest) begun
  | globalOfModule :
      Begins fuel (.evalGlobals module (.globalVar name type initializer location :: rest)) machine
        (.eval initializer) machine
  | restAfterGlobal (evaluated : eval fuel initializer machine = .ok value afterValue)
      (isSet : (do Exec.defineHere name type value; setMember module name value) afterValue =
        .ok () begun) :
      Begins fuel (.evalGlobals module (.globalVar name type initializer location :: rest)) machine
        (.evalGlobals module rest) begun
  | restOfGlobals
      (notGlobal : ∀ name type initializer location,
        stmt ≠ .globalVar name type initializer location) :
      Begins fuel (.evalGlobals module (stmt :: rest)) machine (.evalGlobals module rest) machine

/-- An activity begins another one, directly or through its parts. -/
inductive Reaches : Nat → Activity → Machine → Nat → Activity → Machine → Prop where
  | here : Reaches fuel activity machine fuel activity machine
  | inside (begins : Begins fuel activity machine part begun)
      (reaches : Reaches fuel part begun fuel' activity' machine') :
      Reaches (fuel + 1) activity machine fuel' activity' machine'

theorem Reaches.trans (first : Reaches fuel activity machine fuel' part begun)
    (second : Reaches fuel' part begun fuel'' last moment) :
    Reaches fuel activity machine fuel'' last moment := by
  induction first with
  | here => exact second
  | inside begins _ ih => exact .inside begins (ih second)

namespace Program

/-- The stages of a run. -/
inductive Begins (fuel : Nat) (program : Program) : Machine → Activity → Machine → Prop where
  | imports : Begins fuel program machine (.useAll program) machine
  | definitions (imported : useAll fuel program machine = .ok () begun) :
      Begins fuel program machine (.defineMembers 0 none program) begun
  | actions (imported : useAll fuel program machine = .ok () afterImports)
      (defined : defineMembers 0 none program afterImports = .ok () begun) :
      Begins fuel program machine (.execAll (program.filter Stmt.isAction)) begun

/-- A machine at the beginning or end of a part of a run. -/
def IsMoment (fuel : Nat) (program : Program) (machine moment : Machine) : Prop :=
  ∃ activity begun fuel' part started,
    program.Begins fuel machine activity begun ∧
      Reaches fuel activity begun fuel' part started ∧
      (moment = started ∨ moment = part.final fuel' started)

end Program

end Noxy
