import Noxy.Typing.Checker
import Noxy.Typing.Signature

/-!
# Types of expressions

`Checker.typeOf` gives the type of an expression, or the first error in it.
-/

namespace Noxy

abbrev Typed :=
  Except Failure Ty

def Typed.fail (cause : TypingCause) (location : Location) : Except Failure α :=
  .error (.error (.typing cause location))

def checkArguments (refusal? : Nat → α → Ty → Option TypingCause) (location : Location) :
    Nat → List Typed → List α → Except Failure Unit
  | number, argument :: arguments, param :: params => do
    let type ← argument
    match refusal? number param type with
    | some cause => Typed.fail cause location
    | none => checkArguments refusal? location (number + 1) arguments params
  | _, _, _ => .ok ()

def checkAll : List Typed → Except Failure Unit
  | [] => .ok ()
  | first :: rest => do
    let _ ← first
    checkAll rest

def Ty.acceptsArgument (param argument : Ty) : Bool :=
  match param, argument with
  | .ref inner, .struct name home => inner.sameShape (.struct name home) || param.accepts argument
  | .ref (.array element _), .array element' _ =>
    element'.sameShape element || param.accepts argument
  | param, argument => param.accepts argument

def BinaryOperator.typed (operator : BinaryOperator) (left right : Ty) : Except TypingCause Ty :=
  let arithmetic : Except TypingCause Ty :=
    if !left.equal right then .error (.operandsDiffer operator.text left.name right.name)
    else if left.isNumeric then .ok left
    else .error (.notNumeric operator.text)
  let order : Except TypingCause Ty :=
    if !left.equal right then .error .comparedDiffer
    else if left.isNumeric then .ok .bool
    else .error (.notNumeric operator.text)
  let equality : Except TypingCause Ty :=
    if left.isRef || right.isRef || left.equal right then .ok .bool else .error .comparedDiffer
  let logic : Except TypingCause Ty :=
    if left = .bool ∧ right = .bool then .ok .bool else .error (.notBool operator.text)
  match operator with
  | .add =>
    match left with
    | .string => if right = .string then .ok .string else .error (.concatenation "string")
    | .bytes => if right = .bytes then .ok .bytes else .error (.concatenation "bytes")
    | _ => arithmetic
  | .subtract => arithmetic
  | .multiply => arithmetic
  | .divide => arithmetic
  | .modulo => arithmetic
  | .greater => order
  | .less => order
  | .greaterEqual => order
  | .lessEqual => order
  | .equal => equality
  | .different => equality
  | .and => logic
  | .or => logic

def UnaryOperator.typed : UnaryOperator → Ty → Except TypingCause Ty
  | .negate, operand => if operand.isNumeric then .ok operand else .error .negatesNonNumber
  | .invert, operand => if operand = .bool then .ok .bool else .error .invertsNonBool

def Ty.indexed (object index : Ty) : Except TypingCause Ty :=
  match object.referenced with
  | .array element _ => if index = .int then .ok element else .error (.arrayIndex index.name)
  | .string => if index = .int then .ok .string else .error (.stringIndex index.name)
  | .bytes => if index = .int then .ok .int else .error (.bytesIndex index.name)
  | .map key value =>
    if key.equal index then .ok value else .error (.keyMismatch key.name index.name)
  | other => .error (.notIndexable other.name)

def arrayMethods : List String :=
  ["append", "pop", "remove", "length", "contains"]

def mapMethods : List String :=
  ["keys", "has_key", "delete", "length"]

def methodFamily? : String → Option String
  | "IO" => some "io_"
  | "Net" => some "net_"
  | "Sqlite" => some "sqlite_"
  | "Strings" => some "strings_"
  | _ => none

def isReserved (name : String) : Bool :=
  ["io_", "net_", "sqlite_", "strings_"].any fun start => start.toList.isPrefixOf name.toList

def arrayTyped (location : Location) : List Typed → Typed
  | [] => .ok (.array .void (some 0))
  | first :: rest => do
    let element ← first
    let refusal? (_ : Nat) (_ : Unit) (type : Ty) : Option TypingCause :=
      if element.accepts type then none else some (.mixedElements element.name type.name)
    checkArguments refusal? location 1 rest (rest.map fun _ => ())
    return .array element (some (rest.length + 1))

def checkEntries (key value : Ty) (location : Location) :
    List (Typed × Typed) → Except Failure Unit
  | [] => .ok ()
  | (key', value') :: rest => do
    let key' ← key'
    let value' ← value'
    if !key.accepts key' then
      Typed.fail (.mixedKeys key.name key'.name) location
    else if !value.accepts value' then
      Typed.fail (.mixedValues value.name value'.name) location
    else
      checkEntries key value location rest

def mapTyped (location : Location) : List (Typed × Typed) → Typed
  | [] => .ok (.map .void .void)
  | (key, value) :: rest => do
    let key ← key
    let value ← value
    checkEntries key value location rest
    return .map key value

def constructed (name : String) (fields : List Declared) (arguments : List Typed)
    (location : Location) : Except Failure Unit :=
  if arguments.length ≠ fields.length then
    Typed.fail (.constructorArity name fields.length arguments.length) location
  else
    checkArguments (fun _ (field : Declared) type =>
      if field.type.accepts type then none
      else some (.constructorField field.name field.type.name type.name))
    location 1 arguments fields

def functionTyped (name : String) (function : Function) (arguments : List Typed)
    (location : Location) : Typed := do
  if arguments.length ≠ function.params.length then
    Typed.fail (.functionArity name function.params.length arguments.length) location
  else
    checkArguments (fun number (param : Declared) type =>
      if param.type.acceptsArgument type then none
      else some (.functionArgument number name type.name param.type.name)) location 1 arguments
      function.params
    return function.returns

def builtinTyped (name : String) (returns : Option Ty) (params : List Ty) (arguments : List Typed)
    (location : Location) : Typed := do
  if name = "print" then
    checkAll arguments
    return .void
  else if arguments.length ≠ params.length then
    Typed.fail (.functionArity name params.length arguments.length) location
  else
    checkArguments (fun _ (param : Ty) type =>
      if param.accepts type then none else some (.argumentMismatch param.name type.name))
      location 1 arguments params
    return returns.getD .void

namespace Checker

def identifierTyped (checker : Checker) (name : String) (location : Location) : Typed :=
  match checker.typeOfName? name with
  | some type => .ok type
  | none =>
    match checker.struct? name with
    | some _ => .ok (.struct name none)
    | none => Typed.fail (.undefinedVariable name) location

def structOf? (checker : Checker) (name : String) : Option String → Option Struct
  | none => checker.struct? name
  | some home =>
    match checker.typeOfName? home with
    | some (.imported _ number) =>
      match checker.member? number name with
      | some (.struct struct) => some struct
      | _ => none
    | _ => none

def fieldTyped (checker : Checker) (object : Ty) (field : String) (location : Location) : Typed :=
  match object.referenced with
  | .struct name home =>
    match checker.structOf? name home with
    | none => Typed.fail (.undefinedStruct name home) location
    | some struct =>
      match struct.fields.find? fun declared => declared.name = field with
      | some declared => .ok declared.type
      | none => Typed.fail (.missingField name field) location
  | .imported name number =>
    match checker.member? number field with
    | none => Typed.fail (.memberNotFound field name) location
    | some (.global type) => .ok type
    | some (.function _) => Typed.fail .functionAsValue location
    | some (.struct _) => Typed.fail .structAsValue location
  | other => Typed.fail (.noFields other.name) location

def nameCallTyped (checker : Checker) (name : String) (arguments : List Typed)
    (location : Location) : Typed :=
  match checker.struct? name with
  | some struct => do
    constructed name struct.fields arguments location
    return .struct name none
  | none =>
    match if isReserved name then none else checker.function? name with
    | some function => functionTyped name function arguments location
    | none =>
      match Signature.find? name with
      | some signature => builtinTyped name signature.returns signature.params arguments location
      | none => Typed.fail (.undefinedFunction name) location

def memberCallTyped (checker : Checker) (moduleName : String) (number : Nat) (name : String)
    (arguments : List Typed) (location : Location) : Typed :=
  match checker.member? number name with
  | none => Typed.fail (.memberNotFound name moduleName) location
  | some (.function function) => functionTyped name function arguments location
  | some (.struct struct) => do
    constructed name struct.fields arguments location
    return .struct struct.name (some moduleName)
  | some (.global _) => Typed.fail (.notCallable name) location

def collectionCallTyped (checker : Checker) (object : Ty) (name : String) (arguments : List Typed)
    (location : Location) : Typed :=
  match checker.function? name with
  | some function => functionTyped name function arguments location
  | none =>
    match Signature.find? name with
    | some signature => builtinTyped name signature.returns signature.params.tail arguments location
    | none => Typed.fail (.unsupportedMethod name object.name) location

def methodCallTyped (checker : Checker) (object : Ty) (name : String) (arguments : List Typed)
    (location : Location) : Typed :=
  match object with
  | .imported moduleName number => checker.memberCallTyped moduleName number name arguments location
  | .struct struct _ =>
    match (methodFamily? struct).map (· ++ name) with
    | none => Typed.fail (.unsupportedMethod name object.name) location
    | some full =>
      match Signature.find? full with
      | some signature => builtinTyped full signature.returns signature.params arguments location
      | none => Typed.fail (.unsupportedMethod name object.name) location
  | .array _ _ =>
    if name ∈ arrayMethods then checker.collectionCallTyped object name arguments location
    else Typed.fail (.arrayMethod name) location
  | .map _ _ =>
    if name ∈ mapMethods then checker.collectionCallTyped object name arguments location
    else Typed.fail (.mapMethod name) location
  | other => Typed.fail (.unsupportedMethod name other.name) location

def located (location : Location) : Except TypingCause Ty → Typed
  | .ok type => .ok type
  | .error cause => Typed.fail cause location

mutual

def typeOf (checker : Checker) : Expr → Typed
  | .int _ _ => .ok .int
  | .float _ _ => .ok .float
  | .string _ _ => .ok .string
  | .bytes _ _ => .ok .bytes
  | .bool _ _ => .ok .bool
  | .null _ => .ok (.ref .void)
  | .identifier name location => checker.identifierTyped name location
  | .binary left operator right location => do
    let left ← checker.typeOf left
    let right ← checker.typeOf right
    located location (operator.typed left right)
  | .unary operator operand location => do
    let operand ← checker.typeOf operand
    located location (operator.typed operand)
  | .call (.identifier name _) arguments location =>
    checker.nameCallTyped name (checker.typesOf arguments) location
  | .call (.field object name _) arguments location => do
    let object ← checker.typeOf object
    checker.methodCallTyped object name (checker.typesOf arguments) location
  | .call _ arguments _ => do
    checkAll (checker.typesOf arguments)
    return .void
  | .index object index location => do
    let object ← checker.typeOf object
    let index ← checker.typeOf index
    located location (object.indexed index)
  | .field object name location => do
    let object ← checker.typeOf object
    checker.fieldTyped object name location
  | .array elements location => arrayTyped location (checker.typesOf elements)
  | .map entries location => mapTyped location (checker.entryTypes entries)
  | .ref value _ => do
    let type ← checker.typeOf value
    return .ref type
  | .template _ _ => .ok .string
  | .zeros size location => do
    let type ← checker.typeOf size
    if type = .int then .ok (.array .int none) else Typed.fail (.zerosSize type.name) location
  | .group inner _ => checker.typeOf inner

def typesOf (checker : Checker) : List Expr → List Typed
  | [] => []
  | expr :: rest => checker.typeOf expr :: checker.typesOf rest

def entryTypes (checker : Checker) : List (Expr × Expr) → List (Typed × Typed)
  | [] => []
  | (key, value) :: rest => (checker.typeOf key, checker.typeOf value) :: checker.entryTypes rest

end

end Checker

end Noxy
