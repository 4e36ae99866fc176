import Noxy.Program.Stmt
import Noxy.Text.Quoted

/-!
# Listings of definitions

The text of a function or struct used as a value: its definition, written out part by part with the
names of the parts and the places.
-/

namespace Noxy.Listing

def form (name : String) (parts : List (String × String)) : String :=
  name ++ "(" ++ ", ".intercalate (parts.map fun part => part.1 ++ "=" ++ part.2) ++ ")"

def sequence (items : List String) : String :=
  "[" ++ ", ".intercalate items ++ "]"

def optional (list : α → String) : Option α → String
  | none => "None"
  | some value => list value

def truth (value : Bool) : String :=
  if value then "True" else "False"

def place (location : Location) : String :=
  form "SourceLocation" [("line", toString location.line), ("column", toString location.column),
    ("file", Text.quoted location.file)]

def placed (name : String) (location : Location) (parts : List (String × String)) : String :=
  form name (parts ++ [("location", place location)])

def type : Ty → String
  | .array element size =>
    form "ArrayType" [("element_type", type element), ("size", optional toString size)]
  | .map key value => form "MapType" [("key_type", type key), ("value_type", type value)]
  | .struct name home =>
    form "StructType" [("name", Text.quoted name), ("module", optional Text.quoted home)]
  | .ref inner => form "RefType" [("inner_type", type inner)]
  | .imported name _ => form "ModuleType" [("name", Text.quoted name), ("members", "\x7b\x7d")]
  | .any => Ty.any.text
  | primitive => form "PrimitiveType" [("name", Text.quoted primitive.text)]

def declarations (name typeName : String) (declarations : List Declared) : String :=
  sequence (declarations.map fun declared =>
    form name [("name", Text.quoted declared.name), (typeName, type declared.type)])

def params : List Declared → String :=
  declarations "FuncParam" "param_type"

def fields : List Declared → String :=
  declarations "StructField" "field_type"

mutual

def expr (value : Expr) : String :=
  match value with
  | .int number location => placed value.formName location [("value", toString number)]
  | .float number location => placed value.formName location [("value", Number.shortestText number)]
  | .string text location => placed value.formName location [("value", Text.quoted text)]
  | .bytes bytes location => placed value.formName location [("value", Text.quotedBytes bytes)]
  | .bool flag location => placed value.formName location [("value", truth flag)]
  | .null location => placed value.formName location []
  | .identifier name location => placed value.formName location [("name", Text.quoted name)]
  | .binary left operator right location =>
    placed value.formName location [("left", expr left),
      ("operator", Text.quoted operator.text), ("right", expr right)]
  | .unary operator operand location =>
    placed value.formName location [("operator", Text.quoted operator.text),
      ("operand", expr operand)]
  | .call callee arguments location =>
    placed value.formName location [("callee", expr callee),
      ("arguments", sequence (exprs arguments))]
  | .index object index location =>
    placed value.formName location [("object", expr object), ("index", expr index)]
  | .field object name location =>
    placed value.formName location [("object", expr object), ("field_name", Text.quoted name)]
  | .array elements location =>
    placed value.formName location [("elements", sequence (exprs elements))]
  | .map entries location =>
    placed value.formName location [("keys", sequence (keys entries)),
      ("values", sequence (values entries))]
  | .ref inner location => placed value.formName location [("value", expr inner)]
  | .template parts location =>
    placed value.formName location [("parts", sequence (templateParts parts))]
  | .zeros size location => placed value.formName location [("size", expr size)]
  | .group inner location => placed value.formName location [("expr", expr inner)]

def exprs : List Expr → List String
  | [] => []
  | first :: rest => expr first :: exprs rest

def keys : List (Expr × Expr) → List String
  | [] => []
  | (key, _) :: rest => expr key :: keys rest

def values : List (Expr × Expr) → List String
  | [] => []
  | (_, value) :: rest => expr value :: values rest

def templateParts : List TemplatePart → List String
  | [] => []
  | .text content :: rest => Text.quoted content :: templateParts rest
  | .interpolation expression format :: rest =>
    form "FStringExpr" [("expr", expr expression), ("format_spec", optional Text.quoted format)]
      :: templateParts rest

end

def selection : Selection → String
  | .whole => "None"
  | .all => sequence [Text.quoted "*"]
  | .names names => sequence (names.map Text.quoted)

mutual

def stmt : Stmt → String
  | .letVar name declaredType initializer location =>
    placed "LetStmt" location [("name", Text.quoted name), ("var_type", type declaredType),
      ("initializer", optional expr initializer)]
  | .globalVar name declaredType initializer location =>
    placed "GlobalStmt" location [("name", Text.quoted name), ("var_type", type declaredType),
      ("initializer", expr initializer)]
  | .assign target value location =>
    placed "AssignStmt" location [("target", expr target), ("value", expr value)]
  | .expression value location => placed "ExprStmt" location [("expr", expr value)]
  | .branch condition thenBody elseBody location =>
    placed "IfStmt" location [("condition", expr condition),
      ("then_body", sequence (stmts thenBody)), ("else_body", sequence (stmts elseBody))]
  | .loop condition body location =>
    placed "WhileStmt" location [("condition", expr condition), ("body", sequence (stmts body))]
  | .returning value location => placed "ReturnStmt" location [("value", optional expr value)]
  | .breaking location => placed "BreakStmt" location []
  | .function name declared returns body location =>
    placed "FuncDef" location [("name", Text.quoted name), ("params", params declared),
      ("return_type", type returns), ("body", sequence (stmts body))]
  | .struct name declared location =>
    placed "StructDef" location [("name", Text.quoted name), ("fields", fields declared)]
  | .use path chosen newName location =>
    placed "UseStmt" location [("module_path", sequence (path.map Text.quoted)),
      ("imports", selection chosen), ("alias", optional Text.quoted newName)]

def stmts : List Stmt → List String
  | [] => []
  | first :: rest => stmt first :: stmts rest

end

end Noxy.Listing

namespace Noxy

def Function.listing (function : Function) : String :=
  Listing.stmt (.function function.name function.params function.returns function.body
    function.location)

def Struct.listing (struct : Struct) : String :=
  Listing.stmt (.struct struct.name struct.fields struct.location)

end Noxy
