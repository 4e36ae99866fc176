/-!
# Types

The types that programs write, with two more that only checking meets: the type of an imported
module, and `any`, which is the type of what a builtin function leaves open.
-/

namespace Noxy

inductive Ty where
  | int
  | float
  | string
  | bool
  | bytes
  | void
  | array (element : Ty) (size : Option Nat)
  | map (key value : Ty)
  | struct (name : String) (home : Option String)
  | ref (inner : Ty)
  | imported (name : String) (index : Nat)
  | any
  deriving DecidableEq, Repr, Inhabited

namespace Ty

def text : Ty → String
  | int => "int"
  | float => "float"
  | string => "string"
  | bool => "bool"
  | bytes => "bytes"
  | void => "void"
  | array element none => element.text ++ "[]"
  | array element (some size) => element.text ++ "[" ++ toString size ++ "]"
  | map key value => "map[" ++ key.text ++ ", " ++ value.text ++ "]"
  | struct name none => name
  | struct name (some home) => home ++ "." ++ name
  | ref inner => "ref " ++ inner.text
  | imported name _ => "module " ++ name
  | any => "typing.Any"

def name : Ty → String
  | any => "any"
  | type => type.text

def sameShape : Ty → Ty → Bool
  | int, int => true
  | float, float => true
  | string, string => true
  | bool, bool => true
  | bytes, bytes => true
  | void, void => true
  | array element _, array element' _ => element.sameShape element'
  | map key value, map key' value' => key.sameShape key' && value.sameShape value'
  | struct name home, struct name' home' => name = name' && home = home'
  | ref inner, ref inner' => inner.sameShape inner'
  | imported name _, imported name' _ => name = name'
  | any, any => true
  | _, _ => false

def equal (left right : Ty) : Bool :=
  left = any || right = any || left.sameShape right

def accepts (expected actual : Ty) : Bool :=
  match expected, actual with
  | any, _ => true
  | _, any => true
  | ref _, ref void => true
  | _, ref void => false
  | array _ _, array void _ => true
  | array element size, array element' size' =>
    element.equal element' && (size = none || size' = none || size = size')
  | map _ _, map void _ => true
  | map key value, map key' value' => key.equal key' && value.equal value'
  | struct name _, struct name' _ => name = name'
  | expected, actual => expected.equal actual

def isNumeric : Ty → Bool
  | int => true
  | float => true
  | _ => false

def isPrimitive : Ty → Bool
  | int => true
  | float => true
  | string => true
  | bool => true
  | bytes => true
  | void => true
  | _ => false

def isRef : Ty → Bool
  | ref _ => true
  | _ => false

def isArray : Ty → Bool
  | array _ _ => true
  | _ => false

def isStruct : Ty → Bool
  | struct _ _ => true
  | _ => false

def isMap : Ty → Bool
  | map _ _ => true
  | _ => false

def referenced : Ty → Ty
  | ref inner => inner
  | type => type

end Ty

end Noxy
