import Noxy.Heap.Item
import Noxy.Program.Listing
import Noxy.Text.Quoted
import Noxy.Text.Utf8

/-!
# The texts of values

A value has three texts.
-/

namespace Noxy.Heap

def bracketed (items : List String) : String :=
  "[" ++ ", ".intercalate items ++ "]"

def braced (items : List String) : String :=
  "\x7b" ++ ", ".intercalate items ++ "\x7d"

def quotedKey : Key → Except Failure String
  | .null => .ok "None"
  | .bool value => .ok (Listing.truth value)
  | .int value => (intText value).mapError .fault
  | .float value => .ok (Number.shortestText value)
  | .nan _ => .ok (Number.shortestText Number.notANumber)
  | .string value => .ok (Text.quoted value)
  | .bytes value => .ok (Text.quotedBytes value)

def plainBy (quoted : Value → Except Failure String) : Value → Except Failure String
  | .string value => .ok value
  | value => quoted value

def quotedWithin (heap : Heap) : Nat → List Address → Value → Except Failure String
  | 0, _, _ => .error .exhausted
  | depth + 1, opened, value =>
    match value with
    | .null => quotedKey .null
    | .bool flag => quotedKey (.bool flag)
    | .int number => quotedKey (.int number)
    | .float number => quotedKey (.float number)
    | .nan mark => quotedKey (.nan mark)
    | .string text => quotedKey (.string text)
    | .bytes content => quotedKey (.bytes content)
    | .function definition => .ok definition.listing
    | .struct definition => .ok definition.listing
    | .object address =>
      let seen := opened.contains address
      let within := quotedWithin heap depth (address :: opened)
      match heap.get? address with
      | none => quotedKey .null
      | some (.list elements) =>
        if seen then .ok "[...]" else bracketed <$> elements.toList.mapM within
      | some (.array elements _) => bracketed <$> elements.toList.mapM within
      | some (.map entries) =>
        if seen then
          .ok (braced ["..."])
        else
          braced <$> entries.mapM fun (key, value) => do
            let keyText ← quotedKey key
            let valueText ← within value
            return keyText ++ ": " ++ valueText
      | some (.struct name fields) =>
        if seen then
          .ok (name ++ "(" ++ braced ["..."] ++ ")")
        else do
          let items ← fields.mapM fun (field, value) => do
            let valueText ← within value
            return Text.quoted field ++ ": " ++ valueText
          return name ++ "(" ++ braced items ++ ")"
      | some (.ref (.value .null)) => .ok "ref(null)"
      | some (.ref target) => do
        let value ← heap.targetValue target
        let text ← plainBy within value
        return "ref(" ++ text ++ ")"
      | some (.module name _) => .ok ("<module '" ++ name ++ "'>")

def quoted (heap : Heap) (value : Value) : Except Failure String :=
  heap.quotedWithin heap.depth [] value

def plain (heap : Heap) (value : Value) : Except Failure String :=
  plainBy heap.quoted value

def displayWithin (heap : Heap) (bytesText : List UInt8 → String) :
    Nat → Value → Except Failure String
  | 0, _ => .error .exhausted
  | depth + 1, value =>
    match value with
    | .null => .ok "null"
    | .bool flag => .ok (if flag then "true" else "false")
    | .int number => (intText number).mapError .fault
    | .float number => .ok (Number.fixedText number 6)
    | .nan _ => .ok (Number.fixedText Number.notANumber 6)
    | .string text => .ok text
    | .bytes content => .ok (bytesText content)
    | .function definition => .ok definition.listing
    | .struct definition => .ok definition.listing
    | .object address =>
      match heap.get? address with
      | some (.list elements) =>
        bracketed <$> elements.toList.mapM (displayWithin heap bytesText depth)
      | some (.array elements _) =>
        bracketed <$> elements.toList.mapM (displayWithin heap bytesText depth)
      | some (.struct name fields) => do
        let items ← fields.mapM fun (field, value) => do
          let valueText ← displayWithin heap bytesText depth value
          return field ++ ": " ++ valueText
        return name ++ "(" ++ ", ".intercalate items ++ ")"
      | some (.ref (.value .null)) => .ok "null"
      | some (.ref target) => do
        let value ← heap.targetValue target
        displayWithin heap bytesText depth value
      | _ => heap.plain value

def display (heap : Heap) (value : Value) : Except Failure String :=
  heap.displayWithin Text.Utf8.decode heap.depth value

def displayQuotingBytes (heap : Heap) (value : Value) : Except Failure String :=
  heap.displayWithin Text.quotedBytes heap.depth value

end Noxy.Heap
