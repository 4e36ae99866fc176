import Noxy.Builtin.Collection
import Noxy.Text.Blank
import Noxy.Text.Case
import Noxy.Text.Letter

/-!
# Texts

The functions on texts.
-/

namespace Noxy.Builtin

def onText (function : String) (body : List Char → Value) (value : Value) : Exec Value :=
  match value with
  | .string text => pure (body text.toList)
  | _ => Exec.fail (.wrongArguments function "argumento string")

def onTexts (function : String) (body : List Char → List Char → Value) (first second : Value) :
    Exec Value :=
  match first, second with
  | .string text, .string text' => pure (body text.toList text'.toList)
  | _, _ => Exec.fail (.wrongArguments function "dois argumentos string")

def onThreeTexts (function : String) (body : List Char → List Char → List Char → List Char)
    (first second third : Value) : Exec Value :=
  match first, second, third with
  | .string text, .string text', .string text'' =>
    pure (.string (String.ofList (body text.toList text'.toList text''.toList)))
  | _, _, _ => Exec.fail (.wrongArguments function "três argumentos string")

def ofChars (text : List Char) : Value :=
  .string (String.ofList text)

def ofPosition (position : Option Nat) : Value :=
  .int (position.elim (-1) Int.ofNat)

def countOf (text sub : List Char) : Nat :=
  if sub.isEmpty then 0 else Text.countFrom sub 0 text

def replaceAll (text old new : List Char) : List Char :=
  if old.isEmpty then text else Text.replaceFrom old new 0 text

def replaceOne (text old new : List Char) : List Char :=
  if old.isEmpty then text else Text.replaceFirst old new text

def allChars (condition : Char → Bool) (text : List Char) : Bool :=
  !text.isEmpty && text.all condition

def maxRepeat : Nat :=
  10000

def repeatText (value count : Value) : Exec Value :=
  match value, count.int? with
  | .string text, some count =>
    if count < 0 then Exec.fail .repeatNegative
    else if maxRepeat < count then Exec.fail .repeatLimit
    else pure (ofChars (Heap.repeated count.toNat text.toList))
  | .string _, none => Exec.fail (.wrongArguments "repeat" "int como segundo argumento")
  | _, _ => Exec.fail (.wrongArguments "repeat" "string como primeiro argumento")

/-- The part between two places, once each is brought between the ends of the text. -/
def clampedPart (characters : List Char) (start stop : Int) : List Char :=
  let length : Int := characters.length
  let start := if start < 0 then 0 else start
  let stop := if stop < 0 then 0 else stop
  let start := if length < start then length else start
  let stop := if length < stop then length else stop
  if stop < start then [] else Text.slice characters start stop

def substringWithin (value start stop : Value) : Exec Value :=
  match value with
  | .string text =>
    match start.int?, stop.int? with
    | some start, some stop => pure (ofChars (clampedPart text.toList start stop))
    | _, _ => Exec.fail (.wrongArguments "substring" "int para start e end")
  | _ => Exec.fail (.wrongArguments "substring" "string como primeiro argumento")

def maxPadding : Nat :=
  10000

def pad (function : String) (place : List Char → List Char → List Char)
    (value width filler : Value) : Exec Value :=
  match value, filler with
  | .string text, .string filler =>
    match width.int? with
    | none => Exec.fail (.wrongArguments function "int para width")
    | some width =>
      match filler.toList with
      | [c] =>
        if maxPadding < width then
          Exec.fail (.padWidth function)
        else
          let padding := List.replicate (width.toNat - text.length) c
          pure (ofChars (place padding text.toList))
      | _ => Exec.fail (.padChar function)
  | _, _ => Exec.fail (.wrongArguments function "string para s e char")

def maxParts : Nat :=
  100

def partsOf (text separator : List Char) : List (List Char) :=
  if separator.isEmpty then text.map fun c => [c] else Text.pieces separator text

def split (value separator : Value) : Exec Value :=
  match value, separator with
  | .string text, .string separator => do
    let parts := (partsOf text.toList separator.toList).take maxParts
    let filled := parts ++ List.replicate (maxParts - parts.length) []
    let array ← Exec.list (filled.map ofChars)
    Exec.struct "SplitResult" [("parts", array), ("count", .int parts.length)]
  | _, _ => Exec.fail (.wrongArguments "split" "dois argumentos string")

def joined (values : List Value) (separator : String) : Exec Value := do
  let texts ← values.mapM fun value => Exec.view fun heap => heap.plain value
  return .string (separator.intercalate texts)

def join (array separator : Value) : Exec Value := do
  match separator with
  | .string separator =>
    match ← elements? array with
    | some elements => joined elements.toList separator
    | none => Exec.fail (.wrongArguments "join" "array como primeiro argumento")
  | _ => Exec.fail (.wrongArguments "join" "string como separador")

def joinCount (array separator count : Value) : Exec Value := do
  match separator with
  | .string separator =>
    match count.int? with
    | none => Exec.fail (.wrongArguments "join_count" "int como count")
    | some count =>
      match ← elements? array with
      | some elements => joined (elements.toList.take count.toNat) separator
      | none => Exec.fail (.wrongArguments "join_count" "array como primeiro argumento")
  | _ => Exec.fail (.wrongArguments "join_count" "string como separador")

def charAt (value index : Value) : Exec Value := do
  match value with
  | .string text =>
    match index.int? with
    | none => Exec.fail (.wrongArguments "char_at" "int como índice")
    | some position =>
      match if position < 0 then none else text.toList[position.toNat]? with
      | some c => return ofChars [c]
      | none => Exec.fail (.charOutside (← shown index) text.length)
  | _ => Exec.fail (.wrongArguments "char_at" "string como primeiro argumento")

/-- Surrogates, which no text can hold here, become U+0000. -/
def fromCharCode (value : Value) : Exec Value := do
  match value.int? with
  | none => Exec.fail (.wrongArguments "from_char_code" "argumento int")
  | some code =>
    if code < 0 ∨ 0x10FFFF < code then
      Exec.fail (.charCode (← shown value))
    else
      return ofChars [Char.ofNat code.toNat]

def strings : List Builtin :=
  let named (name : String) (parameters : List String) (body : List Value → Exec Value) :=
    plain ("strings_" ++ name) ("strings_" ++ name) parameters body
  [named "contains" ["s", "sub"]
      (binary (onTexts "contains" fun text sub => .bool (Text.occurs sub text))),
    named "starts_with" ["s", "prefix"]
      (binary (onTexts "starts_with" fun text start => .bool (start.isPrefixOf text))),
    named "ends_with" ["s", "suffix"]
      (binary (onTexts "ends_with" fun text stop => .bool (stop.isSuffixOf text))),
    named "index_of" ["s", "sub"]
      (binary (onTexts "index_of" fun text sub => ofPosition (Text.indexOf? sub text))),
    named "last_index_of" ["s", "sub"]
      (binary (onTexts "last_index_of" fun text sub => ofPosition (Text.lastIndexOf? sub text))),
    named "count" ["s", "sub"]
      (binary (onTexts "count" fun text sub => .int (countOf text sub))),
    named "to_upper" ["s"]
      (unary (onText "to_upper" fun text => .string (Text.toUpper (String.ofList text)))),
    named "to_lower" ["s"]
      (unary (onText "to_lower" fun text => .string (Text.toLower (String.ofList text)))),
    named "trim" ["s"] (unary (onText "trim" fun text => ofChars (Text.trim text))),
    named "trim_left" ["s"]
      (unary (onText "trim_left" fun text => ofChars (Text.trimLeft text))),
    named "trim_right" ["s"]
      (unary (onText "trim_right" fun text => ofChars (Text.trimRight text))),
    named "reverse" ["s"] (unary (onText "reverse" fun text => ofChars text.reverse)),
    named "repeat" ["s", "n"] (binary repeatText),
    named "substring" ["s", "start", "end"] (ternary substringWithin),
    named "replace" ["s", "old", "new"] (ternary (onThreeTexts "replace" replaceAll)),
    named "replace_first" ["s", "old", "new"] (ternary (onThreeTexts "replace_first" replaceOne)),
    named "pad_left" ["s", "width", "char"]
      (ternary (pad "pad_left" fun padding text => padding ++ text)),
    named "pad_right" ["s", "width", "char"]
      (ternary (pad "pad_right" fun padding text => text ++ padding)),
    named "split" ["s", "sep"] (binary split),
    named "join" ["arr", "sep"] (binary join),
    named "join_count" ["arr", "sep", "count"] (ternary joinCount),
    named "is_empty" ["s"] (unary (onText "is_empty" fun text => .bool text.isEmpty)),
    named "is_digit" ["s"]
      (unary (onText "is_digit" fun text => .bool (allChars Text.isDigit text))),
    named "is_alpha" ["s"]
      (unary (onText "is_alpha" fun text => .bool (allChars Text.isLetter text))),
    named "is_alnum" ["s"]
      (unary (onText "is_alnum" fun text => .bool (allChars Text.isWordChar text))),
    named "is_space" ["s"]
      (unary (onText "is_space" fun text => .bool (allChars Text.isBlank text))),
    named "char_at" ["s", "index"] (binary charAt),
    named "from_char_code" ["code"] (unary fromCharCode)]

end Noxy.Builtin
