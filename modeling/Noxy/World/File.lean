import Noxy.Text.Quoted
import Noxy.World.Disk

/-!
# Open files

Reading an open file gives text: bytes are read as UTF-8 and line ends are unified.
-/

namespace Noxy

inductive FileMode where
  | read
  | write
  | append
  deriving DecidableEq, Repr

def FileMode.ofText? : String → Option FileMode
  | "r" => some read
  | "w" => some write
  | "a" => some append
  | _ => none

/-- What was read from a file and not yet handed out: text, the first bytes of a character that is
not complete, and whether a carriage return is held back since a line feed may follow it. -/
structure Unread where
  text : List Char
  bytes : List UInt8
  hasReturn : Bool

/-- An open file: the number of its contents, the mode, the position in bytes up to which it was
read or written, and what of that is still unread. -/
structure OpenFile where
  content : Nat
  mode : FileMode
  position : Nat
  unread : Unread

inductive ReadError where
  | notReadable
  | malformed (malformed : Text.Utf8.Malformed)

def ReadError.message : ReadError → String
  | notReadable => "not readable"
  | malformed cause =>
    let reason := match cause.reason with
      | .invalidStart => "invalid start byte"
      | .invalidContinuation => "invalid continuation byte"
      | .unexpectedEnd => "unexpected end of data"
    let first := cause.position
    match cause.bytes with
    | [byte] =>
      let shown := String.ofList (Text.hexText 2 byte.toNat)
      s!"'utf-8' codec can't decode byte 0x{shown} in position {first}: {reason}"
    | bytes =>
      let last := first + bytes.length - 1
      s!"'utf-8' codec can't decode bytes in position {first}-{last}: {reason}"

namespace Unread

def none : Unread :=
  ⟨[], [], false⟩

def decode (unread : Unread) (input : List UInt8) (isLast : Bool) :
    Except Text.Utf8.Malformed (List Char × Unread) := do
  let bytes := unread.bytes ++ input
  let complete ← match Text.Utf8.malformed? bytes with
    | .none => .ok bytes.length
    | some cause =>
      if cause.reason = .unexpectedEnd ∧ !isLast then .ok cause.position else .error cause
  let text := (Text.Utf8.decode (bytes.take complete)).toList
  let isReleased := unread.hasReturn && (isLast || !text.isEmpty)
  let text := if isReleased then '\r' :: text else text
  let isHeld := !isLast && text.getLast? = some '\r'
  let text := if isHeld then text.dropLast else text
  let hasReturn := isHeld || (unread.hasReturn && !isReleased)
  return (unifyNewlines text, ⟨[], bytes.drop complete, hasReturn⟩)

def firstLine? (text : List Char) : Option (List Char × List Char) :=
  match text.dropWhile (· ≠ '\n') with
  | [] => .none
  | _ :: rest => some (text.takeWhile (· ≠ '\n') ++ ['\n'], rest)

/-- Reads a line from what is unread and from chunks of bytes, the last of which is empty.  `aside`
is the start of the line, and `position` the number of bytes that were taken.  If a chunk is no text
the start of the line is lost. -/
def lineFrom (unread : Unread) (aside : List Char) (position : Nat) :
    List (List UInt8) → Except Text.Utf8.Malformed (List Char) × Unread × Nat
  | [] => (.ok (aside ++ unread.text), { unread with text := [] }, position)
  | chunk :: more =>
    match firstLine? unread.text with
    | some (line, rest) => (.ok (aside ++ line), { unread with text := rest }, position)
    | .none =>
      let aside := aside ++ unread.text
      match unread.decode chunk chunk.isEmpty with
      | .error cause => (.error cause, { unread with text := [] }, position + chunk.length)
      | .ok (text, unread) =>
        if chunk.isEmpty && text.isEmpty then (.ok aside, unread, position)
        else lineFrom { unread with text } aside (position + chunk.length) more

end Unread

namespace OpenFile

def readText (bytes : List UInt8) : Except ReadError String :=
  match Text.Utf8.decode? bytes with
  | .ok text => .ok (String.ofList (unifyNewlines text.toList))
  | .error cause => .error (.malformed cause)

def remaining (file : OpenFile) (disk : Disk) : List UInt8 :=
  (disk.content file.content).drop file.position

def chunkSize : Nat :=
  8192

def chunks (bytes : List UInt8) : List (List UInt8) :=
  (List.range (bytes.length / chunkSize + 3)).map fun number =>
    (bytes.drop (number * chunkSize)).take chunkSize

def readAll (file : OpenFile) (disk : Disk) : Except ReadError String × OpenFile :=
  if file.mode = .read then
    let bytes := file.remaining disk
    let file := { file with position := file.position + bytes.length }
    match file.unread.decode bytes true with
    | .ok (text, unread) => (.ok (String.ofList (file.unread.text ++ text)), { file with unread })
    | .error cause => (.error (.malformed cause), file)
  else
    (.error .notReadable, file)

def readLine (file : OpenFile) (disk : Disk) : Except ReadError String × OpenFile :=
  if file.mode = .read then
    match Unread.firstLine? file.unread.text with
    | some (line, rest) =>
      (.ok (String.ofList line), { file with unread := { file.unread with text := rest } })
    | none =>
      let (line, unread, position) :=
        file.unread.lineFrom [] file.position (chunks (file.remaining disk))
      ((line.map String.ofList).mapError .malformed, { file with unread, position })
  else
    (.error .notReadable, file)

def readLinesFrom (disk : Disk) :
    Nat → OpenFile → List String → Except ReadError (List String) × OpenFile
  | 0, file, lines => (.ok lines.reverse, file)
  | count + 1, file, lines =>
    match file.readLine disk with
    | (.error error, file) => (.error error, file)
    | (.ok line, file) =>
      if line.isEmpty then (.ok lines.reverse, file)
      else readLinesFrom disk count file (line :: lines)

def readLines (file : OpenFile) (disk : Disk) : Except ReadError (List String) × OpenFile :=
  let unread := file.unread.text.length + file.unread.bytes.length
  readLinesFrom disk (unread + (file.remaining disk).length + 2) file []

def write (file : OpenFile) (disk : Disk) (text : String) : OpenFile × Disk :=
  let bytes := Text.Utf8.encode text
  match file.mode with
  | .read => (file, disk)
  | .write =>
    ({ file with position := file.position + bytes.length },
      disk.writeAt file.content file.position bytes)
  | .append =>
    let stop := (disk.content file.content).length
    ({ file with position := stop + bytes.length }, disk.writeAt file.content stop bytes)

end OpenFile

end Noxy
