/-!
# UTF-8

Text is written as UTF-8 and read back from it.
-/

namespace Noxy.Text.Utf8

def encode (text : String) : List UInt8 :=
  text.toList.flatMap String.utf8EncodeChar

inductive State where
  | between
  | inside (owed : Nat) (low high : UInt8) (value : Nat)

def replacement : Char :=
  '�'

def lead? (byte : UInt8) : Option State :=
  if 0xC2 ≤ byte ∧ byte ≤ 0xDF then some (.inside 0 0x80 0xBF (byte.toNat % 32))
  else if byte = 0xE0 then some (.inside 1 0xA0 0xBF (byte.toNat % 16))
  else if byte = 0xED then some (.inside 1 0x80 0x9F (byte.toNat % 16))
  else if 0xE1 ≤ byte ∧ byte ≤ 0xEF then some (.inside 1 0x80 0xBF (byte.toNat % 16))
  else if byte = 0xF0 then some (.inside 2 0x90 0xBF (byte.toNat % 8))
  else if byte = 0xF4 then some (.inside 2 0x80 0x8F (byte.toNat % 8))
  else if 0xF1 ≤ byte ∧ byte ≤ 0xF3 then some (.inside 2 0x80 0xBF (byte.toNat % 8))
  else none

def start (byte : UInt8) : List Char × State :=
  if byte < 0x80 then ([Char.ofNat byte.toNat], .between)
  else
    match lead? byte with
    | some state => ([], state)
    | none => ([replacement], .between)

def step : State → UInt8 → List Char × State
  | .between, byte => start byte
  | .inside owed low high value, byte =>
    if low ≤ byte ∧ byte ≤ high then
      let value := value * 64 + byte.toNat % 64
      match owed with
      | 0 => ([Char.ofNat value], .between)
      | owed + 1 => ([], .inside owed 0x80 0xBF value)
    else
      let (read, state) := start byte
      (replacement :: read, state)

def decodeFrom : State → List UInt8 → List Char
  | .between, [] => []
  | .inside _ _ _ _, [] => [replacement]
  | state, byte :: rest =>
    let (read, next) := step state byte
    read ++ decodeFrom next rest

def decode (bytes : List UInt8) : String :=
  String.ofList (decodeFrom .between bytes)

inductive Reason where
  | invalidStart
  | invalidContinuation
  | unexpectedEnd
  deriving DecidableEq

structure Malformed where
  position : Nat
  bytes : List UInt8
  reason : Reason

def malformedFrom (position : Nat) (seen : List UInt8) : State → List UInt8 → Option Malformed
  | .between, [] => none
  | .inside _ _ _ _, [] => some ⟨position - seen.length, seen.reverse, .unexpectedEnd⟩
  | .between, byte :: rest =>
    if byte < 0x80 then malformedFrom (position + 1) [] .between rest
    else
      match lead? byte with
      | some state => malformedFrom (position + 1) [byte] state rest
      | none => some ⟨position, [byte], .invalidStart⟩
  | .inside owed low high value, byte :: rest =>
    if low ≤ byte ∧ byte ≤ high then
      match owed with
      | 0 => malformedFrom (position + 1) [] .between rest
      | owed + 1 => malformedFrom (position + 1) (byte :: seen) (.inside owed 0x80 0xBF value) rest
    else some ⟨position - seen.length, seen.reverse, .invalidContinuation⟩

def malformed? (bytes : List UInt8) : Option Malformed :=
  malformedFrom 0 [] .between bytes

def decode? (bytes : List UInt8) : Except Malformed String :=
  match malformed? bytes with
  | some malformed => .error malformed
  | none => .ok (decode bytes)

end Noxy.Text.Utf8
