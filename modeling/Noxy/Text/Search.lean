/-!
# Searching in text

Finding, counting, replacing and cutting out the occurrences of a text in another one, taken from
left to right without overlap.
-/

namespace Noxy.Text

def pushChar (c : Char) : List (List Char) → List (List Char)
  | [] => [[c]]
  | piece :: pieces => (c :: piece) :: pieces

def cutFrom (sub : List Char) : Nat → List Char → List (List Char)
  | _, [] => [[]]
  | skip + 1, _ :: rest => cutFrom sub skip rest
  | 0, c :: rest =>
    if sub.isPrefixOf (c :: rest) then [] :: cutFrom sub (sub.length - 1) rest
    else pushChar c (cutFrom sub 0 rest)

def pieces (sub text : List Char) : List (List Char) :=
  cutFrom sub 0 text

def indexOf? (sub : List Char) : List Char → Option Nat
  | [] => if sub.isEmpty then some 0 else none
  | c :: rest => if sub.isPrefixOf (c :: rest) then some 0 else (indexOf? sub rest).map (· + 1)

def lastIndexOf? (sub : List Char) : List Char → Option Nat
  | [] => if sub.isEmpty then some 0 else none
  | c :: rest =>
    match lastIndexOf? sub rest with
    | some position => some (position + 1)
    | none => if sub.isPrefixOf (c :: rest) then some 0 else none

def occurs (sub : List Char) : List Char → Bool
  | [] => sub.isEmpty
  | c :: rest => sub.isPrefixOf (c :: rest) || occurs sub rest

def countFrom (sub : List Char) : Nat → List Char → Nat
  | _, [] => 0
  | skip + 1, _ :: rest => countFrom sub skip rest
  | 0, c :: rest =>
    if sub.isPrefixOf (c :: rest) then countFrom sub (sub.length - 1) rest + 1
    else countFrom sub 0 rest

def replaceFrom (sub new : List Char) : Nat → List Char → List Char
  | _, [] => []
  | skip + 1, _ :: rest => replaceFrom sub new skip rest
  | 0, c :: rest =>
    if sub.isPrefixOf (c :: rest) then new ++ replaceFrom sub new (sub.length - 1) rest
    else c :: replaceFrom sub new 0 rest

def replaceFirst (sub new : List Char) : List Char → List Char
  | [] => []
  | c :: rest =>
    if sub.isPrefixOf (c :: rest) then new ++ (c :: rest).drop sub.length
    else c :: replaceFirst sub new rest

def slice (items : List α) (start stop : Int) : List α :=
  let position (index : Int) : Nat :=
    (if index < 0 then max (index + items.length) 0 else min index items.length).toNat
  (items.take (position stop)).drop (position start)

end Noxy.Text
