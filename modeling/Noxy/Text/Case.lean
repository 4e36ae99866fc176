import Noxy.Text.Ranges

/-!
# Upper and lower case

Full case mapping of text: most characters map to one character, some to several (`ß` becomes
`SS`), and a capital sigma at the end of a word has a lower-case form of its own.
-/

namespace Noxy.Text

structure CaseRun where
  first : Nat
  last : Nat
  stride : Nat
  shift : Int

def caseRunsFrom (start : Nat) : List (Nat × Nat × Nat × Int) → List CaseRun
  | [] => []
  | (gap, extent, stride, shift) :: rest =>
    ⟨start + gap, start + gap + extent, stride, shift⟩ :: caseRunsFrom (start + gap) rest

def caseRuns (runs : List (Nat × Nat × Nat × Int)) : Array CaseRun :=
  (caseRunsFrom 0 runs).toArray

def upperRuns : Array CaseRun :=
  caseRuns [
    (97,25,1,-32),(84,0,1,743),(43,22,1,-32),(24,6,1,-32),(7,0,1,121),(2,46,2,-1),(48,0,1,-232),
    (2,4,2,-1),(7,14,2,-1),(17,44,2,-1),(47,4,2,-1),(5,0,1,-300),(1,0,1,195),(3,2,2,-1),(5,0,1,-1),
    (4,0,1,-1),(6,0,1,-1),(3,0,1,97),(4,0,1,-1),(1,0,1,163),(4,0,1,130),(3,4,2,-1),(7,0,1,-1),
    (5,0,1,-1),(3,0,1,-1),(4,2,2,-1),(5,0,1,-1),(4,0,1,-1),(2,0,1,56),(6,0,1,-1),(1,0,1,-2),
    (2,0,1,-1),(1,0,1,-2),(2,0,1,-1),(1,0,1,-2),(2,14,2,-1),(15,0,1,-79),(2,16,2,-1),(19,0,1,-1),
    (1,0,1,-2),(2,0,1,-1),(4,38,2,-1),(42,16,2,-1),(25,0,1,-1),(3,1,1,10815),(3,0,1,-1),(5,8,2,-1),
    (9,0,1,10783),(1,0,1,10780),(1,0,1,10782),(1,0,1,-210),(1,0,1,-206),(2,1,1,-205),(3,0,1,-202),
    (2,0,1,-203),(1,0,1,42319),(4,0,1,-205),(1,0,1,42315),(2,0,1,-207),(2,0,1,42280),(1,0,1,42308),
    (2,0,1,-209),(1,0,1,-211),(1,0,1,42308),(1,0,1,10743),(1,0,1,42305),(3,0,1,-211),(2,0,1,10749),
    (1,0,1,-213),(3,0,1,-214),(8,0,1,10727),(3,0,1,-218),(2,0,1,42307),(1,0,1,-218),(4,0,1,42282),
    (1,0,1,-218),(1,0,1,-69),(1,1,1,-217),(2,0,1,-71),(6,0,1,-219),(11,0,1,42261),(1,0,1,42258),
    (167,0,1,84),(44,2,2,-1),(6,0,1,-1),(4,2,1,130),(49,0,1,-38),(1,2,1,-37),(4,16,1,-32),
    (17,0,1,-31),(1,8,1,-32),(9,0,1,-64),(1,1,1,-63),(3,0,1,-62),(1,0,1,-57),(4,0,1,-47),
    (1,0,1,-54),(1,0,1,-8),(2,22,2,-1),(23,0,1,-86),(1,0,1,-80),(1,0,1,7),(1,0,1,-116),(2,0,1,-96),
    (3,0,1,-1),(3,0,1,-1),(53,31,1,-32),(32,15,1,-80),(17,32,2,-1),(42,52,2,-1),(55,12,2,-1),
    (13,0,1,-15),(2,94,2,-1),(144,37,1,-48),(2927,42,1,3008),(45,2,1,3008),(763,5,1,-8),
    (2184,0,1,-6254),(1,0,1,-6253),(1,0,1,-6244),(1,1,1,-6242),(2,0,1,-6243),(1,0,1,-6236),
    (1,0,1,-6181),(1,0,1,35266),(241,0,1,35332),(4,0,1,3814),(17,0,1,35384),(115,148,2,-1),
    (154,0,1,-59),(6,94,2,-1),(95,7,1,8),(16,5,1,8),(16,7,1,8),(16,7,1,8),(16,5,1,8),(17,6,2,8),
    (15,7,1,8),(16,1,1,74),(2,3,1,86),(4,1,1,100),(2,1,1,128),(2,1,1,112),(2,1,1,126),(52,1,1,8),
    (14,0,1,-7205),(18,1,1,8),(16,1,1,8),(5,0,1,7),(361,0,1,-28),(34,15,1,-16),(20,0,1,-1),
    (844,25,1,-26),(1888,47,1,-48),(49,0,1,-1),(4,0,1,-10795),(1,0,1,-10792),(2,4,2,-1),(11,0,1,-1),
    (3,0,1,-1),(11,98,2,-1),(107,2,2,-1),(7,0,1,-1),(13,37,1,-7264),(39,0,1,-7264),(6,0,1,-7264),
    (30996,44,2,-1),(64,26,2,-1),(162,12,2,-1),(16,60,2,-1),(71,2,2,-1),(5,8,2,-1),(13,0,1,-1),
    (5,2,2,-1),(3,0,1,48),(3,18,2,-1),(30,14,2,-1),(19,2,2,-1),(9,0,1,-1),(6,2,2,-1),(31,0,1,-1),
    (861,0,1,-928),(29,79,1,-38864),(21457,25,1,-32),(1255,39,1,-40),(176,35,1,-40),(191,36,2,-39),
    (1,9,1,-39),(12,13,1,-39),(16,5,1,-39),(8,0,1,-39),(1796,50,1,-64),(3072,31,1,-32),
    (21920,31,1,-32),(31426,33,1,-34)]

/-- Each of the Greek capitals with breathings followed by a capital iota: the upper case of two
letters with an iota subscript, the small one and the title one. -/
def iotaExpansions : Array (Nat × List Nat) :=
  #[(0x1F80, 0x1F08), (0x1F88, 0x1F08), (0x1F90, 0x1F28), (0x1F98, 0x1F28), (0x1FA0, 0x1F68),
    (0x1FA8, 0x1F68)].flatMap fun (letter, capital) =>
      (Array.range 8).map fun offset => (letter + offset, [capital + offset, 0x399])

def upperExpansions : Array (Nat × List Nat) :=
  iotaExpansions ++ #[
    (0xDF, [0x53, 0x53]), (0x149, [0x2BC, 0x4E]), (0x1F0, [0x4A, 0x30C]),
    (0x390, [0x399, 0x308, 0x301]), (0x3B0, [0x3A5, 0x308, 0x301]), (0x587, [0x535, 0x552]),
    (0x1E96, [0x48, 0x331]), (0x1E97, [0x54, 0x308]), (0x1E98, [0x57, 0x30A]),
    (0x1E99, [0x59, 0x30A]), (0x1E9A, [0x41, 0x2BE]), (0x1F50, [0x3A5, 0x313]),
    (0x1F52, [0x3A5, 0x313, 0x300]), (0x1F54, [0x3A5, 0x313, 0x301]),
    (0x1F56, [0x3A5, 0x313, 0x342]), (0x1FB2, [0x1FBA, 0x399]), (0x1FB3, [0x391, 0x399]),
    (0x1FB4, [0x386, 0x399]), (0x1FB6, [0x391, 0x342]), (0x1FB7, [0x391, 0x342, 0x399]),
    (0x1FBC, [0x391, 0x399]), (0x1FC2, [0x1FCA, 0x399]), (0x1FC3, [0x397, 0x399]),
    (0x1FC4, [0x389, 0x399]), (0x1FC6, [0x397, 0x342]), (0x1FC7, [0x397, 0x342, 0x399]),
    (0x1FCC, [0x397, 0x399]), (0x1FD2, [0x399, 0x308, 0x300]), (0x1FD3, [0x399, 0x308, 0x301]),
    (0x1FD6, [0x399, 0x342]), (0x1FD7, [0x399, 0x308, 0x342]), (0x1FE2, [0x3A5, 0x308, 0x300]),
    (0x1FE3, [0x3A5, 0x308, 0x301]), (0x1FE4, [0x3A1, 0x313]), (0x1FE6, [0x3A5, 0x342]),
    (0x1FE7, [0x3A5, 0x308, 0x342]), (0x1FF2, [0x1FFA, 0x399]), (0x1FF3, [0x3A9, 0x399]),
    (0x1FF4, [0x38F, 0x399]), (0x1FF6, [0x3A9, 0x342]), (0x1FF7, [0x3A9, 0x342, 0x399]),
    (0x1FFC, [0x3A9, 0x399]), (0xFB00, [0x46, 0x46]), (0xFB01, [0x46, 0x49]),
    (0xFB02, [0x46, 0x4C]), (0xFB03, [0x46, 0x46, 0x49]), (0xFB04, [0x46, 0x46, 0x4C]),
    (0xFB05, [0x53, 0x54]), (0xFB06, [0x53, 0x54]), (0xFB13, [0x544, 0x546]),
    (0xFB14, [0x544, 0x535]), (0xFB15, [0x544, 0x53B]), (0xFB16, [0x54E, 0x546]),
    (0xFB17, [0x544, 0x53D])]

def CaseRun.inverse (run : CaseRun) : CaseRun :=
  ⟨(run.first + run.shift).toNat, (run.last + run.shift).toNat, run.stride, -run.shift⟩

/-- The letters whose lower-case form is not the first letter with them as upper-case form. -/
def lowerOnlyRuns : Array CaseRun :=
  caseRuns [
    (452,0,1,2),(1,0,1,1),(2,0,1,2),(1,0,1,1),(2,0,1,2),(1,0,1,1),(38,0,1,2),(1,0,1,1),(423,0,1,32),
    (3,0,1,32),(7,0,1,32),(81,0,1,-60),(6826,0,1,-7615),(234,7,1,-8),(16,7,1,-8),(16,7,1,-8),
    (20,0,1,-9),(16,0,1,-9),(48,0,1,-9),(298,0,1,-7517),(4,0,1,-8383),(1,0,1,-8262),(34079,0,1,1)]

def lowerRuns : Array CaseRun :=
  lowerOnlyRuns ++ upperRuns.map CaseRun.inverse

def lowerExpansions : Array (Nat × List Nat) :=
  #[
    (0x130, [0x69, 0x307])]

def casedFlips : Array Nat :=
  boundaries [
    65,26,6,26,47,1,10,1,4,1,5,23,1,31,1,195,1,4,4,208,1,27,192,4,2,2,3,3,1,1,6,1,1,3,1,1,1,20,1,83,
    1,139,8,166,1,38,9,41,2839,38,1,1,5,1,2,43,2,3,672,86,2,6,2178,9,7,43,2,3,64,44,63,13,1,34,101,
    278,2,6,2,38,2,6,2,8,1,1,1,1,1,1,1,31,2,53,1,7,1,1,3,3,1,7,3,4,2,6,4,13,5,3,1,7,261,1,4,1,2,10,
    1,1,3,5,6,1,1,1,1,1,1,4,1,6,4,1,2,4,5,5,4,1,17,32,3,2,817,52,1814,124,2,103,6,4,3,2,12,38,1,1,5,
    1,30994,46,18,28,134,78,1,23,3,4,1,59,5,2,1,1,1,5,27,2,3,1,821,43,5,9,7,80,20288,7,12,5,1033,26,
    6,26,1189,80,96,36,4,36,116,11,1,15,1,7,1,2,1,11,1,15,1,7,1,2,1731,51,13,51,2989,64,21856,64,
    25984,85,1,71,1,2,2,1,2,2,2,4,1,12,1,1,1,7,1,65,1,4,2,8,1,7,1,28,1,4,1,5,1,1,3,7,1,340,2,25,1,
    25,1,31,1,25,1,31,1,25,1,31,1,25,1,31,1,25,1,8,1844,10,1,20,2529,68,2028,26,6,26,6,26]

def caseIgnorableFlips : Array Nat :=
  boundaries [
    39,1,6,1,11,1,35,1,1,1,71,1,4,1,1,1,4,1,2,2,503,192,4,2,4,1,9,2,1,1,251,7,207,1,5,1,49,45,1,1,1,
    2,1,2,1,1,44,1,11,6,10,11,1,1,35,1,10,21,16,1,101,8,1,10,1,4,33,1,1,1,30,27,91,11,58,11,4,1,2,1,
    24,24,43,3,44,1,7,2,6,8,41,58,55,1,1,1,4,8,4,1,3,7,10,2,13,1,15,1,58,1,4,4,8,1,20,2,26,1,2,2,57,
    1,4,2,4,2,2,3,3,1,30,2,3,1,11,2,57,1,4,5,1,2,4,1,20,2,22,6,1,1,58,1,2,1,1,4,8,1,7,2,11,2,30,1,
    61,1,12,1,50,1,3,1,55,1,1,3,5,3,1,4,7,2,11,2,29,1,58,1,2,1,6,1,5,2,20,2,28,2,57,2,4,4,8,1,20,2,
    29,1,72,1,7,3,1,1,90,1,2,7,11,9,98,1,2,9,9,1,1,6,74,2,27,1,1,1,1,1,55,14,1,5,1,2,5,11,1,36,9,1,
    102,4,1,6,1,2,2,2,25,2,4,3,16,4,13,1,2,2,6,1,15,1,94,1,608,3,946,3,29,2,30,2,30,2,64,2,1,7,8,1,
    2,11,3,1,5,1,45,5,51,1,65,2,34,1,118,3,4,2,9,1,6,3,219,2,2,1,58,1,1,7,1,1,1,1,2,8,6,10,2,1,39,1,
    8,31,49,4,48,1,1,5,1,1,5,1,40,9,12,2,32,4,2,2,1,3,56,1,1,2,3,1,1,3,58,8,2,2,64,6,82,3,1,13,1,7,
    4,1,6,1,3,2,50,63,13,1,34,101,445,1,1,3,11,3,13,3,13,3,13,2,12,5,8,2,10,1,2,1,2,5,49,5,1,10,1,1,
    13,1,16,13,51,33,2955,2,113,3,125,1,15,1,96,32,47,1,469,1,36,4,3,5,5,1,93,6,93,3,28438,1,1250,6,
    270,1,98,4,1,10,1,1,28,4,80,2,14,34,78,1,23,3,103,3,3,2,8,1,3,1,4,1,25,2,5,1,151,2,26,18,13,1,
    38,8,25,11,46,3,48,1,2,4,2,2,17,1,21,2,66,6,2,2,2,2,12,1,8,1,35,1,11,1,51,1,1,3,2,2,5,2,1,1,27,
    1,14,2,5,2,1,1,100,5,9,3,121,1,2,1,4,1,20272,1,147,17,573,16,3,1,12,16,34,1,2,1,169,1,7,1,6,1,
    11,1,35,1,1,1,47,1,45,2,67,1,21,3,513,1,226,1,149,5,1029,6,1,42,1,9,582,3,1,2,5,4,40,3,4,1,165,
    2,573,4,387,2,153,11,49,4,123,1,54,15,41,1,2,2,10,3,49,4,2,2,2,1,4,1,10,1,50,3,36,5,1,8,62,1,12,
    2,52,9,10,4,2,1,95,3,2,1,1,2,6,1,160,1,3,8,21,2,57,2,3,1,37,7,3,5,195,8,2,3,1,1,23,1,84,6,1,1,4,
    2,1,2,238,4,6,2,1,2,27,2,85,8,2,1,1,2,106,1,1,1,2,6,1,1,101,3,2,4,1,5,259,9,1,2,256,2,1,1,4,1,
    144,4,2,2,4,1,32,10,40,6,2,4,8,1,9,6,2,3,46,13,1,2,406,7,1,6,1,1,82,22,2,7,1,2,1,2,122,6,3,1,1,
    2,1,7,1,1,72,2,3,1,1,1,347,2,5435,9,14007,5,59,7,9,4,1035,1,63,17,64,2,1,2,16395,4,1,7,1,2,3230,
    2,1,4,4700,46,2,23,544,3,9,16,2,7,30,4,148,3,1979,55,4,50,8,1,14,1,22,5,1,15,1360,7,1,17,2,7,1,
    2,1,5,261,14,368,1,61,4,1504,7,109,8,2735,5,789505,1,30,96,128,240]

def shiftBy (runs : Array CaseRun) (codePoint : Nat) : Nat :=
  match runs.find? fun run =>
      run.first ≤ codePoint ∧ codePoint ≤ run.last ∧ (codePoint - run.first) % run.stride = 0 with
  | some run => (codePoint + run.shift).toNat
  | none => codePoint

def mapCase (expansions : Array (Nat × List Nat)) (runs : Array CaseRun) (c : Char) : List Char :=
  match expansions.find? fun entry => entry.1 = c.toNat with
  | some entry => entry.2.map Char.ofNat
  | none => [Char.ofNat (shiftBy runs c.toNat)]

def upperChar (c : Char) : List Char :=
  if c.val < 0x80 then [c.toUpper] else mapCase upperExpansions upperRuns c

def lowerChar (c : Char) : List Char :=
  if c.val < 0x80 then [c.toLower] else mapCase lowerExpansions lowerRuns c

def meetsCased (nearest : List Char) : Bool :=
  match nearest.dropWhile fun c => inRanges caseIgnorableFlips c.toNat with
  | c :: _ => inRanges casedFlips c.toNat
  | [] => false

def lowerFrom (before : List Char) : List Char → List Char
  | [] => []
  | c :: rest =>
    let lowered :=
      if c = '\u03A3' then
        if meetsCased before ∧ ¬ meetsCased rest then ['\u03C2'] else ['\u03C3']
      else lowerChar c
    lowered ++ lowerFrom (c :: before) rest

def toUpper (text : String) : String :=
  String.ofList (text.toList.flatMap upperChar)

def toLower (text : String) : String :=
  String.ofList (lowerFrom [] text.toList)

end Noxy.Text
