import Noxy.Proofs.Pieces

/-!
# Texts as bytes

A text is written as UTF-8 and read back.
-/

namespace Noxy

namespace Text.Utf8

def IsTail (byte : UInt8) : Prop :=
  0x80 ≤ byte ∧ byte ≤ 0xBF

/-- The bytes of one character.  The ranges of the second byte keep out what has a shorter form, the
surrogates, and what lies beyond the last character. -/
inductive Sequence : List UInt8 → Prop where
  | one (first : a ≤ 0x7F) : Sequence [a]
  | two (first : 0xC2 ≤ a ∧ a ≤ 0xDF) (second : IsTail b) : Sequence [a, b]
  | three (first : 0xE0 ≤ a ∧ a ≤ 0xEF) (second : IsTail b) (third : IsTail c)
      (shortest : a = 0xE0 → 0xA0 ≤ b) (scalar : a = 0xED → b ≤ 0x9F) : Sequence [a, b, c]
  | four (first : 0xF0 ≤ a ∧ a ≤ 0xF4) (second : IsTail b) (third : IsTail c) (fourth : IsTail d)
      (shortest : a = 0xF0 → 0x90 ≤ b) (scalar : a = 0xF4 → b ≤ 0x8F) : Sequence [a, b, c, d]

/-- Bytes that encode characters, one after another. -/
inductive WellFormed : List UInt8 → Prop where
  | nil : WellFormed []
  | next (sequence : Sequence bytes) (others : WellFormed rest) : WellFormed (bytes ++ rest)

theorem sequence_utf8EncodeChar : Sequence (String.utf8EncodeChar c) := by
  have valid := c.valid
  unfold String.utf8EncodeChar
  simp only [UInt32.isValidChar, Nat.isValidChar] at valid
  generalize c.val.toNat = v at *
  dsimp only
  split
  · refine .one ?_
    simp [UInt8.le_iff_toNat_le]
    omega
  · split
    · refine .two ?_ ?_ <;> simp [IsTail, UInt8.le_iff_toNat_le] <;> omega
    · split
      · refine .three ?_ ?_ ?_ ?_ ?_ <;>
          simp [IsTail, UInt8.le_iff_toNat_le, ← UInt8.toNat_inj] <;> omega
      · refine .four ?_ ?_ ?_ ?_ ?_ ?_ <;>
          simp [IsTail, UInt8.le_iff_toNat_le, ← UInt8.toNat_inj] <;> omega

theorem ofNat_eq (isValue : v = a.toNat) : UInt8.ofNat v = a := by
  rw [isValue, UInt8.ofNat_toNat]

theorem val_ofNat (valid : v.isValidChar) : (Char.ofNat v).val.toNat = v := by
  rw [Char.ofNat, dif_pos valid]
  exact UInt32.toNat_ofNatLT

theorem decodeFrom_cons :
    decodeFrom state (byte :: rest) =
      (step state byte).1 ++ decodeFrom (step state byte).2 rest := by
  cases state <;> rfl

theorem step_between (leads : lead? a = some state) : step .between a = ([], state) := by
  have notAscii : ¬ a < 0x80 := by
    unfold lead? at leads
    grind
  rw [step, start, if_neg notAscii, leads]

theorem step_inside (isWithin : low ≤ b ∧ b ≤ high) :
    step (.inside (owed + 1) low high value) b =
      ([], .inside owed 0x80 0xBF (value * 64 + b.toNat % 64)) := by
  rw [step, if_pos isWithin]

theorem step_last (isWithin : low ≤ b ∧ b ≤ high) :
    step (.inside 0 low high value) b = ([Char.ofNat (value * 64 + b.toNat % 64)], .between) := by
  rw [step, if_pos isWithin]

theorem Sequence.decodeFrom_append (sequence : Sequence bytes) (rest : List UInt8) :
    ∃ c, String.utf8EncodeChar c = bytes ∧
      decodeFrom .between (bytes ++ rest) = c :: decodeFrom .between rest := by
  cases sequence with
  | @one a first =>
    have isAscii : a < 0x80 := by grind
    refine ⟨Char.ofNat a.toNat, ?_, ?_⟩
    · simp only [UInt8.le_iff_toNat_le, UInt8.reduceToNat] at first
      rw [String.utf8EncodeChar, val_ofNat (by unfold Nat.isValidChar; omega), if_pos first,
        UInt8.ofNat_toNat]
    · rw [List.cons_append, decodeFrom_cons, step, start, if_pos isAscii]
      rfl
  | @two a b first second =>
    have leads : lead? a = some (.inside 0 0x80 0xBF (a.toNat % 32)) := if_pos first
    refine ⟨Char.ofNat (a.toNat % 32 * 64 + b.toNat % 64), ?_, ?_⟩
    · simp only [IsTail, UInt8.le_iff_toNat_le, UInt8.reduceToNat] at first second
      rw [String.utf8EncodeChar, val_ofNat (by unfold Nat.isValidChar; omega), if_neg (by omega),
        if_pos (by omega), ofNat_eq (a := a) (by omega), ofNat_eq (a := b) (by omega)]
    · simp only [List.cons_append, List.nil_append, decodeFrom_cons, step_between leads,
        step_last second]
  | @three a b c first second third shortest scalar =>
    obtain ⟨low, high, leads, isWithin⟩ :
        ∃ low high, lead? a = some (.inside 1 low high (a.toNat % 16)) ∧ low ≤ b ∧ b ≤ high := by
      unfold lead?
      unfold IsTail at second
      grind
    refine ⟨Char.ofNat ((a.toNat % 16 * 64 + b.toNat % 64) * 64 + c.toNat % 64), ?_, ?_⟩
    · simp only [IsTail, UInt8.le_iff_toNat_le, UInt8.reduceToNat, ← UInt8.toNat_inj] at *
      rw [String.utf8EncodeChar, val_ofNat (by unfold Nat.isValidChar; omega), if_neg (by omega),
        if_neg (by omega), if_pos (by omega), ofNat_eq (a := a) (by omega),
        ofNat_eq (a := b) (by omega), ofNat_eq (a := c) (by omega)]
    · simp only [List.cons_append, List.nil_append, decodeFrom_cons, step_between leads,
        step_inside isWithin, step_last third]
  | @four a b c d first second third fourth shortest scalar =>
    obtain ⟨low, high, leads, isWithin⟩ :
        ∃ low high, lead? a = some (.inside 2 low high (a.toNat % 8)) ∧ low ≤ b ∧ b ≤ high := by
      unfold lead?
      unfold IsTail at second
      grind
    refine ⟨Char.ofNat
      (((a.toNat % 8 * 64 + b.toNat % 64) * 64 + c.toNat % 64) * 64 + d.toNat % 64), ?_, ?_⟩
    · simp only [IsTail, UInt8.le_iff_toNat_le, UInt8.reduceToNat, ← UInt8.toNat_inj] at *
      rw [String.utf8EncodeChar, val_ofNat (by unfold Nat.isValidChar; omega), if_neg (by omega),
        if_neg (by omega), if_neg (by omega), ofNat_eq (a := a) (by omega),
        ofNat_eq (a := b) (by omega), ofNat_eq (a := c) (by omega), ofNat_eq (a := d) (by omega)]
    · simp only [List.cons_append, List.nil_append, decodeFrom_cons, step_between leads,
        step_inside isWithin, step_inside third, step_last fourth]

theorem wellFormed_encode : WellFormed (encode text) := by
  unfold encode
  induction text.toList with
  | nil => exact .nil
  | cons c rest ih => exact .next sequence_utf8EncodeChar ih

theorem encode_injective (same : encode text = encode other) : text = other := by
  rw [← String.toByteArray_inj, ← String.utf8Encode_toList, ← String.utf8Encode_toList]
  exact congrArg List.toByteArray same

theorem WellFormed.encode_decode (wellFormed : WellFormed bytes) :
    encode (decode bytes) = bytes := by
  unfold encode decode
  rw [String.toList_ofList]
  induction wellFormed with
  | nil => rfl
  | next sequence _ ih =>
    obtain ⟨c, isEncoded, decoded⟩ := sequence.decodeFrom_append _
    rw [decoded, List.flatMap_cons, isEncoded, ih]

end Text.Utf8

open Text.Utf8

/-- Every text is read back from its bytes, and exactly the well-formed bytes are written again as
they were read. -/
theorem Builtin.bytes_read_back (machine : Machine) :
    (∀ text, ∃ bytes, called "to_bytes" [.string text] machine = .ok (.bytes bytes) machine ∧
      called "to_str" [.bytes bytes] machine = .ok (.string text) machine) ∧
    ∀ bytes, ∃ text bytes', called "to_str" [.bytes bytes] machine = .ok (.string text) machine ∧
      called "to_bytes" [.string text] machine = .ok (.bytes bytes') machine ∧
      (bytes' = bytes ↔ WellFormed bytes) := by
  refine ⟨fun text => ⟨encode text, rfl, ?_⟩, fun bytes => ⟨decode bytes, _, rfl, rfl, ?_⟩⟩
  · have same : decode (encode text) = text := encode_injective (wellFormed_encode).encode_decode
    exact congrArg (fun text => EStateM.Result.ok (Value.string text) machine) same
  · exact ⟨fun same => same ▸ wellFormed_encode, WellFormed.encode_decode⟩

end Noxy
