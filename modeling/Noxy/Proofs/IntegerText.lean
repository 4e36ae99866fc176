import Noxy.Proofs.Lexing
import Noxy.Proofs.Pieces

/-!
# Texts of integers

An integer is written in decimal, octal or hexadecimal digits, alone or at the end of a field of
blanks, and read back from each of these texts.
-/

namespace Noxy

open Number

def signed (base : Nat) (upper : Bool) (number : Int) : List Char :=
  (if number < 0 then ['-'] else []) ++ digitsIn base upper number.natAbs

theorem toString_eq (number : Int) : toString number = String.ofList (signed 10 false number) := by
  rw [signed, digitsIn_false]
  cases number with
  | ofNat number =>
    rw [if_neg (show ¬ Int.ofNat number < 0 from Int.not_lt.mpr (Int.natCast_nonneg number))]
    exact Nat.toString_eq_ofList_toDigits
  | negSucc number =>
    rw [if_pos (Int.negSucc_lt_zero number), String.ofList_append]
    exact congrArg ("-" ++ ·) Nat.toString_eq_ofList_toDigits

/-- A text at the end of a field. -/
def aligned (filler : Char) (width : Nat) (text : String) : String :=
  String.ofList (List.replicate (width - text.length) filler) ++ text

/-- Wherever an expression gives the number, its interpolation under the format gives the text. -/
def ShowsAs (number : Int) (format text : String) : Prop :=
  ∀ fuel expr location machine after, eval fuel expr machine = .ok (.int number) after →
    eval (fuel + 2) (.template [.interpolation expr (some format)] location) machine =
      .ok (.string text) after

theorem showsAs (formatted : ∀ heap : Heap, heap.formatted (.int number) (some format) = .ok text) :
    ShowsAs number format text := by
  intro fuel expr location machine after evaluated
  cases fuel with
  | zero => cases evaluated
  | succ fuel =>
    have shown : Exec.view (fun heap => heap.formatted (.int number) (some format)) after =
        .ok text after := by
      simp only [Exec.view, formatted]
      rfl
    have parts : evalParts (fuel + 2) [.interpolation expr (some format)] machine =
        .ok [text] after := (Exec.bind_of_ok evaluated).trans (Exec.bind_of_ok shown)
    exact (Exec.bind_of_ok parts).trans (by simp [String.join]; rfl)

theorem ShowsAs.unique {number : Nat} (shows : ShowsAs number format text)
    (shows' : ShowsAs number format text') : text = text' := by
  let machine : Machine := .start (.start .empty [] [] [] 0) "."
  have evaluated : eval 1 (.int number ⟨1, 1, ""⟩) machine = .ok (.int number) machine := rfl
  cases (shows _ _ ⟨1, 1, ""⟩ _ _ evaluated).symm.trans (shows' _ _ _ _ _ evaluated)
  rfl

theorem Format.layout_right (number : Int) (base : Nat) (upper : Bool) (width : Option Nat)
    (type : Option Char) :
    Spec.layout { width, type } ⟨number < 0, [], digitsIn base upper number.natAbs, []⟩ =
      String.ofList (List.replicate (width.getD 0 - (signed base upper number).length) ' ' ++
        signed base upper number) := by
  have some : digitsIn base upper number.natAbs ≠ [] := by simp [digitsIn, Nat.toDigits_ne_nil]
  by_cases negative : number < 0 <;>
    simp [signed, Spec.layout, Spec.signText, Spec.groups, zeros, some, negative, Nat.add_comm]

variable {number : Int}

theorem formatInt_width (writable : isWritable number = true) (width : Nat) :
    Format.Spec.formatInt { width := some width } number =
      .ok (aligned ' ' width (toString number)) := by
  have laid := Format.layout_right number 10 false (some width) none
  have isDecimal : digitsIn 10 false number.natAbs = natDigits number.natAbs := by
    rw [digitsIn_false, natDigits, Nat.toString_eq_ofList_toDigits, String.toList_ofList]
  rw [isDecimal] at laid
  rw [aligned, toString_eq, ← String.ofList_append, String.length_ofList,
    ← Option.getD_some (a := width), ← laid]
  simp [Format.Spec.formatInt, Format.radix?, writable]

/-- A format of digits only is a width, whatever its first digit is. -/
theorem showsAs_width (writable : isWritable number = true) (some : digits ≠ [])
    (areDigits : ∀ c ∈ digits, c.isDigit = true) (reads : readInt 10 digits = .ok (width : Nat))
    (small : width ≤ Format.maxCount) :
    ShowsAs number (String.ofList digits) (aligned ' ' width (toString number)) := by
  have all : (String.ofList digits).toList.all Text.isDigit = true := by
    rw [String.toList_ofList, List.all_eq_true]
    exact fun c member => Lexer.isDigit_of_isDigit (areDigits c member)
  have isDigits : Heap.isDigits (String.ofList digits) = true := by
    rw [Heap.isDigits, all]
    simpa using some
  have notLetter (letter : String) (isLetter : letter.toList.all Text.isDigit = false) :
      String.ofList digits ≠ letter := by
    rintro rfl
    rw [all] at isLetter
    cases isLetter
  have isWidth : Heap.widthOf (String.ofList digits) = .ok width := by
    rw [Heap.widthOf, String.toList_ofList, reads]
    rfl
  refine showsAs fun heap => ?_
  change heap.formattedInt _ number _ = _
  rw [Heap.formattedInt, if_neg (notLetter "x" (by decide)), if_neg (notLetter "X" (by decide)),
    if_neg (notLetter "o" (by decide)), if_pos isDigits, isWidth]
  change Heap.rightAligned ' ' number width = _
  rw [Heap.rightAligned, if_neg (Nat.not_lt.mpr small), formatInt_width writable]

theorem digitValue?_of_isDigit (isDigit : c.isDigit = true) : (digitValue? 10 c).isSome := by
  have bounds := toNat_of_isDigit isDigit
  have small : c.toNat - 48 < 10 := by omega
  simp [digitValue?, isDigit, Option.filter, small]

theorem valueIn_zeros (zeros : Nat) :
    valueIn 10 (List.replicate zeros '0' ++ digits) = valueIn 10 digits := by
  induction zeros with
  | zero => rfl
  | succ zeros ih => exact ih

/-- Zeros in front of a width change nothing. -/
theorem showsAs_toString (writable : isWritable number = true) (small : width ≤ Format.maxCount)
    {zeros : Nat} (few : zeros ≤ 1) :
    ShowsAs number (String.ofList (List.replicate zeros '0') ++ toString width)
      (aligned ' ' width (toString number)) := by
  have areDigits : ∀ c ∈ List.replicate zeros '0' ++ Nat.toDigits 10 width, c.isDigit = true := by
    intro c member
    rcases List.mem_append.mp member with isZero | isDigit
    · rw [List.eq_of_mem_replicate isZero]
      rfl
    · exact Nat.isDigit_of_mem_toDigits (by decide) (by decide) isDigit
  have short : (Nat.toDigits 10 width).length ≤ 19 :=
    (Nat.length_toDigits_le_iff (by decide) (by decide)).mpr (Nat.lt_of_le_of_lt small (by decide))
  have some : List.replicate zeros '0' ++ Nat.toDigits 10 width ≠ [] := by
    simp [Nat.toDigits_ne_nil]
  have reads := readInt_of_digits (fun c member => digitValue?_of_isDigit (areDigits c member)) some
    (fun _ => by simp [maxIntegerDigits]; omega) false
  rw [valueIn_zeros, ← digitsIn_false, (valueIn_digitsIn (by decide) (by decide) _ _).2,
    digitsIn_false] at reads
  rw [Nat.toString_eq_ofList_toDigits, ← String.ofList_append]
  exact showsAs_width writable some areDigits reads small

theorem isWritable_iff :
    isWritable number = true ↔ (Nat.toDigits 10 number.natAbs).length ≤ maxIntegerDigits := by
  rw [Nat.length_toDigits_le_iff (by decide) (by decide), isWritable, decide_eq_true_eq, Nat.pow_eq]

/-- A zero in front of the width does not fill the field with zeros. -/
theorem zero_widths_pad_with_blanks {number width : Nat}
    (short : (Nat.toDigits 10 number).length ≤ 4300) (small : width ≤ Format.maxCount) :
    ∃ text, ShowsAs number ("0" ++ toString width) text ∧
      text = aligned ' ' width (toString number) ∧
      (text = aligned '0' width (toString number) ↔ width ≤ (toString number).length) := by
  have shows := @showsAs_toString number width (isWritable_iff.mpr short) small 1 (Nat.le_refl 1)
  refine ⟨aligned ' ' width (toString number), shows, rfl, ?_⟩
  rw [aligned, aligned, ← String.toList_inj, ← Nat.sub_eq_zero_iff_le]
  cases width - (toString number).length <;> simp [List.replicate_succ]

theorem zero_widths_pad_with_blanks_five :
    (Nat.toDigits 10 42).length ≤ 4300 ∧ 5 ≤ Format.maxCount ∧
      ∃ text, ShowsAs 42 "05" text ∧ text = "   42" := by
  have short : (Nat.toDigits 10 42).length ≤ 4300 := by decide
  have small : 5 ≤ Format.maxCount := by decide
  obtain ⟨text, shows, isText, -⟩ := zero_widths_pad_with_blanks short small
  exact ⟨short, small, text, shows, isText⟩

theorem zeros_are_missing : ¬ ShowsAs 42 "05" "00042" := by
  intro shows
  have shown := @showsAs_toString 42 5 (isWritable_iff.mpr (by decide)) (by decide) 1 (by decide)
  exact absurd (ShowsAs.unique shown shows) (by decide)

end Noxy
