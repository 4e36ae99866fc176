import Noxy.Number.Numeral

/-!
# Numerals

An integer is read back from its digits, in every base up to sixteen.  Of decimal digits there may
not be more than an integer can have.
-/

namespace Noxy.Number

theorem toNat_of_isDigit {c : Char} (digit : c.isDigit = true) : 48 ≤ c.toNat ∧ c.toNat ≤ 57 := by
  simp only [Char.isDigit, ge_iff_le, Bool.and_eq_true, decide_eq_true_eq,
    UInt32.le_iff_toNat_le] at digit
  exact digit

variable {base : Nat}

theorem toNat_of_digitValue? (isDigit : (digitValue? base c).isSome) :
    48 ≤ c.toNat ∧ c.toNat < 128 := by
  have bounds : c.isDigit = true ∨ ('a' ≤ c ∧ c ≤ 'f') ∨ ('A' ≤ c ∧ c ≤ 'F') := by
    unfold digitValue? at isDigit
    grind
  rcases bounds with digit | ⟨low, high⟩ | ⟨low, high⟩
  · have bounds := toNat_of_isDigit digit
    omega
  all_goals
    have low : _ ≤ c.toNat := low
    exact ⟨Nat.le_trans (by decide) low, Nat.lt_of_le_of_lt high (by decide)⟩

theorem isPlainBlank_of_visible (visible : 32 < c.toNat) : isPlainBlank c = false := by
  have notSpace : c ≠ ' ' := by
    rintro rfl
    exact absurd visible (by decide)
  have notControl : ¬ c.toNat ≤ 0x0D := by omega
  simp [isPlainBlank, notSpace, notControl]

theorem dropWhile_of_visible {text : List Char} (visible : ∀ c ∈ text, 32 < c.toNat) :
    text.dropWhile isPlainBlank = text := by
  cases text with
  | nil => rfl
  | cons first =>
    rw [List.dropWhile_cons, isPlainBlank_of_visible (visible first List.mem_cons_self)]
    rfl

theorem plainNumeral_of_visible (visible : ∀ c ∈ text, 32 < c.toNat ∧ c.toNat < 128) :
    plainNumeral text = text := by
  have plain : ∀ c ∈ text, plainChar c = c := fun c member =>
    if_pos (UInt32.lt_iff_toNat_lt.mpr (show c.val.toNat < 128 from (visible c member).2))
  have same : text.map plainChar = text := by rw [List.map_congr_left plain, List.map_id']
  have starts : ∀ c ∈ text, 32 < c.toNat := fun c member => (visible c member).1
  have ends : ∀ c ∈ text.reverse, 32 < c.toNat :=
    fun c member => starts c (List.mem_reverse.mp member)
  simp only [plainNumeral, same, dropWhile_of_visible starts, dropWhile_of_visible ends,
    List.reverse_reverse]

def valueIn (base : Nat) (digits : List Char) : Nat :=
  ofDigitValues base (digits.map fun c => (digitValue? base c).getD 0)

variable {digits : List Char}

theorem digitValues?_of_digits (areDigits : ∀ c ∈ digits, (digitValue? base c).isSome)
    (some : digits ≠ [] ∨ afterDigit = true) :
    digitValues? base afterDigit digits =
      .some (digits.map fun c => (digitValue? base c).getD 0) := by
  induction digits generalizing afterDigit with
  | nil => simp [digitValues?, some.resolve_left fun notEmpty => notEmpty rfl]
  | cons first rest ih =>
    obtain ⟨value, isValue⟩ := Option.isSome_iff_exists.mp (areDigits first List.mem_cons_self)
    have restValues := ih (fun c member => areDigits c (List.mem_cons_of_mem _ member)) (.inr rfl)
    unfold digitValues?
    split
    · rename_i isNil
      cases isNil
    · rename_i isUnderscore
      cases isUnderscore
      cases isValue
    · rename_i isCons
      cases isCons
      simp [isValue, restValues]

/-- Digits are read as their value in the base, and a sign in front of them turns it around. -/
theorem readInt_of_digits (areDigits : ∀ c ∈ digits, (digitValue? base c).isSome)
    (some : digits ≠ []) (short : base = 10 → digits.length ≤ maxIntegerDigits) (negative : Bool) :
    readInt base ((if negative then ['-'] else []) ++ digits) =
      .ok (if negative then -(valueIn base digits : Int) else valueIn base digits) := by
  have visible : ∀ c ∈ (if negative then ['-'] else []) ++ digits,
      32 < c.toNat ∧ c.toNat < 128 := by
    intro c member
    rcases List.mem_append.mp member with isSign | isDigit
    · cases negative
      · cases isSign
      · rw [List.mem_singleton.mp isSign]
        decide
    · have bounds := toNat_of_digitValue? (areDigits c isDigit)
      omega
  have split : splitSign ((if negative then ['-'] else []) ++ digits) = (negative, digits) := by
    cases negative
    · change splitSign digits = _
      unfold splitSign
      split
      · cases areDigits '-' List.mem_cons_self
      · cases areDigits '+' List.mem_cons_self
      · rfl
    · rfl
  have notLong : ¬ (base = 10 ∧ maxIntegerDigits < digits.length) :=
    fun ⟨isTen, long⟩ => Nat.not_lt.mpr (short isTen) long
  simp only [readInt, plainNumeral_of_visible visible, split, digitValues?_of_digits areDigits
    (.inl some), List.length_map, if_neg notLong, valueIn]

/-! ### The digits of a number -/

theorem digitValue?_digitChar (isDigit : value < base) (small : base ≤ 16) (upper : Bool) :
    digitValue? base (if upper then value.digitChar.toUpper else value.digitChar) = some value := by
  have all : ∀ value : Fin 16, ∀ base : Fin 17, ∀ upper : Bool, value.val < base →
      digitValue? base (if upper then value.val.digitChar.toUpper else value.val.digitChar) =
        some value.val := by decide +kernel
  exact all ⟨value, by omega⟩ ⟨base, by omega⟩ upper isDigit

def digitsIn (base : Nat) (upper : Bool) (number : Nat) : List Char :=
  (Nat.toDigits base number).map fun c => if upper then c.toUpper else c

theorem valueIn_digitsIn (large : 1 < base) (small : base ≤ 16) (upper : Bool) (number : Nat) :
    (∀ c ∈ digitsIn base upper number, (digitValue? base c).isSome) ∧
      valueIn base (digitsIn base upper number) = number := by
  induction number using Nat.strongRecOn with
  | ind number ih =>
    have last := digitValue?_digitChar (Nat.mod_lt number (Nat.zero_lt_of_lt large)) small upper
    rw [digitsIn, Nat.toDigits_eq_if large]
    by_cases isDigit : number < base
    · rw [Nat.mod_eq_of_lt isDigit] at last
      simp [isDigit, last, valueIn, ofDigitValues]
    · obtain ⟨areDigits, isValue⟩ := ih (number / base) (Nat.div_lt_self (by omega) large)
      rw [if_neg isDigit, List.map_append, List.map_singleton, ← digitsIn]
      constructor
      · simpa [or_imp, forall_and, last] using areDigits
      · rw [valueIn, ofDigitValues] at isValue ⊢
        rw [List.map_append, List.foldl_append, isValue]
        simp [last, Nat.div_add_mod']

theorem readInt_digitsIn (large : 1 < base) (small : base ≤ 16) (upper : Bool) {number : Int}
    (short : base = 10 → (digitsIn base upper number.natAbs).length ≤ maxIntegerDigits) :
    readInt base ((if number < 0 then ['-'] else []) ++ digitsIn base upper number.natAbs) =
      .ok number := by
  obtain ⟨areDigits, isValue⟩ := valueIn_digitsIn large small upper number.natAbs
  have some : digitsIn base upper number.natAbs ≠ [] := by simp [digitsIn, Nat.toDigits_ne_nil]
  have reads := readInt_of_digits areDigits some short (number < 0)
  rw [isValue] at reads
  simp only [decide_eq_true_eq] at reads
  rw [reads]
  congr
  omega

theorem digitsIn_false (base number : Nat) :
    digitsIn base false number = Nat.toDigits base number := by
  simp [digitsIn]

theorem readInt_toDigits (short : (Nat.toDigits 10 number).length ≤ maxIntegerDigits) :
    readInt 10 (Nat.toDigits 10 number) = .ok (number : Int) := by
  have reads := @readInt_digitsIn 10 (by decide) (by decide) false number
  rw [Int.natAbs_natCast, digitsIn_false, if_neg (by omega)] at reads
  exact reads fun _ => short

end Noxy.Number
