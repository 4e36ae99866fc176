import Mathlib.Data.List.Infix
import Noxy.Proofs.Sight

/-!
# Cutting texts

A text is cut at the occurrences of another one, which are taken from left to right without overlap.
Counting, replacing, finding and splitting all follow from where the cuts are.
-/

namespace Noxy

namespace Text

/-- A text stands in another one at a position. -/
def OccursAt (sub text : List Char) (position : Nat) : Prop :=
  ∃ before after, text = before ++ sub ++ after ∧ before.length = position

/-- The first occurrences are cut out of a text.  One text of the list stood in front of each of
them, and the last text is what is left behind them. -/
inductive Cut (sub : List Char) : List Char → List (List Char) → List Char → Prop where
  | none : Cut sub text [] text
  | next (isFirst : ∀ position < piece.length, ¬ OccursAt sub (piece ++ sub ++ rest) position)
      (others : Cut sub rest front last) : Cut sub (piece ++ sub ++ rest) (piece :: front) last

/-- The pieces of a text between all occurrences. -/
def Pieces (sub text : List Char) (pieces : List (List Char)) : Prop :=
  ∃ front last, pieces = front ++ [last] ∧ Cut sub text front last ∧
    ∀ position, ¬ OccursAt sub last position

def IsFirst (sub text : List Char) : Option Nat → Prop
  | some position => OccursAt sub text position ∧ ∀ earlier < position, ¬ OccursAt sub text earlier
  | none => ∀ position, ¬ OccursAt sub text position

/-- The last position of a text, if any. -/
def IsLast (sub text : List Char) : Option Nat → Prop
  | some position =>
    OccursAt sub text position ∧ ∀ other, OccursAt sub text other → other ≤ position
  | none => ∀ position, ¬ OccursAt sub text position

theorem occursAt_zero : OccursAt sub text 0 ↔ sub.isPrefixOf text = true := by
  have isFront : sub.isPrefixOf text = true ↔ sub <+: text := List.isPrefixOf_iff_prefix
  rw [isFront]
  constructor
  · rintro ⟨_, after, rfl, isEmpty⟩
    obtain rfl := List.length_eq_zero_iff.mp isEmpty
    exact List.prefix_append _ _
  · rintro ⟨after, rfl⟩
    exact ⟨[], after, rfl, rfl⟩

theorem occursAt_succ : OccursAt sub (c :: rest) (position + 1) ↔ OccursAt sub rest position := by
  constructor
  · rintro ⟨before, after, isText, isLong⟩
    obtain ⟨_, others, rfl⟩ := List.exists_cons_of_length_eq_add_one isLong
    rw [List.cons_append, List.cons_append, List.cons.injEq] at isText
    exact ⟨others, after, isText.2, Nat.succ.inj isLong⟩
  · rintro ⟨before, after, rfl, rfl⟩
    exact ⟨c :: before, after, rfl, rfl⟩

theorem occursAt_nil : OccursAt sub [] position ↔ sub.isEmpty = true ∧ position = 0 := by
  rw [List.isEmpty_iff]
  constructor
  · rintro ⟨_, _, isText, rfl⟩
    simp only [List.nil_eq, List.append_eq_nil_iff] at isText
    exact ⟨isText.1.2, by rw [isText.1.1, List.length_nil]⟩
  · rintro ⟨rfl, rfl⟩
    exact ⟨[], [], rfl, rfl⟩

theorem OccursAt.reverse (occurs : OccursAt sub text position) :
    sub.length + position ≤ text.length ∧
      OccursAt sub.reverse text.reverse (text.length - sub.length - position) := by
  obtain ⟨before, after, rfl, rfl⟩ := occurs
  refine ⟨by simp only [List.length_append]; omega, after.reverse, before.reverse, ?_, ?_⟩
  · simp only [List.reverse_append, List.append_assoc]
  · simp only [List.length_append, List.length_reverse]
    omega

/-! ### The first and the last occurrence -/

theorem isFirst_indexOf? (sub text : List Char) : IsFirst sub text (indexOf? sub text) := by
  induction text with
  | nil =>
    simp only [indexOf?]
    split <;> simp_all [IsFirst, occursAt_nil]
  | cons c rest ih =>
    rw [indexOf?]
    split
    · exact ⟨occursAt_zero.mpr ‹_›, fun _ isEarlier => absurd isEarlier (Nat.not_lt_zero _)⟩
    · have notHere : ¬ OccursAt sub (c :: rest) 0 := fun here => ‹¬ _› (occursAt_zero.mp here)
      cases later : indexOf? sub rest with
      | some =>
        rw [later] at ih
        refine ⟨occursAt_succ.mpr ih.1, fun earlier isEarlier => ?_⟩
        cases earlier with
        | zero => exact notHere
        | succ earlier =>
          exact mt occursAt_succ.mp (ih.2 earlier (Nat.lt_of_succ_lt_succ isEarlier))
      | none =>
        rw [later] at ih
        exact Nat.rec notHere fun position _ => mt occursAt_succ.mp (ih position)

theorem IsFirst.unique (isFirst : IsFirst sub text found) (isFirst' : IsFirst sub text other) :
    found = other := by
  cases found <;> cases other <;> grind [IsFirst]

theorem isLast_lastIndexOf? (sub text : List Char) : IsLast sub text (lastIndexOf? sub text) := by
  induction text with
  | nil =>
    simp only [lastIndexOf?]
    split <;> simp_all [IsLast, occursAt_nil]
  | cons c rest ih =>
    rw [lastIndexOf?]
    cases later : lastIndexOf? sub rest with
    | some =>
      rw [later] at ih
      refine ⟨occursAt_succ.mpr ih.1, fun other occurs => ?_⟩
      cases other with
      | zero => exact Nat.zero_le _
      | succ other => exact Nat.succ_le_succ (ih.2 other (occursAt_succ.mp occurs))
    | none =>
      rw [later] at ih
      have onlyHere (other : Nat) (occurs : OccursAt sub (c :: rest) other) : other = 0 := by
        cases other with
        | zero => rfl
        | succ other => exact absurd (occursAt_succ.mp occurs) (ih other)
      dsimp only
      split
      · exact ⟨occursAt_zero.mpr ‹_›, fun other occurs => Nat.le_of_eq (onlyHere other occurs)⟩
      · intro position occurs
        cases onlyHere position occurs
        exact ‹¬ _› (occursAt_zero.mp occurs)

/-- The last occurrence is the first one from behind. -/
theorem IsLast.reverse (isLast : IsLast sub text (some position)) :
    IsFirst sub.reverse text.reverse (some (text.length - sub.length - position)) := by
  refine ⟨isLast.1.reverse.2, fun _ _ occurs => ?_⟩
  obtain ⟨within, back⟩ := occurs.reverse
  simp only [List.reverse_reverse, List.length_reverse] at within back
  have atMost := isLast.2 _ back
  have inside := isLast.1.reverse.1
  omega

/-! ### Pieces -/

theorem cutFrom_eq (skip : Nat) : cutFrom sub skip text = pieces sub (text.drop skip) := by
  induction text generalizing skip with
  | nil => cases skip <;> rfl
  | cons _ _ ih =>
    cases skip with
    | zero => rfl
    | succ skip => exact ih skip

theorem pieces_of_absent (absent : indexOf? sub text = none) : pieces sub text = [text] := by
  induction text with
  | nil => rfl
  | cons c rest ih =>
    rw [indexOf?] at absent
    split at absent
    · cases absent
    · rename_i notPrefix
      rw [pieces, cutFrom, if_neg notPrefix]
      exact congrArg (pushChar c) (ih (Option.map_eq_none_iff.mp absent))

theorem pieces_of_found (notEmpty : sub ≠ []) (found : indexOf? sub text = some position) :
    pieces sub text = text.take position :: pieces sub (text.drop (position + sub.length)) := by
  induction text generalizing position with
  | nil => simp [indexOf?, notEmpty] at found
  | cons c rest ih =>
    rw [indexOf?] at found
    rw [pieces, cutFrom]
    split at found
    · rename_i isPrefix
      cases found
      have positive := List.length_pos_iff.mpr notEmpty
      rw [if_pos isPrefix, cutFrom_eq, List.take_zero, Nat.zero_add,
        ← Nat.sub_add_cancel positive, List.drop_succ_cons, Nat.add_sub_cancel]
    · rename_i notPrefix
      obtain ⟨_, isFound, rfl⟩ := Option.map_eq_some_iff.mp found
      rw [if_neg notPrefix, ← pieces, ih isFound, pushChar, List.take_succ_cons, Nat.add_right_comm,
        List.drop_succ_cons]

theorem exists_cutFrom (sub : List Char) (skip : Nat) (text : List Char) :
    ∃ piece more, cutFrom sub skip text = piece :: more := by
  fun_induction cutFrom sub skip text with
  | case1 => exact ⟨_, _, rfl⟩
  | case2 _ _ _ ih => exact ih
  | case3 => exact ⟨_, _, rfl⟩
  | case4 _ _ _ ih =>
    obtain ⟨piece, more, isCut⟩ := ih
    exact ⟨_, _, by rw [isCut, pushChar]⟩

theorem length_cutFrom (sub : List Char) (skip : Nat) (text : List Char) :
    (cutFrom sub skip text).length = countFrom sub skip text + 1 := by
  fun_induction cutFrom sub skip text with
  | case1 => rw [countFrom]; rfl
  | case2 _ _ _ ih => rw [ih, countFrom]
  | case3 _ _ isPrefix ih => rw [countFrom, if_pos isPrefix, List.length_cons, ih]
  | case4 c rest notPrefix ih =>
    obtain ⟨piece, more, isCut⟩ := exists_cutFrom sub 0 rest
    rw [isCut] at ih ⊢
    rw [countFrom, if_neg notPrefix, ← ih, pushChar, List.length_cons, List.length_cons]

theorem intercalate_cutFrom (sub new : List Char) (skip : Nat) (text : List Char) :
    new.intercalate (cutFrom sub skip text) = replaceFrom sub new skip text := by
  fun_induction cutFrom sub skip text with
  | case1 => rw [replaceFrom, List.intercalate_singleton]
  | case2 _ _ _ ih => rw [ih, replaceFrom]
  | case3 _ rest isPrefix ih =>
    obtain ⟨piece, more, isCut⟩ := exists_cutFrom sub (sub.length - 1) rest
    rw [replaceFrom, if_pos isPrefix, ← ih, isCut, List.intercalate_cons_cons, List.nil_append]
  | case4 c rest notPrefix ih =>
    obtain ⟨piece, more, isCut⟩ := exists_cutFrom sub 0 rest
    rw [replaceFrom, if_neg notPrefix, ← ih, isCut, pushChar]
    cases more with
    | nil => simp only [List.intercalate_singleton]
    | cons => simp only [List.intercalate_cons_cons, List.cons_append]

theorem occurs_eq (sub text : List Char) : occurs sub text = (indexOf? sub text).isSome := by
  induction text with
  | nil => cases sub <;> rfl
  | cons c rest ih =>
    rw [occurs, indexOf?, ih]
    cases sub.isPrefixOf (c :: rest) <;> simp

theorem replaceFirst_of_absent (absent : indexOf? sub text = none) :
    replaceFirst sub new text = text := by
  induction text with
  | nil => rfl
  | cons c rest ih =>
    rw [indexOf?] at absent
    rw [replaceFirst]
    split at absent
    · cases absent
    · rw [if_neg ‹_›, ih (Option.map_eq_none_iff.mp absent)]

theorem replaceFirst_of_found (notEmpty : sub ≠ []) (found : indexOf? sub text = some position) :
    replaceFirst sub new text =
      text.take position ++ new ++ text.drop (position + sub.length) := by
  induction text generalizing position with
  | nil => simp [indexOf?, notEmpty] at found
  | cons c rest ih =>
    rw [indexOf?] at found
    rw [replaceFirst]
    split at found
    · cases found
      rw [if_pos ‹_›, List.take_zero, List.nil_append, Nat.zero_add]
    · obtain ⟨_, isFound, rfl⟩ := Option.map_eq_some_iff.mp found
      rw [if_neg ‹_›, ih isFound, List.take_succ_cons, Nat.add_right_comm, List.drop_succ_cons]
      rfl

/-- The first piece ends where the first occurrence begins. -/
theorem exists_first (notEmpty : sub ≠ []) (text : List Char) :
    ∃ first others, pieces sub text = first :: others ∧
      indexOf? sub text = if 0 < others.length then some first.length else none := by
  have several (text : List Char) : 0 < (pieces sub text).length := by
    rw [pieces, length_cutFrom]
    exact Nat.succ_pos _
  cases found : indexOf? sub text with
  | none => exact ⟨text, [], pieces_of_absent found, rfl⟩
  | some =>
    have isFirst := found ▸ isFirst_indexOf? sub text
    have within := isFirst.1.reverse.1
    refine ⟨_, _, pieces_of_found notEmpty found, ?_⟩
    rw [if_pos (several _), List.length_take_of_le (by omega)]

theorem Cut.pieces_eq (notEmpty : sub ≠ []) (cut : Cut sub text front last) :
    pieces sub text = front ++ pieces sub last := by
  induction cut with
  | none => rfl
  | @next piece rest _ _ isFirst _ ih =>
    have found : indexOf? sub (piece ++ sub ++ rest) = some piece.length :=
      (isFirst_indexOf? _ _).unique ⟨⟨piece, rest, rfl, rfl⟩, isFirst⟩
    rw [pieces_of_found notEmpty found, List.cons_append, ← ih]
    simp [List.append_assoc]

theorem exists_cut (notEmpty : sub ≠ []) (text : List Char) :
    ∃ front last, Cut sub text front last ∧ ∀ position, ¬ OccursAt sub last position := by
  induction isSize : text.length using Nat.strong_induction_on generalizing text with
  | _ size ih =>
    have isFirst := isFirst_indexOf? sub text
    cases found : indexOf? sub text with
    | none =>
      rw [found] at isFirst
      exact ⟨[], text, .none, isFirst⟩
    | some =>
      rw [found] at isFirst
      obtain ⟨⟨piece, rest, rfl, rfl⟩, isFirst⟩ := isFirst
      have positive := List.length_pos_iff.mpr notEmpty
      have shorter : rest.length < size := by
        simp only [List.length_append] at isSize
        omega
      obtain ⟨front, last, cut, absent⟩ := ih rest.length shorter rest rfl
      exact ⟨piece :: front, last, .next isFirst cut, absent⟩

theorem pieces_iff (notEmpty : sub ≠ []) : Pieces sub text others ↔ others = pieces sub text := by
  have only {front last} (cut : Cut sub text front last)
      (absent : IsFirst sub last none) : pieces sub text = front ++ [last] := by
    rw [cut.pieces_eq notEmpty, pieces_of_absent ((isFirst_indexOf? _ _).unique absent)]
  constructor
  · rintro ⟨front, last, rfl, cut, absent⟩
    exact (only cut absent).symm
  · rintro rfl
    obtain ⟨front, last, cut, absent⟩ := exists_cut notEmpty text
    exact ⟨front, last, only cut absent, cut, absent⟩

/-! ### What is in front of the cuts -/

theorem Cut.text_eq (cut : Cut sub text front last) : text = sub.intercalate (front ++ [last]) := by
  induction cut with
  | none => exact List.intercalate_singleton.symm
  | next _ _ ih =>
    rw [List.cons_append, List.intercalate_cons_of_ne_nil (by simp), ← ih]

theorem Cut.take (cut : Cut sub text front last) (count : Nat) :
    ∃ rest, Cut sub text (front.take count) rest := by
  induction cut generalizing count with
  | none => exact ⟨_, by rw [List.take_nil]; exact .none⟩
  | next isFirst _ ih =>
    cases count with
    | zero => exact ⟨_, .none⟩
    | succ count =>
      obtain ⟨rest, cut⟩ := ih count
      exact ⟨rest, .next isFirst cut⟩

theorem intercalate_concat (last : List Char) (notEmpty : parts ≠ []) :
    sub.intercalate (parts ++ [last]) = sub.intercalate parts ++ sub ++ last := by
  induction parts with
  | nil => exact absurd rfl notEmpty
  | cons _ others ih =>
    cases others with
    | nil => simp
    | cons =>
      rw [List.cons_append, List.cons_append, List.intercalate_cons_cons,
        List.intercalate_cons_cons, ← List.cons_append, ih nofun]
      simp only [List.append_assoc]

theorem intercalate_singles (chars : List Char) :
    [].intercalate (chars.map fun c => [c]) = chars := by
  induction chars with
  | nil => rfl
  | cons _ rest => cases rest <;> simp_all [List.intercalate_cons_cons]

/-- The first pieces are joined to all of the text, or to what stands in front of one of its cuts.
-/
theorem Pieces.joined (arePieces : Pieces sub text parts) (count : Nat) :
    (parts.length ≤ count + 1 → sub.intercalate (parts.take (count + 1)) = text) ∧
      (count + 1 < parts.length → ∃ front rest, Cut sub text front rest ∧
        front.length = count + 1 ∧
          text = sub.intercalate (parts.take (count + 1)) ++ sub ++ rest) := by
  obtain ⟨front, last, rfl, cut, -⟩ := arePieces
  refine ⟨fun few => ?_, fun _ => ?_⟩
  · rw [List.take_of_length_le few, ← cut.text_eq]
  · have long : count + 1 ≤ front.length := by grind
    have isLength := List.length_take_of_le long
    obtain ⟨rest, cut⟩ := cut.take (count + 1)
    refine ⟨_, rest, cut, isLength, ?_⟩
    rw [List.take_append_of_le_length long,
      ← intercalate_concat rest (List.ne_nil_of_length_eq_add_one isLength)]
    exact cut.text_eq

theorem map_filter_zipIdx (start stop offset : Nat) (items : List α) :
    ((items.zipIdx offset).filter fun item => start ≤ item.2 ∧ item.2 < stop).map Prod.fst =
      (items.take (stop - offset)).drop (start - offset) := by
  induction items generalizing offset with
  | nil => simp
  | cons item rest ih =>
    rw [List.zipIdx_cons, List.filter_cons]
    cases isStop : stop - offset with
    | zero =>
      have outside : ¬ (start ≤ offset ∧ offset < stop) := by omega
      rw [if_neg (by simpa using outside), ih, show stop - (offset + 1) = 0 by omega]
      simp
    | succ count =>
      have isCount : stop - (offset + 1) = count := by omega
      rw [List.take_succ_cons]
      cases isStart : start - offset with
      | zero =>
        have inside : start ≤ offset ∧ offset < stop := by omega
        rw [if_pos (by simpa using inside), List.map_cons, ih, isCount,
          show start - (offset + 1) = 0 by omega]
        rfl
      | succ skipped =>
        have outside : ¬ (start ≤ offset ∧ offset < stop) := by omega
        rw [if_neg (by simpa using outside), ih, isCount, show start - (offset + 1) =
          skipped by omega,
          List.drop_succ_cons]

theorem drop_min_take (items : List α) (start stop : Nat) :
    (items.take stop).drop (min start items.length) = (items.take stop).drop start := by
  rcases Nat.le_total start items.length with short | long
  · rw [Nat.min_eq_left short]
  · rw [Nat.min_eq_right long, List.drop_of_length_le (by grind), List.drop_of_length_le (by grind)]

theorem slice_of_nonneg (items : List α) (start stop : Nat) :
    slice items start stop = (items.take stop).drop start := by
  have position (index : Nat) : (if (index : Int) < 0 then max ((index : Int) + items.length) 0
      else min (index : Int) items.length).toNat = min index items.length := by omega
  simp only [slice, position]
  rw [← List.take_eq_take_min, drop_min_take]

end Text

namespace Builtin

open Text

def called (name : String) (arguments : List Value) : Exec Value :=
  match find? name with
  | some builtin => builtin.call arguments
  | none => Exec.fail (.undefinedFunction name)

/-- Counting, replacing and finding have one notion of an occurrence. -/
theorem searches_agree {sub : String} (notEmpty : sub ≠ "") (text new : String)
    (machine : Machine) :
    ∃ first others,
      (∀ pieces, Pieces sub.toList text.toList pieces ↔ pieces = first :: others) ∧
      called "strings_count" [.string text, .string sub] machine =
        .ok (.int others.length) machine ∧
      called "strings_replace" [.string text, .string sub, .string new] machine =
        .ok (ofChars (new.toList.intercalate (first :: others))) machine ∧
      called "strings_contains" [.string text, .string sub] machine =
        .ok (.bool (decide (0 < others.length))) machine ∧
      called "strings_index_of" [.string text, .string sub] machine =
        .ok (.int (if 0 < others.length then first.length else -1)) machine ∧
      (∀ position < first.length, ¬ OccursAt sub.toList text.toList position) ∧
      called "strings_replace_first" [.string text, .string sub, .string new] machine =
        .ok (ofChars (if 0 < others.length then text.toList.take first.length ++ new.toList ++
          text.toList.drop (first.length + sub.length) else text.toList)) machine ∧
      ∃ last : Option Nat, IsLast sub.toList text.toList last ∧ (last.isSome ↔ 0 < others.length) ∧
        called "strings_last_index_of" [.string text, .string sub] machine =
          .ok (.int (last.elim (-1) Int.ofNat)) machine ∧
        ∀ position ∈ last, ∃ reversed reversedSub index,
          called "strings_reverse" [.string text] machine = .ok reversed machine ∧
          called "strings_reverse" [.string sub] machine = .ok reversedSub machine ∧
          called "strings_index_of" [reversed, reversedSub] machine = .ok (.int index) machine ∧
          position = text.length - sub.length - index := by
  have notNil : sub.toList ≠ [] := by simpa using notEmpty
  obtain ⟨first, others, arePieces, isIndex⟩ := exists_first notNil text.toList
  have isFirst := isFirst_indexOf? sub.toList text.toList
  have isLast := isLast_lastIndexOf? sub.toList text.toList
  rw [isIndex] at isFirst
  refine ⟨first, others, fun pieces => arePieces ▸ pieces_iff notNil, ?_, ?_, ?_, ?_, ?_, ?_,
    lastIndexOf? sub.toList text.toList, isLast, ?_, rfl, fun position found => ?_⟩
  · change EStateM.Result.ok (Value.int (countOf text.toList sub.toList)) machine = _
    have isCount := length_cutFrom sub.toList 0 text.toList
    rw [← pieces, arePieces, List.length_cons, Nat.add_right_cancel_iff] at isCount
    simp [countOf, notNil, isCount]
  · change EStateM.Result.ok (ofChars (replaceAll text.toList sub.toList new.toList)) machine = _
    rw [replaceAll, if_neg (by simpa using notNil), ← intercalate_cutFrom, ← pieces, arePieces]
  · change EStateM.Result.ok (Value.bool (occurs sub.toList text.toList)) machine = _
    rw [occurs_eq, isIndex]
    split <;> simp_all
  · change EStateM.Result.ok (ofPosition (indexOf? sub.toList text.toList)) machine = _
    rw [isIndex]
    split <;> rfl
  · split at isFirst
    · exact isFirst.2
    · exact fun position _ => isFirst position
  · change EStateM.Result.ok (ofChars (replaceOne text.toList sub.toList new.toList)) machine = _
    simp only [replaceOne, List.isEmpty_iff, notNil, if_false]
    split at isIndex
    · rw [replaceFirst_of_found notNil isIndex, if_pos ‹_›, String.length_toList]
    · rw [replaceFirst_of_absent isIndex, if_neg ‹_›]
  · split at isFirst
    · rename_i several
      cases found : lastIndexOf? sub.toList text.toList with
      | none => exact absurd isFirst.1 ((found ▸ isLast) _)
      | some position => simp [several]
    · rename_i single
      cases found : lastIndexOf? sub.toList text.toList with
      | none => simp [single]
      | some position => exact absurd (found ▸ isLast).1 (isFirst position)
  · have isLast := (show lastIndexOf? sub.toList text.toList = some position from found) ▸ isLast
    have index := (isFirst_indexOf? _ _).unique isLast.reverse
    have within := isLast.1.reverse.1
    refine ⟨_, _, _, rfl, rfl, rfl, ?_⟩
    simp only [String.toList_ofList, index, Option.elim_some, String.length_toList] at within ⊢
    simp
    omega

theorem searches_agree_overlapping : "aa" ≠ "" ∧ ∃ first others,
    (∀ pieces, Pieces "aa".toList "baaac".toList pieces ↔ pieces = first :: others) ∧
      called "strings_count" [.string "baaac", .string "aa"]
        (.start (.start .empty [] [] [] 0) ".") =
        .ok (.int others.length) (.start (.start .empty [] [] [] 0) ".") := by
  obtain ⟨first, others, arePieces, counted, _⟩ :=
    @searches_agree "aa" (by decide) "baaac" "x" (.start (.start .empty [] [] [] 0) ".")
  exact ⟨by decide, first, others, arePieces, counted⟩

/-! ### Splitting and joining -/

theorem joined_texts (texts : List (List Char)) (separator : String) (machine : Machine) :
    joined (texts.map ofChars) separator machine =
      .ok (ofChars (separator.toList.intercalate texts)) machine := by
  have shownAll : (texts.map ofChars).mapM (fun value => Exec.view fun heap => heap.plain value)
      machine = .ok (texts.map String.ofList) machine := by
    induction texts with
    | nil => rfl
    | cons text _ ih =>
      rw [List.map_cons, List.mapM_cons]
      have shown : Exec.view (fun heap => heap.plain (ofChars text)) machine =
          .ok (String.ofList text) machine := rfl
      rw [Exec.bind_of_ok shown, Exec.bind_of_ok ih]
      rfl
  have isText : separator.intercalate (texts.map String.ofList) =
      String.ofList (separator.toList.intercalate texts) := by
    apply String.toList_inj.mp
    simp [String.toList_intercalate, Function.comp_def]
  rw [joined, Exec.bind_of_ok shownAll, isText]
  rfl

/-- Joining what splitting gives yields the text again, as far as there was room for its parts. -/
theorem join_after_split (text separator : String) (machine : Machine) :
    ∃ result array final, ∃ parts : List String, ∃ (count : Nat) (whole : String),
      called "strings_split" [.string text, .string separator] machine = .ok result final ∧
      final.heap.object? result =
        some (.struct "SplitResult" [("parts", array), ("count", .int count)]) ∧
      final.heap.object? array = some (.list (parts.map Value.string).toArray) ∧
      parts.length = 100 ∧ (∀ part ∈ parts.drop count, part = "") ∧
      called "strings_join_count" [array, .string separator, .int count] final =
        .ok (.string whole) final ∧
      (separator = "" → count = min text.length 100 ∧ whole.toList = text.toList.take 100) ∧
      (separator ≠ "" → ∃ pieces, Pieces separator.toList text.toList pieces ∧
        count = min pieces.length 100 ∧ (pieces.length - 1 < 100 → whole = text) ∧
        (100 ≤ pieces.length - 1 → ∃ front rest, Cut separator.toList text.toList front rest ∧
          front.length = 100 ∧ text.toList = whole.toList ++ separator.toList ++ rest)) := by
  have object (heap : Heap) (list struct : Object) :
      ((heap.alloc list).2.alloc struct).2.object? (.object (heap.alloc list).2.size) =
          some struct ∧
        ((heap.alloc list).2.alloc struct).2.object? (.object heap.size) = some list := by
    simp [Heap.object?, Heap.get?_alloc, Heap.size_alloc]
  let parts := (partsOf text.toList separator.toList).take maxParts
  let filled := parts ++ List.replicate (maxParts - parts.length) []
  have count : parts.length = min (partsOf text.toList separator.toList).length 100 := by
    rw [List.length_take, Nat.min_comm]
    rfl
  let list : Object := .list (filled.map ofChars).toArray
  let struct : Object :=
    .struct "SplitResult" [("parts", .object machine.heap.size), ("count", .int parts.length)]
  let final : Machine := { machine with heap := ((machine.heap.alloc list).2.alloc struct).2 }
  obtain ⟨isResult, isArray⟩ := object machine.heap list struct
  have areElements : elements? (.object machine.heap.size) final =
      .ok (some (filled.map ofChars).toArray) final := by
    have read : Exec.object? (.object machine.heap.size) final = .ok (some list) final :=
      congrArg (EStateM.Result.ok · final) isArray
    exact Exec.bind_of_ok read
  refine ⟨.object (machine.heap.alloc list).2.size, .object machine.heap.size, final,
    filled.map String.ofList, parts.length, String.ofList (separator.toList.intercalate parts), rfl,
    isResult, ?_, ?_, ?_, ?_, ?_, ?_⟩
  · rw [List.map_map]
    exact isArray
  · simp only [filled, parts, maxParts, List.length_map, List.length_append, List.length_take,
      List.length_replicate]
    omega
  · simp [filled]
  · have front : (filled.map ofChars).toArray.toList.take (parts.length : Int).toNat =
        parts.map ofChars := by
      simp [filled]
    have joins := joined_texts parts separator final
    rw [← front] at joins
    exact (Exec.bind_of_ok areElements).trans joins
  · rintro rfl
    have areParts : parts = (text.toList.take 100).map fun c => [c] := List.map_take.symm
    rw [String.toList_ofList, areParts]
    refine ⟨?_, intercalate_singles _⟩
    rw [List.length_map, List.length_take, String.length_toList, Nat.min_comm]
  · intro notEmpty
    have notNil : separator.toList ≠ [] := by simpa using notEmpty
    have arePieces :
        Pieces separator.toList text.toList (partsOf text.toList separator.toList) := by
      simp [pieces_iff, partsOf, notNil]
    obtain ⟨whole, cut⟩ := arePieces.joined 99
    refine ⟨_, arePieces, count, fun few => ?_, fun many => ?_⟩
    · exact (congrArg String.ofList (whole (by omega))).trans String.ofList_toList
    · rw [String.toList_ofList]
      exact cut (by omega)

/-- A place outside the text is as good as the end it is beyond. -/
theorem clampedPart_eq (items : List Char) (start stop : Int) :
    clampedPart items start stop = (items.take stop.toNat).drop start.toNat := by
  have clamped (place : Int) :
      (if (items.length : Int) < (if place < 0 then 0 else place) then (items.length : Int)
        else if place < 0 then 0 else place) = (min place.toNat items.length : Nat) := by
    split_ifs <;> omega
  simp only [clampedPart, clamped, slice_of_nonneg]
  rw [← List.take_eq_take_min, drop_min_take]
  split
  case isTrue crossed => rw [List.drop_of_length_le (by rw [List.length_take]; omega)]
  case isFalse => rfl

/-- The two ways of taking a part of a text agree, and the parts in front of and behind a place are
the whole text. -/
theorem substrings_agree (text : String) (start stop : Int) (machine : Machine) :
    ∃ part : String,
      called "strings_substring" [.string text, .int start, .int stop] machine =
        .ok (.string part) machine ∧
      called "substring" [.string text, .int (max start 0), .int (max stop 0)] machine =
        .ok (.string part) machine ∧
      part.toList = (text.toList.zipIdx.filter fun item =>
        max start 0 ≤ item.2 ∧ item.2 < min stop text.length).map Prod.fst ∧
      ∀ place : Int, ∃ front back,
        called "strings_substring" [.string text, .int 0, .int place] machine =
          .ok (.string front) machine ∧
        called "strings_substring" [.string text, .int place, .int text.length] machine =
          .ok (.string back) machine ∧ front ++ back = text := by
  have sliced := slice_of_nonneg text.toList start.toNat stop.toNat
  rw [Int.toNat_eq_max, Int.toNat_eq_max] at sliced
  have cut (start stop : Int) :
      called "strings_substring" [.string text, .int start, .int stop] machine =
        .ok (ofChars ((text.toList.take stop.toNat).drop start.toNat)) machine :=
    congrArg (fun part => EStateM.Result.ok (ofChars part) machine) (clampedPart_eq _ _ _)
  refine ⟨_, cut _ _, ?_, ?_, fun place => ⟨_, _, cut _ _, cut _ _, ?_⟩⟩
  · exact congrArg (fun part => EStateM.Result.ok (ofChars part) machine) sliced
  · have filtered := map_filter_zipIdx start.toNat stop.toNat 0 text.toList
    rw [Nat.sub_zero, Nat.sub_zero] at filtered
    rw [String.toList_ofList, ← filtered]
    refine congrArg _ (List.filter_congr fun item member => decide_eq_decide.mpr ?_)
    have within : item.2 < text.length := by
      simpa [String.length_toList] using (List.mem_zipIdx member).2.1
    omega
  · apply String.toList_inj.mp
    rw [String.toList_append, String.toList_ofList, String.toList_ofList, Int.toNat_natCast,
      ← String.length_toList, List.take_length]
    exact List.take_append_drop _ _

end Builtin

end Noxy
