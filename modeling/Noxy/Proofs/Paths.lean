import Mathlib.Data.FinEnum
import Mathlib.Data.Set.Finite.List
import Noxy.Proofs.SightHeap

/-!
# Paths of files in directories

A text means one path in a working directory, whether the disk is asked or not (`find_place`).
-/

namespace Noxy

variable {disk : Disk}

namespace Disk

theorem follow_eq_foldl (followed : disk.follow path texts = .ok place) :
    place = texts.foldl enter path := by
  induction texts generalizing path with
  | nil =>
    cases followed
    rfl
  | cons _ _ ih =>
    rw [List.foldl_cons, enter]
    unfold follow at followed
    split at followed
    · cases followed
    · cases followed
    · split_ifs at followed ⊢
      · exact ih followed
      · exact ih followed
      · exact ih followed

theorem resolve_place (resolved : disk.resolve workingDirectory text = .ok place) :
    place = normalize workingDirectory text ∧ text ≠ "" := by
  unfold resolve at resolved
  split at resolved
  · cases resolved
  · split at resolved
    · cases resolved
    · rename_i notEmpty
      split at resolved
      · cases resolved
      · refine ⟨follow_eq_foldl resolved, ?_⟩
        rintro rfl
        exact notEmpty rfl

theorem find_place (found : disk.find workingDirectory text = .ok (place, node)) :
    place = normalize workingDirectory text ∧ disk.node? place = some node ∧ text ≠ "" := by
  unfold find at found
  obtain ⟨path, resolved, found⟩ := ok_of_bind found
  obtain ⟨isPlace, notEmpty⟩ := resolve_place resolved
  cases isNode : disk.node? path with
  | none =>
    rw [isNode] at found
    cases found
  | some =>
    rw [isNode] at found
    cases found
    exact ⟨isPlace, isNode, notEmpty⟩

theorem size_of_find (found : disk.find workingDirectory text = .ok (place, node)) :
    text.utf8ByteSize ≤ maxPathSize := by
  by_contra isLong
  have refused : ∃ error, disk.resolve workingDirectory text = .error error := by
    unfold resolve
    split
    · exact ⟨_, rfl⟩
    · split
      · exact ⟨_, rfl⟩
      · rw [if_pos (Nat.not_le.mp isLong)]
        exact ⟨_, rfl⟩
  obtain ⟨_, refused⟩ := refused
  rw [find, refused] at found
  cases found

/-- Only finitely many places can be found in a working directory, whatever is on the disk, because
a long text is not a path. -/
theorem finite_places (workingDirectory : Path) :
    {place | ∃ (disk : Disk) (text : String) (node : Node),
      disk.find workingDirectory text = .ok (place, node)}.Finite := by
  let bytes (text : String) : List UInt8 := text.toByteArray.data.toList
  have injective : Function.Injective bytes := fun _ _ same =>
    String.toByteArray_inj.mp (ByteArray.ext (Array.toList_inj.mp same))
  have finiteTexts : {text : String | (bytes text).length ≤ maxPathSize}.Finite :=
    .preimage injective.injOn (List.finite_length_le UInt8 maxPathSize)
  refine (finiteTexts.image (normalize workingDirectory)).subset ?_
  rintro place ⟨disk, text, node, found⟩
  exact ⟨text, size_of_find found, (find_place found).1.symm⟩

noncomputable def places (workingDirectory : Path) : Finset Path :=
  (finite_places workingDirectory).toFinset

theorem mem_places (found : disk.find workingDirectory text = .ok (place, node)) :
    place ∈ places workingDirectory :=
  (finite_places workingDirectory).mem_toFinset.mpr ⟨disk, text, node, found⟩

/-! ### Joined texts -/

theorem names_of_noSlash (noSlash : '/' ∉ text.toList) : names text = [text] := by
  have split : List.splitOn '/' (['/'].intercalate [text.toList]) = [text.toList] :=
    List.splitOn_intercalate '/' (by simpa using noSlash) (by simp)
  rw [show ['/'].intercalate [text.toList] = text.toList by simp] at split
  rw [names, split, List.map_singleton, String.ofList_toList]

theorem names_slash (isJoined : text.toList = front.toList ++ '/' :: back.toList) :
    names text = names front ++ names back := by
  rw [names, isJoined, List.splitOn, List.splitOnP_append_cons _ _ (by simp), List.map_append]
  rfl

theorem startsWith_slash_congr {other : String} (notEmpty : text ≠ "")
    (isLonger : other.toList = text.toList ++ more) :
    other.startsWith "/" = text.startsWith "/" := by
  rw [Bool.eq_iff_iff, String.startsWith_string_iff, String.startsWith_string_iff, isLonger]
  have isCons : text.toList ≠ [] := fun isNil => notEmpty (String.toList_eq_nil_iff.mp isNil)
  obtain ⟨_, _, isCons⟩ := List.exists_cons_of_ne_nil isCons
  simp [isCons]

theorem normalize_join (notEmpty : base ≠ "") (noSlash : '/' ∉ file.toList) :
    normalize workingDirectory (Modules.join base file) =
      enter (normalize workingDirectory base) file := by
  have single : names file = [file] := names_of_noSlash noSlash
  unfold Modules.join
  split_ifs with isDot endsInSlash
  · subst isDot
    have isRelative : file.startsWith "/" = false := by
      rw [String.startsWith_string_eq_false_iff]
      exact fun starts => noSlash (starts.subset (by simp))
    have dotRelative : ("." : String).startsWith "/" = false := by
      rw [String.startsWith_string_eq_false_iff]
      decide
    rw [normalize, normalize, isRelative, dotRelative, single, names_of_noSlash (by decide)]
    rfl
  · rw [String.endsWith_eq_endsWith_toSlice, String.Slice.endsWith_string_iff] at endsInSlash
    obtain ⟨front, isFront⟩ := endsInSlash
    have isFront : base.toList = front ++ ['/'] := by simpa using isFront.symm
    have noName : names "" = [""] := names_of_noSlash (by decide)
    have baseNames : names base = names (String.ofList front) ++ names "" :=
      names_slash (by simpa using isFront)
    have joinedNames : names (base ++ file) = names (String.ofList front) ++ names file :=
      names_slash (by simp [isFront])
    rw [normalize, normalize, startsWith_slash_congr notEmpty String.toList_append, baseNames,
      joinedNames, single, noName, List.foldl_append, List.foldl_append]
    rfl
  · have joinedNames : names (base ++ "/" ++ file) = names base ++ names file :=
      names_slash (by simp)
    have isLonger : (base ++ "/" ++ file).toList = base.toList ++ '/' :: file.toList := by simp
    rw [normalize, normalize, startsWith_slash_congr notEmpty isLonger, joinedNames, single,
      List.foldl_append]
    rfl

/-- The names of files are proper ones. -/
def WellNamed (disk : Disk) : Prop :=
  ∀ entry ∈ disk.nodes, ∀ name ∈ entry.1, name ≠ "" ∧ '/' ∉ name.toList

theorem WellNamed.child (wellNamed : disk.WellNamed) (member : name ∈ disk.children directory) :
    name ≠ "" ∧ '/' ∉ name.toList := by
  obtain ⟨entry, inNodes, isChild⟩ := List.mem_filterMap.mp member
  dsimp only at isChild
  split at isChild
  · exact wellNamed entry inNodes name (List.mem_of_getLast? isChild)
  · cases isChild

theorem normalize_member (wellNamed : disk.WellNamed)
    (member : entry ∈ Modules.members disk directory) (notEmpty : base ≠ "") :
    normalize workingDirectory (Modules.join base entry.2) =
      normalize workingDirectory base ++ [entry.2] := by
  obtain ⟨file, isListed, isEntry⟩ := List.mem_filterMap.mp member
  obtain ⟨isChild, isVisible⟩ := List.mem_filter.mp isListed
  have isFile : entry.2 = file := by
    dsimp only at isEntry
    split_ifs at isEntry
    · cases isEntry
      rfl
    · cases isEntry
      rfl
  have dotHidden : Modules.isVisible "." = false := by decide +kernel
  have upHidden : Modules.isVisible ".." = false := by decide +kernel
  obtain ⟨isName, noSlash⟩ := wellNamed.child isChild
  have notDot : file ≠ "." := by
    rintro rfl
    cases dotHidden.symm.trans isVisible
  have notUp : file ≠ ".." := by
    rintro rfl
    cases upHidden.symm.trans isVisible
  rw [isFile, normalize_join notEmpty noSlash, enter, if_neg (not_or.mpr ⟨isName, notDot⟩),
    if_neg notUp]

end Disk

end Noxy
