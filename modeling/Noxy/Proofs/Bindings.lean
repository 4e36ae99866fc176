import Noxy.Bindings

/-!
# Laws of bindings

Binding a name changes what that name is bound to and nothing else.
-/

namespace Noxy.Bindings

variable {α β : Type}

attribute [local simp] get? put

theorem get?_put (name other : String) (value : α) (bindings : List (String × α)) :
    get? other (put name value bindings) =
      if name = other then some value else get? other bindings := by
  induction bindings with
  | nil => simp
  | cons entry _ ih =>
    obtain ⟨bound, _⟩ := entry
    by_cases same : bound = name
    · subst same
      by_cases asked : bound = other <;> simp [asked]
    · by_cases asked : bound = other
      · subst asked
        simp [same, Ne.symm same]
      · simp [same, asked, ih]

@[simp]
theorem get?_put_self (name : String) (value : α) (bindings : List (String × α)) :
    get? name (put name value bindings) = some value := by
  simp [get?_put]

theorem get?_put_of_ne (different : name ≠ other) (value : α) (bindings : List (String × α)) :
    get? other (put name value bindings) = get? other bindings := by
  simp [get?_put, different]

theorem mem_of_get? (found : get? name bindings = some value) : (name, value) ∈ bindings := by
  induction bindings with
  | nil => simp at found
  | cons entry _ ih =>
    obtain ⟨bound, _⟩ := entry
    by_cases same : bound = name
    · simp only [get?, same, if_true, Option.some.injEq] at found
      simp [same, found]
    · simp only [get?, same, if_false] at found
      exact List.mem_cons_of_mem _ (ih found)

theorem mem_of_lookup [BEq κ] [LawfulBEq κ] {key : κ} {entries : List (κ × α)}
    (found : entries.lookup key = some value) : (key, value) ∈ entries := by
  obtain ⟨_, _, isSplit, _⟩ := List.lookup_eq_some_iff.mp found
  exact isSplit ▸ List.mem_append_right _ List.mem_cons_self

theorem mem_put (member : entry ∈ put name value bindings) :
    entry = (name, value) ∨ entry ∈ bindings := by
  induction bindings with
  | nil => simpa [put] using member
  | cons first _ ih =>
    obtain ⟨bound, _⟩ := first
    by_cases same : bound = name
    · simp only [put, same, if_true, List.mem_cons] at member
      rcases member with equal | inRest
      · exact Or.inl equal
      · exact Or.inr (List.mem_cons_of_mem _ inRest)
    · simp only [put, same, if_false, List.mem_cons] at member
      rcases member with equal | inRest
      · exact Or.inr (List.mem_cons.mpr (Or.inl equal))
      · rcases ih inRest with isNew | isOld
        · exact Or.inl isNew
        · exact Or.inr (List.mem_cons_of_mem _ isOld)

theorem get?_eq_none_iff : get? name bindings = none ↔ name ∉ bindings.map Prod.fst := by
  induction bindings with
  | nil => simp
  | cons entry _ ih =>
    obtain ⟨bound, _⟩ := entry
    by_cases same : bound = name
    · simp [same]
    · simp [same, Ne.symm same, ih]

def mapValues (change : α → β) (bindings : List (String × α)) : List (String × β) :=
  bindings.map fun entry => (entry.1, change entry.2)

@[simp]
theorem get?_mapValues (change : α → β) (name : String) (bindings : List (String × α)) :
    get? name (mapValues change bindings) = (get? name bindings).map change := by
  induction bindings with
  | nil => rfl
  | cons entry _ ih =>
    obtain ⟨bound, _⟩ := entry
    by_cases same : bound = name
    · simp [mapValues, get?, same]
    · simp only [mapValues, List.map_cons, get?, same, if_false] at ih ⊢
      exact ih

theorem mapValues_put (change : α → β) (name : String) (value : α) (bindings : List (String × α)) :
    mapValues change (put name value bindings) =
      put name (change value) (mapValues change bindings) := by
  induction bindings with
  | nil => rfl
  | cons entry _ ih =>
    obtain ⟨bound, _⟩ := entry
    by_cases same : bound = name
    · simp [mapValues, put, same]
    · simp only [mapValues, List.map_cons, put, same, if_false] at ih ⊢
      rw [ih]

def putAll (items : List (String × α)) (bindings : List (String × α)) : List (String × α) :=
  items.foldl (fun bindings item => put item.1 item.2 bindings) bindings

theorem mem_putAll (member : entry ∈ putAll items bindings) : entry ∈ items ∨ entry ∈ bindings := by
  induction items generalizing bindings with
  | nil => exact Or.inr member
  | cons _ _ ih =>
    rcases ih member with inRest | inPut
    · exact Or.inl (List.mem_cons_of_mem _ inRest)
    · rcases mem_put inPut with rfl | isOld
      · exact Or.inl List.mem_cons_self
      · exact Or.inr isOld

theorem isSome_get?_putAll (items bindings : List (String × α)) (name : String) :
    (get? name (putAll items bindings)).isSome = true ↔
      (get? name bindings).isSome = true ∨ name ∈ items.map Prod.fst := by
  induction items generalizing bindings with
  | nil => simp [putAll]
  | cons item _ ih =>
    refine (ih _).trans ?_
    rw [get?_put]
    by_cases same : item.1 = name
    · simp [same]
    · simp [same, Ne.symm same]

end Noxy.Bindings
