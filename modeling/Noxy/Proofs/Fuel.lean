import Noxy.Proofs.Outcome

/-!
# Fuel

More fuel changes nothing about a step that has not spent what it was given.
-/

namespace Noxy

namespace Exec

variable {α β : Type}

def IsSpent (result : EStateM.Result Signal Machine α) : Prop :=
  ∃ final, result = .error (.failure .exhausted) final

def Approximates (step step' : Exec α) : Prop :=
  ∀ machine, IsSpent (step machine) ∨ step machine = step' machine

namespace Approximates

theorem refl (step : Exec α) : Approximates step step :=
  fun _ => Or.inr rfl

theorem trans (first : Approximates step step') (second : Approximates step' step'') :
    Approximates step step'' := by
  intro machine
  rcases first machine with spent | same
  · exact Or.inl spent
  · rw [same]
    exact second machine

theorem exhausted : Approximates exhausted step :=
  fun machine => Or.inl ⟨machine, rfl⟩

theorem bind (first : Approximates step step')
    (rest : ∀ value, Approximates (next value) (next' value)) :
    Approximates (step >>= next) (step' >>= next') := by
  intro machine
  simp only [Bind.bind, EStateM.bind]
  rcases first machine with ⟨final, spent⟩ | same
  · rw [spent]
    exact Or.inl ⟨final, rfl⟩
  · rw [← same]
    cases step machine with
    | ok value final => exact rest value final
    | error => exact Or.inr rfl

theorem after (step : Exec β) (rest : ∀ value, Approximates (next value) (next' value)) :
    Approximates (step >>= next) (step >>= next') :=
  bind (refl step) rest

theorem before (first : Approximates step step') (next : β → Exec α) :
    Approximates (step >>= next) (step' >>= next) :=
  bind first fun value => refl (next value)

theorem inScope (approximates : Approximates body body') :
    Approximates (inScope outer body) (inScope outer body') := by
  intro machine
  simp only [Exec.inScope]
  rcases approximates (entered outer machine) with ⟨final, spent⟩ | same
  · exact Or.inl ⟨left machine final, by simp only [entered] at spent; rw [spent]; rfl⟩
  · simp only [entered] at same
    rw [same]
    exact Or.inr rfl

theorem asCall (approximates : Approximates body body') :
    Approximates (asCall body) (asCall body') := by
  intro machine
  simp only [Exec.asCall]
  rcases approximates machine with ⟨final, spent⟩ | same
  · rw [spent]
    exact Or.inl ⟨final, rfl⟩
  · rw [same]
    exact Or.inr rfl

theorem proceeds (approximates : Approximates turn turn') :
    Approximates (proceeds turn) (proceeds turn') := by
  intro machine
  simp only [Exec.proceeds]
  rcases approximates machine with ⟨final, spent⟩ | same
  · rw [spent]
    exact Or.inl ⟨final, rfl⟩
  · rw [same]
    exact Or.inr rfl

end Approximates

/-! ### What a step gives with enough fuel -/

def Grows (step : Nat → Exec α) : Prop :=
  ∀ fuel, Approximates (step fuel) (step (fuel + 1))

/-- The result of a step that has enough fuel. -/
def Yields (step : Nat → Exec α) (machine : Machine)
    (result : EStateM.Result Signal Machine α) : Prop :=
  ¬ IsSpent result ∧ ∃ fuel, step fuel machine = result

theorem Grows.approximates (grows : Grows step) (enough : fuel ≤ larger) :
    Approximates (step fuel) (step larger) := by
  induction enough with
  | refl => exact .refl _
  | step _ ih => exact ih.trans (grows _)

variable {step : Nat → Exec α} {machine : Machine}

theorem Yields.eventually (yields : Yields step machine result) (grows : Grows step) :
    ∃ least, ∀ fuel, least ≤ fuel → step fuel machine = result := by
  obtain ⟨notSpent, least, ended⟩ := yields
  refine ⟨least, fun _ enough => ?_⟩
  rcases grows.approximates enough machine with spent | same
  · rw [ended] at spent
    exact absurd spent notSpent
  · rw [← same, ended]

theorem Yields.unique (yields : Yields step machine result) (yields' : Yields step machine result')
    (grows : Grows step) : result = result' := by
  obtain ⟨least, same⟩ := yields.eventually grows
  obtain ⟨least', same'⟩ := yields'.eventually grows
  rw [← same (max least least') (Nat.le_max_left _ _),
    ← same' (max least least') (Nat.le_max_right _ _)]

def passes (step : Exec α) (machine : Machine) (test : α → Machine → Bool) : Bool :=
  match step machine with
  | .ok value final => test value final
  | .error _ _ => false

theorem exists_of_passes {step : Exec α} (isPassed : passes step machine test = true) :
    ∃ value final, step machine = .ok value final ∧ test value final = true := by
  rw [passes] at isPassed
  cases ended : step machine with
  | ok value final => exact ⟨value, final, rfl, by simpa only [ended] using isPassed⟩
  | error => simp only [ended, Bool.false_eq_true] at isPassed

def failsWith (failure : Failure) (step : Exec α) (machine : Machine) : Bool :=
  match step machine with
  | .error (.failure cause) _ => cause == failure
  | _ => false

theorem exists_of_failsWith {step : Exec α} {failure : Failure}
    (isFailed : failsWith failure step machine = true) :
    ∃ final, step machine = .error (.failure failure) final := by
  unfold failsWith at isFailed
  split at isFailed
  · rename_i final ended
    exact ⟨final, by rw [ended, eq_of_beq isFailed]⟩
  · cases isFailed

theorem exists_of_bind_eq_ok {step : Exec β} (ended : (step >>= next) machine = .ok value final) :
    ∃ first middle, step machine = .ok first middle ∧ next first middle = .ok value final := by
  simp only [Bind.bind, EStateM.bind] at ended
  cases endedFirst : step machine with
  | ok first middle => exact ⟨first, middle, rfl, by simpa only [endedFirst] using ended⟩
  | error => simp only [endedFirst, reduceCtorEq] at ended

theorem Yields.of_passes_bind (step next : Nat → Exec Unit) (fuel : Nat)
    (isPassed : passes (do step fuel; next fuel) machine test = true) :
    ∃ middle final, test () final = true ∧ Yields step machine (.ok () middle) ∧
      Yields next middle (.ok () final) := by
  obtain ⟨_, final, ended, isPassed⟩ := exists_of_passes isPassed
  obtain ⟨_, middle, endedFirst, endedNext⟩ := exists_of_bind_eq_ok ended
  exact ⟨middle, final, isPassed, ⟨nofun, fuel, endedFirst⟩, nofun, fuel, endedNext⟩

theorem Yields.of_approximates (yields : Yields step machine result)
    (approximates : ∀ fuel, ∃ larger, Approximates (step fuel) (step' larger)) :
    Yields step' machine result := by
  obtain ⟨notSpent, fuel, ended⟩ := yields
  obtain ⟨larger, approximated⟩ := approximates fuel
  refine ⟨notSpent, larger, ?_⟩
  rcases approximated machine with spent | same
  · rw [ended] at spent
    exact absurd spent notSpent
  · rw [← same, ended]

theorem yields_congr (grows : Grows step) (grows' : Grows step') (extra extra' : Nat)
    (same : ∀ fuel, step (fuel + extra) machine = step' (fuel + extra') machine') :
    Yields step machine result ↔ Yields step' machine' result := by
  constructor
  · intro yields
    obtain ⟨enough, ended⟩ := yields.eventually grows
    refine ⟨yields.1, enough + extra', ?_⟩
    rw [← same, ended _ (Nat.le_add_right _ _)]
  · intro yields
    obtain ⟨enough, ended⟩ := yields.eventually grows'
    refine ⟨yields.1, enough + extra, ?_⟩
    rw [same, ended _ (Nat.le_add_right _ _)]

theorem yields_bind {step : Nat → Exec β} {next : β → Nat → Exec α} (grows : Grows step)
    (growsNext : ∀ value, Grows (next value)) :
    Yields (fun fuel => step fuel >>= fun value => next value fuel) machine result ↔
      (∃ value final, Yields step machine (.ok value final) ∧ Yields (next value) final result) ∨
      ∃ signal final, Yields step machine (.error signal final) ∧ result = .error signal final := by
  constructor
  · rintro ⟨notSpent, fuel, ended⟩
    simp only [Bind.bind, EStateM.bind] at ended
    cases first : step fuel machine with
    | ok value final =>
      rw [first] at ended
      exact Or.inl ⟨value, final, ⟨nofun, fuel, first⟩, notSpent, fuel, ended⟩
    | error signal final =>
      rw [first] at ended
      subst ended
      refine Or.inr ⟨signal, final, ⟨?_, fuel, first⟩, rfl⟩
      rintro ⟨_, isSpent⟩
      cases isSpent
      exact notSpent ⟨final, rfl⟩
  · rintro (⟨value, final, first, rest⟩ | ⟨_, final, first, rfl⟩)
    · obtain ⟨least, ended⟩ := first.eventually grows
      obtain ⟨least', ended'⟩ := rest.eventually (growsNext value)
      refine ⟨rest.1, max least least', ?_⟩
      simp only [Bind.bind, EStateM.bind, ended _ (Nat.le_max_left _ _)]
      exact ended' _ (Nat.le_max_right _ _)
    · obtain ⟨least, ended⟩ := first.eventually grows
      refine ⟨?_, least, ?_⟩
      · rintro ⟨_, isSpent⟩
        cases isSpent
        exact first.1 ⟨final, rfl⟩
      · simp only [Bind.bind, EStateM.bind, ended _ (Nat.le_refl _)]

end Exec

end Noxy
