import Noxy.CommandLine.Repl
import Noxy.Proofs.Sufficiency
import Noxy.Proofs.Uncaught

/-!
# Interactive sessions

What the interactive loop executes for the lines that it reads, and what makes it end.
-/

namespace Noxy

open Exec

theorem Program.exists_begins_of_signals {program : Program}
    (signals : (program.run fuel).Signals machine signal) :
    ∃ activity begun, program.Begins fuel machine activity begun ∧
      (activity.run fuel).Signals begun signal := by
  rcases signals.of_bind with signals | ⟨_, _, imported, signals⟩
  · exact ⟨_, _, .imports, signals⟩
  · rcases signals.of_bind with signals | ⟨_, _, defined, signals⟩
    · exact ⟨_, _, .definitions imported, signals⟩
    · exact ⟨_, _, .actions imported defined, signals⟩

namespace Repl

def text (repl : Repl) (line : String) : String :=
  "\n".intercalate (repl.buffer ++ [line])

/-- The lines that a session reads, each with the loop that waits for it. -/
def turns (repl : Repl) : List String → List (Repl × String)
  | [] => []
  | line :: rest =>
    let shown := repl.write repl.prompt
    (shown, line) ::
      match shown.feed line with
      | (next, .reading) => next.turns rest
      | _ => []

/-- Whether the lines collected make a program with this one, so that it is executed. -/
def completes (repl : Repl) (line : String) : Bool :=
  !isExit line && (Program.parse (repl.text line)).isOk

/-- Whether the program is executed and fails with an error that seems to ask for more lines. -/
def isMistaken (repl : Repl) (line : String) : Bool :=
  repl.completes line &&
    match execute (repl.text line) repl.machine with
    | .error (.failure (.error error)) _ => isIncomplete error.message
    | _ => false

def executedWith (repl : Repl) (line : String) : List String :=
  if repl.completes line then repl.buffer ++ [line] else []

/-- The lines that are executed in a session, as often as they are. -/
def executed (repl : Repl) (lines : List String) : List String :=
  (repl.turns lines).flatMap fun turn => turn.1.executedWith turn.2

/-- The signals that leave the loop: none of them is an error of the language. -/
inductive Leaves (repl : Repl) (line : String) : Signal → Prop where
  | exit : Leaves repl line (.exit code)
  | fault : Leaves repl line (.failure (.fault cause))
  | exhausted (parsed : Program.parse (repl.text line) = .ok program) :
      Leaves repl line (.failure .exhausted)
  | uncaught (parsed : Program.parse (repl.text line) = .ok program)
      (isJump : signal.endsRun = false)
      (begins : program.Begins standardFuel repl.machine activity begun)
      (reaches : ReachesUncaught signal standardFuel activity begun (fuel + 1) part moment)
      (raises : part.Raises fuel moment signal) :
      Leaves repl line signal

variable {repl : Repl}

theorem execute_of_ok (parsed : Program.parse source = .ok program) :
    execute source = program.run standardFuel := by
  rw [execute, parsed]
  rfl

theorem execute_of_error (failed : Program.parse source = .error cause) (machine : Machine) :
    execute source machine = .error (.failure cause) machine := by
  rw [execute, failed]
  rfl

variable {machine : Machine}

theorem feed_of_ok (notExit : isExit line = false)
    (ended : execute (repl.text line) repl.machine = .ok () machine) :
    repl.feed line = (⟨machine, []⟩, .reading) := by
  rw [feed, notExit]
  simp only [text] at ended
  simp only [ended, Bool.false_eq_true, if_false]

theorem feed_of_language_error (notExit : isExit line = false)
    (ended : execute (repl.text line) repl.machine = .error (.failure (.error error)) machine) :
    repl.feed line =
      if isIncomplete error.message then (⟨machine, repl.buffer ++ [line]⟩, .reading)
      else (write s!"Erro: {error.message}\n" ⟨machine, []⟩, .reading) := by
  rw [feed, notExit]
  simp only [text] at ended
  simp only [ended, Bool.false_eq_true, if_false]

theorem feed_of_signal (notExit : isExit line = false)
    (ended : execute (repl.text line) repl.machine = .error signal machine)
    (other : ∀ error, signal ≠ .failure (.error error)) :
    repl.feed line = (⟨machine, repl.buffer ++ [line]⟩, .left signal) := by
  rw [feed, notExit]
  simp only [text] at ended
  simp only [ended, Bool.false_eq_true, if_false]

theorem feed_of_exit (isLast : isExit line = true) : repl.feed line = (repl, .ended) := by
  rw [feed, isLast, if_pos rfl]

/-- Every line but `exit` is answered by the outcome of executing the text it completes. -/
theorem feed_cases (notExit : isExit line = false) :
    (∃ machine, execute (repl.text line) repl.machine = .ok () machine ∧
      repl.feed line = (⟨machine, []⟩, .reading)) ∨
    (∃ error machine,
      execute (repl.text line) repl.machine = .error (.failure (.error error)) machine ∧
      repl.feed line =
        if isIncomplete error.message then (⟨machine, repl.buffer ++ [line]⟩, .reading)
        else (write s!"Erro: {error.message}\n" ⟨machine, []⟩, .reading)) ∨
    ∃ signal machine, execute (repl.text line) repl.machine = .error signal machine ∧
      (∀ error, signal ≠ .failure (.error error)) ∧
      repl.feed line = (⟨machine, repl.buffer ++ [line]⟩, .left signal) := by
  cases ended : execute (repl.text line) repl.machine with
  | ok _ machine => exact .inl ⟨machine, rfl, feed_of_ok notExit ended⟩
  | error signal machine =>
    by_cases isLanguageError : ∃ error, signal = .failure (.error error)
    · obtain ⟨error, rfl⟩ := isLanguageError
      exact .inr (.inl ⟨error, machine, rfl, feed_of_language_error notExit ended⟩)
    · have other : ∀ error, signal ≠ .failure (.error error) := not_exists.mp isLanguageError
      exact .inr (.inr ⟨signal, machine, rfl, other, feed_of_signal notExit ended other⟩)

/-! ### What is executed -/

theorem buffer_of_reading (read : repl.feed line = (next, .reading)) :
    next.buffer = [] ∨ next.buffer = repl.buffer ++ [line] := by
  cases isLast : isExit line with
  | true => cases (feed_of_exit isLast).symm.trans read
  | false =>
    rcases feed_cases isLast with ⟨_, _, fed⟩ | ⟨_, _, _, fed⟩ | ⟨_, _, _, _, fed⟩
    · cases fed.symm.trans read
      exact .inl rfl
    · rw [fed] at read
      split at read
      · cases read
        exact .inr rfl
      · cases read
        exact .inl rfl
    · cases fed.symm.trans read

theorem buffer_of_completes (completes : repl.completes line = true)
    (read : repl.feed line = (next, .reading)) :
    next.buffer = if repl.isMistaken line then repl.buffer ++ [line] else [] := by
  have notExit : isExit line = false := by
    simpa only [Bool.not_eq_true'] using (Bool.and_eq_true_iff.mp completes).1
  rw [isMistaken, completes, Bool.true_and]
  rcases feed_cases notExit with
    ⟨_, ended, fed⟩ | ⟨error, _, ended, fed⟩ | ⟨_, _, _, _, fed⟩
  · cases fed.symm.trans read
    rw [ended]
    rfl
  · rw [ended]
    rw [fed] at read
    split at read <;> rename_i isMistaken <;> cases read
    · exact (if_pos isMistaken).symm
    · exact (if_neg isMistaken).symm
  · cases fed.symm.trans read

theorem machine_of_not_completes (notCompletes : repl.completes line = false) :
    ∃ output, (repl.feed line).1.machine = { repl.machine with output := output } := by
  cases isLast : isExit line with
  | true => exact ⟨repl.machine.output, by rw [feed_of_exit isLast]⟩
  | false =>
    cases parsed : Program.parse (repl.text line) with
    | ok =>
      rw [completes, isLast, parsed] at notCompletes
      cases notCompletes
    | error cause =>
      have ended := execute_of_error parsed repl.machine
      cases cause with
      | error =>
        rw [feed_of_language_error isLast ended]
        split
        · exact ⟨repl.machine.output, rfl⟩
        · exact ⟨_, rfl⟩
      | fault | exhausted => exact ⟨repl.machine.output, by rw [feed_of_signal isLast ended nofun]⟩

theorem turns_of_reading (read : (repl.write repl.prompt).feed line = (next, .reading)) :
    repl.turns (line :: rest) = (repl.write repl.prompt, line) :: next.turns rest := by
  rw [turns, read]

theorem turns_single : repl.turns [line] = [(repl.write repl.prompt, line)] := by
  rw [turns]
  split <;> rfl

theorem turns_of_not_reading (notReading : reply ≠ .reading)
    (read : (repl.write repl.prompt).feed line = (next, reply)) :
    repl.turns (line :: rest) = [(repl.write repl.prompt, line)] := by
  rw [turns, read]
  cases reply with
  | reading => exact absurd rfl notReading
  | _ => rfl

theorem executedWith_sublist : (repl.executedWith line).Sublist (repl.buffer ++ [line]) := by
  rw [executedWith]
  split
  · exact List.Sublist.refl _
  · exact List.nil_sublist _

/-- A line is executed or kept for later, but not both. -/
theorem executedWith_append_sublist (unmistaken : repl.isMistaken line = false)
    (read : repl.feed line = (next, .reading)) :
    (repl.executedWith line ++ next.buffer).Sublist (repl.buffer ++ [line]) := by
  cases completes : repl.completes line with
  | true =>
    rw [buffer_of_completes completes read, unmistaken, if_neg Bool.false_ne_true, List.append_nil]
    exact executedWith_sublist
  | false =>
    rw [executedWith, completes, if_neg Bool.false_ne_true, List.nil_append]
    rcases buffer_of_reading read with isEmpty | isKept
    · rw [isEmpty]
      exact List.nil_sublist _
    · rw [isKept]

theorem executed_sublist
    (unmistaken : ∀ turn ∈ repl.turns lines, turn.1.isMistaken turn.2 = false) :
    (repl.executed lines).Sublist (repl.buffer ++ lines) := by
  induction lines generalizing repl with
  | nil => exact List.nil_sublist _
  | cons line rest ih =>
    rw [List.append_cons, executed]
    cases read : (repl.write repl.prompt).feed line with
    | mk _ reply =>
      by_cases isReading : reply = .reading
      · cases isReading
        rw [turns_of_reading read] at unmistaken ⊢
        have later := ih fun turn member => unmistaken turn (List.mem_cons_of_mem _ member)
        have here := executedWith_append_sublist (unmistaken _ List.mem_cons_self) read
        rw [List.flatMap_cons]
        refine ((List.Sublist.refl _).append later).trans ?_
        rw [← List.append_assoc]
        exact here.append (List.Sublist.refl rest)
      · rw [turns_of_not_reading isReading read, List.flatMap_singleton]
        exact (executedWith_sublist).trans (List.sublist_append_left _ rest)

/-! ### What ends a session -/

theorem leaves_of_signals (other : ∀ error, signal ≠ .failure (.error error))
    (signals : (execute (repl.text line)).Signals repl.machine signal) :
    repl.Leaves line signal := by
  cases parsed : Program.parse (repl.text line) with
  | error cause =>
    obtain ⟨_, ended⟩ := signals
    cases (execute_of_error parsed _).symm.trans ended
    cases cause with
    | error error => exact absurd rfl (other error)
    | fault => exact .fault
    | exhausted => exact absurd rfl (Program.parse_ne_exhausted parsed)
  | ok =>
    have jumps (isJump : signal.endsRun = false) (notTame : signal.isTame = false) :
        repl.Leaves line signal := by
      rw [execute_of_ok parsed] at signals
      obtain ⟨_, _, begins, signals⟩ := Program.exists_begins_of_signals signals
      obtain ⟨_, _, _, reaches, raises⟩ := Activity.uncaught_origin signals notTame
      exact .uncaught parsed isJump begins reaches raises
    cases signal with
    | exit => exact .exit
    | breaking | returning => exact jumps rfl rfl
    | failure cause =>
      cases cause with
      | error error => exact absurd rfl (other error)
      | fault => exact .fault
      | exhausted => exact .exhausted parsed

theorem isExit_of_ended (read : repl.feed line = (next, .ended)) : isExit line = true := by
  by_contra notExit
  rcases feed_cases (Bool.eq_false_iff.mpr notExit) with
    ⟨_, _, fed⟩ | ⟨_, _, _, fed⟩ | ⟨_, _, _, _, fed⟩
  · cases fed.symm.trans read
  · rw [fed] at read
    split at read <;> cases read
  · cases fed.symm.trans read

theorem leaves_of_left (read : repl.feed line = (next, .left signal)) :
    isExit line = false ∧ (execute (repl.text line)).Signals repl.machine signal ∧
      repl.Leaves line signal := by
  cases isLast : isExit line with
  | true => cases (feed_of_exit isLast).symm.trans read
  | false =>
    rcases feed_cases isLast with
      ⟨_, _, fed⟩ | ⟨_, _, _, fed⟩ | ⟨_, final, ended, other, fed⟩
    · cases fed.symm.trans read
    · rw [fed] at read
      split at read <;> cases read
    · cases fed.symm.trans read
      exact ⟨rfl, ⟨final, ended⟩, leaves_of_signals other ⟨final, ended⟩⟩

end Repl

/--
Text that is no program changes nothing but the output.  Once a program has been executed, none of
its lines are kept, unless it failed with an error that seems to ask for more lines: then all of
them are, and are executed again with the next line that completes them.  Without such an error, a
session executes each of its lines at most once, in their order.
-/
theorem lines_executed_once (repl : Repl) (lines : List String) :
    (∀ line, repl.completes line = false →
      ∃ output, (repl.feed line).1.machine = { repl.machine with output := output }) ∧
    (∀ line next, repl.completes line = true → repl.feed line = (next, .reading) →
      next.buffer = if repl.isMistaken line then repl.buffer ++ [line] else []) ∧
    ((∀ turn ∈ repl.turns lines, turn.1.isMistaken turn.2 = false) →
      (repl.executed lines).Sublist (repl.buffer ++ lines)) :=
  ⟨fun _ => Repl.machine_of_not_completes, fun _ _ => Repl.buffer_of_completes,
    Repl.executed_sublist⟩

/-- Both lines are programs, and the first one is executed twice: the error names `esperado`. -/
theorem line_executed_twice :
    (Repl.start (.start .empty [] [] [] 0)).executed
      ["print(\"a\") print(esperado)", "let x: int = 1"] =
        ["print(\"a\") print(esperado)", "print(\"a\") print(esperado)", "let x: int = 1"] := by
  let repl := Repl.start (.start .empty [] [] [] 0)
  let shown := repl.write repl.prompt
  obtain ⟨final, ended⟩ : ∃ final, Repl.execute (shown.text "print(\"a\") print(esperado)")
      shown.machine =
        .error (.failure (.error (.runtime (.undefinedVariable "esperado") none))) final :=
    exists_of_failsWith (by decide +kernel)
  have notExit : Repl.isExit "print(\"a\") print(esperado)" = false := by decide +kernel
  have asksForMore : Repl.isIncomplete "Variável 'esperado' não definida" = true := by
    decide +kernel
  have isMessage : (Error.runtime (.undefinedVariable "esperado") none).message =
      "Variável 'esperado' não definida" := by
    decide +kernel
  have read := Repl.feed_of_language_error notExit ended
  rw [isMessage, if_pos asksForMore] at read
  have once (repl : Repl) (line : String) (completes : repl.completes line = true) :
      repl.executedWith line = repl.buffer ++ [line] := if_pos completes
  rw [Repl.executed, Repl.turns_of_reading read, Repl.turns_single, List.flatMap_cons,
    List.flatMap_cons, once _ _ (by decide +kernel), once _ _ ?_]
  · rfl
  · change (!Repl.isExit "let x: int = 1" &&
      (Program.parse "print(\"a\") print(esperado)\nlet x: int = 1").isOk) = true
    decide +kernel

/--
A session reads its lines in order until there are no more, or the line `exit` ends it, or executing
a line gives a signal that is no error of the language: an exit, a fault, exhaustion of the program
that was read, a `break` outside of all loops or a `return` outside of all calls.
-/
theorem session_ends (isInterrupted : Bool) (repl : Repl) (lines : List String) :
    ∃ rest, lines = (repl.turns lines).map Prod.snd ++ rest ∧
      (rest = [] ∧ (repl.run isInterrupted lines).2 = none ∨
        ∃ shown line, (repl.turns lines).getLast? = some (shown, line) ∧
          (Repl.isExit line = true ∧ (repl.run isInterrupted lines).2 = none ∨
            Repl.isExit line = false ∧
            ∃ signal, (repl.run isInterrupted lines).2 = some signal ∧
              (Repl.execute (shown.text line)).Signals shown.machine signal ∧
              shown.Leaves line signal)) := by
  induction lines generalizing repl with
  | nil => exact ⟨[], rfl, .inl ⟨rfl, rfl⟩⟩
  | cons line rest ih =>
    rw [Repl.run]
    cases read : (repl.write repl.prompt).feed line with
    | mk next reply =>
      cases reply with
      | reading =>
        obtain ⟨unread, isSplit, ends⟩ := ih next
        rw [Repl.turns_of_reading read, List.getLast?_cons]
        refine ⟨unread, congrArg (line :: ·) isSplit, ends.imp id ?_⟩
        rintro ⟨shown, last, isLast, ends⟩
        exact ⟨shown, last, by rw [isLast]; rfl, ends⟩
      | ended =>
        rw [Repl.turns_of_not_reading Reply.noConfusion read]
        exact ⟨rest, rfl, .inr ⟨_, _, rfl, .inl ⟨Repl.isExit_of_ended read, rfl⟩⟩⟩
      | left signal =>
        rw [Repl.turns_of_not_reading Reply.noConfusion read]
        obtain ⟨notExit, signals, leaves⟩ := Repl.leaves_of_left read
        exact ⟨rest, rfl, .inr ⟨_, _, rfl, .inr ⟨notExit, signal, rfl, signals, leaves⟩⟩⟩

def Signal.isBreaking : Signal → Bool
  | .breaking => true
  | _ => false

/-- A `break` leaves the loop, and the line after it is not read. -/
theorem break_ends_session :
    ((Repl.start (.start .empty [] [] [] 0)).run false ["break", "print(\"a\")"]).2 =
      some .breaking := by
  have isBroken : (((Repl.start (.start .empty [] [] [] 0)).run false
      ["break", "print(\"a\")"]).2.any Signal.isBreaking) = true := by decide +kernel
  obtain ⟨signal, isLeft, isBreaking⟩ := (Option.any_eq_true _ _).mp isBroken
  rw [isLeft]
  cases signal with
  | breaking => rfl
  | _ => cases isBreaking

end Noxy
