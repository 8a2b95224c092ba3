import Mathlib.Logic.Function.Basic
import Mathlib.Logic.Relation
import LoginServer.Concurrency.Program

namespace LoginServer
namespace Concurrency

/-!
# Machines

Threads run programs against one shared state.  A thread whose program is done
may take up its next job; otherwise it performs the first operation of its
program, in one atomic step.  Between the steps of the threads the surroundings
may change the state as well.

A configuration remembers the events of each thread since it took up its job,
and those of all threads together, latest first.  They do not influence the
run.  Ghost values, control positions and properties of whole runs are read
from them.
-/

structure Machine (I : Interface) (Thread : Type) where
  State : Type
  initial : State
  /-- What decides between several outcomes of an operation. -/
  Choice : Type
  /-- One atomic operation; `none` when it cannot happen in this state. -/
  perform : Thread -> (op : I.Op) -> Choice -> State -> Option (I.Answer op × State)
  Surroundings : Type
  surround : Surroundings -> State -> Option State
  Job : Type
  /-- The program of a job, for the threads that can take it up. -/
  program : Thread -> Job -> Option (Program I Unit)

namespace Machine

variable {I : Interface} {Thread : Type} (M : Machine I Thread)

structure Config where
  state : M.State
  running : Thread -> Program I Unit
  past : Thread -> List (Event I)
  history : List (Thread × Event I)

def start : M.Config where
  state := M.initial
  running := fun _ => .done ()
  past := fun _ => []
  history := []

variable {M}
variable [DecidableEq Thread]

namespace Config

/-- Take up a job. -/
def takeUp (c : M.Config) (thread : Thread) (program : Program I Unit) : M.Config :=
  { c with
    running := Function.update c.running thread program
    past := Function.update c.past thread [] }

/-- Record an event and go on with the rest of the program. -/
def record (c : M.Config) (thread : Thread) (event : Event I) (state : M.State)
    (rest : Program I Unit) : M.Config where
  state := state
  running := Function.update c.running thread rest
  past := Function.update c.past thread (event :: c.past thread)
  history := (thread, event) :: c.history

end Config

/-- A restriction on the events of a run. -/
abbrev Rule (M : Machine I Thread) := M.Config -> Thread -> Event I -> Prop

/-- No restriction. -/
def anyEvent (M : Machine I Thread) : Rule M := fun _ _ _ => True

instance : forall (c : M.Config) thread event, Decidable (anyEvent M c thread event) :=
  fun _ _ _ => inferInstanceAs (Decidable True)

inductive Step (rule : Rule M) : M.Config -> M.Config -> Prop
  | takeUp {c : M.Config} (thread : Thread) (job : M.Job) (program : Program I Unit)
      (idle : c.running thread = .done ()) (chosen : M.program thread job = some program) :
      Step rule c (c.takeUp thread program)
  | act {c : M.Config} (thread : Thread) (choice : M.Choice) (op : I.Op)
      (next : I.Answer op -> Program I Unit) (answer : I.Answer op) (state : M.State)
      (turn : c.running thread = .step op next)
      (performed : M.perform thread op choice c.state = some (answer, state))
      (lawful : rule c thread ⟨op, answer⟩) :
      Step rule c (c.record thread ⟨op, answer⟩ state (next answer))
  | surround {c : M.Config} (change : M.Surroundings) (state : M.State)
      (changed : M.surround change c.state = some state) : Step rule c { c with state := state }

/-- The configurations of runs whose events all obey a rule. -/
inductive Reach (M : Machine I Thread) (rule : Rule M) : M.Config -> Prop
  | start : Reach M rule M.start
  | step {c c' : M.Config} (before : Reach M rule c) (step : Step rule c c') : Reach M rule c'

theorem Reach.mono {weak strong : Rule M} {c : M.Config} (reach : Reach M strong c)
    (implies : forall c thread event, strong c thread event -> weak c thread event) :
    Reach M weak c := by
  induction reach with
  | start => exact .start
  | step _ step inductionHypothesis =>
      refine inductionHypothesis.step ?_
      cases step with
      | takeUp thread job program idle chosen => exact .takeUp thread job program idle chosen
      | act thread choice op next answer state turn performed lawful =>
          exact .act thread choice op next answer state turn performed (implies _ _ _ lawful)
      | surround change state changed => exact .surround change state changed

/-- Runs from one configuration to another. -/
abbrev Run (rule : Rule M) : M.Config -> M.Config -> Prop := Relation.ReflTransGen (Step rule)

theorem Reach.run {rule : Rule M} {c c' : M.Config} (reach : Reach M rule c) (run : Run rule c c') :
    Reach M rule c' := by
  induction run with
  | refl => exact reach
  | tail _ step inductionHypothesis => exact inductionHypothesis.step step

/-- Each thread performs only operations that the programs of its jobs use. -/
theorem Reach.running_uses {rule : Rule M} {allowed : Thread -> I.Op -> Prop} {c : M.Config}
    (reach : Reach M rule c)
    (jobs : forall thread job program, M.program thread job = some program ->
      program.Uses (allowed thread)) (thread : Thread) :
    (c.running thread).Uses (allowed thread) := by
  induction reach with
  | start => trivial
  | @step c c' _ step inductionHypothesis =>
      cases step with
      | takeUp actor job program idle chosen =>
          by_cases same : thread = actor
          · subst same
            simpa [Config.takeUp] using jobs thread job program chosen
          · simpa [Config.takeUp, same] using inductionHypothesis
      | act actor choice op next answer state turn performed lawful =>
          by_cases same : thread = actor
          · subst same
            rw [turn] at inductionHypothesis
            simpa [Config.record] using inductionHypothesis.2 answer
          · simpa [Config.record, same] using inductionHypothesis
      | surround change state changed => exact inductionHypothesis

/-! ## A thread left alone -/

section Alone

variable (M) (thread : Thread) (choice : M.Choice)

/-- The program runs to its end when no other thread interferes, and ends with
the postcondition of its value, the state and its events in order. -/
def Alone {α : Type} : Program I α -> M.State -> (α -> M.State -> List (Event I) -> Prop) -> Prop
  | .done value, state, post => post value state []
  | .step op next, state, post =>
      Exists fun result => M.perform thread op choice state = some result ∧
        Alone (next result.1) result.2 fun value state events =>
          post value state (⟨op, result.1⟩ :: events)

variable {M thread choice} {α β : Type}

omit [DecidableEq Thread] in
/-- The first operation, when it can happen, is answered in one way only. -/
theorem alone_step {op : I.Op} {next : I.Answer op -> Program I α} {state : M.State}
    {result : I.Answer op × M.State} {post : α -> M.State -> List (Event I) -> Prop}
    (performed : M.perform thread op choice state = some result) :
    Alone M thread choice (.step op next) state post ↔
      Alone M thread choice (next result.1) result.2 fun value state events =>
        post value state (⟨op, result.1⟩ :: events) := by
  constructor
  · rintro ⟨other, again, rest⟩
    cases Option.some.inj (performed.symm.trans again)
    exact rest
  · intro rest
    exact ⟨result, performed, rest⟩

omit [DecidableEq Thread] in
theorem Alone.mono {program : Program I α} {state : M.State}
    {strong weak : α -> M.State -> List (Event I) -> Prop}
    (alone : Alone M thread choice program state strong)
    (implies : forall value state events, strong value state events -> weak value state events) :
    Alone M thread choice program state weak := by
  induction program generalizing state strong weak with
  | done value => exact implies value state [] alone
  | step op next inductionHypothesis =>
      rcases alone with ⟨result, performed, rest⟩
      exact ⟨result, performed, inductionHypothesis result.1 rest fun value state events =>
        implies value state (⟨op, result.1⟩ :: events)⟩

omit [DecidableEq Thread] in
theorem Alone.bind {program : Program I α} {continuation : α -> Program I β} {state : M.State}
    {post : β -> M.State -> List (Event I) -> Prop}
    (alone : Alone M thread choice program state fun value state events =>
      Alone M thread choice (continuation value) state fun result state later =>
        post result state (events ++ later)) :
    Alone M thread choice (program >>= continuation) state post := by
  induction program generalizing state post with
  | done value => exact alone
  | step op next inductionHypothesis =>
      rcases alone with ⟨result, performed, rest⟩
      exact ⟨result, performed, inductionHypothesis result.1 rest⟩

omit [DecidableEq Thread] in
theorem Alone.of_bind {program : Program I α} {continuation : α -> Program I β} {state : M.State}
    {post : β -> M.State -> List (Event I) -> Prop}
    (alone : Alone M thread choice (program >>= continuation) state post) :
    Alone M thread choice program state fun value state events =>
      Alone M thread choice (continuation value) state fun result state later =>
        post result state (events ++ later) := by
  induction program generalizing state post with
  | done value => exact alone
  | step op next inductionHypothesis =>
      rcases alone with ⟨result, performed, rest⟩
      exact ⟨result, performed, inductionHypothesis result.1 rest⟩

variable (M thread choice) in
/-- Run a program alone, if it can run to its end. -/
def evaluate : Program I α -> M.State -> Option (α × M.State)
  | .done value, state => some (value, state)
  | .step op next, state =>
      match M.perform thread op choice state with
      | none => none
      | some result => evaluate (next result.1) result.2

omit [DecidableEq Thread] in
theorem alone_of_evaluate {program : Program I α} {state : M.State} {post : α -> M.State -> Prop}
    (value : α) (state' : M.State)
    (evaluated : evaluate M thread choice program state = some (value, state')) (holds : post value state') :
    Alone M thread choice program state fun value state _ => post value state := by
  induction program generalizing state with
  | done value =>
      cases evaluated
      exact holds
  | step op next inductionHypothesis =>
      unfold evaluate at evaluated
      split at evaluated
      next => cases evaluated
      next result performed => exact ⟨result, performed, inductionHypothesis result.1 evaluated⟩

omit [DecidableEq Thread] in
/-- What is shown of a program run alone holds of the run. -/
theorem Alone.evaluated {program : Program I α} {state : M.State}
    {post : α -> M.State -> List (Event I) -> Prop} (alone : Alone M thread choice program state post)
    (value : α) (state' : M.State)
    (evaluated : evaluate M thread choice program state = some (value, state')) :
    Exists fun events => post value state' events := by
  induction program generalizing state post with
  | done value =>
      cases evaluated
      exact ⟨[], alone⟩
  | step op next inductionHypothesis =>
      rcases alone with ⟨result, performed, rest⟩
      rw [evaluate, performed] at evaluated
      rcases inductionHypothesis result.1 rest evaluated with ⟨events, holds⟩
      exact ⟨_, holds⟩

omit [DecidableEq Thread] in
/-- The events of a program run alone are an execution of it. -/
theorem Alone.runs {program : Program I α} {state : M.State}
    {post : α -> M.State -> List (Event I) -> Prop} (alone : Alone M thread choice program state post) :
    Alone M thread choice program state fun value state events =>
      program.Runs events value ∧ post value state events := by
  induction program generalizing state post with
  | done value => exact ⟨.done value, alone⟩
  | step op next inductionHypothesis =>
      rcases alone with ⟨result, performed, rest⟩
      refine ⟨result, performed, (inductionHypothesis result.1 rest).mono ?_⟩
      rintro value state events ⟨run, holds⟩
      exact ⟨.step result.1 run, holds⟩

omit [DecidableEq Thread] in
/-- What a program run alone returns. -/
theorem Alone.returned {program : Program I α} {state : M.State} {property : α -> Prop}
    {post : α -> M.State -> List (Event I) -> Prop} (alone : Alone M thread choice program state post)
    (returns : program.Returns property) :
    Exists fun value => Exists fun state' => Exists fun events =>
      property value ∧ post value state' events := by
  induction program generalizing state post with
  | done value => exact ⟨value, state, [], returns, alone⟩
  | step op next inductionHypothesis =>
      rcases alone with ⟨result, performed, rest⟩
      rcases inductionHypothesis result.1 rest (returns result.1) with ⟨value, state', events, holds⟩
      exact ⟨value, state', _, holds⟩

/-- A run can always be continued by one thread alone. -/
theorem reach_alone {c : M.Config} {post : Unit -> M.State -> List (Event I) -> Prop}
    (reach : Reach M (anyEvent M) c)
    (alone : Alone M thread choice (c.running thread) c.state post) :
    Exists fun c' => Reach M (anyEvent M) c' ∧ c'.running thread = .done () ∧
      (forall other, other ≠ thread -> c'.running other = c.running other) ∧
      Exists fun events => post () c'.state events ∧
        c'.history = (events.map fun event => (thread, event)).reverse ++ c.history := by
  generalize turn : c.running thread = program at alone
  induction program generalizing c post with
  | done value => exact ⟨c, reach, turn, fun _ _ => rfl, [], alone, rfl⟩
  | step op next inductionHypothesis =>
      rcases alone with ⟨result, performed, rest⟩
      have step : Step (anyEvent M) c _ :=
        .act thread choice op next result.1 result.2 turn performed trivial
      rcases inductionHypothesis result.1 (reach.step step) (by simp [Config.record]) rest with
        ⟨c', reach', finished, others, events, holds, history⟩
      refine ⟨c', reach', finished, ?_, ⟨op, result.1⟩ :: events, holds, ?_⟩
      · intro other different
        rw [others other different]
        simp [Config.record, different]
      · rw [history]
        simp [Config.record]

end Alone

/-! ## Schedules -/

/-- A scheduling decision. -/
inductive Move (M : Machine I Thread) where
  | takeUp (thread : Thread) (job : M.Job)
  | act (thread : Thread) (choice : M.Choice)
  | surround (change : M.Surroundings)

section Schedules

variable (rule : Rule M) [forall c thread event, Decidable (rule c thread event)]

/-- Carry out a decision, if it is possible and its event obeys the rule. -/
def advance (c : M.Config) : Move M -> Option M.Config
  | .takeUp thread job =>
      match c.running thread, M.program thread job with
      | .done _, some program => some (c.takeUp thread program)
      | _, _ => none
  | .act thread choice =>
      match c.running thread with
      | .done _ => none
      | .step op next =>
          match M.perform thread op choice c.state with
          | none => none
          | some (answer, state) =>
              if rule c thread ⟨op, answer⟩ then
                some (c.record thread ⟨op, answer⟩ state (next answer))
              else none
  | .surround change => (M.surround change c.state).map fun state => { c with state := state }

/-- Carry out a schedule. -/
def runSchedule : List (Move M) -> M.Config -> Option M.Config
  | [], c => some c
  | move :: rest, c => (advance rule c move).bind (runSchedule rest)

variable {rule}

theorem advance_step (c c' : M.Config) (move : Move M) (advanced : advance rule c move = some c') :
    Step rule c c' := by
  cases move with
  | takeUp thread job =>
      dsimp only [advance] at advanced
      split at advanced
      next idle chosen =>
        cases advanced
        exact .takeUp thread job _ idle chosen
      next => cases advanced
  | act thread choice =>
      dsimp only [advance] at advanced
      split at advanced
      next => cases advanced
      next op next turn =>
        split at advanced
        next => cases advanced
        next answer state performed =>
          split at advanced
          next lawful =>
            cases advanced
            exact .act thread choice op next answer state turn performed lawful
          next => cases advanced
  | surround change =>
      rcases Option.map_eq_some_iff.mp advanced with ⟨state, changed, rfl⟩
      exact .surround change state changed

theorem reach_of_runSchedule (moves : List (Move M)) (c c' : M.Config) (reach : Reach M rule c)
    (run : runSchedule rule moves c = some c') : Reach M rule c' := by
  induction moves generalizing c with
  | nil =>
      cases run
      exact reach
  | cons move rest inductionHypothesis =>
      rcases Option.bind_eq_some_iff.mp run with ⟨middle, advanced, later⟩
      exact inductionHypothesis middle (reach.step (advance_step c middle move advanced)) later

/-- What a check finds at the end of a schedule is so in some configuration of
a run. -/
theorem exists_of_runSchedule (moves : List (Move M)) (check : M.Config -> Bool)
    (found : (runSchedule rule moves M.start).any check = true) :
    Exists fun c => Reach M rule c ∧ check c = true := by
  rcases Option.any_eq_true _ _ |>.mp found with ⟨c, run, checked⟩
  exact ⟨c, reach_of_runSchedule moves _ c .start run, checked⟩

end Schedules

end Machine
end Concurrency
end LoginServer
