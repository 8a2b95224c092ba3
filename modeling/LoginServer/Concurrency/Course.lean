import LoginServer.Concurrency.Machine

namespace LoginServer
namespace Concurrency

/-!
# Courses

The history of a configuration records what the threads have done, but not what
has happened around them.  The course of a run records both, latest first.
-/

namespace Machine

variable {I : Interface} {Thread : Type} [DecidableEq Thread]

/-- A thread's event, or a change of the surroundings. -/
inductive Occurrence (M : Machine I Thread) where
  | event (thread : Thread) (event : Event I)
  | change (change : M.Surroundings)

/-- The occurrences that lead to a configuration. -/
inductive Course (M : Machine I Thread) (rule : Rule M) : List (Occurrence M) -> M.Config -> Prop
  | start : Course M rule [] M.start
  | takeUp {course : List (Occurrence M)} {c : M.Config} (before : Course M rule course c) (thread : Thread)
      (job : M.Job) (program : Program I Unit) (idle : c.running thread = .done ())
      (chosen : M.program thread job = some program) : Course M rule course (c.takeUp thread program)
  | act {course : List (Occurrence M)} {c : M.Config} (before : Course M rule course c) (thread : Thread)
      (choice : M.Choice) (op : I.Op) (next : I.Answer op -> Program I Unit) (answer : I.Answer op) (state : M.State)
      (turn : c.running thread = .step op next) (performed : M.perform thread op choice c.state = some (answer, state))
      (lawful : rule c thread ⟨op, answer⟩) :
      Course M rule (.event thread ⟨op, answer⟩ :: course) (c.record thread ⟨op, answer⟩ state (next answer))
  | surround {course : List (Occurrence M)} {c : M.Config} (before : Course M rule course c)
      (change : M.Surroundings) (state : M.State) (changed : M.surround change c.state = some state) :
      Course M rule (.change change :: course) { c with state := state }

variable {M : Machine I Thread} {rule : Rule M}

theorem Course.reach {course : List (Occurrence M)} {c : M.Config} (taken : Course M rule course c) :
    Reach M rule c := by
  induction taken with
  | start => exact .start
  | takeUp _ thread job program idle chosen inductionHypothesis =>
      exact inductionHypothesis.step (.takeUp thread job program idle chosen)
  | act _ thread choice op next answer state turn performed lawful inductionHypothesis =>
      exact inductionHypothesis.step (.act thread choice op next answer state turn performed lawful)
  | surround _ change state changed inductionHypothesis =>
      exact inductionHypothesis.step (.surround change state changed)

/-! ## Schedules -/

section Schedules

variable (rule) [forall c thread event, Decidable (rule c thread event)]

/-- What a scheduling decision adds to a course. -/
def occurred (c' : M.Config) : Move M -> List (Occurrence M)
  | .takeUp _ _ => []
  | .act _ _ => (c'.history.take 1).map fun entry => .event entry.1 entry.2
  | .surround change => [.change change]

/-- Carry out a schedule, and record its course. -/
def recordSchedule : List (Move M) -> List (Occurrence M) -> M.Config -> Option (List (Occurrence M) × M.Config)
  | [], course, c => some (course, c)
  | move :: rest, course, c =>
      (advance rule c move).bind fun c' => recordSchedule rest (occurred c' move ++ course) c'

variable {rule}

theorem advance_course {course : List (Occurrence M)} {c c' : M.Config} {move : Move M}
    (taken : Course M rule course c) (advanced : advance rule c move = some c') :
    Course M rule (occurred c' move ++ course) c' := by
  cases move with
  | takeUp thread job =>
      dsimp only [advance] at advanced
      split at advanced
      next idle chosen =>
        cases advanced
        exact taken.takeUp thread job _ idle chosen
      next => cases advanced
  | act thread choice =>
      dsimp only [advance] at advanced
      split at advanced
      next => cases advanced
      next op next turn =>
        split at advanced
        next => cases advanced
        next answer state performed =>
          split at advanced
          next lawful =>
            cases advanced
            exact taken.act thread choice op next answer state turn performed lawful
          next => cases advanced
  | surround change =>
      rcases Option.map_eq_some_iff.mp advanced with ⟨state, changed, rfl⟩
      exact taken.surround change state changed

theorem course_of_recordSchedule (moves : List (Move M)) (course course' : List (Occurrence M)) (c c' : M.Config)
    (taken : Course M rule course c) (run : recordSchedule rule moves course c = some (course', c')) :
    Course M rule course' c' := by
  induction moves generalizing course c with
  | nil =>
      cases run
      exact taken
  | cons move rest inductionHypothesis =>
      rcases Option.bind_eq_some_iff.mp run with ⟨middle, advanced, later⟩
      exact inductionHypothesis _ middle (advance_course taken advanced) later

/-- What a check finds of the course of a schedule is so of some course. -/
theorem exists_of_recordSchedule (moves : List (Move M)) (check : List (Occurrence M) -> M.Config -> Bool)
    (found : (recordSchedule rule moves [] M.start).any (fun recorded => check recorded.1 recorded.2) = true) :
    Exists fun course => Exists fun c => Course M rule course c ∧ check course c = true := by
  rcases Option.any_eq_true _ _ |>.mp found with ⟨⟨course, c⟩, run, checked⟩
  exact ⟨course, c, course_of_recordSchedule moves [] course _ c .start run, checked⟩

end Schedules

end Machine
end Concurrency
end LoginServer
