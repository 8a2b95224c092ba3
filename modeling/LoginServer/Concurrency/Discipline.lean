import LoginServer.Concurrency.Machine

namespace LoginServer
namespace Concurrency

/-!
# Disciplines

A discipline attaches a ghost value to each thread.  The value follows from the
thread's own events.  It says which operations the thread may perform next, and
which answers it can count on.  That a program obeys a discipline is a property
of the program alone, proved along its structure: an operation must be
permitted, and the rest must obey for every expected answer.

In return an invariant relates the shared state to the ghost values of all
threads.  If every permitted operation keeps it, and is answered as expected,
it holds in every configuration of every run (`Discipline.sound`).
-/

structure Discipline (I : Interface) where
  Ghost : Type
  start : Ghost
  track : Ghost -> Event I -> Ghost
  permits : Ghost -> I.Op -> Prop
  expects : Ghost -> Event I -> Prop
  /-- What a job must leave behind. -/
  finish : Ghost -> Prop
  finish_start : finish start

namespace Discipline

variable {I : Interface} (D : Discipline I)

/-- The ghost value after a series of events, latest first. -/
def ghost (past : List (Event I)) : D.Ghost :=
  past.foldr (fun event value => D.track value event) D.start

@[simp] theorem ghost_nil : D.ghost [] = D.start := rfl

@[simp] theorem ghost_cons (event : Event I) (past : List (Event I)) :
    D.ghost (event :: past) = D.track (D.ghost past) event := rfl

/-- The program keeps to the discipline from a ghost value on, and every way
through it ends with the postcondition. -/
def Obeys {α : Type} : Program I α -> D.Ghost -> (D.Ghost -> α -> Prop) -> Prop
  | .done value, ghost, post => post ghost value
  | .step op next, ghost, post =>
      D.permits ghost op ∧
        forall answer, D.expects ghost ⟨op, answer⟩ ->
          Obeys (next answer) (D.track ghost ⟨op, answer⟩) post

/-- The program obeys and leaves the ghost value as it was. -/
abbrev Keeps {α : Type} (program : Program I α) (ghost : D.Ghost) : Prop :=
  D.Obeys program ghost fun ghost' _ => ghost' = ghost

variable {D} {α β : Type}

@[simp] theorem obeys_done (value : α) (ghost : D.Ghost) (post : D.Ghost -> α -> Prop) :
    D.Obeys (.done value) ghost post ↔ post ghost value := Iff.rfl

@[simp] theorem obeys_pure (value : α) (ghost : D.Ghost) (post : D.Ghost -> α -> Prop) :
    D.Obeys (pure value) ghost post ↔ post ghost value := Iff.rfl

theorem Obeys.mono {program : Program I α} {ghost : D.Ghost} {strong weak : D.Ghost -> α -> Prop}
    (obeys : D.Obeys program ghost strong)
    (implies : forall ghost value, strong ghost value -> weak ghost value) :
    D.Obeys program ghost weak := by
  induction program generalizing ghost with
  | done value => exact implies ghost value obeys
  | step op next inductionHypothesis =>
      exact ⟨obeys.1, fun answer expected => inductionHypothesis answer (obeys.2 answer expected)⟩

theorem Obeys.returns {program : Program I α} {ghost : D.Ghost} {post : D.Ghost -> α -> Prop}
    {property : α -> Prop} (obeys : D.Obeys program ghost post) (returns : program.Returns property) :
    D.Obeys program ghost fun ghost value => post ghost value ∧ property value := by
  induction program generalizing ghost with
  | done value => exact ⟨obeys, returns⟩
  | step op next inductionHypothesis =>
      exact ⟨obeys.1, fun answer expected =>
        inductionHypothesis answer (obeys.2 answer expected) (returns answer)⟩

/-- Sequencing: the second program obeys from where the first one ends. -/
theorem Obeys.bind {program : Program I α} {ghost : D.Ghost} {middle : D.Ghost -> α -> Prop}
    {continuation : α -> Program I β} {post : D.Ghost -> β -> Prop}
    (obeys : D.Obeys program ghost middle)
    (rest : forall ghost value, middle ghost value -> D.Obeys (continuation value) ghost post) :
    D.Obeys (program >>= continuation) ghost post := by
  induction program generalizing ghost with
  | done value => exact rest ghost value obeys
  | step op next inductionHypothesis =>
      exact ⟨obeys.1, fun answer expected => inductionHypothesis answer (obeys.2 answer expected)⟩

/-- Sequencing after a program whose final ghost value is known. -/
theorem Obeys.bindTo {program : Program I α} {ghost target : D.Ghost}
    {continuation : α -> Program I β} {post : D.Ghost -> β -> Prop}
    (obeys : D.Obeys program ghost fun ghost' _ => ghost' = target)
    (rest : forall value, D.Obeys (continuation value) target post) :
    D.Obeys (program >>= continuation) ghost post := by
  refine obeys.bind ?_
  rintro ghost' value rfl
  exact rest value

/-- A program of operations that are permitted and leave the ghost value alone obeys,
and leaves it alone. -/
theorem keeps_of_uses {neutral : I.Op -> Prop} {program : Program I α} (uses : program.Uses neutral)
    {ghost : D.Ghost} (permitted : forall op, neutral op -> D.permits ghost op)
    (untracked : forall op answer, neutral op -> D.track ghost ⟨op, answer⟩ = ghost) :
    D.Keeps program ghost := by
  induction program with
  | done value => rfl
  | step op next inductionHypothesis =>
      refine ⟨permitted op uses.1, ?_⟩
      intro answer _
      rw [untracked op answer uses.1]
      exact inductionHypothesis answer (uses.2 answer)

/-- The same for operations that are always permitted. -/
theorem obeys_of_uses {neutral : I.Op -> Prop} {program : Program I α} (uses : program.Uses neutral)
    (permitted : forall op ghost, neutral op -> D.permits ghost op)
    (untracked : forall op answer ghost, neutral op -> D.track ghost ⟨op, answer⟩ = ghost)
    (ghost : D.Ghost) : D.Keeps program ghost :=
  keeps_of_uses uses (fun op => permitted op ghost) fun op answer => untracked op answer ghost

/-- A handler whose implementations all keep an assertion keeps it over every
program it interprets. -/
theorem Obeys.interpret {J : Interface} {program : Program J α}
    {handler : (op : J.Op) -> Program I (J.Answer op)} {keeps : D.Ghost -> Prop} {ghost : D.Ghost}
    (handled : forall op ghost, keeps ghost -> D.Obeys (handler op) ghost fun ghost _ => keeps ghost)
    (start : keeps ghost) :
    D.Obeys (program.interpret handler) ghost fun ghost _ => keeps ghost := by
  induction program generalizing ghost with
  | done value => exact start
  | step op next inductionHypothesis =>
      exact (handled op ghost start).bind fun _ answer kept => inductionHypothesis answer kept

/-- A map between ghost values that commutes with their tracks identifies the
values after every series of events. -/
theorem map_ghost {E : Discipline I} (map : E.Ghost -> D.Ghost) (starts : map E.start = D.start)
    (tracks : forall ghost event, map (E.track ghost event) = D.track (map ghost) event)
    (past : List (Event I)) : map (E.ghost past) = D.ghost past := by
  induction past with
  | nil => exact starts
  | cons event past inductionHypothesis =>
      rw [ghost_cons, ghost_cons, tracks, inductionHypothesis]

/-! ## Soundness -/

section Soundness

variable {Thread : Type} [DecidableEq Thread] {M : Machine I Thread}

/-- The ghost values of all threads. -/
def ghosts (D : Discipline I) (c : M.Config) : Thread -> D.Ghost := fun thread =>
  D.ghost (c.past thread)

theorem ghosts_takeUp (c : M.Config) (thread : Thread) (program : Program I Unit) :
    D.ghosts (c.takeUp thread program) = Function.update (D.ghosts c) thread D.start := by
  funext other
  by_cases same : other = thread
  · subst same
    simp [ghosts, Machine.Config.takeUp]
  · simp [ghosts, Machine.Config.takeUp, same]

theorem ghosts_record (c : M.Config) (thread : Thread) (event : Event I) (state : M.State)
    (rest : Program I Unit) :
    D.ghosts (c.record thread event state rest) =
      Function.update (D.ghosts c) thread (D.track (D.ghosts c thread) event) := by
  funext other
  by_cases same : other = thread
  · subst same
    simp [ghosts, Machine.Config.record]
  · simp [ghosts, Machine.Config.record, same]

/-- A relation between the shared state, the ghost values and the events so
far. -/
abbrev Assertion (D : Discipline I) (M : Machine I Thread) :=
  M.State -> (Thread -> D.Ghost) -> List (Thread × Event I) -> Prop

/-- What has to be shown of an assertion for it to hold throughout: it holds at
the start, permitted operations keep it and are answered as expected, and so
do new jobs and the surroundings. -/
structure Preserved (D : Discipline I) (M : Machine I Thread) (rule : Machine.Rule M)
    (assertion : D.Assertion M) : Prop where
  initial : assertion M.initial (fun _ => D.start) []
  act : forall (c : M.Config) thread op next choice answer state, M.Reach rule c ->
    c.running thread = .step op next ->
    assertion c.state (D.ghosts c) c.history -> D.permits (D.ghosts c thread) op ->
    M.perform thread op choice c.state = some (answer, state) -> rule c thread ⟨op, answer⟩ ->
    D.expects (D.ghosts c thread) ⟨op, answer⟩ ∧
      assertion state
        (Function.update (D.ghosts c) thread (D.track (D.ghosts c thread) ⟨op, answer⟩))
        ((thread, ⟨op, answer⟩) :: c.history)
  takeUp : forall state ghosts history thread, assertion state ghosts history ->
    D.finish (ghosts thread) -> assertion state (Function.update ghosts thread D.start) history
  surround : forall state ghosts history change state', assertion state ghosts history ->
    M.surround change state = some state' -> assertion state' ghosts history

/-- Every run of obedient programs keeps the assertion. -/
theorem sound {rule : Machine.Rule M} {assertion : D.Assertion M}
    (preserved : D.Preserved M rule assertion)
    (jobs : forall thread job program, M.program thread job = some program ->
      D.Obeys program D.start fun ghost _ => D.finish ghost)
    {c : M.Config} (reach : M.Reach rule c) :
    assertion c.state (D.ghosts c) c.history ∧
      forall thread, D.Obeys (c.running thread) (D.ghosts c thread) fun ghost _ => D.finish ghost := by
  induction reach with
  | start => exact ⟨preserved.initial, fun _ => D.finish_start⟩
  | @step c c' before step inductionHypothesis =>
      rcases inductionHypothesis with ⟨holds, obedient⟩
      cases step with
      | takeUp thread job program idle chosen =>
          have finished := obedient thread
          rw [idle] at finished
          rw [ghosts_takeUp]
          refine ⟨preserved.takeUp _ _ _ thread holds finished, ?_⟩
          intro other
          by_cases same : other = thread
          · subst same
            simpa [Machine.Config.takeUp] using jobs other job program chosen
          · simpa [Machine.Config.takeUp, same] using obedient other
      | act thread choice op next answer state turn performed lawful =>
          have obeys := obedient thread
          rw [turn] at obeys
          rcases preserved.act c thread op next choice answer state before turn holds obeys.1 performed
            lawful with ⟨expected, kept⟩
          rw [ghosts_record]
          refine ⟨kept, ?_⟩
          intro other
          by_cases same : other = thread
          · subst same
            simpa [Machine.Config.record] using obeys.2 answer expected
          · simpa [Machine.Config.record, same] using obedient other
      | surround change state changed =>
          exact ⟨preserved.surround _ _ _ change state holds changed, obedient⟩

/-- A discipline that counts on no answers can be followed by one thread alone. -/
theorem obeys_running {rule : Machine.Rule M} (uncounted : forall ghost event, D.expects ghost event)
    {thread : Thread} (jobs : forall job program, M.program thread job = some program ->
      D.Obeys program D.start fun _ _ => True) {c : M.Config} (reach : M.Reach rule c) :
    D.Obeys (c.running thread) (D.ghosts c thread) fun _ _ => True := by
  induction reach with
  | start => trivial
  | @step c c' _ step inductionHypothesis =>
      cases step with
      | takeUp actor job program idle chosen =>
          rw [ghosts_takeUp]
          by_cases same : thread = actor
          · subst same
            simpa [Machine.Config.takeUp] using jobs job program chosen
          · simpa [Machine.Config.takeUp, same] using inductionHypothesis
      | act actor choice op next answer state turn performed lawful =>
          rw [ghosts_record]
          by_cases same : thread = actor
          · subst same
            rw [turn] at inductionHypothesis
            simpa [Machine.Config.record] using inductionHypothesis.2 answer (uncounted _ _)
          · simpa [Machine.Config.record, same] using inductionHypothesis
      | surround change state changed => exact inductionHypothesis

end Soundness

end Discipline
end Concurrency
end LoginServer
