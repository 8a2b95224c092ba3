import LoginServer.Concurrency.Discipline

namespace LoginServer
namespace Concurrency

/-!
# Disciplines compared

Two disciplines follow the same events.  What relates their values at the start,
and is kept by every operation that the first one permits, relates them in every
run (`Discipline.related`).

A program over the operations of a handler may obey a discipline of its own.
Where the handler keeps a relation between the two disciplines, the interpreted
program obeys the one below (`Discipline.Obeys.interpretBelow`).
-/

namespace Discipline

section Runs

variable {I : Interface} {Thread : Type} [DecidableEq Thread] {M : Machine I Thread} {rule : Machine.Rule M}
  {D E : Discipline I}

theorem related {relation : D.Ghost -> E.Ghost -> Prop} (starts : relation D.start E.start)
    (permitted : forall (c : M.Config) thread op next, M.Reach rule c -> c.running thread = .step op next ->
      D.permits (D.ghosts c thread) op)
    (kept : forall ghost ghost' op answer, relation ghost ghost' -> D.permits ghost op ->
      relation (D.track ghost ⟨op, answer⟩) (E.track ghost' ⟨op, answer⟩))
    {c : M.Config} (reach : M.Reach rule c) (thread : Thread) : relation (D.ghosts c thread) (E.ghosts c thread) := by
  induction reach with
  | start => exact starts
  | @step c c' before step inductionHypothesis =>
      cases step with
      | takeUp actor job program idle chosen =>
          rw [ghosts_takeUp, ghosts_takeUp]
          by_cases same : thread = actor
          · rw [same, Function.update_self, Function.update_self]
            exact starts
          · rw [Function.update_of_ne same, Function.update_of_ne same]
            exact inductionHypothesis
      | act actor choice op next answer state turn performed lawful =>
          rw [ghosts_record, ghosts_record]
          by_cases same : thread = actor
          · subst same
            rw [Function.update_self, Function.update_self]
            exact kept _ _ op answer inductionHypothesis (permitted c thread op next before turn)
          · rw [Function.update_of_ne same, Function.update_of_ne same]
            exact inductionHypothesis
      | surround change state changed => exact inductionHypothesis

end Runs

section Handlers

variable {I J : Interface} {D : Discipline I} {E : Discipline J} {α : Type}

theorem Obeys.interpretBelow {program : Program J α} {above : E.Ghost} {below : D.Ghost} {post : E.Ghost -> α -> Prop}
    (obeys : E.Obeys program above post) (relation : E.Ghost -> D.Ghost -> Prop)
    (handler : (op : J.Op) -> Program I (J.Answer op))
    (handled : forall above below op, relation above below -> E.permits above op ->
      D.Obeys (handler op) below fun below' answer =>
        E.expects above ⟨op, answer⟩ ∧ relation (E.track above ⟨op, answer⟩) below')
    (start : relation above below) :
    D.Obeys (program.interpret handler) below fun below' value =>
      Exists fun above' => relation above' below' ∧ post above' value := by
  induction program generalizing above below with
  | done value => exact ⟨above, start, obeys⟩
  | step op next inductionHypothesis =>
      refine (handled above below op start obeys.1).bind ?_
      rintro below' answer ⟨expected, still⟩
      exact inductionHypothesis answer (obeys.2 answer expected) still

end Handlers

end Discipline
end Concurrency
end LoginServer
