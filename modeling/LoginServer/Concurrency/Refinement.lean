import LoginServer.Concurrency.Discipline

namespace LoginServer
namespace Concurrency

/-!
# Refinement

One machine may do in many steps what another one does in a single operation.  A
view names the step at which the operation takes place, by the ghost value of the
thread and the event.  The other steps show nothing.

That a program does the work of another one is a property of the two programs
(`View.Follows`).  That each operation is possible when it takes place, and is
answered as the thread goes on to act, is shown of the states (`View.Simulates`).
Then every run of the one machine shows a run of the other (`View.sound`).
-/

structure View {I : Interface} (D : Discipline I) (J : Interface) where
  /-- The operation that takes place in an event. -/
  shows : D.Ghost -> Event I -> Option J.Op
  /-- Whether its answer is the one that the thread has acted on. -/
  agrees : Event I -> Event J -> Prop

namespace View

variable {I J : Interface} {D : Discipline I} (view : View D J)

/-- The operations that the first program shows are the next ones of the second,
which has come to a rest that the postcondition describes. -/
def Follows {α β : Type} : Program I α -> D.Ghost -> Program J β ->
    (D.Ghost -> α -> Program J β -> Prop) -> Prop
  | .done value, ghost, above, post => post ghost value above
  | .step op next, ghost, above, post => forall answer,
      (view.shows ghost ⟨op, answer⟩ = none ->
        Follows (next answer) (D.track ghost ⟨op, answer⟩) above post) ∧
      forall op', view.shows ghost ⟨op, answer⟩ = some op' ->
        Exists fun next' => above = .step op' next' ∧ forall answer',
          view.agrees ⟨op, answer⟩ ⟨op', answer'⟩ ->
            Follows (next answer) (D.track ghost ⟨op, answer⟩) (next' answer') post

variable {view} {α β γ : Type}

theorem Follows.mono {program : Program I α} {ghost : D.Ghost} {above : Program J β}
    {strong weak : D.Ghost -> α -> Program J β -> Prop} (follows : view.Follows program ghost above strong)
    (implies : forall ghost value rest, strong ghost value rest -> weak ghost value rest) :
    view.Follows program ghost above weak := by
  induction program generalizing ghost above with
  | done value => exact implies ghost value above follows
  | step op next inductionHypothesis =>
      intro answer
      rcases follows answer with ⟨quiet, shown⟩
      refine ⟨fun nothing => inductionHypothesis answer (quiet nothing), ?_⟩
      intro op' takes
      rcases shown op' takes with ⟨next', same, rest⟩
      exact ⟨next', same, fun answer' agrees => inductionHypothesis answer (rest answer' agrees)⟩

theorem Follows.bind {program : Program I α} {continuation : α -> Program I γ} {ghost : D.Ghost}
    {above : Program J β} {middle : D.Ghost -> α -> Program J β -> Prop}
    {post : D.Ghost -> γ -> Program J β -> Prop} (follows : view.Follows program ghost above middle)
    (goesOn : forall ghost value rest, middle ghost value rest ->
      view.Follows (continuation value) ghost rest post) :
    view.Follows (program >>= continuation) ghost above post := by
  induction program generalizing ghost above with
  | done value => exact goesOn ghost value above follows
  | step op next inductionHypothesis =>
      intro answer
      rcases follows answer with ⟨quiet, shown⟩
      refine ⟨fun nothing => inductionHypothesis answer (quiet nothing), ?_⟩
      intro op' takes
      rcases shown op' takes with ⟨next', same, rest⟩
      exact ⟨next', same, fun answer' agrees => inductionHypothesis answer (rest answer' agrees)⟩

section Steps

variable {op : I.Op} {next : I.Answer op -> Program I α} {ghost : D.Ghost}
  {post : D.Ghost -> α -> Program J β -> Prop}

/-- A step that shows nothing, whatever its answer. -/
theorem Follows.quiet {above : Program J β} (quiet : forall answer, view.shows ghost ⟨op, answer⟩ = none)
    (rest : forall answer, view.Follows (next answer) (D.track ghost ⟨op, answer⟩) above post) :
    view.Follows (.step op next) ghost above post := by
  refine fun answer => ⟨fun _ => rest answer, fun op' takes => ?_⟩
  cases (quiet answer).symm.trans takes

/-- A step in which the operation takes place, whatever its answer. -/
theorem Follows.shown {op' : J.Op} {next' : J.Answer op' -> Program J β}
    (shown : forall answer, view.shows ghost ⟨op, answer⟩ = some op')
    (rest : forall answer answer', view.agrees ⟨op, answer⟩ ⟨op', answer'⟩ ->
      view.Follows (next answer) (D.track ghost ⟨op, answer⟩) (next' answer') post) :
    view.Follows (.step op next) ghost (.step op' next') post := by
  intro answer
  refine ⟨fun nothing => ?_, fun other takes => ?_⟩
  · cases (shown answer).symm.trans nothing
  · cases (shown answer).symm.trans takes
    exact ⟨next', rfl, rest answer⟩

end Steps

/-! ## Runs -/

section Runs

variable {Thread : Type} [DecidableEq Thread]

/-- A relation between the states of two machines, with the ghost values and the
events of the first and the events of the second. -/
abbrev Relation (_view : View D J) (M : Machine I Thread) (N : Machine J Thread) :=
  M.State -> (Thread -> D.Ghost) -> List (Thread × Event I) -> N.State -> List (Thread × Event J) -> Prop

/-- What has to be shown of a relation for it to hold throughout: it holds at the
start, steps that show nothing keep it, and so do new jobs and the surroundings.
The operation that a step shows is possible in every related state, and the states
after it are related again. -/
structure Simulates (view : View D J) (M : Machine I Thread) (N : Machine J Thread)
    (rule : Machine.Rule M) (relation : view.Relation M N) : Prop where
  initial : relation M.initial (fun _ => D.start) [] N.initial []
  quiet : forall (c : M.Config) thread op next choice answer state above events, M.Reach rule c ->
    c.running thread = .step op next -> relation c.state (D.ghosts c) c.history above events ->
    D.permits (D.ghosts c thread) op -> M.perform thread op choice c.state = some (answer, state) ->
    rule c thread ⟨op, answer⟩ -> view.shows (D.ghosts c thread) ⟨op, answer⟩ = none ->
    relation state (Function.update (D.ghosts c) thread (D.track (D.ghosts c thread) ⟨op, answer⟩))
      ((thread, ⟨op, answer⟩) :: c.history) above events
  shown : forall (c : M.Config) thread op next choice answer state above events op', M.Reach rule c ->
    c.running thread = .step op next -> relation c.state (D.ghosts c) c.history above events ->
    D.permits (D.ghosts c thread) op -> M.perform thread op choice c.state = some (answer, state) ->
    rule c thread ⟨op, answer⟩ -> view.shows (D.ghosts c thread) ⟨op, answer⟩ = some op' ->
    Exists fun choice' => Exists fun answer' => Exists fun above' =>
      N.perform thread op' choice' above = some (answer', above') ∧
        view.agrees ⟨op, answer⟩ ⟨op', answer'⟩ ∧
        relation state (Function.update (D.ghosts c) thread (D.track (D.ghosts c thread) ⟨op, answer⟩))
          ((thread, ⟨op, answer⟩) :: c.history) above' ((thread, ⟨op', answer'⟩) :: events)
  takeUp : forall state ghosts history above events thread, relation state ghosts history above events ->
    D.finish (ghosts thread) ->
      relation state (Function.update ghosts thread D.start) history above events
  surround : forall state ghosts history above events change state',
    relation state ghosts history above events -> M.surround change state = some state' ->
      relation state' ghosts history above events

/-- Every run shows a run of the other machine: with its jobs, in which each thread is
as far as the work it has done. -/
theorem sound {M : Machine I Thread} {N : Machine J Thread} {rule : Machine.Rule M}
    {relation : view.Relation M N} (simulates : view.Simulates M N rule relation)
    (obedient : forall c : M.Config, M.Reach rule c -> forall thread,
      D.Obeys (c.running thread) (D.ghosts c thread) fun ghost _ => D.finish ghost)
    (jobs : forall thread job program, M.program thread job = some program ->
      Exists fun job' => Exists fun program' => N.program thread job' = some program' ∧
        view.Follows program D.start program' fun _ _ rest => rest = .done ())
    {c : M.Config} (reach : M.Reach rule c) :
    Exists fun d : N.Config => N.Reach (Machine.anyEvent N) d ∧
      relation c.state (D.ghosts c) c.history d.state d.history ∧
      forall thread, view.Follows (c.running thread) (D.ghosts c thread) (d.running thread)
        fun _ _ rest => rest = .done () := by
  induction reach with
  | start => exact ⟨N.start, .start, simulates.initial, fun _ => rfl⟩
  | @step c c' before step inductionHypothesis =>
      rcases inductionHypothesis with ⟨d, reach, related, follows⟩
      cases step with
      | takeUp thread job program idle chosen =>
          rcases jobs thread job program chosen with ⟨job', program', chosen', work⟩
          have finished := obedient c before thread
          rw [idle] at finished
          have own := follows thread
          rw [idle] at own
          refine ⟨d.takeUp thread program', reach.step (.takeUp thread job' program' own chosen'), ?_, ?_⟩
          · rw [Discipline.ghosts_takeUp]
            exact simulates.takeUp _ _ _ _ _ thread related finished
          · rw [Discipline.ghosts_takeUp]
            intro other
            by_cases same : other = thread
            · subst same
              simpa [Machine.Config.takeUp] using work
            · simpa [Machine.Config.takeUp, same] using follows other
      | act thread choice op next answer state turn performed lawful =>
          have permitted := obedient c before thread
          rw [turn] at permitted
          have own := follows thread
          rw [turn] at own
          rcases own answer with ⟨quiet, shown⟩
          rw [Discipline.ghosts_record]
          cases takes : view.shows (D.ghosts c thread) ⟨op, answer⟩ with
          | none =>
              refine ⟨d, reach, ?_, ?_⟩
              · exact simulates.quiet c thread op next choice answer state _ _ before turn related
                  permitted.1 performed lawful takes
              · intro other
                by_cases same : other = thread
                · subst same
                  simpa [Machine.Config.record] using quiet takes
                · simpa [Machine.Config.record, same] using follows other
          | some op' =>
              rcases shown op' takes with ⟨next', turn', rest⟩
              rcases simulates.shown c thread op next choice answer state _ _ op' before turn related
                permitted.1 performed lawful takes with ⟨choice', answer', above', performed', agrees, after⟩
              refine ⟨d.record thread ⟨op', answer'⟩ above' (next' answer'),
                reach.step (.act thread choice' op' next' answer' above' turn' performed' trivial), after, ?_⟩
              intro other
              by_cases same : other = thread
              · subst same
                simpa [Machine.Config.record] using rest answer' agrees
              · simpa [Machine.Config.record, same] using follows other
      | surround change state changed =>
          exact ⟨d, reach, simulates.surround _ _ _ _ _ change state related changed, follows⟩

end Runs

end View
end Concurrency
end LoginServer
