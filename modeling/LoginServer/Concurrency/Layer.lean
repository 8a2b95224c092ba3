import LoginServer.Concurrency.Discipline

namespace LoginServer
namespace Concurrency

/-!
# Layers

A layer adds to a discipline a second ghost value, which may be tracked with a
look at the first.  What was shown of a program in the discipline below is not
shown again: a program whose operations mean nothing to the layer obeys the
two together, and leaves the second value alone (`Layer.lift`).
-/

structure Layer {I : Interface} (D : Discipline I) where
  Extra : Type
  start : Extra
  track : D.Ghost -> Extra -> Event I -> Extra
  permits : D.Ghost -> Extra -> I.Op -> Prop
  expects : D.Ghost -> Extra -> Event I -> Prop
  finish : Extra -> Prop
  finish_start : finish start

namespace Layer

variable {I : Interface} {D : Discipline I} (L : Layer D) {α : Type}

/-- The discipline and the layer together. -/
def whole : Discipline I where
  Ghost := D.Ghost × L.Extra
  start := (D.start, L.start)
  track := fun ghost event => (D.track ghost.1 event, L.track ghost.1 ghost.2 event)
  permits := fun ghost op => D.permits ghost.1 op ∧ L.permits ghost.1 ghost.2 op
  expects := fun ghost event => D.expects ghost.1 event ∧ L.expects ghost.1 ghost.2 event
  finish := fun ghost => D.finish ghost.1 ∧ L.finish ghost.2
  finish_start := ⟨D.finish_start, L.finish_start⟩

theorem ghost_fst (past : List (Event I)) : (L.whole.ghost past).1 = D.ghost past :=
  Discipline.map_ghost (D := D) (E := L.whole) Prod.fst rfl (fun _ _ => rfl) past

/-- An operation that means nothing to the layer while its value is `extra`. -/
def Ignores (extra : L.Extra) (op : I.Op) : Prop :=
  forall ghost, L.permits ghost extra op ∧ forall answer, L.track ghost extra ⟨op, answer⟩ = extra

/-- A relation between the two values that the operations keep, as far as the discipline
permits them. -/
theorem carry (holds : D.Ghost -> L.Extra -> Prop) {program : Program I α} {ghost : D.Ghost} {extra : L.Extra}
    {post : D.Ghost -> α -> Prop} (obeys : D.Obeys program ghost post) (start : holds ghost extra)
    (uses : program.Uses fun op => forall ghost extra, holds ghost extra -> L.permits ghost extra op ∧
      forall answer, holds (D.track ghost ⟨op, answer⟩) (L.track ghost extra ⟨op, answer⟩)) :
    L.whole.Obeys program (ghost, extra) fun ghost value => post ghost.1 value ∧ holds ghost.1 ghost.2 := by
  induction program generalizing ghost extra with
  | done value => exact ⟨obeys, start⟩
  | step op next inductionHypothesis =>
      rcases uses.1 ghost extra start with ⟨permitted, kept⟩
      exact ⟨⟨obeys.1, permitted⟩, fun answer expected =>
        inductionHypothesis answer (obeys.2 answer expected.1) (kept answer) (uses.2 answer)⟩

variable {L}

theorem lift {program : Program I α} {ghost : D.Ghost} {extra : L.Extra} {post : D.Ghost -> α -> Prop}
    (obeys : D.Obeys program ghost post) (uses : program.Uses (L.Ignores extra)) :
    L.whole.Obeys program (ghost, extra) fun ghost value => post ghost.1 value ∧ ghost.2 = extra := by
  induction program generalizing ghost with
  | done value => exact ⟨obeys, rfl⟩
  | step op next inductionHypothesis =>
      refine ⟨⟨obeys.1, (uses.1 ghost).1⟩, fun answer expected => ?_⟩
      have rest := inductionHypothesis answer (obeys.2 answer expected.1) (uses.2 answer)
      change L.whole.Obeys (next answer) (_, L.track ghost extra ⟨op, answer⟩) _
      rw [(uses.1 ghost).2 answer]
      exact rest

section Runs

variable {Thread : Type} {M : Machine I Thread}

theorem ghosts_fst (c : M.Config) (thread : Thread) : (L.whole.ghosts c thread).1 = D.ghosts c thread :=
  L.ghost_fst (c.past thread)

end Runs

section Beside

variable (D) (E : Discipline I)

/-- A second discipline beside the first. -/
def beside : Layer D where
  Extra := E.Ghost
  start := E.start
  track := fun _ => E.track
  permits := fun _ => E.permits
  expects := fun _ => E.expects
  finish := E.finish
  finish_start := E.finish_start

variable {D E}

/-- A program that obeys each of two disciplines obeys them beside each other. -/
theorem obeys_beside {program : Program I α} {first : D.Ghost} {second : E.Ghost} {post : D.Ghost -> α -> Prop}
    {post' : E.Ghost -> α -> Prop} (obeys : D.Obeys program first post) (obeys' : E.Obeys program second post') :
    (beside D E).whole.Obeys program (first, second) fun ghost value => post ghost.1 value ∧ post' ghost.2 value := by
  induction program generalizing first second with
  | done value => exact ⟨obeys, obeys'⟩
  | step op next inductionHypothesis =>
      refine ⟨⟨obeys.1, obeys'.1⟩, ?_⟩
      rintro answer ⟨expected, expected'⟩
      exact inductionHypothesis answer (obeys.2 answer expected) (obeys'.2 answer expected')

theorem ghosts_beside {Thread : Type} {M : Machine I Thread} (c : M.Config) (thread : Thread) :
    ((beside D E).whole.ghosts c thread).2 = E.ghosts c thread :=
  Discipline.map_ghost (D := E) (E := (beside D E).whole) Prod.snd rfl (fun _ _ => rfl) (c.past thread)

end Beside

end Layer
end Concurrency
end LoginServer
