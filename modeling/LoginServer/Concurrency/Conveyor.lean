import Mathlib.Data.List.Infix
import Mathlib.Logic.Function.Basic

namespace LoginServer
namespace Concurrency

/-!
# Conveyors

Values are put in at one end.  One of several threads at a time takes them off
in front, gathers them into a batch, and hands the batch over.  What was put in
is then always what was handed over, what is being gathered, and what still
waits, in this order.
-/

/-- Nothing is lost, repeated or reordered between `put` and `handed`: what was put in is what
was handed over, then what one thread gathers, then what still waits. -/
structure Conveyed {α Thread : Type} (put handed waiting : List α) (gathers : Thread -> Option (List α)) : Prop where
  gathering : forall thread batch, gathers thread = some batch -> put = handed ++ batch ++ waiting
  resting : (forall thread, gathers thread = none) -> put = handed ++ waiting

namespace Conveyed

variable {α Thread : Type} {put handed waiting : List α} {gathers : Thread -> Option (List α)}

theorem start (nobody : forall thread, gathers thread = none) : Conveyed ([] : List α) [] [] gathers where
  gathering := by
    intro thread batch gathering
    cases (nobody thread).symm.trans gathering
  resting := fun _ => rfl

theorem append (conveyed : Conveyed put handed waiting gathers) (value : α) :
    Conveyed (put ++ [value]) handed (waiting ++ [value]) gathers where
  gathering := by
    intro thread batch gathering
    rw [conveyed.gathering thread batch gathering, List.append_assoc _ waiting]
  resting := by
    intro nobody
    rw [conveyed.resting nobody, List.append_assoc]

theorem prefix_of_gathering (conveyed : Conveyed put handed waiting gathers) {thread : Thread} {batch : List α}
    (gathering : gathers thread = some batch) : handed ++ batch <+: put :=
  ⟨waiting, (conveyed.gathering thread batch gathering).symm⟩

variable [DecidableEq Thread] {thread : Thread}

/-- The thread that gathers is the only one. -/
theorem take {value : α} {batch : List α} (conveyed : Conveyed put handed (value :: waiting) gathers)
    (gathering : gathers thread = some batch) (alone : forall other, other ≠ thread -> gathers other = none) :
    Conveyed put handed waiting (Function.update gathers thread (some (batch ++ [value]))) where
  gathering := by
    intro other batch' gathering'
    rw [Function.update_apply] at gathering'
    split at gathering'
    next =>
      cases gathering'
      rw [conveyed.gathering thread batch gathering]
      simp
    next different => cases (alone other different).symm.trans gathering'
  resting := by
    intro nobody
    have own := nobody thread
    rw [Function.update_self] at own
    cases own

theorem hand {batch : List α} (conveyed : Conveyed put handed waiting gathers)
    (gathering : gathers thread = some batch) (alone : forall other, other ≠ thread -> gathers other = none) :
    Conveyed put (handed ++ batch) waiting (Function.update gathers thread none) where
  gathering := by
    intro other batch' gathering'
    rw [Function.update_apply] at gathering'
    split at gathering'
    next => cases gathering'
    next different => cases (alone other different).symm.trans gathering'
  resting := fun _ => conveyed.gathering thread batch gathering

theorem begin (conveyed : Conveyed put handed waiting gathers) (nobody : forall other, gathers other = none) :
    Conveyed put handed waiting (Function.update gathers thread (some [])) where
  gathering := by
    intro other batch gathering
    rw [Function.update_apply] at gathering
    split at gathering
    next =>
      cases gathering
      rw [List.append_nil]
      exact conveyed.resting nobody
    next => cases (nobody other).symm.trans gathering
  resting := by
    intro nobody'
    have own := nobody' thread
    rw [Function.update_self] at own
    cases own

end Conveyed
end Concurrency
end LoginServer
