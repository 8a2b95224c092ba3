import Mathlib.Algebra.Order.BigOperators.Group.Finset
import Mathlib.Data.Fintype.Basic

namespace LoginServer
namespace Concurrency

/-!
# Tallies

Sums of a quantity over all threads, and how they change when one thread
changes.
-/

variable {Thread Ghost : Type} [Fintype Thread]

/-- The sum of a quantity over all threads. -/
def tally (quantity : Ghost -> Nat) (ghosts : Thread -> Ghost) : Nat :=
  Finset.univ.sum fun thread => quantity (ghosts thread)

/-- One thread's share is part of the tally. -/
theorem le_tally (quantity : Ghost -> Nat) (ghosts : Thread -> Ghost) (thread : Thread) :
    quantity (ghosts thread) ≤ tally quantity ghosts :=
  Finset.single_le_sum (f := fun other => quantity (ghosts other)) (fun _ _ => Nat.zero_le _)
    (Finset.mem_univ thread)

theorem tally_eq_zero_iff (quantity : Ghost -> Nat) (ghosts : Thread -> Ghost) :
    tally quantity ghosts = 0 ↔ forall thread, quantity (ghosts thread) = 0 := by
  simp [tally]

/-- Nobody else has a share. -/
theorem tally_eq_of_alone (quantity : Ghost -> Nat) (ghosts : Thread -> Ghost) (thread : Thread)
    (alone : forall other, other ≠ thread -> quantity (ghosts other) = 0) :
    tally quantity ghosts = quantity (ghosts thread) :=
  Finset.sum_eq_single thread (fun other _ different => alone other different)
    fun absent => absurd (Finset.mem_univ thread) absent

variable [DecidableEq Thread]

theorem tally_update (quantity : Ghost -> Nat) (ghosts : Thread -> Ghost) (thread : Thread)
    (ghost : Ghost) :
    tally quantity (Function.update ghosts thread ghost) + quantity (ghosts thread) =
      tally quantity ghosts + quantity ghost := by
  have others : (Finset.univ.erase thread).sum
        (fun other => quantity (Function.update ghosts thread ghost other)) =
      (Finset.univ.erase thread).sum (fun other => quantity (ghosts other)) := by
    apply Finset.sum_congr rfl
    intro other member
    rw [Function.update_of_ne (Finset.ne_of_mem_erase member)]
  unfold tally
  rw [← Finset.add_sum_erase _ _ (Finset.mem_univ thread), others, Function.update_self,
    ← Finset.add_sum_erase _ (fun other => quantity (ghosts other)) (Finset.mem_univ thread)]
  omega

/-- Two threads' shares are part of the tally. -/
theorem add_le_tally (quantity : Ghost -> Nat) (ghosts : Thread -> Ghost) {first second : Thread}
    (different : first ≠ second) :
    quantity (ghosts first) + quantity (ghosts second) ≤ tally quantity ghosts := by
  unfold tally
  rw [← Finset.add_sum_erase _ _ (Finset.mem_univ first)]
  apply Nat.add_le_add_left
  exact Finset.single_le_sum (f := fun other => quantity (ghosts other)) (fun _ _ => Nat.zero_le _)
    (Finset.mem_erase.mpr ⟨fun same => different same.symm, Finset.mem_univ second⟩)

end Concurrency
end LoginServer
