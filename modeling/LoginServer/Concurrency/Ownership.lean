import Mathlib.Logic.Function.Basic

namespace LoginServer
namespace Concurrency

/-!
# Shared ownership by counters

Objects come out of a pool, are shared by their owners, and go back when the
last owner lets go.  A counter beside each object is to say how many owners it
has.  On its way out of the pool and back into it an object is loose: one party
has it in hand, and nobody owns it.

The lemmas say what each operation does to the correspondence.  Who the owners
are does not matter here, only how many there are of each object.
-/

variable {Object : Type}

/-- There is one more of this object, and as many as before of the others. -/
def OneMore (object : Object) (before after : Object -> Nat) : Prop :=
  after object = before object + 1 ∧ forall other, other ≠ object -> after other = before other

/-- A share of a sum grows, and the sum with it. -/
theorem OneMore.shift {object : Object} {before after share share' : Object -> Nat}
    (balance : forall other, after other + share other = before other + share' other)
    (more : OneMore object share share') : OneMore object before after := by
  constructor
  · have sum := balance object
    have one := more.1
    omega
  · intro other different
    have sum := balance other
    have same := more.2 other different
    omega

/-- The counters say how many owners there are.  An object is out of the pool while it has an
owner or is loose, and it is not both. -/
structure RefCounted (counter : Object -> Int) (out : Object -> Bool) (owners loose : Object -> Nat) : Prop where
  counter_eq : forall object, counter object = owners object
  out_iff : forall object, out object = true ↔ 1 ≤ owners object + loose object
  apart : forall object, owners object = 0 ∧ loose object ≤ 1 ∨ loose object = 0

namespace RefCounted

variable {counter : Object -> Int} {out : Object -> Bool} {owners owners' loose loose' : Object -> Nat}
  {object : Object}

theorem out_of_owned (counted : RefCounted counter out owners loose) (owned : 1 ≤ owners object) : out object = true :=
  (counted.out_iff object).mpr (Nat.le_trans owned (Nat.le_add_right _ _))

theorem out_of_loose (counted : RefCounted counter out owners loose) (held : 1 ≤ loose object) : out object = true :=
  (counted.out_iff object).mpr (Nat.le_trans held (Nat.le_add_left _ _))

/-- A loose object has no owner, and is in one hand only. -/
theorem unowned_of_loose (counted : RefCounted counter out owners loose) (held : 1 ≤ loose object) :
    owners object = 0 ∧ loose object = 1 := by
  rcases counted.apart object with ⟨unowned, most⟩ | nowhere <;> omega

theorem unowned_of_in (counted : RefCounted counter out owners loose) (inside : out object = false) :
    owners object = 0 ∧ loose object = 0 := by
  have absent := mt (counted.out_iff object).mpr (by rw [inside]; exact Bool.false_ne_true)
  omega

theorem owned_of_counter (counted : RefCounted counter out owners loose) (positive : 0 < counter object) :
    1 ≤ owners object := by
  have same := counted.counter_eq object
  omega

/-- Owners may pass objects on to each other. -/
theorem congr (counted : RefCounted counter out owners loose) (same : forall object, owners' object = owners object)
    (same' : forall object, loose' object = loose object) : RefCounted counter out owners' loose' := by
  cases funext same
  cases funext same'
  exact counted

variable [DecidableEq Object]

/-- A step that concerns one object. -/
theorem change {counter' : Object -> Int} {out' : Object -> Bool} (counted : RefCounted counter out owners loose)
    (counters : forall other, other ≠ object -> counter' other = counter other)
    (outs : forall other, other ≠ object -> out' other = out other)
    (others : forall other, other ≠ object -> owners' other = owners other ∧ loose' other = loose other)
    (count : counter' object = owners' object)
    (here : out' object = true ↔ 1 ≤ owners' object + loose' object)
    (apart : owners' object = 0 ∧ loose' object ≤ 1 ∨ loose' object = 0) :
    RefCounted counter' out' owners' loose' where
  counter_eq := by
    intro other
    by_cases same : other = object
    · rw [same]
      exact count
    · rw [counters other same, (others other same).1]
      exact counted.counter_eq other
  out_iff := by
    intro other
    by_cases same : other = object
    · rw [same]
      exact here
    · rw [outs other same, (others other same).1, (others other same).2]
      exact counted.out_iff other
  apart := by
    intro other
    by_cases same : other = object
    · rw [same]
      exact apart
    · rw [(others other same).1, (others other same).2]
      exact counted.apart other

/-- An object leaves the pool. -/
theorem takeOut (counted : RefCounted counter out owners loose) (inside : out object = false)
    (more : OneMore object loose loose') : RefCounted counter (Function.update out object true) owners loose' := by
  have nowhere := counted.unowned_of_in inside
  have one := more.1
  refine counted.change (fun _ _ => rfl) (fun _ different => Function.update_of_ne different true out)
    (fun other different => ⟨rfl, more.2 other different⟩) (counted.counter_eq object) ?_ (Or.inl ?_)
  · rw [Function.update_self]
    exact ⟨fun _ => by omega, fun _ => rfl⟩
  · omega

/-- A loose object goes back into the pool. -/
theorem putBack (counted : RefCounted counter out owners loose) (less : OneMore object loose' loose) :
    RefCounted counter (Function.update out object false) owners loose' := by
  have one := less.1
  have alone : owners object = 0 ∧ loose object = 1 := counted.unowned_of_loose (by omega)
  refine counted.change (fun _ _ => rfl) (fun _ different => Function.update_of_ne different false out)
    (fun other different => ⟨rfl, (less.2 other different).symm⟩) (counted.counter_eq object) ?_ (Or.inr ?_)
  · rw [Function.update_self]
    exact ⟨fun impossible => absurd impossible Bool.false_ne_true, fun _ => by omega⟩
  · omega

/-- An owner shares the object with another one. -/
theorem share (counted : RefCounted counter out owners loose) (owned : 1 ≤ owners object)
    (more : OneMore object owners owners') :
    RefCounted (Function.update counter object (counter object + 1)) out owners' loose := by
  have one := more.1
  have count := counted.counter_eq object
  have apart := counted.apart object
  refine counted.change (fun _ different => Function.update_of_ne different _ counter) (fun _ _ => rfl)
    (fun other different => ⟨more.2 other different, rfl⟩) ?_ ?_ (Or.inr ?_)
  · rw [Function.update_self]
    omega
  · rw [counted.out_of_owned owned]
    exact ⟨fun _ => by omega, fun _ => rfl⟩
  · omega

/-- A loose object gets its first owner. -/
theorem adopt (counted : RefCounted counter out owners loose) (less : OneMore object loose' loose)
    (more : OneMore object owners owners') :
    RefCounted (Function.update counter object (counter object + 1)) out owners' loose' := by
  have one := more.1
  have one' := less.1
  have held : 1 ≤ loose object := by omega
  have count := counted.counter_eq object
  have alone := counted.unowned_of_loose held
  refine counted.change (fun _ different => Function.update_of_ne different _ counter) (fun _ _ => rfl)
    (fun other different => ⟨more.2 other different, (less.2 other different).symm⟩) ?_ ?_ (Or.inr ?_)
  · rw [Function.update_self]
    omega
  · rw [counted.out_of_loose held]
    exact ⟨fun _ => by omega, fun _ => rfl⟩
  · omega

/-- An owner lets go.  The last one has the object loose in hand. -/
theorem letGo (counted : RefCounted counter out owners loose) (less : OneMore object owners' owners)
    (kept : counter object - 1 ≠ 0 -> loose' = loose) (last : counter object - 1 = 0 -> OneMore object loose loose') :
    RefCounted (Function.update counter object (counter object - 1)) out owners' loose' := by
  have one := less.1
  have owned : 1 ≤ owners object := by omega
  have count := counted.counter_eq object
  have apart := counted.apart object
  have others (other : Object) (different : other ≠ object) : loose' other = loose other := by
    by_cases zero : counter object - 1 = 0
    · exact (last zero).2 other different
    · rw [kept zero]
  refine counted.change (fun _ different => Function.update_of_ne different _ counter) (fun _ _ => rfl)
    (fun other different => ⟨(less.2 other different).symm, others other different⟩) ?_ ?_ ?_
  · rw [Function.update_self]
    omega
  · rw [counted.out_of_owned owned]
    refine ⟨fun _ => ?_, fun _ => rfl⟩
    by_cases zero : counter object - 1 = 0
    · have more := (last zero).1
      omega
    · omega
  · by_cases zero : counter object - 1 = 0
    · have more := (last zero).1
      exact Or.inl (by omega)
    · rw [kept zero]
      exact Or.inr (by omega)

end RefCounted
end Concurrency
end LoginServer
