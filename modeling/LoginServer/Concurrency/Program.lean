import Mathlib.Algebra.Group.Nat.Defs
import Mathlib.Data.List.Basic

namespace LoginServer
namespace Concurrency

/-!
# Programs over atomic operations

A program is a tree: it stops with a value, or performs one atomic operation
and continues with the answer.  What an operation does is not part of the
program.  It is given later, by a machine that many programs share, or by a
handler that implements each operation as a program over finer operations.

An execution of a program on its own is a list of events, one for every
operation with the answer it received.  Any answer of the right type may come.
-/

/-- Atomic operations, with the type of the answer to each. -/
structure Interface where
  Op : Type
  Answer : Op -> Type

/-- An operation that was performed, with its answer. -/
structure Event (I : Interface) where
  op : I.Op
  answer : I.Answer op

inductive Program (I : Interface) (α : Type) where
  | done (value : α)
  | step (op : I.Op) (next : I.Answer op -> Program I α)

namespace Program

variable {I J : Interface} {α β : Type}

def bind : Program I α -> (α -> Program I β) -> Program I β
  | .done value, continuation => continuation value
  | .step op next, continuation => .step op fun answer => (next answer).bind continuation

instance : Monad (Program I) where
  pure := .done
  bind := bind

/-- The program that performs one operation. -/
def perform (op : I.Op) : Program I (I.Answer op) := .step op .done

@[simp] theorem pure_eq_done (value : α) : (pure value : Program I α) = .done value := rfl

@[simp] theorem bind_done (value : α) (continuation : α -> Program I β) :
    (Program.done value >>= continuation) = continuation value := rfl

@[simp] theorem bind_step (op : I.Op) (next : I.Answer op -> Program I α)
    (continuation : α -> Program I β) :
    (Program.step op next >>= continuation) =
      .step op fun answer => next answer >>= continuation := rfl

@[simp] theorem bind_perform (op : I.Op) (continuation : I.Answer op -> Program I β) :
    (perform op >>= continuation) = .step op continuation := rfl

theorem bind_assoc {γ : Type} (program : Program I α) (first : α -> Program I β)
    (second : β -> Program I γ) :
    (program >>= first) >>= second = program >>= fun value => first value >>= second := by
  induction program with
  | done value => rfl
  | step op next inductionHypothesis => exact congrArg (Program.step op) (funext inductionHypothesis)

theorem bind_pure (program : Program I α) : (program >>= fun value => pure value) = program := by
  induction program with
  | done value => rfl
  | step op next inductionHypothesis => exact congrArg (Program.step op) (funext inductionHypothesis)

/-- Replace every operation by a program over another interface. -/
def interpret (handler : (op : I.Op) -> Program J (I.Answer op)) : Program I α -> Program J α
  | .done value => .done value
  | .step op next => (handler op).bind fun answer => (next answer).interpret handler

/-- The executions of a program: the events in order and the value returned. -/
inductive Runs : Program I α -> List (Event I) -> α -> Prop
  | done (value : α) : Runs (.done value) [] value
  | step {op : I.Op} {next : I.Answer op -> Program I α} (answer : I.Answer op)
      {events : List (Event I)} {value : α} (rest : Runs (next answer) events value) :
      Runs (.step op next) (⟨op, answer⟩ :: events) value

@[simp] theorem runs_done_iff (value result : α) (events : List (Event I)) :
    Runs (.done value) events result ↔ events = [] ∧ value = result := by
  constructor
  · intro run
    cases run
    exact ⟨rfl, rfl⟩
  · rintro ⟨rfl, rfl⟩
    exact .done value

@[simp] theorem runs_step_iff (op : I.Op) (next : I.Answer op -> Program I α) (result : α)
    (events : List (Event I)) :
    Runs (.step op next) events result ↔
      Exists fun answer => Exists fun rest =>
        events = ⟨op, answer⟩ :: rest ∧ Runs (next answer) rest result := by
  constructor
  · intro run
    cases run with
    | step answer rest => exact ⟨answer, _, rfl, rest⟩
  · rintro ⟨answer, rest, rfl, run⟩
    exact .step answer run

/-- An execution of two programs in sequence is one of each. -/
theorem runs_bind_iff {β : Type} (program : Program I α) (continuation : α -> Program I β)
    (events : List (Event I)) (result : β) :
    Runs (program >>= continuation) events result ↔
      Exists fun first => Exists fun second => Exists fun value =>
        events = first ++ second ∧ Runs program first value ∧ Runs (continuation value) second result := by
  induction program generalizing events with
  | done value =>
      constructor
      · intro run
        exact ⟨[], events, value, rfl, .done value, run⟩
      · rintro ⟨first, second, value', rfl, run, rest⟩
        cases run
        exact rest
  | step op next inductionHypothesis =>
      constructor
      · intro run
        cases run with
        | step answer rest =>
            rcases (inductionHypothesis answer _).mp rest with ⟨first, second, value, rfl, run, later⟩
            exact ⟨_, second, value, rfl, .step answer run, later⟩
      · rintro ⟨first, second, value, rfl, run, later⟩
        cases run with
        | step answer rest =>
            exact .step answer ((inductionHypothesis answer _).mpr ⟨_, second, value, rfl, rest, later⟩)

def isDone : Program I α -> Bool
  | .done _ => true
  | .step _ _ => false

theorem isDone_iff (program : Program I Unit) : program.isDone = true ↔ program = .done () := by
  cases program <;> simp [isDone]

/-! ## Which operations a program uses -/

/-- Every operation the program can perform satisfies a predicate. -/
def Uses (allowed : I.Op -> Prop) : Program I α -> Prop
  | .done _ => True
  | .step op next => allowed op ∧ forall answer, (next answer).Uses allowed

@[simp] theorem uses_done (allowed : I.Op -> Prop) (value : α) :
    (Program.done value : Program I α).Uses allowed ↔ True := Iff.rfl

@[simp] theorem uses_pure (allowed : I.Op -> Prop) (value : α) :
    (pure value : Program I α).Uses allowed ↔ True := Iff.rfl

theorem uses_of_forall {allowed : I.Op -> Prop} (program : Program I α)
    (all : forall op, allowed op) : program.Uses allowed := by
  induction program with
  | done value => trivial
  | step op next inductionHypothesis => exact ⟨all op, inductionHypothesis⟩

theorem Uses.bind {allowed : I.Op -> Prop} {program : Program I α}
    {continuation : α -> Program I β} (uses : program.Uses allowed)
    (rest : forall value, (continuation value).Uses allowed) :
    (program >>= continuation).Uses allowed := by
  induction program with
  | done value => exact rest value
  | step op next inductionHypothesis =>
      exact ⟨uses.1, fun answer => inductionHypothesis answer (uses.2 answer)⟩

theorem Uses.mono {strong weak : I.Op -> Prop} {program : Program I α} (uses : program.Uses strong)
    (implies : forall op, strong op -> weak op) : program.Uses weak := by
  induction program with
  | done value => trivial
  | step op next inductionHypothesis =>
      exact ⟨implies op uses.1, fun answer => inductionHypothesis answer (uses.2 answer)⟩

theorem Uses.and {first second : I.Op -> Prop} {program : Program I α} (uses : program.Uses first)
    (also : program.Uses second) : program.Uses fun op => first op ∧ second op := by
  induction program with
  | done value => trivial
  | step op next inductionHypothesis =>
      exact ⟨⟨uses.1, also.1⟩, fun answer => inductionHypothesis answer (uses.2 answer) (also.2 answer)⟩

/-! ## What a program returns -/

/-- Every value the program can return satisfies a predicate. -/
def Returns (property : α -> Prop) : Program I α -> Prop
  | .done value => property value
  | .step _ next => forall answer, (next answer).Returns property

theorem returns_of_forall {property : α -> Prop} (program : Program I α)
    (holds : forall value, property value) : program.Returns property := by
  induction program with
  | done value => exact holds value
  | step op next inductionHypothesis => exact inductionHypothesis

theorem Returns.bind {β : Type} {first : α -> Prop} {property : β -> Prop} {program : Program I α}
    {continuation : α -> Program I β} (returns : program.Returns first)
    (rest : forall value, first value -> (continuation value).Returns property) :
    (program >>= continuation).Returns property := by
  induction program with
  | done value => exact rest value returns
  | step op next inductionHypothesis => exact fun answer => inductionHypothesis answer (returns answer)

/-- An execution performs only operations that the program uses. -/
theorem Uses.runs {allowed : I.Op -> Prop} {program : Program I α} (uses : program.Uses allowed)
    {events : List (Event I)} {value : α} (run : Runs program events value) :
    forall event, event ∈ events -> allowed event.op := by
  induction run with
  | done value => simp
  | step answer _ inductionHypothesis =>
      intro event member
      rcases List.mem_cons.mp member with rfl | later
      · exact uses.1
      · exact inductionHypothesis (uses.2 answer) event later

end Program
end Concurrency
end LoginServer
