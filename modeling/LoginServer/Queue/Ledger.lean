import LoginServer.Concurrency.Discipline
import LoginServer.Queue.Programs

namespace LoginServer
namespace Queue

open Concurrency

/-!
# Pushes and pops of a run

What a run pushed and popped is read from its events.  A push has happened once
its node is linked: this is the order in which the values come out.  A push that
returned before another one began was linked before it.

The discipline says where in its call a thread is, and which node it has taken
for itself.
-/

/-- One call of `push`, by the number of events before it. -/
structure Push where
  began : Nat
  value : Value
  deriving DecidableEq

structure Ledger (Thread : Type) where
  events : Nat
  /-- When the latest call of `push` began. -/
  began : Thread -> Nat
  /-- The call of `push` that a thread is in, once it has stored its value. -/
  current : Thread -> Option Push
  pushed : List Push
  /-- First to last. -/
  linked : List Push
  /-- Calls that returned `true`, with the number of events until then. -/
  returned : List (Push × Nat)
  /-- First to last. -/
  popped : List Value

namespace Ledger

variable {Thread : Type} [DecidableEq Thread]

def empty : Ledger Thread where
  events := 0
  began := fun _ => 0
  current := fun _ => none
  pushed := []
  linked := []
  returned := []
  popped := []

/-- What an event means to the calls of the queue. -/
def record (ledger : Ledger Thread) (thread : Thread) : Event operations -> Ledger Thread
  | ⟨.incrementPushs, _⟩ =>
      { ledger with
        began := Function.update ledger.began thread ledger.events
        current := Function.update ledger.current thread none }
  | ⟨.storeValue _ value, _⟩ =>
      { ledger with
        current := Function.update ledger.current thread (some ⟨ledger.began thread, value⟩)
        pushed := ledger.pushed ++ [⟨ledger.began thread, value⟩] }
  | ⟨.compareExchangeKey _ _ comparand, previous⟩ =>
      if previous = comparand then
        { ledger with linked := ledger.linked ++ (ledger.current thread).toList }
      else ledger
  | ⟨.decrementSize, _⟩ =>
      { ledger with current := Function.update ledger.current thread none }
  | ⟨.incrementSize, _⟩ =>
      { ledger with
        returned := ledger.returned ++
          (ledger.current thread).toList.map fun push => (push, ledger.events + 1) }
  | ⟨.loadValue _, value⟩ => { ledger with popped := ledger.popped ++ [value] }
  | _ => ledger

def next (ledger : Ledger Thread) (thread : Thread) (event : Event operations) : Ledger Thread :=
  { ledger.record thread event with events := ledger.events + 1 }

end Ledger

/-- The calls of a history. -/
def ledger {Thread : Type} [DecidableEq Thread] : List (Thread × Event operations) -> Ledger Thread
  | [] => .empty
  | (thread, event) :: earlier => (ledger earlier).next thread event

/-- The popped values come from different calls of `push`, in an order that agrees with
the order of these calls where one returned before the other began. -/
structure InOrder {Thread : Type} (ledger : Ledger Thread) (sources : List Push) : Prop where
  values : sources.map Push.value = ledger.popped
  once : sources.Nodup
  pushed : forall push, push ∈ sources -> push ∈ ledger.pushed
  ordered : forall first finish front second rest, (first, finish) ∈ ledger.returned ->
    finish ≤ second.began -> sources = front ++ second :: rest -> first ∈ front

/-! ## Where a thread is -/

inductive Stage where
  | idle
  | counted (pushCount : BitVec 64)
  | holding (pushCount : BitVec 64) (node : Address)
  | filled (pushCount : BitVec 64) (node : Address) (value : Value)
  | ready (pushCount : BitVec 64) (node : Address) (value : Value)
  | linked
  /-- With the head that was read last, and its key, if that was read and not null. -/
  | popping (head : Option Key) (key : Key)
  | refused
  /-- With the new dummy, and what was stored as the next node of the pool. -/
  | freeing (node next : Address) (stored : Option Key)
  | loading (next : Address)

namespace Stage

def track : Stage -> Event operations -> Stage
  | _, ⟨.incrementPushs, pushCount⟩ => .counted pushCount
  | .counted pushCount, ⟨.compareExchangeTopKey _ comparand, previous⟩ =>
      if previous = comparand then .holding pushCount (makeNodePtr comparand) else .counted pushCount
  | .holding pushCount node, ⟨.storeValue _ value, _⟩ => .filled pushCount node value
  | .filled pushCount node value, ⟨.storeKey _ _, _⟩ => .ready pushCount node value
  | .ready pushCount node value, ⟨.compareExchangeKey _ _ comparand, previous⟩ =>
      if previous = comparand then .linked else .ready pushCount node value
  | _, ⟨.incrementSize, _⟩ => .idle
  | _, ⟨.decrementSize, size⟩ =>
      if (size : BitVec 32).toInt < 0 then .refused else .popping none 0
  | .popping head key, ⟨.loadHead, again⟩ =>
      if head = some again then .popping head key else .popping (some again) 0
  | .popping (some head) key, ⟨.loadKey node, answer⟩ =>
      if node = makeNodePtr head then .popping (some head) answer else .popping (some head) key
  | .popping (some head) _, ⟨.storeHead key, _⟩ =>
      .freeing (makeNodePtr head) (makeNodePtr key) none
  | .freeing node next _, ⟨.storePoolNext _ key, _⟩ => .freeing node next (some key)
  | .freeing node next stored, ⟨.compareExchangeTopKey _ comparand, previous⟩ =>
      if previous = comparand then .loading next else .freeing node next stored
  | _, ⟨.loadValue _, _⟩ => .idle
  | stage, _ => stage

/-- The node that a thread has for itself. -/
def holds : Stage -> Option Address
  | .holding _ node => some node
  | .filled _ node _ => some node
  | .ready _ node _ => some node
  | .freeing node _ _ => some node
  | _ => none

/-- In a call of `pop`. -/
def pops : Stage -> Bool
  | .popping _ _ => true
  | .refused => true
  | .freeing _ _ _ => true
  | .loading _ => true
  | _ => false

/-- In a call of `pop` that has moved the head, and not loaded its value. -/
def removing : Stage -> Bool
  | .freeing _ _ _ => true
  | .loading _ => true
  | _ => false

/-- In a call of `push` whose node is not linked. -/
def pushing : Stage -> Bool
  | .counted _ => true
  | .holding _ _ => true
  | .filled _ _ _ => true
  | .ready _ _ _ => true
  | _ => false

def permits (stage : Stage) : Op -> Prop
  | .incrementPushs => stage = .idle
  | .decrementSize => stage = .idle
  | .compareExchangeTopKey exchange comparand =>
      (Exists fun pushCount => stage = .counted pushCount ∧ makeNodePtr comparand ≠ 0) ∨
        Exists fun node => Exists fun next => Exists fun count =>
          stage = .freeing node next (some comparand) ∧ exchange = makeKey node count
  | .storeValue node _ => Exists fun pushCount => stage = .holding pushCount node
  | .storeKey node key =>
      key = 0 ∧ Exists fun pushCount => Exists fun value => stage = .filled pushCount node value
  | .compareExchangeKey _ exchange comparand =>
      comparand = 0 ∧ Exists fun pushCount => Exists fun node => Exists fun value =>
        stage = .ready pushCount node value ∧ exchange = makeKey node pushCount
  | .storeHead key => key ≠ 0 ∧ Exists fun head => stage = .popping (some head) key
  | .storePoolNext node _ => Exists fun next => Exists fun stored => stage = .freeing node next stored
  | .loadValue node => stage = .loading node
  | .incrementSize => stage = .linked ∨ stage = .refused
  | _ => True

def finished (stage : Stage) : Prop := stage = .idle ∨ Exists fun pushCount => stage = .counted pushCount

end Stage

abbrev calling : Discipline operations where
  Ghost := Stage
  start := .idle
  track := Stage.track
  permits := Stage.permits
  expects := fun _ _ => True
  finish := Stage.finished
  finish_start := .inl rfl

/-! ## The programs obey -/

section Programs

variable {fuel : Nat}

theorem alloc_calling (pushCount : BitVec 64) :
    calling.Obeys (alloc fuel) (.counted pushCount) fun stage node =>
      node = 0 ∧ stage = .counted pushCount ∨ node ≠ 0 ∧ stage = .holding pushCount node := by
  induction fuel with
  | zero => exact ⟨trivial, fun answer => answer.elim⟩
  | succ fuel inductionHypothesis =>
      refine ⟨trivial, fun (compareKey : Key) _ => ?_⟩
      change calling.Obeys (if makeNodePtr compareKey = 0 then _ else _) (.counted pushCount) _
      by_cases null : makeNodePtr compareKey = 0
      · rw [if_pos null]
        exact .inl ⟨rfl, rfl⟩
      · rw [if_neg null]
        refine ⟨trivial, fun poolNext _ => ⟨.inl ⟨pushCount, rfl, null⟩, fun (previous : Key) _ => ?_⟩⟩
        change calling.Obeys (if previous = compareKey then _ else _)
          (if previous = compareKey then .holding pushCount (makeNodePtr compareKey) else .counted pushCount) _
        by_cases taken : previous = compareKey
        · rw [if_pos taken, if_pos taken]
          exact ⟨trivial, fun _ _ => .inr ⟨null, rfl⟩⟩
        · rw [if_neg taken, if_neg taken]
          exact inductionHypothesis

theorem free_calling (node next : Address) (stored : Option Key) :
    calling.Obeys (Queue.free node fuel) (.freeing node next stored) fun stage _ =>
      stage = .loading next := by
  induction fuel generalizing stored with
  | zero => exact ⟨trivial, fun answer => answer.elim⟩
  | succ fuel inductionHypothesis =>
      refine ⟨trivial, fun (compareKey : Key) _ => ⟨⟨next, stored, rfl⟩, fun _ _ => ?_⟩⟩
      refine ⟨trivial, fun (pushCount : BitVec 64) _ =>
        ⟨.inr ⟨node, next, pushCount, rfl, rfl⟩, fun (previous : Key) _ => ?_⟩⟩
      change calling.Obeys (if previous = compareKey then _ else _)
        (if previous = compareKey then .loading next else .freeing node next (some compareKey)) _
      by_cases given : previous = compareKey
      · rw [if_pos given, if_pos given]
        exact ⟨trivial, fun _ _ => rfl⟩
      · rw [if_neg given, if_neg given]
        exact inductionHypothesis (some compareKey)

theorem link_calling (pushCount : BitVec 64) (node : Address) (value : Value) :
    calling.Obeys (link (makeKey node pushCount) fuel) (.ready pushCount node value) fun stage _ =>
      stage = .linked := by
  induction fuel with
  | zero => exact ⟨trivial, fun answer => answer.elim⟩
  | succ fuel inductionHypothesis =>
      refine ⟨trivial, fun (tail : Key) _ => ⟨trivial, fun _ _ => ⟨trivial, fun (key : Key) _ => ?_⟩⟩⟩
      change calling.Obeys (if key = 0 then _ else _) (.ready pushCount node value) _
      by_cases null : key = 0
      · rw [if_pos null]
        refine ⟨⟨null, pushCount, node, value, rfl, rfl⟩, fun (previous : Key) _ => ?_⟩
        change calling.Obeys (if previous = key then _ else _)
          (if previous = key then .linked else .ready pushCount node value) _
        by_cases given : previous = key
        · rw [if_pos given, if_pos given]
          exact ⟨trivial, fun _ _ => rfl⟩
        · rw [if_neg given, if_neg given]
          exact inductionHypothesis
      · rw [if_neg null]
        exact ⟨trivial, fun _ _ => inductionHypothesis⟩

theorem push_calling (t : Value) :
    calling.Obeys (push fuel t) .idle fun stage _ => stage.finished := by
  refine ⟨rfl, fun (pushCount : BitVec 64) _ => ?_⟩
  refine (alloc_calling pushCount).bind ?_
  rintro stage n (⟨rfl, rfl⟩ | ⟨usable, rfl⟩)
  · exact .inr ⟨pushCount, rfl⟩
  · rw [if_neg usable]
    refine ⟨⟨pushCount, rfl⟩, fun _ _ => ⟨⟨rfl, pushCount, t, rfl⟩, fun _ _ => ?_⟩⟩
    refine (link_calling pushCount n t).bind ?_
    rintro stage _ rfl
    exact ⟨.inl rfl, fun _ _ => .inl rfl⟩

theorem take_calling (freeFuel : Nat) (before : Option Key) (known : Key) :
    calling.Obeys (take freeFuel fuel) (.popping before known) fun stage _ => stage = .idle := by
  induction fuel generalizing before known with
  | zero => exact ⟨trivial, fun answer => answer.elim⟩
  | succ fuel inductionHypothesis =>
      refine ⟨trivial, fun (head : Key) _ => ?_⟩
      have seen : Exists fun known' => Stage.track (.popping before known) ⟨.loadHead, head⟩ =
          .popping (some head) known' := by
        by_cases same : before = some head
        · exact ⟨known, by simp [Stage.track, same]⟩
        · exact ⟨0, by simp [Stage.track, same]⟩
      rcases seen with ⟨known', seen⟩
      change calling.Obeys _ (Stage.track (.popping before known) ⟨.loadHead, head⟩) _
      rw [seen]
      refine ⟨trivial, fun (tail : Key) _ => ⟨trivial, fun (key : Key) _ => ?_⟩⟩
      change calling.Obeys (if key = 0 then _ else if head = tail then _ else _)
        (if makeNodePtr head = makeNodePtr head then .popping (some head) key
          else .popping (some head) known') _
      rw [if_pos (rfl : makeNodePtr head = makeNodePtr head)]
      by_cases null : key = 0
      · rw [if_pos null]
        exact inductionHypothesis (some head) key
      rw [if_neg null]
      by_cases last : head = tail
      · rw [if_pos last]
        refine ⟨trivial, fun (next : Key) _ => ⟨trivial, fun _ _ => ?_⟩⟩
        change calling.Obeys _ (if makeNodePtr tail = makeNodePtr head then .popping (some head) next
          else .popping (some head) key) _
        rw [if_pos (by rw [last])]
        exact inductionHypothesis (some head) next
      rw [if_neg last]
      refine ⟨trivial, fun (again : Key) _ => ?_⟩
      change calling.Obeys (if again = head then _ else _)
        (if some head = some again then .popping (some head) key else .popping (some again) 0) _
      by_cases same : again = head
      · rw [if_pos same, if_pos (by rw [same])]
        refine ⟨⟨null, head, rfl⟩, fun _ _ => ?_⟩
        refine (free_calling (makeNodePtr head) (makeNodePtr key) none).bind ?_
        rintro stage _ rfl
        exact ⟨rfl, fun _ _ => rfl⟩
      · rw [if_neg same, if_neg (by simpa using Ne.symm same)]
        exact inductionHypothesis (some again) 0

theorem pop_calling : calling.Obeys (pop fuel) .idle fun stage _ => stage.finished := by
  refine ⟨rfl, fun (size : BitVec 32) _ => ?_⟩
  change calling.Obeys (if size.toInt < 0 then _ else _)
    (if size.toInt < 0 then .refused else .popping none 0) _
  by_cases negative : size.toInt < 0
  · rw [if_pos negative, if_pos negative]
    exact ⟨.inr rfl, fun _ _ => .inl rfl⟩
  · rw [if_neg negative, if_neg negative]
    refine (take_calling fuel none 0).bind ?_
    rintro stage value rfl
    exact .inl rfl

/-- Each call obeys. -/
theorem calls_calling {Thread : Type} {initial : State} (thread : Thread) (call : Call)
    (program : QueueProgram Unit) (chosen : (queue Thread initial fuel).program thread call = some program) :
    calling.Obeys program calling.start fun stage _ => calling.finish stage := by
  cases chosen
  cases call with
  | push t =>
      have returned : calling.Obeys ((Call.push t).program fuel) .idle fun stage _ => stage.finished :=
        (push_calling t).bind fun _ _ finished => finished
      exact returned.bind fun _ _ finished => finished
  | pop =>
      have returned : calling.Obeys (Call.pop.program fuel) .idle fun stage _ => stage.finished :=
        pop_calling.bind fun _ _ finished => finished
      exact returned.bind fun _ _ finished => finished

end Programs

/-! ## What the calls leave in the ledger -/

/-- The value that a thread has stored and not linked. -/
def Stage.carries : Stage -> Option Value
  | .filled _ _ value => some value
  | .ready _ _ value => some value
  | _ => none

/-- A stage that asks no more of the ledger than another. -/
structure Stage.Calmer (before after : Stage) : Prop where
  pushing : after.pushing = true -> before.pushing = true
  carries : forall value, after.carries = some value -> before.carries = some value
  linked : after = .linked -> before = .linked
  refused : after = .refused -> before = .refused

theorem Stage.Calmer.refl (stage : Stage) : Stage.Calmer stage stage :=
  ⟨id, fun _ => id, id, id⟩

section Kept

variable {Thread : Type}

structure Kept (ledger : Ledger Thread) (stages : Thread -> Stage) : Prop where
  linkedPushed : forall push, push ∈ ledger.linked -> push ∈ ledger.pushed
  linkedOnce : (ledger.linked.map Push.began).Nodup
  linkedBefore : forall push, push ∈ ledger.linked -> push.began < ledger.events
  began : forall thread, (stages thread).pushing = true -> ledger.began thread < ledger.events ∧
    ledger.began thread ∉ ledger.linked.map Push.began
  apart : forall thread other, (stages thread).pushing = true -> (stages other).pushing = true ->
    ledger.began thread = ledger.began other -> thread = other
  carried : forall thread value, (stages thread).carries = some value ->
    ledger.current thread = some ⟨ledger.began thread, value⟩ ∧
      ⟨ledger.began thread, value⟩ ∈ ledger.pushed
  settled : forall thread push, stages thread = .linked -> ledger.current thread = some push ->
    push ∈ ledger.linked
  refused : forall thread, stages thread = .refused -> ledger.current thread = none
  returned : forall first finish, (first, finish) ∈ ledger.returned ->
    first ∈ ledger.linked ∧ finish ≤ ledger.events
  ordered : forall first finish front second rest, (first, finish) ∈ ledger.returned ->
    finish ≤ second.began -> ledger.linked = front ++ second :: rest -> first ∈ front

namespace Kept

variable [DecidableEq Thread] {ledger : Ledger Thread} {stages : Thread -> Stage}

/-- Nothing that the ledger needs changes for the other threads. -/
theorem calm (kept : Kept ledger stages) (thread : Thread) (stage : Stage)
    (calmer : Stage.Calmer (stages thread) stage) (popped : List Value) (events : Nat)
    (grows : ledger.events ≤ events) :
    Kept { ledger with events := events, popped := popped } (Function.update stages thread stage) := by
  have all : forall other, Stage.Calmer (stages other) (Function.update stages thread stage other) := by
    intro other
    by_cases same : other = thread
    · subst same
      simpa using calmer
    · rw [Function.update_of_ne same]
      exact .refl _
  exact {
    linkedPushed := kept.linkedPushed
    linkedOnce := kept.linkedOnce
    linkedBefore := fun push member => Nat.lt_of_lt_of_le (kept.linkedBefore push member) grows
    began := fun other pushing =>
      ⟨Nat.lt_of_lt_of_le (kept.began other ((all other).pushing pushing)).1 grows,
        (kept.began other ((all other).pushing pushing)).2⟩
    apart := fun one other first second =>
      kept.apart one other ((all one).pushing first) ((all other).pushing second)
    carried := fun other value carries => kept.carried other value ((all other).carries value carries)
    settled := fun other push linked => kept.settled other push ((all other).linked linked)
    refused := fun other refused => kept.refused other ((all other).refused refused)
    returned := fun first finish member =>
      ⟨(kept.returned first finish member).1, Nat.le_trans (kept.returned first finish member).2 grows⟩
    ordered := kept.ordered }

theorem begin (kept : Kept ledger stages) (thread : Thread) (pushCount : BitVec 64) :
    Kept (ledger.next thread ⟨.incrementPushs, pushCount⟩)
      (Function.update stages thread (.counted pushCount)) where
  linkedPushed := kept.linkedPushed
  linkedOnce := kept.linkedOnce
  linkedBefore := fun push member => Nat.lt_succ_of_lt (kept.linkedBefore push member)
  began := by
    intro other pushing
    simp only [Ledger.next, Ledger.record]
    by_cases same : other = thread
    · subst same
      rw [Function.update_self]
      refine ⟨Nat.lt_succ_self _, ?_⟩
      intro member
      rcases List.mem_map.mp member with ⟨push, member, began⟩
      exact Nat.lt_irrefl _ (began ▸ kept.linkedBefore push member)
    · rw [Function.update_of_ne same] at pushing ⊢
      exact ⟨Nat.lt_succ_of_lt (kept.began other pushing).1, (kept.began other pushing).2⟩
  apart := by
    intro one other first second same
    simp only [Ledger.next, Ledger.record] at same
    by_cases left : one = thread
    · by_cases right : other = thread
      · rw [left, right]
      · rw [Function.update_of_ne right] at second
        rw [left, Function.update_self, Function.update_of_ne right] at same
        exact absurd (kept.began other second).1 (by omega)
    · rw [Function.update_of_ne left] at first
      by_cases right : other = thread
      · rw [right, Function.update_self, Function.update_of_ne left] at same
        exact absurd (kept.began one first).1 (by omega)
      · rw [Function.update_of_ne right] at second
        rw [Function.update_of_ne left, Function.update_of_ne right] at same
        exact kept.apart one other first second same
  carried := by
    intro other value carries
    by_cases same : other = thread
    · subst same
      simp [Stage.carries] at carries
    · rw [Function.update_of_ne same] at carries
      simpa [Ledger.next, Ledger.record, same] using kept.carried other value carries
  settled := by
    intro other push linked current
    by_cases same : other = thread
    · subst same
      simp at linked
    · rw [Function.update_of_ne same] at linked
      simp only [Ledger.next, Ledger.record, Function.update_of_ne same] at current
      exact kept.settled other push linked current
  refused := by
    intro other refused
    by_cases same : other = thread
    · subst same
      simp at refused
    · rw [Function.update_of_ne same] at refused
      simpa [Ledger.next, Ledger.record, same] using kept.refused other refused
  returned := fun first finish member =>
    ⟨(kept.returned first finish member).1, Nat.le_succ_of_le (kept.returned first finish member).2⟩
  ordered := kept.ordered

/-- The value is stored in the node that will be linked. -/
theorem store (kept : Kept ledger stages) {thread : Thread} {pushCount : BitVec 64} {node : Address}
    (stage : stages thread = .holding pushCount node) (value : Value) :
    Kept (ledger.next thread ⟨.storeValue node value, ()⟩)
      (Function.update stages thread (.filled pushCount node value)) where
  linkedPushed := fun push member => List.mem_append_left _ (kept.linkedPushed push member)
  linkedOnce := kept.linkedOnce
  linkedBefore := fun push member => Nat.lt_succ_of_lt (kept.linkedBefore push member)
  began := by
    intro other pushing
    have before : (stages other).pushing = true := by
      by_cases same : other = thread
      · rw [same, stage]
        rfl
      · rwa [Function.update_of_ne same] at pushing
    exact ⟨Nat.lt_succ_of_lt (kept.began other before).1, (kept.began other before).2⟩
  apart := by
    have before : forall other, (Function.update stages thread (.filled pushCount node value) other).pushing
        = true -> (stages other).pushing = true := by
      intro other pushing
      by_cases same : other = thread
      · rw [same, stage]
        rfl
      · rwa [Function.update_of_ne same] at pushing
    exact fun one other first second => kept.apart one other (before one first) (before other second)
  carried := by
    intro other stored carries
    by_cases same : other = thread
    · subst same
      simp only [Function.update_self, Stage.carries, Option.some.injEq] at carries
      simp [Ledger.next, Ledger.record, carries]
    · rw [Function.update_of_ne same] at carries
      have before := kept.carried other stored carries
      simp [Ledger.next, Ledger.record, same, before.1, before.2]
  settled := by
    intro other push linked current
    by_cases same : other = thread
    · subst same
      simp at linked
    · rw [Function.update_of_ne same] at linked
      simp only [Ledger.next, Ledger.record, Function.update_of_ne same] at current
      exact kept.settled other push linked current
  refused := by
    intro other refused
    by_cases same : other = thread
    · subst same
      simp at refused
    · rw [Function.update_of_ne same] at refused
      simpa [Ledger.next, Ledger.record, same] using kept.refused other refused
  returned := fun first finish member =>
    ⟨(kept.returned first finish member).1, Nat.le_succ_of_le (kept.returned first finish member).2⟩
  ordered := kept.ordered

/-- The node is linked. -/
theorem link (kept : Kept ledger stages) {thread : Thread} {pushCount : BitVec 64} {own : Address}
    {value : Value} (stage : stages thread = .ready pushCount own value) (node : Address)
    (exchange comparand : Key) :
    Kept (ledger.next thread ⟨.compareExchangeKey node exchange comparand, comparand⟩)
      (Function.update stages thread .linked) := by
  have carried := kept.carried thread value (by rw [stage]; rfl)
  have linked : (ledger.next thread ⟨.compareExchangeKey node exchange comparand, comparand⟩) =
      { ledger with
        linked := ledger.linked ++ [⟨ledger.began thread, value⟩], events := ledger.events + 1 } := by
    simp [Ledger.next, Ledger.record, carried.1]
  have own := kept.began thread (by rw [stage]; rfl)
  have others : forall other, (Function.update stages thread Stage.linked other).pushing = true ->
      other ≠ thread ∧ (stages other).pushing = true := by
    intro other pushing
    by_cases same : other = thread
    · rw [same, Function.update_self] at pushing
      cases pushing
    · exact ⟨same, by rwa [Function.update_of_ne same] at pushing⟩
  rw [linked]
  refine ⟨?_, ?_, ?_, ?_, ?_, ?_, ?_, ?_, ?_, ?_⟩
  · intro push member
    rcases List.mem_append.mp member with before | last
    · exact kept.linkedPushed push before
    · cases List.mem_singleton.mp last
      exact carried.2
  · rw [List.map_append]
    refine List.nodup_append.mpr ⟨kept.linkedOnce, by simp, ?_⟩
    rintro one first other second rfl
    cases List.mem_singleton.mp second
    exact own.2 first
  · intro push member
    rcases List.mem_append.mp member with before | last
    · exact Nat.lt_succ_of_lt (kept.linkedBefore push before)
    · cases List.mem_singleton.mp last
      exact Nat.lt_succ_of_lt own.1
  · intro other pushing
    have before := kept.began other (others other pushing).2
    refine ⟨Nat.lt_succ_of_lt before.1, ?_⟩
    intro member
    rw [List.map_append] at member
    rcases List.mem_append.mp member with earlier | last
    · exact before.2 earlier
    · have pushing' : (stages thread).pushing = true := by rw [stage]; rfl
      exact (others other pushing).1 (kept.apart other thread (others other pushing).2 pushing'
        (List.mem_singleton.mp last))
  · intro one other first second same
    exact kept.apart one other (others one first).2 (others other second).2 same
  · intro other stored carries
    by_cases same : other = thread
    · rw [same, Function.update_self] at carries
      cases carries
    · rw [Function.update_of_ne same] at carries
      exact kept.carried other stored carries
  · intro other push linked current
    by_cases same : other = thread
    · cases carried.1.symm.trans (same ▸ current)
      exact List.mem_append_right _ (List.mem_singleton_self _)
    · rw [Function.update_of_ne same] at linked
      exact List.mem_append_left _ (kept.settled other push linked current)
  · intro other refused
    by_cases same : other = thread
    · rw [same, Function.update_self] at refused
      cases refused
    · rw [Function.update_of_ne same] at refused
      exact kept.refused other refused
  · intro first finish member
    have before := kept.returned first finish member
    exact ⟨List.mem_append_left _ before.1, Nat.le_succ_of_le before.2⟩
  · -- A call that returned was linked before.
    intro first finish front second rest member after split
    rcases List.append_eq_append_iff.mp split with ⟨middle, rfl, tail⟩ | ⟨middle, split, tail⟩
    · cases middle with
      | nil => simpa using (kept.returned first finish member).1
      | cons last middle => simp at tail
    · cases middle with
      | nil =>
          rw [List.append_nil] at split
          rw [← split]
          exact (kept.returned first finish member).1
      | cons last middle =>
          rw [List.cons_append] at tail
          cases (List.cons.inj tail).1
          exact kept.ordered first finish front second middle member after split

/-- A thread begins to pop. -/
theorem claim (kept : Kept ledger stages) (thread : Thread) (size : BitVec 32) (stage : Stage)
    (pops : stage.pops = true) :
    Kept (ledger.next thread ⟨.decrementSize, size⟩) (Function.update stages thread stage) := by
  have others : forall other (property : Stage -> Prop),
      property (Function.update stages thread stage other) -> ¬ property stage ->
      other ≠ thread ∧ property (stages other) := by
    intro other property holds fails
    by_cases same : other = thread
    · rw [same, Function.update_self] at holds
      exact absurd holds fails
    · exact ⟨same, by rwa [Function.update_of_ne same] at holds⟩
  have notPushing : ¬ stage.pushing = true := by cases stage <;> simp [Stage.pops, Stage.pushing] at pops ⊢
  refine ⟨kept.linkedPushed, kept.linkedOnce, ?_, ?_, ?_, ?_, ?_, ?_, ?_, kept.ordered⟩
  · exact fun push member => Nat.lt_succ_of_lt (kept.linkedBefore push member)
  · intro other pushing
    have before := kept.began other (others other (·.pushing = true) pushing notPushing).2
    exact ⟨Nat.lt_succ_of_lt before.1, before.2⟩
  · intro one other first second same
    exact kept.apart one other (others one (·.pushing = true) first notPushing).2
      (others other (·.pushing = true) second notPushing).2 same
  · intro other value carries
    have before := others other (·.carries = some value) carries (by
      cases stage <;> simp [Stage.pops, Stage.carries] at pops ⊢)
    simpa [Ledger.next, Ledger.record, before.1] using kept.carried other value before.2
  · intro other push linked current
    have before := others other (· = .linked) linked (by rintro rfl; cases pops)
    simp only [Ledger.next, Ledger.record, Function.update_of_ne before.1] at current
    exact kept.settled other push before.2 current
  · intro other refused
    by_cases same : other = thread
    · simp [Ledger.next, Ledger.record, same]
    · rw [Function.update_of_ne same] at refused
      simpa [Ledger.next, Ledger.record, same] using kept.refused other refused
  · intro first finish member
    have before := kept.returned first finish member
    exact ⟨before.1, Nat.le_succ_of_le before.2⟩

/-- A call counts its value, and returns. -/
theorem finish (kept : Kept ledger stages) (thread : Thread) (size : BitVec 32)
    (stage : stages thread = .linked ∨ stages thread = .refused) :
    Kept (ledger.next thread ⟨.incrementSize, size⟩) (Function.update stages thread .idle) := by
  have calmer : Stage.Calmer (stages thread) .idle := by constructor <;> simp [Stage.pushing, Stage.carries]
  have calm := kept.calm thread .idle calmer ledger.popped (ledger.events + 1) (Nat.le_succ _)
  have fresh : forall first finish, (first, finish) ∈ (ledger.next thread ⟨.incrementSize, size⟩).returned ->
      (first, finish) ∈ ledger.returned ∨ first ∈ ledger.linked ∧ finish = ledger.events + 1 := by
    intro first finish member
    rcases List.mem_append.mp member with before | last
    · exact .inl before
    · rcases List.mem_map.mp last with ⟨push, current, same⟩
      cases same
      rw [Option.mem_toList] at current
      rcases stage with linked | refused
      · exact .inr ⟨kept.settled thread _ linked current, rfl⟩
      · rw [kept.refused thread refused] at current
        cases current
  refine ⟨calm.linkedPushed, calm.linkedOnce, calm.linkedBefore, calm.began, calm.apart, calm.carried,
    calm.settled, calm.refused, ?_, ?_⟩
  · intro first finish member
    rcases fresh first finish member with before | ⟨linked, rfl⟩
    · exact calm.returned first finish before
    · exact ⟨linked, Nat.le_refl _⟩
  · intro first finish front second rest member after split
    rcases fresh first finish member with before | ⟨linked, rfl⟩
    · exact kept.ordered first finish front second rest before after split
    · -- Every call in the queue began earlier.
      have inside : second ∈ ledger.linked := by
        have split' : ledger.linked = front ++ second :: rest := split
        rw [split']
        simp
      exact absurd (kept.linkedBefore second inside) (by omega)

end Kept

variable [DecidableEq Thread] {initial : State} {fuel : Nat}

/-- Operations by which a call begins, owns its value, or comes to its end. -/
def marks : Op -> Bool
  | .incrementPushs => true
  | .storeValue _ _ => true
  | .compareExchangeKey _ _ _ => true
  | .decrementSize => true
  | .incrementSize => true
  | _ => false

theorem Stage.calmer_track (stage : Stage) (event : Event operations) (quiet : marks event.op = false) :
    Stage.Calmer stage (stage.track event) := by
  unfold Stage.track
  split
  all_goals first
    | exact .refl _
    | (simp [marks] at quiet; done)
    | (constructor <;> simp [Stage.pushing, Stage.carries]; done)
    | (split <;> constructor <;> simp [Stage.pushing, Stage.carries])

theorem record_unmarked (ledger : Ledger Thread) (thread : Thread) (event : Event operations)
    (quiet : marks event.op = false) :
    Exists fun popped => ledger.record thread event = { ledger with popped := popped } := by
  rcases event with ⟨op, answer⟩
  cases op with
  | loadValue node => exact ⟨ledger.popped ++ [answer], rfl⟩
  | incrementPushs => cases quiet
  | storeValue node value => cases quiet
  | compareExchangeKey node exchange comparand => cases quiet
  | decrementSize => cases quiet
  | incrementSize => cases quiet
  | _ => exact ⟨ledger.popped, rfl⟩

/-- One event, at a stage that permits it. -/
theorem Kept.next {ledger : Ledger Thread} {stages : Thread -> Stage} (kept : Kept ledger stages)
    (thread : Thread) (event : Event operations) (permitted : (stages thread).permits event.op) :
    Kept (ledger.next thread event) (Function.update stages thread ((stages thread).track event)) := by
  rcases event with ⟨op, answer⟩
  cases op with
  | incrementPushs => exact kept.begin thread answer
  | storeValue node value =>
      rcases permitted with ⟨pushCount, stage⟩
      rw [stage]
      exact kept.store stage value
  | decrementSize =>
      have claimed : (stages thread).track ⟨.decrementSize, answer⟩ =
          if (answer : BitVec 32).toInt < 0 then .refused else .popping none 0 := by
        rw [show stages thread = .idle from permitted]
        rfl
      refine kept.claim thread answer _ ?_
      rw [claimed]
      split <;> rfl
  | incrementSize =>
      have done : (stages thread).track ⟨.incrementSize, answer⟩ = .idle := by
        rcases permitted with stage | stage
        · rw [stage]
          rfl
        · rw [stage]
          rfl
      rw [done]
      exact kept.finish thread answer permitted
  | compareExchangeKey node exchange comparand =>
      rcases permitted with ⟨_, pushCount, own, value, stage, _⟩
      have tracked : (stages thread).track ⟨.compareExchangeKey node exchange comparand, answer⟩ =
          if answer = comparand then .linked else stages thread := by
        rw [stage]
        rfl
      rw [tracked]
      by_cases given : answer = comparand
      · rw [if_pos given, given]
        exact kept.link stage node exchange comparand
      · have unchanged : ledger.record thread ⟨.compareExchangeKey node exchange comparand, answer⟩ =
            ledger := if_neg given
        rw [if_neg given, Ledger.next, unchanged]
        exact kept.calm thread _ (.refl _) ledger.popped _ (Nat.le_succ _)
  | _ =>
      rcases record_unmarked ledger thread ⟨_, answer⟩ rfl with ⟨popped, recorded⟩
      rw [Ledger.next, recorded]
      exact kept.calm thread _ (Stage.calmer_track _ _ rfl) popped _ (Nat.le_succ _)

theorem kept_preserved {rule : (queue Thread initial fuel).Rule} :
    calling.Preserved (queue Thread initial fuel) rule fun _ stages history =>
      Kept (ledger history) stages where
  initial := by
    constructor <;> simp [ledger, Ledger.empty, Stage.pushing, Stage.carries]
  takeUp := by
    intro s stages history thread kept _
    refine kept.calm thread .idle ?_ (ledger history).popped _ (Nat.le_refl _)
    constructor <;> simp [Stage.pushing, Stage.carries]
  surround := fun _ _ _ change => change.elim
  act := fun c thread op _ _ answer _ _ _ kept permitted _ _ =>
    ⟨trivial, kept.next thread ⟨op, answer⟩ permitted⟩

end Kept

end Queue
end LoginServer
