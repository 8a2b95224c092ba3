import LoginServer.Concurrency.Program
import Mathlib.Logic.Function.Basic

namespace LoginServer
namespace Database

open Concurrency

/-!
# The MySQL connector

Each thread has two pointers to one handle: `conn`, which `init` allocates once,
and `mysqlConnect`, which is null until `mysql_real_connect` has opened it.
`query` retries until the library says that it succeeded.  What is done with the
rows afterwards does not touch the connection.

The library may answer every call with success or with failure.  The rules of
its use are read from the course of the calls, for every handle.
-/

abbrev Handle := Nat

/-- The calls that matter to a handle, with `new MYSQL`. -/
inductive Call where
  | new
  | mysqlInit (handle : Handle)
  | mysqlRealConnect (handle : Handle)
  | mysqlQuery (handle : Handle)
  | mysqlClose (handle : Handle)

/-- `mysql_real_connect` returns the handle passed to it when it succeeds. -/
@[reducible] def Call.Answer : Call -> Type
  | .new => Handle
  | .mysqlInit _ => Bool
  | .mysqlRealConnect _ => Bool
  | .mysqlQuery _ => Bool
  | .mysqlClose _ => Unit

abbrev library : Interface := ⟨Call, Call.Answer⟩

abbrev DbProgram := Program library

def call (call : Call) : DbProgram call.Answer := Program.perform (I := library) call

/-- The thread-local pointers. -/
structure ThreadLocals where
  conn : Option Handle
  mysqlConnect : Option Handle

/-- `init`, with the value of `conn` behind it. -/
def init (conn : Option Handle) : DbProgram Handle := do
  match conn with
  | none =>
      let conn ← call .new
      let _ ← call (.mysqlInit conn)
      return conn
  | some conn =>
      call (.mysqlClose conn)
      let _ ← call (.mysqlInit conn)
      return conn

/-- `while (mysqlConnect == nullptr)`, at most `fuel` times. -/
def connect : (fuel : Nat) -> ThreadLocals -> DbProgram (Option (Handle × ThreadLocals))
  | _, ⟨conn, some mysqlConnect⟩ => return some (mysqlConnect, ⟨conn, some mysqlConnect⟩)
  | 0, ⟨_, none⟩ => return none
  | fuel + 1, ⟨conn, none⟩ => do
      let conn ← init conn
      let opened : Bool ← call (.mysqlRealConnect conn)
      connect fuel ⟨some conn, if opened then some conn else none⟩

/-- `query`: the loop around it, at most `fuel` times. -/
def query : (fuel : Nat) -> ThreadLocals -> DbProgram (Option ThreadLocals)
  | 0, _ => return none
  | fuel + 1, locals => do
      match ← connect fuel locals with
      | none => return none
      | some (mysqlConnect, locals) =>
          let succeeded : Bool ← call (.mysqlQuery mysqlConnect)
          if succeeded then return some locals
          else
            call (.mysqlClose mysqlConnect)
            query fuel locals

/-- A number of queries on one thread. -/
def queries (fuel : Nat) : (count : Nat) -> ThreadLocals -> DbProgram (Option ThreadLocals)
  | 0, locals => return some locals
  | count + 1, locals => do
      match ← query fuel locals with
      | none => return none
      | some locals => queries fuel count locals

/-- A thread that calls nothing but `query`. -/
def session (fuel count : Nat) : DbProgram (Option ThreadLocals) := queries fuel count ⟨none, none⟩

/-! ## The rules of use -/

/-- What the rules ask of a handle: whether it is connected, whether it may be
closed, and whether a query has failed since it was connected last. -/
structure Status where
  opened : Bool
  closable : Bool
  failed : Bool

abbrev Statuses := Handle -> Status

def untouched : Statuses := fun _ => ⟨false, false, false⟩

/-- `generous` lets a `mysql_init` that failed count as one of the handle. -/
def Statuses.next (generous : Bool) (statuses : Statuses) : Event library -> Statuses
  | ⟨.new, _⟩ => statuses
  | ⟨.mysqlInit handle, succeeded⟩ =>
      Function.update statuses handle { statuses handle with
        opened := false
        closable := (statuses handle).closable || succeeded || generous }
  | ⟨.mysqlRealConnect handle, succeeded⟩ =>
      if succeeded = true then
        Function.update statuses handle { statuses handle with opened := true, failed := false }
      else statuses
  | ⟨.mysqlQuery handle, succeeded⟩ =>
      if succeeded = true then statuses
      else Function.update statuses handle { statuses handle with failed := true }
  | ⟨.mysqlClose handle, _⟩ =>
      Function.update statuses handle { statuses handle with opened := false, closable := false }

/-- Queries are for connected handles, with no failure since, and a handle is
closed once for each `mysql_init`. -/
def Statuses.Allows (statuses : Statuses) : Call -> Prop
  | .mysqlQuery handle => (statuses handle).opened = true ∧ (statuses handle).failed = false
  | .mysqlClose handle => (statuses handle).closable = true
  | _ => True

/-- Calls that keep to the rules, in order. -/
def Correct (generous : Bool) : Statuses -> List (Event library) -> Prop
  | _, [] => True
  | statuses, event :: rest =>
      statuses.Allows event.op ∧ Correct generous (statuses.next generous event) rest

/-- No query fails, and unless a failed `mysql_init` counts, no
`mysql_real_connect` fails after one. -/
def Harmless (generous : Bool) : (initFailed : Bool) -> List (Event library) -> Prop
  | _, [] => True
  | initFailed, ⟨.mysqlInit _, succeeded⟩ :: rest => Harmless generous (initFailed || !succeeded) rest
  | initFailed, ⟨.mysqlRealConnect _, succeeded⟩ :: rest =>
      (succeeded = true ∨ initFailed = false ∨ generous = true) ∧ Harmless generous initFailed rest
  | initFailed, ⟨.mysqlQuery _, succeeded⟩ :: rest => succeeded = true ∧ Harmless generous initFailed rest
  | initFailed, _ :: rest => Harmless generous initFailed rest

/-! ## The events of the functions -/

/-- `init` closes a handle it has, allocates one it has not, and initialises it. -/
def Prepares (conn : Option Handle) (handle : Handle) (event : Event library) : Prop :=
  (conn = none ∧ event = ⟨.new, handle⟩) ∨ (conn = some handle ∧ event = ⟨.mysqlClose handle, ()⟩)

theorem init_runs {conn : Option Handle} {events : List (Event library)} {handle : Handle}
    (run : (init conn).Runs events handle) :
    Exists fun event => Exists fun succeeded : Bool =>
      Prepares conn handle event ∧ events = [event, ⟨.mysqlInit handle, succeeded⟩] := by
  cases conn with
  | none =>
      rcases run with - | ⟨handle', - | ⟨succeeded, - | -⟩⟩
      exact ⟨_, succeeded, Or.inl ⟨rfl, rfl⟩, rfl⟩
  | some conn =>
      rcases run with - | ⟨-, - | ⟨succeeded, - | -⟩⟩
      exact ⟨_, succeeded, Or.inr ⟨rfl, rfl⟩, rfl⟩

theorem connect_opened {fuel : Nat} {conn : Option Handle} {mysqlConnect : Handle}
    {events : List (Event library)} {result : Option (Handle × ThreadLocals)}
    (run : (connect fuel ⟨conn, some mysqlConnect⟩).Runs events result) :
    events = [] ∧ result = some (mysqlConnect, ⟨conn, some mysqlConnect⟩) := by
  have done : connect fuel ⟨conn, some mysqlConnect⟩ =
      .done (some (mysqlConnect, ⟨conn, some mysqlConnect⟩)) := by
    cases fuel <;> rfl
  rw [done, Program.runs_done_iff] at run
  exact ⟨run.1, run.2.symm⟩

/-- One round of the loop. -/
theorem connect_round {fuel : Nat} {conn : Option Handle} {events : List (Event library)}
    {result : Option (Handle × ThreadLocals)} (run : (connect (fuel + 1) ⟨conn, none⟩).Runs events result) :
    Exists fun handle => Exists fun event => Exists fun succeeded : Bool => Exists fun opened : Bool =>
      Exists fun rest => Prepares conn handle event ∧
        events = event :: ⟨.mysqlInit handle, succeeded⟩ :: ⟨.mysqlRealConnect handle, opened⟩ :: rest ∧
        (connect fuel ⟨some handle, if opened then some handle else none⟩).Runs rest result := by
  rcases (Program.runs_bind_iff _ _ _ _).mp run with ⟨first, second, handle, rfl, initialised, later⟩
  rcases init_runs initialised with ⟨event, succeeded, prepares, rfl⟩
  rcases later with - | ⟨opened, rest⟩
  exact ⟨handle, event, succeeded, opened, _, prepares, rfl, rest⟩

/-- One round of the loop of `query`. -/
theorem query_round {fuel : Nat} {locals : ThreadLocals} {events : List (Event library)}
    {result : Option ThreadLocals} (run : (query (fuel + 1) locals).Runs events result) :
    Exists fun first => Exists fun connected => (connect fuel locals).Runs first connected ∧
      ((connected = none ∧ events = first ∧ result = none) ∨
        Exists fun mysqlConnect => Exists fun locals' => connected = some (mysqlConnect, locals') ∧
          ((events = first ++ [⟨.mysqlQuery mysqlConnect, true⟩] ∧ result = some locals') ∨
            Exists fun rest =>
              events = first ++ ⟨.mysqlQuery mysqlConnect, false⟩ :: ⟨.mysqlClose mysqlConnect, ()⟩ :: rest ∧
                (query fuel locals').Runs rest result)) := by
  rcases (Program.runs_bind_iff _ _ _ _).mp run with ⟨first, second, connected, rfl, loop, later⟩
  refine ⟨first, connected, loop, ?_⟩
  rcases connected with - | ⟨mysqlConnect, locals'⟩
  · cases later
    exact Or.inl ⟨rfl, List.append_nil _, rfl⟩
  · refine Or.inr ⟨mysqlConnect, locals', rfl, ?_⟩
    rcases (Program.runs_step_iff _ _ _ _).mp later with ⟨succeeded, rest, rfl, afterwards⟩
    rcases succeeded with - | -
    · rcases (Program.runs_step_iff _ _ _ _).mp afterwards with ⟨_, rest, rfl, again⟩
      exact Or.inr ⟨rest, rfl, again⟩
    · rcases (Program.runs_done_iff _ _ _).mp afterwards with ⟨rfl, rfl⟩
      exact Or.inl ⟨rfl, rfl⟩

/-! ## Soundness and completeness of the condition -/

section Rules

variable (generous : Bool)

def Statuses.after (statuses : Statuses) (events : List (Event library)) : Statuses :=
  events.foldl (Statuses.next generous) statuses

/-- Whether a `mysql_init` has failed. -/
def initFailedAfter (initFailed : Bool) : List (Event library) -> Bool
  | [] => initFailed
  | ⟨.mysqlInit _, succeeded⟩ :: rest => initFailedAfter (initFailed || !succeeded) rest
  | _ :: rest => initFailedAfter initFailed rest

theorem correct_append (statuses : Statuses) (first second : List (Event library)) :
    Correct generous statuses (first ++ second) ↔
      Correct generous statuses first ∧ Correct generous (statuses.after generous first) second := by
  induction first generalizing statuses with
  | nil => simp [Correct, Statuses.after]
  | cons event rest inductionHypothesis =>
      simp only [List.cons_append, Correct, inductionHypothesis, and_assoc]
      rfl

theorem harmless_append (initFailed : Bool) (first second : List (Event library)) :
    Harmless generous initFailed (first ++ second) ↔
      Harmless generous initFailed first ∧
        Harmless generous (initFailedAfter initFailed first) second := by
  induction first generalizing initFailed with
  | nil => simp [Harmless, initFailedAfter]
  | cons event rest inductionHypothesis =>
      rcases event with ⟨- | _ | _ | _ | _, answer⟩ <;>
        simp only [List.cons_append, Harmless, initFailedAfter, inductionHypothesis, and_assoc]

/-- The pointers of a thread between its calls fit the handles. -/
def Usable (initFailed : Bool) (statuses : Statuses) : ThreadLocals -> Prop
  | ⟨none, none⟩ => statuses = untouched ∧ initFailed = false
  | ⟨some conn, none⟩ =>
      (statuses conn).closable = true ∧ (initFailed = false ∨ generous = true)
  | ⟨conn, some mysqlConnect⟩ => conn = some mysqlConnect ∧
      (statuses mysqlConnect).opened = true ∧ (statuses mysqlConnect).failed = false

variable {generous} {fuel : Nat} {initFailed : Bool} {statuses : Statuses} {events : List (Event library)}

/-- A handle behind `init`. -/
theorem prepared {conn : Option Handle} {handle : Handle} {event : Event library}
    (usable : Usable generous initFailed statuses ⟨conn, none⟩) (prepares : Prepares conn handle event)
    (succeeded : Bool) :
    statuses.Allows event.op ∧
      (Statuses.after generous statuses [event, ⟨.mysqlInit handle, succeeded⟩] handle).closable =
        (succeeded || generous) := by
  rcases prepares with ⟨rfl, rfl⟩ | ⟨rfl, rfl⟩
  · rw [usable.1]
    exact ⟨trivial, by simp [Statuses.after, Statuses.next, untouched]⟩
  · exact ⟨usable.1, by simp [Statuses.after, Statuses.next]⟩

/-- With a handle that must not be closed, no connection is made by the rules. -/
theorem connect_closed {handle : Handle} {result : Option (Handle × ThreadLocals)}
    (closed : (statuses handle).closable = false)
    (run : (connect fuel ⟨some handle, none⟩).Runs events result) (returns : result.isSome = true) :
    ¬ Correct generous statuses events := by
  rcases fuel with - | fuel
  · cases run
    cases returns
  · rcases connect_round run with ⟨handle', event, succeeded, opened, rest, prepares, rfl, -⟩
    rcases prepares with ⟨impossible, -⟩ | ⟨same, rfl⟩
    · cases impossible
    · cases same
      intro correct
      exact Bool.noConfusion (closed.symm.trans correct.1)

theorem already {conn : Option Handle} {mysqlConnect : Handle} {result : Option (Handle × ThreadLocals)}
    (usable : Usable generous initFailed statuses ⟨conn, some mysqlConnect⟩)
    (run : (connect fuel ⟨conn, some mysqlConnect⟩).Runs events result) :
    Harmless generous initFailed events ∧ Correct generous statuses events ∧
      forall mysqlConnect locals', result = some (mysqlConnect, locals') ->
        locals' = ⟨some mysqlConnect, some mysqlConnect⟩ ∧
          Usable generous (initFailedAfter initFailed events) (statuses.after generous events) locals' := by
  rcases connect_opened run with ⟨rfl, rfl⟩
  have same : conn = some mysqlConnect := by
    cases conn <;> exact usable.1
  subst same
  refine ⟨trivial, trivial, ?_⟩
  rintro _ _ ⟨⟩
  exact ⟨rfl, usable⟩

theorem connect_sound {locals : ThreadLocals} {result : Option (Handle × ThreadLocals)}
    (usable : Usable generous initFailed statuses locals) (run : (connect fuel locals).Runs events result)
    (either : Harmless generous initFailed events ∨
      result.isSome = true ∧ Correct generous statuses events) :
    Harmless generous initFailed events ∧ Correct generous statuses events ∧
      forall mysqlConnect locals', result = some (mysqlConnect, locals') ->
        locals' = ⟨some mysqlConnect, some mysqlConnect⟩ ∧
          Usable generous (initFailedAfter initFailed events) (statuses.after generous events) locals' := by
  induction fuel generalizing locals initFailed statuses events with
  | zero =>
      rcases locals with ⟨conn, - | mysqlConnect⟩
      · cases run
        exact ⟨trivial, trivial, by simp⟩
      · exact already usable run
  | succ fuel inductionHypothesis =>
      rcases locals with ⟨conn, - | mysqlConnect⟩
      case some => exact already usable run
      rcases connect_round run with ⟨handle, event, succeeded, opened, rest, prepares, rfl, later⟩
      rcases prepared usable prepares succeeded with ⟨allowed, closable⟩
      have skips : forall tail, Harmless generous initFailed (event :: tail) ↔
          Harmless generous initFailed tail := by
        rcases prepares with ⟨-, rfl⟩ | ⟨-, rfl⟩ <;> exact fun _ => Iff.rfl
      have before : initFailed = false ∨ generous = true := by
        rcases conn with - | conn
        · exact Or.inl usable.2
        · exact usable.2
      generalize ready : statuses.after generous [event, ⟨.mysqlInit handle, succeeded⟩] = middle at closable
      have correct_iff (tail : List (Event library)) : Correct generous statuses
          (event :: ⟨.mysqlInit handle, succeeded⟩ :: tail) ↔ Correct generous middle tail := by
        rw [← ready]
        exact ⟨fun correct => correct.2.2, fun correct => ⟨allowed, trivial, correct⟩⟩
      have final (tail : List (Event library)) :
          statuses.after generous (event :: ⟨.mysqlInit handle, succeeded⟩ :: tail) =
            middle.after generous tail := by
        rw [← ready]
        rfl
      have failures (tail : List (Event library)) :
          initFailedAfter initFailed (event :: ⟨.mysqlInit handle, succeeded⟩ :: tail) =
            initFailedAfter (initFailed || !succeeded) tail := by
        rcases prepares with ⟨-, rfl⟩ | ⟨-, rfl⟩ <;> rfl
      rw [skips, correct_iff] at either ⊢
      rw [final, failures]
      cases opened with
      | true =>
          have connected : Usable generous (initFailed || !succeeded)
              (middle.next generous ⟨.mysqlRealConnect handle, true⟩) ⟨some handle, some handle⟩ := by
            simp [Usable, Statuses.next]
          rcases already connected later with ⟨harmless, correct, usable⟩
          exact ⟨⟨Or.inl rfl, harmless⟩, ⟨trivial, correct⟩, usable⟩
      | false =>
          by_cases again : (succeeded || generous) = true
          · have known : (initFailed || !succeeded) = false ∨ generous = true := by
              rcases Bool.or_eq_true_iff.mp again with initialised | counts
              · simpa [initialised] using before
              · exact Or.inr counts
            have disconnected : Usable generous (initFailed || !succeeded) middle ⟨some handle, none⟩ :=
              ⟨closable.trans again, known⟩
            rcases inductionHypothesis disconnected later
                (either.imp (fun harmless => harmless.2) fun both => ⟨both.1, both.2.2⟩) with
              ⟨harmless, correct, usable⟩
            exact ⟨⟨Or.inr known, harmless⟩, ⟨trivial, correct⟩, usable⟩
          · rw [Bool.not_eq_true] at again
            exfalso
            rcases either with harmless | ⟨returns, correct⟩
            · have strict := Bool.or_eq_false_iff.mp again
              simpa [strict.1, strict.2] using harmless.1
            · exact connect_closed (closable.trans again) later returns correct.2

/-- With a connection that has been closed, no query returns by the rules. -/
theorem query_closed {conn : Option Handle} {mysqlConnect : Handle} {result : Option ThreadLocals}
    (closed : (statuses mysqlConnect).opened = false)
    (run : (query fuel ⟨conn, some mysqlConnect⟩).Runs events result) (returns : result.isSome = true) :
    ¬ Correct generous statuses events := by
  rcases fuel with - | fuel
  · cases run
    cases returns
  · rcases query_round run with ⟨first, connected, loop, outcome⟩
    rcases connect_opened loop with ⟨rfl, rfl⟩
    intro correct
    rcases outcome with ⟨impossible, -⟩ | ⟨_, _, same, outcome⟩
    · cases impossible
    · cases same
      rcases outcome with ⟨rfl, -⟩ | ⟨rest, rfl, -⟩
      · exact Bool.noConfusion (closed.symm.trans correct.1.1)
      · exact Bool.noConfusion (closed.symm.trans correct.1.1)

/-- A query that keeps to the condition keeps to the rules, and one that returns
keeps to the condition if it keeps to the rules. -/
theorem query_sound {locals : ThreadLocals} {result : Option ThreadLocals}
    (usable : Usable generous initFailed statuses locals) (run : (query fuel locals).Runs events result)
    (either : Harmless generous initFailed events ∨
      result.isSome = true ∧ Correct generous statuses events) :
    Harmless generous initFailed events ∧ Correct generous statuses events ∧
      forall locals', result = some locals' ->
        Usable generous (initFailedAfter initFailed events) (statuses.after generous events) locals' := by
  rcases fuel with - | fuel
  · cases run
    exact ⟨trivial, trivial, by simp⟩
  rcases query_round run with ⟨first, connected, loop, outcome⟩
  rcases outcome with ⟨rfl, rfl, rfl⟩ | ⟨mysqlConnect, locals', rfl, outcome⟩
  · have harmless := either.resolve_right fun both => Bool.noConfusion both.1
    rcases connect_sound usable loop (Or.inl harmless) with ⟨_, correct, _⟩
    exact ⟨harmless, correct, by simp⟩
  · rcases outcome with ⟨rfl, rfl⟩ | ⟨rest, rfl, again⟩
    · rw [harmless_append, correct_append] at either ⊢
      rcases connect_sound usable loop (either.imp And.left fun both => ⟨rfl, both.2.1⟩) with
        ⟨harmless, correct, connected⟩
      rcases connected _ _ rfl with ⟨rfl, ready⟩
      refine ⟨⟨harmless, rfl, trivial⟩, ⟨correct, ready.2, trivial⟩, ?_⟩
      have unchanged : statuses.after generous (first ++ [⟨.mysqlQuery mysqlConnect, true⟩]) =
          statuses.after generous first := by
        simp [Statuses.after, Statuses.next]
      rintro _ ⟨⟩
      rw [unchanged]
      exact ready
    · exfalso
      rw [harmless_append, correct_append] at either
      rcases either with ⟨_, failed, _⟩ | ⟨returns, before, after⟩
      · cases failed
      · rcases connect_sound usable loop (Or.inr ⟨rfl, before⟩) with ⟨_, _, connected⟩
        rcases connected _ _ rfl with ⟨rfl, _⟩
        refine query_closed ?_ again returns after.2.2
        simp [Statuses.next]

theorem queries_sound {count : Nat} {locals : ThreadLocals} {result : Option ThreadLocals}
    (usable : Usable generous initFailed statuses locals)
    (run : (queries fuel count locals).Runs events result)
    (either : Harmless generous initFailed events ∨
      result.isSome = true ∧ Correct generous statuses events) :
    Harmless generous initFailed events ∧ Correct generous statuses events := by
  induction count generalizing locals initFailed statuses events with
  | zero =>
      cases run
      exact ⟨trivial, trivial⟩
  | succ count inductionHypothesis =>
      rcases (Program.runs_bind_iff _ _ _ _).mp run with ⟨first, second, answered, rfl, one, later⟩
      rw [harmless_append, correct_append] at either ⊢
      rcases answered with - | locals'
      · cases later
        have harmless := either.resolve_right fun both => Bool.noConfusion both.1
        rcases query_sound usable one (Or.inl harmless.1) with ⟨_, correct, _⟩
        exact ⟨harmless, correct, trivial⟩
      · rcases query_sound usable one (either.imp And.left fun both => ⟨rfl, both.2.1⟩) with
          ⟨harmless, correct, next⟩
        rcases inductionHypothesis (next _ rfl) later (either.imp And.right fun both => ⟨both.1, both.2.2⟩) with
          ⟨harmless', correct'⟩
        exact ⟨⟨harmless, harmless'⟩, correct, correct'⟩

end Rules

/-- Whatever the library answers, and whether or not a failed `mysql_init` counts:
as long as no query fails, and no connection after a failed `mysql_init`, the
calls of a thread keep to the rules, and those of queries that have all returned
break them otherwise. -/
theorem connection_correct_iff (generous : Bool) (fuel count : Nat) (events : List (Event library))
    (result : Option ThreadLocals) (run : (session fuel count).Runs events result) :
    (Harmless generous false events -> Correct generous untouched events) ∧
      (result.isSome = true -> Correct generous untouched events -> Harmless generous false events) := by
  have fresh : Usable generous false untouched ⟨none, none⟩ := ⟨rfl, rfl⟩
  constructor
  · intro harmless
    exact (queries_sound fresh run (Or.inl harmless)).2
  · intro returns correct
    exact (queries_sound fresh run (Or.inr ⟨returns, correct⟩)).1

/-- The first attempt to connect fails; two queries go over the second one. -/
def secondAttempt : List (Event library) :=
  [⟨.new, (7 : Nat)⟩, ⟨.mysqlInit 7, true⟩, ⟨.mysqlRealConnect 7, false⟩, ⟨.mysqlClose 7, ()⟩,
    ⟨.mysqlInit 7, true⟩, ⟨.mysqlRealConnect 7, true⟩, ⟨.mysqlQuery 7, true⟩, ⟨.mysqlQuery 7, true⟩]

theorem secondAttempt_run : (session 3 2).Runs secondAttempt (some ⟨some 7, some 7⟩) :=
  .step _ (.step _ (.step _ (.step _ (.step _ (.step _ (.step _ (.step _ (.done _))))))))

theorem connection_correct_secondAttempt : Correct false untouched secondAttempt :=
  (connection_correct_iff false 3 2 secondAttempt _ secondAttempt_run).1
    ⟨Or.inr (Or.inl rfl), Or.inl rfl, rfl, rfl, trivial⟩

/-- A query that fails once. -/
def failedQuery : List (Event library) :=
  [⟨.new, (7 : Nat)⟩, ⟨.mysqlInit 7, true⟩, ⟨.mysqlRealConnect 7, true⟩, ⟨.mysqlQuery 7, false⟩,
    ⟨.mysqlClose 7, ()⟩, ⟨.mysqlQuery 7, true⟩]

/-- The second attempt goes to the handle just closed. -/
theorem failedQuery_incorrect : (session 2 1).Runs failedQuery (some ⟨some 7, some 7⟩) ∧
    forall generous, ¬ Correct generous untouched failedQuery := by
  refine ⟨.step _ (.step _ (.step _ (.step _ (.step _ (.step _ (.done _)))))), ?_⟩
  rintro generous ⟨_, _, _, _, _, ⟨opened, _⟩, _⟩
  exact absurd opened (by simp [Statuses.next])

end Database
end LoginServer
