import LoginServer.Network.Senders

namespace LoginServer
namespace Network

open Memory Buffers Receiving Login Concurrency

/-!
# The rounds of `sended`

To the answer -1 of `sended`, `workerThread` goes on to its next round without
giving back the hold or the flag.  The loop has no such answer in mind, but its
counter is an `int`: it is -1 after 2^32 - 1 rounds.  A transfer that ends
inside a packet can take so many, when the last packet of `sendedBuffer` is
subtracted over and over until nothing is left.

The loop is followed here by what a thread has popped since `OnSend`.  When no
round brings both the transfer to 0 and the counter to -1, the answer -1 does
not occur.
-/

/-- The variables of the loop. -/
structure SendedLoop where
  transfer : BitVec 32
  packetBuffer : Option Packet
  sendedCount : BitVec 32

namespace SendedLoop

/-- One round, with what `pop` delivers. -/
def round (loop : SendedLoop) (popped : Option Packet) : SendedLoop :=
  match popped.or loop.packetBuffer with
  | none => loop
  | some packet =>
      ⟨loop.transfer - BitVec.ofNat 32 packet.size, some packet, loop.sendedCount + 1⟩

/-- Nothing is left of the transfer, and the counter says -1. -/
def fails (loop : SendedLoop) : Bool := loop.transfer == 0 && loop.sendedCount == -1

/-- The loop begins after `OnSend` and is over when the flag is given back. -/
def track : Option SendedLoop -> Event interface -> Option SendedLoop
  | _, ⟨.mark (.onSend _ _ transfer), _⟩ => some ⟨transfer, none, 0⟩
  | _, ⟨.session _ (.storeSendFlag _), _⟩ => none
  | some loop, ⟨.session _ .popSended, popped⟩ => some (loop.round popped)
  | loop, _ => loop

/-- Whether an event is the round after which the loop ends with -1. -/
def miscounts (loop : Option SendedLoop) (event : Event interface) : Bool :=
  match event.op with
  | .session _ .popSended => (track loop event).any fails
  | _ => false

end SendedLoop

/-- `workerThread` takes the answer of `sended` for a failure. -/
def Op.failsSended : Op -> Bool
  | .mark (.sendedFailed _) => true
  | _ => false

/-- The loop of `sended` that a thread is in. -/
def sendedLoops : Discipline interface where
  Ghost := Option SendedLoop
  start := none
  track := SendedLoop.track
  permits := fun _ op => op.failsSended = false
  expects := fun loop event => SendedLoop.miscounts loop event = false
  finish := fun _ => True
  finish_start := trivial

/-! ## Functions -/

/-- A program in which `sended` answers -1 to nobody. -/
abbrev Unfailing {α : Type} (program : NetProgram α) : Prop :=
  program.Uses fun (op : Op) => op.failsSended = false

section Functions

variable {fuel : Nat} {α : Type}

/-- Such a program may leave the loop wherever it likes. -/
theorem Unfailing.obeys {program : NetProgram α} (unfailing : Unfailing program) (loop : Option SendedLoop) :
    sendedLoops.Obeys program loop fun _ _ => True := by
  induction program generalizing loop with
  | done value => trivial
  | step op next inductionHypothesis =>
      exact ⟨unfailing.1, fun answer _ => inductionHypothesis answer (unfailing.2 answer) _⟩

theorem unfailing_of {op : Op} (other : forall slot, op ≠ .mark (.sendedFailed slot)) :
    op.failsSended = false := by
  unfold Op.failsSended
  split
  next slot => exact absurd rfl (other slot)
  next => rfl

theorem giveBack_unfailing (slot : Slot) : Unfailing (giveBack fuel slot) :=
  (giveBack_closes fuel slot).mono fun _ closes => unfailing_of fun _ same => by
    rw [same] at closes
    cases closes

theorem Aside.unfailing {program : NetProgram α} (aside : Aside fuel program) : Unfailing program := by
  refine aside.uses ?_ giveBack_unfailing
  intro op isAside
  refine unfailing_of ?_
  rintro slot rfl
  cases isAside

theorem sendIo_unfailing (slot : Slot) : Unfailing (sendIo fuel slot) := by
  refine (sendIo_io slot).uses ?_ giveBack_unfailing
  intro op io
  refine unfailing_of ?_
  rintro target rfl
  cases io

theorem handleRequest_unfailing (slot : Slot) (packet : Packet) :
    Unfailing (handleRequest fuel slot packet) := by
  have pushed : Unfailing (push slot packet) := by
    refine ⟨rfl, fun (allocated : Bool) => ?_⟩
    cases allocated with
    | true => exact ⟨rfl, fun _ => ⟨rfl, fun _ => trivial⟩⟩
    | false => trivial
  refine pushed.bind fun collected => ?_
  cases collected with
  | true => exact sendIo_unfailing slot
  | false =>
      have released : Aside fuel (releaseSerializer packet.pointer) := releaseSerializer_aside packet.pointer
      exact released.unfailing

/-- The loop of `sended` keeps its variables, and answers what it has counted. -/
theorem sendedLoop_counts (slot : Slot) (rounds : Nat) (transfer : BitVec 32) (packetBuffer : Option Packet)
    (sendedCount : BitVec 32) (ends : transfer = 0 -> sendedCount ≠ -1) :
    sendedLoops.Obeys (sendedLoop slot rounds transfer packetBuffer sendedCount)
      (some ⟨transfer, packetBuffer, sendedCount⟩) fun _ tp => tp ≠ -1 := by
  induction rounds generalizing transfer packetBuffer sendedCount with
  | zero => exact ⟨rfl, fun answer => Empty.elim answer⟩
  | succ rounds inductionHypothesis =>
      unfold sendedLoop
      split
      next nothing => exact ends nothing
      next =>
        refine ⟨rfl, fun (popped : Option Packet) expected => ?_⟩
        simp only [Program.bind]
        split
        next => exact ⟨rfl, fun answer => Empty.elim answer⟩
        next packet front =>
          have next : sendedLoops.track (some ⟨transfer, packetBuffer, sendedCount⟩)
              ⟨.session slot .popSended, popped⟩ =
                some ⟨transfer - BitVec.ofNat 32 packet.size, some packet, sendedCount + 1⟩ := by
            simp only [sendedLoops, SendedLoop.track, SendedLoop.round, front]
          have goesOn : transfer - BitVec.ofNat 32 packet.size = 0 -> sendedCount + 1 ≠ -1 := by
            intro nothing failed
            have miscounted : SendedLoop.miscounts (some ⟨transfer, packetBuffer, sendedCount⟩)
                ⟨.session slot .popSended, popped⟩ = true := by
              change (sendedLoops.track (some ⟨transfer, packetBuffer, sendedCount⟩)
                ⟨.session slot .popSended, popped⟩).any SendedLoop.fails = true
              rw [next, nothing, failed]
              rfl
            cases miscounted.symm.trans expected
          rw [next]
          have released : sendedLoops.Keeps (releaseSerializer packet.pointer)
              (some ⟨transfer - BitVec.ofNat 32 packet.size, some packet, sendedCount + 1⟩) := by
            refine ⟨rfl, fun (count : Int) _ => ?_⟩
            change sendedLoops.Keeps (if count = 0 then _ else _) _
            split
            · exact ⟨rfl, fun _ _ => rfl⟩
            · rfl
          exact released.bindTo fun _ => inductionHypothesis _ _ _ goesOn

theorem handleSend_counts (slot : Slot) {transfer : BitVec 32} (something : transfer ≠ 0)
    (loop : Option SendedLoop) :
    sendedLoops.Obeys (handleSend fuel slot transfer) loop fun _ _ => True := by
  refine ⟨rfl, fun id _ => ⟨rfl, fun _ _ => ?_⟩⟩
  have answered : sendedLoops.Obeys (sended fuel slot transfer) (some ⟨transfer, none, 0⟩) fun _ tp => tp ≠ -1 := by
    unfold sended
    rw [if_neg something]
    exact sendedLoop_counts slot fuel transfer none 0 fun nothing => absurd nothing something
  refine answered.bind fun loop tp goesOn => ?_
  rw [if_neg goesOn]
  refine ⟨rfl, fun _ _ => ⟨rfl, fun (size : Int) _ => ?_⟩⟩
  change sendedLoops.Obeys (if size > 0 then _ else _) _ _
  split
  · exact ((sendIo_unfailing slot).obeys _).bind fun _ _ _ => trivial
  · trivial

theorem workerThread_counts : sendedLoops.Obeys (workerThread fuel) none fun _ _ => True := by
  refine ⟨rfl, fun (completion : Completion) _ => ?_⟩
  change sendedLoops.Obeys (if completion.success then _ else _) _ _
  have returned (loop : Option SendedLoop) :
      sendedLoops.Obeys (giveBack fuel completion.slot) loop fun _ _ => True :=
    (giveBack_unfailing completion.slot).obeys loop
  split
  · have handled : sendedLoops.Obeys (handleCompletion fuel completion) none fun _ _ => True := by
      unfold handleCompletion
      split
      · split
        · exact ((handleRequest_unfailing _ _).obeys _).bind fun _ _ _ => trivial
        · trivial
      next something =>
        split
        · exact handleSend_counts _ something none
        · exact (handleRecv_aside _ _).unfailing.obeys none
        · trivial
    refine handled.bind fun loop given _ => ?_
    cases given with
    | true => exact returned loop
    | false => trivial
  · exact returned none

theorem acceptThread_unfailing : Unfailing (acceptThread fuel) := by
  refine ⟨rfl, fun (accepted : Option Nat) => ?_⟩
  cases accepted with
  | none => trivial
  | some clientSock =>
      refine ⟨rfl, fun (popped : Option Slot) => ?_⟩
      cases popped with
      | none => exact ⟨rfl, fun _ => trivial⟩
      | some index =>
          refine ⟨rfl, fun sessionCount => ?_⟩
          have opened (id : SessionID) : Unfailing (init index id clientSock) :=
            ⟨rfl, fun _ => ⟨rfl, fun _ => ⟨rfl, fun _ => ⟨rfl, fun _ => ⟨rfl, fun _ =>
              ⟨rfl, fun _ => trivial⟩⟩⟩⟩⟩⟩
          have introduced (id : SessionID) : Aside fuel (onNewConnect fuel id) := onNewConnect_aside id
          have posted : Aside fuel (recvIo fuel index) := recvIo_aside index
          refine (opened _).bind fun _ => (introduced _).unfailing.bind fun _ => ?_
          exact posted.unfailing.bind fun _ => giveBack_unfailing index

theorem jobs_counts {workers contents : Nat} {settings : Settings} {thread : Thread workers contents}
    {job : Job} {program : NetProgram Unit} (chosen : jobProgram settings thread job = some program) :
    sendedLoops.Obeys program sendedLoops.start fun loop _ => sendedLoops.finish loop := by
  cases thread <;> cases job <;> cases chosen
  case accept.loop => exact acceptThread_unfailing.obeys none
  case worker.loop => exact workerThread_counts
  case timeout.loop => exact (update_aside settings.timeoutThreshold).unfailing.obeys none
  case content.call call =>
      have aside : Aside settings.fuel (call.program settings.fuel) := contentCall_aside call
      exact aside.unfailing.obeys none

end Functions

/-! ## Runs -/

section Runs

variable {workers contents : Nat} {settings : Settings}

/-- No call of `sended` is down to a rest of 0 in the very round in which its counter comes to
-1, which takes 2^32 - 1 rounds and a transfer that ends inside a packet. -/
def countsRight : (server settings workers contents).Rule := fun c thread event =>
  SendedLoop.miscounts (sendedLoops.ghosts c thread) event = false

instance (c : (server settings workers contents).Config) (thread : Thread workers contents)
    (event : Event interface) : Decidable (countsRight c thread event) :=
  inferInstanceAs (Decidable (_ = false))

/-- Then no worker takes the answer of `sended` for a failure. -/
theorem answered_of_countsRight {c : (server settings workers contents).Config}
    (reach : (server settings workers contents).Reach countsRight c) {thread : Thread workers contents} {op : Op}
    {next : op.Answer -> NetProgram Unit} (turn : c.running thread = .step (I := interface) op next)
    (slot : Slot) : op ≠ .mark (.sendedFailed slot) := by
  rintro rfl
  have preserved : sendedLoops.Preserved (server settings workers contents) countsRight fun _ _ _ => True :=
    ⟨trivial, fun _ _ _ _ _ _ _ _ _ _ _ _ lawful => ⟨lawful, trivial⟩, fun _ _ _ _ _ _ => trivial,
      fun _ _ _ _ _ _ _ => trivial⟩
  have obeys := (Discipline.sound preserved (fun _ _ _ => jobs_counts) reach).2 thread
  rw [turn] at obeys
  cases (obeys.1 : Op.failsSended (.mark (.sendedFailed slot)) = false)

end Runs

end Network
end LoginServer
