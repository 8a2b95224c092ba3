import LoginServer.Receiving.Packet

namespace LoginServer
namespace Receiving

open Memory Buffers

/-!
# When the extraction loop is sound

A call of `recvedPacket` is sound if acceptance removes at least a header's
worth of bytes and hands over exactly these, and refusal changes nothing.  A
loop all of whose calls are sound takes five bytes per packet and ends.

Soundness fails in one situation, a size field from -5 to -1 in a header that
has fully arrived.  The main theorem is the equivalence over the states the
loop reaches.
-/

/-- The contract of one call on the ring and on a prepared serializer. -/
def CallSound (ring : RecvBuffer) (p : PooledSerializer) : Prop :=
  match recvedPacket ring (prepare p) with
  | (true, rest, packet) =>
      Exists fun removed : List Byte => ring.content = removed ++ rest.content ∧
        headerSize ≤ removed.length ∧ packet.bytes = removed
  | (false, rest, _) => rest = ring

/-- The ring in front of the loop's `n`-th call. -/
inductive Reached (pool : Nat -> PooledSerializer) (start : RecvBuffer) : Nat -> RecvBuffer -> Prop
  | start : Reached pool start 0 start
  | next {n : Nat} {ring rest : RecvBuffer} {packet : Serializer} (before : Reached pool start n ring)
      (accepted : recvedPacket ring (prepare (pool n)) = (true, rest, packet)) :
      Reached pool start (n + 1) rest

/-- Every call the loop makes is sound, and the loop ends after at most one
packet for every five bytes. -/
def LoopSound (pool : Nat -> PooledSerializer) (start : RecvBuffer) : Prop :=
  (forall n ring, Reached pool start n ring -> CallSound ring (pool n)) ∧
    Exists fun fuel => Exists fun packets => Exists fun rest =>
      extractionLoop pool fuel 0 start = some (packets, rest) ∧
        packets.length ≤ start.size / headerSize

/-- A complete header whose size field lies from -5 to -1. -/
def NegativeFrame (ring : RecvBuffer) : Prop :=
  headerSize ≤ ring.size ∧
    -5 ≤ (NetworkHeader.ofBytes (ring.front headerSize)).sizeField ∧
    (NetworkHeader.ofBytes (ring.front headerSize)).sizeField < 0

/-- Acceptance leaves two cases, a size field from zero on or a negative
frame; the unsigned comparison rules out the fields below -5. -/
theorem accepted_cases (ring : RecvBuffer) (there : frameSize ring ≤ ring.size) :
    -5 ≤ (NetworkHeader.ofBytes (ring.front headerSize)).sizeField := by
  by_contra below
  have beyond := size_lt_frameSize ring (by omega)
  omega

theorem callSound_of_not_negativeFrame (ring : RecvBuffer) (p : PooledSerializer)
    (regular : ¬ NegativeFrame ring) : CallSound ring p := by
  unfold CallSound
  by_cases there : headerSize ≤ ring.size ∧ frameSize ring ≤ ring.size
  · have fromBelow := accepted_cases ring there.2
    have nonneg : 0 ≤ (NetworkHeader.ofBytes (ring.front headerSize)).sizeField := by
      by_contra negative
      exact regular ⟨there.1, fromBelow, by omega⟩
    have total := frameSize_of_le ring fromBelow
    rw [recvedPacket_accepts ring _ there.1 there.2]
    refine ⟨ring.content.take (frameSize ring), ?_, ?_, takenPacket_bytes ring p there.2 nonneg⟩
    · rw [ring.pop_content _ there.2, List.take_append_drop]
    · rw [List.length_take, ring.content_length]
      unfold headerSize
      omega
  · rw [recvedPacket_refuses ring _ (by omega)]

/-- A negative frame is accepted although fewer than five bytes are removed. -/
theorem not_callSound_of_negativeFrame (ring : RecvBuffer) (p : PooledSerializer)
    (negative : NegativeFrame ring) : ¬ CallSound ring p := by
  have total := frameSize_of_le ring negative.2.1
  have there : frameSize ring ≤ ring.size := by
    have enough := negative.1
    have below := negative.2.2
    unfold headerSize at enough
    omega
  unfold CallSound
  rw [recvedPacket_accepts ring _ negative.1 there]
  rintro ⟨removed, split, long, -⟩
  have lengths := congrArg List.length split
  have below := negative.2.2
  rw [List.length_append, ring.content_length, RingBuffer.content_length, ring.pop_size] at lengths
  unfold headerSize at long
  omega

/-- Shifting the starting point of a run of the loop by one call. -/
theorem Reached.after_first {pool : Nat -> PooledSerializer} {start rest : RecvBuffer}
    {packet : Serializer} (accepted : recvedPacket start (prepare (pool 0)) = (true, rest, packet))
    {n : Nat} {ring : RecvBuffer} (reached : Reached (fun n => pool (n + 1)) rest n ring) :
    Reached pool start (n + 1) ring := by
  induction reached with
  | start => exact .next .start accepted
  | next _ call inductionHypothesis => exact .next inductionHypothesis call

theorem extractionLoop_shift (pool : Nat -> PooledSerializer) (fuel index : Nat)
    (ring : RecvBuffer) :
    extractionLoop (fun n => pool (n + 1)) fuel index ring =
      extractionLoop pool fuel (index + 1) ring := by
  induction fuel generalizing index ring with
  | zero => rfl
  | succ fuel inductionHypothesis =>
      simp only [extractionLoop]
      split <;> simp only [inductionHypothesis]

/-- Sound calls make the loop end: each packet costs at least five bytes. -/
theorem extractionLoop_terminates (pool : Nat -> PooledSerializer) (start : RecvBuffer)
    (sound : forall n ring, Reached pool start n ring -> CallSound ring (pool n)) :
    Exists fun fuel => Exists fun packets => Exists fun rest =>
      extractionLoop pool fuel 0 start = some (packets, rest) ∧
        packets.length * headerSize + rest.size ≤ start.size := by
  induction bound : start.size using Nat.strong_induction_on generalizing pool start with
  | _ size inductionHypothesis =>
    have first := sound 0 start .start
    unfold CallSound at first
    match call : recvedPacket start (prepare (pool 0)) with
    | (false, rest, _) =>
        rw [call] at first
        refine ⟨1, [], start, ?_, by simp [bound]⟩
        simp only [extractionLoop, call, first]
    | (true, rest, packet) =>
        rw [call] at first
        obtain ⟨removed, split, long, -⟩ := first
        have lengths := congrArg List.length split
        rw [List.length_append, start.content_length, rest.content_length] at lengths
        unfold headerSize at long
        obtain ⟨fuel, packets, final, run, count⟩ :=
          inductionHypothesis rest.size (by omega) (fun n => pool (n + 1)) rest
            (fun n ring reached => sound (n + 1) ring (reached.after_first call)) rfl
        refine ⟨fuel + 1, packet :: packets, final, ?_, ?_⟩
        · rw [extractionLoop_shift] at run
          simp only [extractionLoop, call, run, Option.map_some]
        · simp only [List.length_cons, headerSize] at count ⊢
          omega

/-- The loop is sound if and only if no state it reaches has a negative frame in front.  Sound
means that it terminates after at most one round for every five readable bytes, that every round
consumes what it hands over, and that no counter of the ring underflows.  This covers every
content of `recvBuffer`, every state of the pooled serializers and every value of the size
field. -/
theorem loopSound_iff (pool : Nat -> PooledSerializer) (start : RecvBuffer) :
    LoopSound pool start ↔ forall n ring, Reached pool start n ring -> ¬ NegativeFrame ring := by
  constructor
  · intro sound n ring reached negative
    exact not_callSound_of_negativeFrame ring (pool n) negative (sound.1 n ring reached)
  · intro regular
    have calls : forall n ring, Reached pool start n ring -> CallSound ring (pool n) :=
      fun n ring reached => callSound_of_not_negativeFrame ring (pool n) (regular n ring reached)
    obtain ⟨fuel, packets, rest, run, count⟩ := extractionLoop_terminates pool start calls
    refine ⟨calls, fuel, packets, rest, run, ?_⟩
    exact (Nat.le_div_iff_mul_le (by decide)).mpr (by omega)

/-! ## A header that never leaves the ring -/

/-- A header with size field -5, at the start of an otherwise empty ring. -/
def stuckRing : RecvBuffer :=
  loadedRecvBuffer (write (fun _ => 0) 1 [0x77, 0xFB, 0xFF, 0, 0]) 0 5

/-- On it `recvedPacket` succeeds, removes nothing and can be called again with
the same result for ever. -/
theorem stuckRing_loops :
    ¬ LoopSound (fun _ => freshSerializer) stuckRing ∧
      forall fuel, extractionLoop (fun _ => freshSerializer) fuel 0 stuckRing = none := by
  have header : NetworkHeader.ofBytes (stuckRing.front headerSize) = ⟨0x77, 0xFFFB, 0, 0⟩ := by
    decide
  have negative : NegativeFrame stuckRing := by
    unfold NegativeFrame
    rw [header]
    decide
  refine ⟨fun sound => not_callSound_of_negativeFrame stuckRing freshSerializer negative
    (sound.1 0 stuckRing .start), ?_⟩
  have total : frameSize stuckRing = 0 := by
    unfold frameSize
    rw [header]
    decide
  have same : (stuckRing.pop 0).2 = stuckRing := by
    have head : (stuckRing.pop 0).2.headPtr = stuckRing.headPtr := by decide
    exact congrArg (fun pointer => { stuckRing with headPtr := pointer }) head
  have call : Exists fun packet =>
      recvedPacket stuckRing (prepare freshSerializer) = (true, stuckRing, packet) := by
    refine ⟨takenPacket stuckRing freshSerializer, ?_⟩
    rw [recvedPacket_accepts stuckRing _ (by decide) (by rw [total]; exact Nat.zero_le _), total, same]
    simp only [takenPacket, total]
  obtain ⟨packet, call⟩ := call
  have stuck : forall fuel index,
      extractionLoop (fun _ => freshSerializer) fuel index stuckRing = none := by
    intro fuel
    induction fuel with
    | zero => intro index; rfl
    | succ fuel inductionHypothesis =>
        intro index
        simp only [extractionLoop, call, inductionHypothesis, Option.map_none]
  exact fun fuel => stuck fuel 0

end Receiving
end LoginServer
