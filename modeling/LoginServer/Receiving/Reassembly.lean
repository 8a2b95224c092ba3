import Mathlib.Data.List.Forall2
import LoginServer.Receiving.Loop
import LoginServer.Receiving.ZeroCopy

namespace LoginServer
namespace Receiving

open Memory Buffers

/-!
# Frame reassembly

A client's stream is a concatenation of frames, and the kernel delivers it in
completions that cut it anywhere.  Between completions `recvBuffer` holds the
bytes of one incomplete frame.  The theorems of this module follow a completion
through the three steps of the server: the kernel fills the posted buffers,
`recved` exposes the bytes, and the extraction loop hands over every frame that
is now complete.

Nothing depends on where the ring's pointers stand, and the pooled serializers
may have any earlier content.
-/

/-! ## A completion appends to the content -/

/-- The posted buffers are the free bytes in order. -/
theorem fill_recvBuffers (ring : RecvBuffer) (data : List Byte) (fits : data.length ≤ ring.freeSize) :
    fill ring.buffer (recvBuffers ring) data =
      writeCircular ring.buffer (2 ^ 8) ring.tail data := by
  rw [recvBuffers_eq]
  exact fill_wsaBuffers ring data fits

@[simp] theorem receiveInto_size (ring : RecvBuffer) (data : List Byte) :
    (receiveInto ring data).size = ring.size := rfl

@[simp] theorem receiveInto_freeSize (ring : RecvBuffer) (data : List Byte) :
    (receiveInto ring data).freeSize = ring.freeSize := rfl

/-- `recved` accepts a transfer below the free size and appends the received
bytes to the readable ones. -/
theorem recved_appends (ring : RecvBuffer) (data : List Byte) (nonempty : 0 < data.length)
    (fits : data.length < ring.freeSize) :
    Exists fun accepted : RecvBuffer =>
      recved (receiveInto ring data) (BitVec.ofNat 32 data.length) = (true, accepted) ∧
        accepted.content = ring.content ++ data := by
  have free := ring.freeSize_eq
  have value : (BitVec.ofNat 32 data.length).toNat = data.length := by
    rw [BitVec.toNat_ofNat]
    omega
  have signed : (BitVec.ofNat 32 data.length).toInt = data.length := by
    rw [BitVec.toInt_eq_toNat_of_lt (by rw [value]; omega), value]
  have nonzero : BitVec.ofNat 32 data.length ≠ 0 := by
    intro zero
    rw [zero] at value
    exact Nat.ne_of_gt nonempty value.symm
  have taken : ¬ ((receiveInto ring data).freeSize ≤ (BitVec.ofNat 32 data.length).toNat ∨
      BitVec.ofNat 32 data.length = 0) := by
    rw [value, receiveInto_freeSize]
    rintro (full | zero)
    · omega
    · exact nonzero zero
  refine ⟨((receiveInto ring data).moveRear data.length).2, ?_, ?_⟩
  · unfold recved
    rw [if_neg taken, signed]
  · have size : ((receiveInto ring data).moveRear data.length).2.size = ring.size + data.length :=
      (receiveInto ring data).moveRear_size data.length (Nat.le_of_lt fits)
    rw [RingBuffer.content, RingBuffer.content, RingBuffer.moveRear_head, size,
      RingBuffer.moveRear_buffer]
    have filled : (receiveInto ring data).buffer =
        writeCircular ring.buffer (2 ^ 8) ((ring.head + ring.size) % 2 ^ 8) data := by
      rw [← ring.tail_eq_head_add]
      exact fill_recvBuffers ring data (Nat.le_of_lt fits)
    rw [filled]
    exact readCircular_append ring.buffer (2 ^ 8) ring.head ring.size data ring.head_lt (by omega)

/-- A legal completion stores between one byte and the length posted.  It is
accepted and appended just when it leaves a byte of the free room: `recved`
refuses the one that fills the ring. -/
theorem recved_iff (ring : RecvBuffer) (data : List Byte) (nonempty : 0 < data.length)
    (posted : data.length ≤ ((recvBuffers ring).map WsaBuf.length).sum) :
    (Exists fun accepted : RecvBuffer =>
      recved (receiveInto ring data) (BitVec.ofNat 32 data.length) = (true, accepted) ∧
        accepted.content = ring.content ++ data) ↔ data.length < ring.freeSize := by
  rw [recvBuffers_eq, wsaBuffers_total] at posted
  constructor
  · rintro ⟨accepted, taken, _⟩
    have free := ring.freeSize_eq
    by_contra full
    have value : (BitVec.ofNat 32 data.length).toNat = data.length := by
      rw [BitVec.toNat_ofNat]
      omega
    have refused : (receiveInto ring data).freeSize ≤ (BitVec.ofNat 32 data.length).toNat := by
      rw [value, receiveInto_freeSize]
      omega
    unfold recved at taken
    rw [if_pos (Or.inl refused)] at taken
    cases taken
  · intro short
    exact recved_appends ring data nonempty short

/-- Eleven bytes are free, two of them at the end of the buffer. -/
theorem recved_iff_acrossTheEnd :
    Exists fun accepted : RecvBuffer =>
      recved (receiveInto (loadedRecvBuffer (fun _ => 9) 10 254) [1, 2, 3, 4, 5]) 5 = (true, accepted) ∧
        accepted.content = (loadedRecvBuffer (fun _ => 9) 10 254).content ++ [1, 2, 3, 4, 5] :=
  (recved_iff (loadedRecvBuffer (fun _ => 9) 10 254) [1, 2, 3, 4, 5] (by decide) (by decide)).mpr (by decide)

/-- The first receive of a connection fills the empty ring. -/
theorem fullReceive_refused :
    ((recvBuffers emptyRecvBuffer).map WsaBuf.length).sum = 255 ∧
      ¬ Exists fun accepted : RecvBuffer =>
        recved (receiveInto emptyRecvBuffer (List.replicate 255 7)) 255 = (true, accepted) ∧
          accepted.content = emptyRecvBuffer.content ++ List.replicate 255 7 := by
  refine ⟨by decide, ?_⟩
  rintro ⟨accepted, taken, _⟩
  have refused : (recved (receiveInto emptyRecvBuffer (List.replicate 255 7)) 255).1 = false := by
    decide +kernel
  rw [taken] at refused
  cases refused

/-! ## Frames -/

/-- A frame as a client sends it: header and payload, at most 254 bytes, with
the payload's length in the size field. -/
structure Frame where
  bytes : List Byte
  header_le : headerSize ≤ bytes.length
  fits : bytes.length ≤ 254
  size_eq : (NetworkHeader.ofBytes (bytes.take headerSize)).sizeField = bytes.length - headerSize

/-- The bytes of a sequence of frames. -/
def stream (frames : List Frame) : List Byte := frames.flatMap Frame.bytes

@[simp] theorem stream_nil : stream [] = [] := rfl

@[simp] theorem stream_cons (frame : Frame) (frames : List Frame) :
    stream (frame :: frames) = frame.bytes ++ stream frames := rfl

/-- The leading frames that are complete in the first `count` bytes. -/
def completeFrames : List Frame -> Nat -> List Frame
  | [], _ => []
  | frame :: frames, count =>
      if frame.bytes.length ≤ count then
        frame :: completeFrames frames (count - frame.bytes.length)
      else []

theorem completeFrames_length_le (frames : List Frame) (count : Nat) :
    (stream (completeFrames frames count)).length ≤ count := by
  induction frames generalizing count with
  | nil => exact Nat.zero_le _
  | cons frame frames inductionHypothesis =>
      unfold completeFrames
      split
      next complete =>
        have rest := inductionHypothesis (count - frame.bytes.length)
        rw [stream_cons, List.length_append]
        omega
      next => exact Nat.zero_le _

/-- Completeness may be established in two rounds: the frames complete after
more bytes are those complete before, then those complete among the rest. -/
theorem completeFrames_add (frames : List Frame) (first second : Nat) :
    completeFrames frames (first + second) =
      completeFrames frames first ++
        completeFrames (frames.drop (completeFrames frames first).length)
          (first - (stream (completeFrames frames first)).length + second) := by
  induction frames generalizing first with
  | nil => rfl
  | cons frame frames inductionHypothesis =>
      by_cases complete : frame.bytes.length ≤ first
      · have later : frame.bytes.length ≤ first + second := by omega
        have shorter : first + second - frame.bytes.length =
            (first - frame.bytes.length) + second := by omega
        simp only [completeFrames, if_pos complete, if_pos later, List.length_cons,
          List.drop_succ_cons, stream_cons, List.length_append, List.cons_append]
        rw [shorter, inductionHypothesis, Nat.sub_sub]
      · simp [completeFrames, if_neg complete]

/-- The frames of a stream are the complete ones and then the others. -/
theorem completeFrames_append_drop (frames : List Frame) (count : Nat) :
    completeFrames frames count ++ frames.drop (completeFrames frames count).length = frames := by
  induction frames generalizing count with
  | nil => rfl
  | cons frame frames inductionHypothesis =>
      unfold completeFrames
      split
      next => simp only [List.length_cons, List.drop_succ_cons, List.cons_append, inductionHypothesis]
      next => rfl

theorem stream_append (first second : List Frame) :
    stream (first ++ second) = stream first ++ stream second := by
  simp [stream]

/-! ## The extraction loop on a piece of the stream -/

/-- With the first frame of the stream in front, `recvedPacket` takes it as
soon as it is complete. -/
theorem frameSize_eq (ring : RecvBuffer) (frame : Frame)
    (agrees : ring.content.take headerSize = frame.bytes.take headerSize) :
    frameSize ring = frame.bytes.length := by
  have announced := frame.size_eq
  rw [← agrees, ← ring.front_eq] at announced
  have long := frame.header_le
  have total := frameSize_of_le ring (by rw [announced]; unfold headerSize at *; omega)
  rw [announced] at total
  unfold headerSize at *
  omega

/-- A packet that carries a frame: its bytes, with the read pointer at the
header. -/
def Carries (packet : Serializer) (frame : Frame) : Prop :=
  packet.bytes = frame.bytes ∧ packet.headPtr = packet.bufferPtr ∧
    packet.size = frame.bytes.length

theorem takenPacket_carries (ring : RecvBuffer) (p : PooledSerializer) (frame : Frame)
    (complete : frame.bytes.length ≤ ring.size)
    (agrees : ring.content.take frame.bytes.length = frame.bytes) :
    Carries (takenPacket ring p) frame := by
  have long := frame.header_le
  have headers : ring.content.take headerSize = frame.bytes.take headerSize := by
    rw [← agrees, List.take_take, Nat.min_eq_left long]
  have total := frameSize_eq ring frame headers
  have announced := frame.size_eq
  rw [← headers, ← ring.front_eq] at announced
  have nonneg : 0 ≤ (NetworkHeader.ofBytes (ring.front headerSize)).sizeField := by
    rw [announced]
    omega
  have bytes := takenPacket_bytes ring p (by rw [total]; exact complete) nonneg
  rw [total, agrees] at bytes
  refine ⟨bytes, takenPacket_headPtr ring p, ?_⟩
  rw [← bytes, Serializer.bytes, read_length]

/-- One run of the loop on a piece of the stream hands over the complete frames
and keeps the incomplete rest. -/
theorem extractionLoop_stream (pool : Nat -> PooledSerializer) (frames : List Frame)
    (fuel index : Nat) (ring : RecvBuffer) (piece : ring.content <+: stream frames)
    (enoughFuel : ring.size < fuel * headerSize) :
    Exists fun packets => Exists fun rest : RecvBuffer =>
      extractionLoop pool fuel index ring = some (packets, rest) ∧
        List.Forall₂ Carries packets (completeFrames frames ring.size) ∧
        rest.content =
          ring.content.drop (stream (completeFrames frames ring.size)).length := by
  induction frames generalizing fuel index ring with
  | nil =>
      have empty : ring.content = [] := List.prefix_nil.mp piece
      have none : ring.size = 0 := by rw [← ring.content_length, empty]; rfl
      obtain ⟨fuel, rfl⟩ : Exists fun smaller => fuel = smaller + 1 :=
        ⟨fuel - 1, by unfold headerSize at enoughFuel; omega⟩
      refine ⟨[], ring, ?_, .nil, by simp [completeFrames]⟩
      simp only [extractionLoop]
      rw [recvedPacket_refuses ring _ (Or.inl (by rw [none]; decide))]
  | cons frame frames inductionHypothesis =>
      obtain ⟨fuel, rfl⟩ : Exists fun smaller => fuel = smaller + 1 :=
        ⟨fuel - 1, by unfold headerSize at enoughFuel; omega⟩
      have long := frame.header_le
      have agrees : forall count, count ≤ ring.size -> count ≤ frame.bytes.length ->
          ring.content.take count = frame.bytes.take count := by
        intro count inRing inFrame
        have same := congrArg (List.take count) (List.prefix_iff_eq_take.mp piece)
        rw [List.take_take, ring.content_length, Nat.min_eq_left inRing, stream_cons,
          List.take_append_of_le_length inFrame] at same
        exact same
      by_cases complete : frame.bytes.length ≤ ring.size
      · have enough : headerSize ≤ ring.size := Nat.le_trans long complete
        have whole : ring.content.take frame.bytes.length = frame.bytes := by
          rw [agrees _ complete (Nat.le_refl _), List.take_length]
        have total := frameSize_eq ring frame (agrees _ enough long)
        have there : frameSize ring ≤ ring.size := by rw [total]; exact complete
        have restContent := ring.pop_content (frameSize ring) there
        have restSize := ring.pop_size (frameSize ring)
        rw [total] at restContent restSize
        have restPiece : ring.content.drop frame.bytes.length <+: stream frames := by
          obtain ⟨suffix, joined⟩ := piece
          refine ⟨suffix, ?_⟩
          have dropped := congrArg (List.drop frame.bytes.length) joined
          rw [stream_cons, List.drop_left, List.drop_append_of_le_length
            (by rw [ring.content_length]; exact complete)] at dropped
          exact dropped
        obtain ⟨packets, rest, run, carried, kept⟩ :=
          inductionHypothesis fuel (index + 1) (ring.pop frame.bytes.length).2
            (by rw [restContent]; exact restPiece)
            (by rw [restSize]; unfold headerSize at *; omega)
        refine ⟨takenPacket ring (pool index) :: packets, rest, ?_, ?_, ?_⟩
        · simp only [extractionLoop]
          rw [recvedPacket_accepts ring _ enough there]
          simp only [total, run, Option.map_some]
          simp only [takenPacket, total]
        · simp only [completeFrames, if_pos complete]
          rw [restSize] at carried
          exact .cons (takenPacket_carries ring _ frame complete whole) carried
        · rw [kept, restContent, restSize]
          simp only [completeFrames, if_pos complete, stream_cons, List.length_append,
            List.drop_drop]
      · refine ⟨[], ring, ?_, ?_, ?_⟩
        · simp only [extractionLoop]
          have missing : ring.size < headerSize ∨ ring.size < frameSize ring := by
            by_cases enough : headerSize ≤ ring.size
            · right
              rw [frameSize_eq ring frame (agrees _ enough long)]
              omega
            · left
              omega
          rw [recvedPacket_refuses ring _ missing]
        · simp only [completeFrames, if_neg complete]
          exact .nil
        · simp [completeFrames, if_neg complete]

/-! ## Completions -/

/-- The worker's handling of one receive completion: fill, `recved` and the
extraction loop.  `none` stands for a transfer that `recved` refuses. -/
def receiveCompletion (pool : Nat -> PooledSerializer) (ring : RecvBuffer) (data : List Byte) :
    Option (List Serializer × RecvBuffer) :=
  match recved (receiveInto ring data) (BitVec.ofNat 32 data.length) with
  | (true, accepted) => extractionLoop pool 52 0 accepted
  | (false, _) => none

/-- A sequence of completions, with the packets of all of them in order. -/
def receiveCompletions (pool : Nat -> Nat -> PooledSerializer) :
    (index : Nat) -> RecvBuffer -> List (List Byte) -> Option (List Serializer × RecvBuffer)
  | _, ring, [] => some ([], ring)
  | index, ring, data :: rest =>
      (receiveCompletion (pool index) ring data).bind fun first =>
        (receiveCompletions pool (index + 1) first.2 rest).map fun later =>
          (first.1 ++ later.1, later.2)

/-- Every completion of the sequence is one `recved` accepts in its turn. -/
def Accepted (pool : Nat -> Nat -> PooledSerializer) :
    (index : Nat) -> RecvBuffer -> List (List Byte) -> Prop
  | _, _, [] => True
  | index, ring, data :: rest =>
      (0 < data.length ∧ data.length < ring.freeSize) ∧
        forall packets next, receiveCompletion (pool index) ring data = some (packets, next) ->
          Accepted pool (index + 1) next rest

theorem receiveCompletion_stream (pool : Nat -> PooledSerializer) (frames : List Frame)
    (ring : RecvBuffer) (data : List Byte) (nonempty : 0 < data.length)
    (fits : data.length < ring.freeSize) (piece : ring.content ++ data <+: stream frames) :
    Exists fun packets => Exists fun rest : RecvBuffer =>
      receiveCompletion pool ring data = some (packets, rest) ∧
        List.Forall₂ Carries packets (completeFrames frames (ring.size + data.length)) ∧
        rest.content = (ring.content ++ data).drop
          (stream (completeFrames frames (ring.size + data.length))).length := by
  obtain ⟨accepted, ok, content⟩ := recved_appends ring data nonempty fits
  have size : accepted.size = ring.size + data.length := by
    rw [← accepted.content_length, content, List.length_append, ring.content_length]
  have bound := accepted.size_lt
  obtain ⟨packets, rest, run, carried, kept⟩ :=
    extractionLoop_stream pool frames 52 0 accepted (by rw [content]; exact piece)
      (by unfold headerSize; omega)
  rw [size] at carried
  rw [size, content] at kept
  exact ⟨packets, rest, by simp only [receiveCompletion, ok, run], carried, kept⟩

/-- The induction over the completions, from a ring that may already hold the
beginning of the stream. -/
theorem receiveCompletions_stream (pool : Nat -> Nat -> PooledSerializer)
    (completions : List (List Byte)) (index : Nat) (frames : List Frame) (ring : RecvBuffer)
    (piece : ring.content ++ completions.flatten <+: stream frames)
    (incomplete : completeFrames frames ring.size = [])
    (accepted : Accepted pool index ring completions) :
    Exists fun packets => Exists fun rest : RecvBuffer =>
      receiveCompletions pool index ring completions = some (packets, rest) ∧
        List.Forall₂ Carries packets
          (completeFrames frames (ring.size + completions.flatten.length)) ∧
        rest.content = (ring.content ++ completions.flatten).drop
          (stream (completeFrames frames (ring.size + completions.flatten.length))).length := by
  induction completions generalizing index frames ring with
  | nil =>
      refine ⟨[], ring, rfl, ?_, ?_⟩
      · simp only [List.flatten_nil, List.length_nil, Nat.add_zero, incomplete]
        exact .nil
      · simp [incomplete]
  | cons data completions inductionHypothesis =>
      rw [List.flatten_cons, ← List.append_assoc] at piece
      have firstPiece : ring.content ++ data <+: stream frames :=
        (List.prefix_append _ _).trans piece
      obtain ⟨packets, middle, run, carried, kept⟩ :=
        receiveCompletion_stream (pool index) frames ring data accepted.1.1 accepted.1.2 firstPiece
      let taken := completeFrames frames (ring.size + data.length)
      have takenFits : (stream taken).length ≤ ring.size + data.length :=
        completeFrames_length_le _ _
      have middleSize : middle.size = ring.size + data.length - (stream taken).length := by
        rw [← middle.content_length, kept, List.length_drop, List.length_append,
          ring.content_length]
      -- What is left of the stream starts with the bytes kept in the ring.
      have restPiece : middle.content ++ completions.flatten <+:
          stream (frames.drop taken.length) := by
        obtain ⟨suffix, joined⟩ := piece
        refine ⟨suffix, ?_⟩
        have dropped := congrArg (List.drop (stream taken).length) joined
        rw [← completeFrames_append_drop frames (ring.size + data.length), stream_append,
          List.drop_left, List.append_assoc (ring.content ++ data),
          List.drop_append_of_le_length (by
            rw [List.length_append, ring.content_length]; exact takenFits)] at dropped
        rw [kept, ← dropped, List.append_assoc]
      have restIncomplete : completeFrames (frames.drop taken.length) middle.size = [] := by
        have split := completeFrames_add frames (ring.size + data.length) 0
        rw [Nat.add_zero, Nat.add_zero] at split
        have none := List.append_cancel_left ((List.append_nil taken).trans split)
        rw [middleSize]
        exact none.symm
      obtain ⟨later, rest, laterRun, laterCarried, laterKept⟩ :=
        inductionHypothesis (index + 1) (frames.drop taken.length) middle restPiece
          restIncomplete (accepted.2 packets middle run)
      have frames_eq : completeFrames frames (ring.size + (data ++ completions.flatten).length) =
          taken ++ completeFrames (frames.drop taken.length)
            (middle.size + completions.flatten.length) := by
        rw [List.length_append, ← Nat.add_assoc, completeFrames_add, middleSize]
      refine ⟨packets ++ later, rest, ?_, ?_, ?_⟩
      · simp only [receiveCompletions, run, Option.bind_some, laterRun, Option.map_some]
      · rw [List.flatten_cons, frames_eq]
        exact List.rel_append carried laterCarried
      · rw [List.flatten_cons, frames_eq, laterKept, kept, stream_append, List.length_append,
          ← List.drop_drop, ← List.append_assoc ring.content,
          List.drop_append_of_le_length (show (stream taken).length ≤ (ring.content ++ data).length by
            rw [List.length_append, ring.content_length]; exact takenFits)]

/-- Reassembly does not depend on the cuts.  From an empty ring, wherever its
pointers stand, and for every division of a beginning of the stream into
completions that `recved` accepts, the packets handed over are the frames
complete in the bytes received so far, in order and byte for byte, and the ring
holds the remaining bytes. -/
theorem receiveCompletions_reassemble (pool : Nat -> Nat -> PooledSerializer) (frames : List Frame)
    (ring : RecvBuffer) (completions : List (List Byte)) (emptyRing : ring.empty = true)
    (piece : completions.flatten <+: stream frames) (accepted : Accepted pool 0 ring completions) :
    Exists fun packets => Exists fun rest : RecvBuffer =>
      receiveCompletions pool 0 ring completions = some (packets, rest) ∧
        List.Forall₂ Carries packets (completeFrames frames completions.flatten.length) ∧
        rest.content = completions.flatten.drop
          (stream (completeFrames frames completions.flatten.length)).length := by
  have same : ring.headPtr = ring.tailPtr := by simpa [RingBuffer.empty] using emptyRing
  have none : ring.size = 0 := by
    rw [ring.size_cases, same]
    simp
  have nothing : ring.content = [] := List.eq_nil_of_length_eq_zero (by rw [ring.content_length, none])
  have incomplete : completeFrames frames ring.size = [] := by
    rw [none]
    cases frames with
    | nil => rfl
    | cons frame frames =>
        have long := frame.header_le
        unfold headerSize at long
        simp only [completeFrames]
        rw [if_neg (by omega)]
  have run := receiveCompletions_stream pool completions 0 frames ring
    (by rw [nothing]; exact piece) incomplete accepted
  simpa only [none, nothing, Nat.zero_add, List.nil_append] using run

/-- A frame with two payload bytes. -/
def shortFrame : Frame where
  bytes := [0x77, 2, 0, 9, 3, 1, 2]
  header_le := by decide
  fits := by decide
  size_eq := by decide

/-- An empty ring whose pointers stand just before the end of the allocation. -/
def wrappingRing : RecvBuffer := loadedRecvBuffer (fun _ => 0) 252 252

/-- Two frames, the second incomplete, cut inside both headers. -/
theorem shortFrame_reassembles :
    Exists fun packets => Exists fun rest : RecvBuffer =>
      receiveCompletions (fun _ _ => freshSerializer) 0 wrappingRing
          [[0x77, 2], [0, 9, 3, 1, 2, 0x77]] = some (packets, rest) ∧
        List.Forall₂ Carries packets [shortFrame] ∧ rest.content = [0x77] := by
  have afterFirst : forall packets next,
      receiveCompletion (fun _ => freshSerializer) wrappingRing [0x77, 2] = some (packets, next) ->
        next.freeSize = 253 := by
    intro packets next run
    have sizes : (receiveCompletion (fun _ => freshSerializer) wrappingRing [0x77, 2]).map
        (fun result => result.2.freeSize) = some 253 := by decide
    rw [run] at sizes
    exact Option.some.inj sizes
  refine receiveCompletions_reassemble (fun _ _ => freshSerializer) [shortFrame, shortFrame]
    wrappingRing [[0x77, 2], [0, 9, 3, 1, 2, 0x77]] (by decide) ⟨[2, 0, 9, 3, 1, 2], by decide⟩
    ⟨⟨by decide, by decide⟩, fun packets next run => ⟨⟨by decide, ?_⟩, fun _ _ _ => trivial⟩⟩
  rw [afterFirst packets next run]
  decide

end Receiving
end LoginServer
