import LoginServer.Concurrency.Program
import LoginServer.Receiving.Packet

namespace LoginServer
namespace Login

open Memory Buffers Receiving Concurrency

/-!
# The login handler

`OnRecv` as a program over the operations it performs outside its own
arguments: log lines, the database, Redis, the packet pool, the random key and
the two requests of the network layer.  Everything else, the decryption and
the field extraction in particular, is computed in place.

The memory of a received packet is whatever the pooled buffer held before,
with the frame stored over its beginning.  Extraction reads that memory without
looking at `tailPtr`.
-/

abbrev SessionID := BitVec 64

/-- `WCHAR[count]` on the stack, uninitialised. -/
structure StackBytes (count : Nat) where
  bytes : List Byte
  length_eq : bytes.length = count

/-- A serializer from the pool by its address, with the address the allocator
would answer for a larger block of each size. -/
structure PacketBuffer where
  pointer : BitVec 64
  pooled : PooledSerializer
  allocate : Nat -> Nat

inductive LoginOp where
  | log (text : String)
  | disconnectReq (sessionID : SessionID)
  | query (statement : String)
  | redisSet (field : String) (value : List Byte) (expire : Nat)
  | packetNew
  | packetDelete (pointer : BitVec 64)
  | stackBytes (count : Nat)
  | getRandKey
  | sendReq (sessionID : SessionID) (pointer : BitVec 64) (packet : Serializer)

/-- The rows a query leaves in `dbResult`, one value for each field name. -/
abbrev DbResult := List (String × List Byte)

/-- Answers to the handler's operations. -/
abbrev LoginOp.Answer : LoginOp -> Type
  | .log _ => Unit
  | .disconnectReq _ => Unit
  | .query _ => DbResult
  | .redisSet _ _ _ => Unit
  | .packetNew => PacketBuffer
  | .packetDelete _ => Unit
  | .stackBytes count => StackBytes count
  | .getRandKey => Byte
  | .sendReq _ _ _ => Unit

abbrev loginInterface : Interface := ⟨LoginOp, LoginOp.Answer⟩

abbrev LoginProgram := Program loginInterface

def log (text : String) : LoginProgram Unit := Program.perform (I := loginInterface) (.log text)

def disconnectReq (sessionID : SessionID) : LoginProgram Unit :=
  Program.perform (I := loginInterface) (.disconnectReq sessionID)

def query (statement : String) : LoginProgram DbResult :=
  Program.perform (I := loginInterface) (.query statement)

def redisSet (field : String) (value : List Byte) (expire : Nat) : LoginProgram Unit :=
  Program.perform (I := loginInterface) (.redisSet field value expire)

/-- The constructor of `packet`. -/
def packetNew : LoginProgram PacketBuffer := Program.perform (I := loginInterface) .packetNew

/-- The destructor of `packet`. -/
def packetDelete (pointer : BitVec 64) : LoginProgram Unit :=
  Program.perform (I := loginInterface) (.packetDelete pointer)

def stackBytes (count : Nat) : LoginProgram (StackBytes count) :=
  Program.perform (I := loginInterface) (.stackBytes count)

def getRandKey : LoginProgram Byte := Program.perform (I := loginInterface) .getRandKey

def sendReq (sessionID : SessionID) (pointer : BitVec 64) (packet : Serializer) :
    LoginProgram Unit :=
  Program.perform (I := loginInterface) (.sendReq sessionID pointer packet)

def getStatickey : Byte := 0x32

/-- `std::to_string` -/
def toString (value : BitVec 64) : String := ToString.toString value.toNat

/-- Memory as seen from a `char*`. -/
abbrev CharPointer := Bytes

def getHeadPtr (s : Serializer) : CharPointer := fun offset => s.memory (s.headPtr + offset)

/-- The lookup.  Its result is not compared with anything. -/
def sessionKeyCheckByDatabase (accountNo : BitVec 64) (_sessionKey : CharPointer) :
    LoginProgram Bool := do
  let _result ← query ("select sessionkey from sessionkey where accountno = " ++
    toString accountNo ++ ";")
  return true

def redisUpdate (accountNo : BitVec 64) (sessionKey : CharPointer) : LoginProgram Unit :=
  redisSet (toString accountNo) (read sessionKey 0 64) 1

/-- The sixteen wide characters of the chatting server's address. -/
def chattingServerIp : List Byte :=
  ("10.0.1.1".toList.flatMap fun c => littleEndianBytes 2 c.toNat) ++ List.replicate 16 0

/-- The response before its header: type, account, status, the two names and
the game address out of the same uninitialised array, and the chat address.
`none` stands for a buffer that never grows far enough. -/
def responseBody (buffer : PacketBuffer) (accountNo : BitVec 64) (temp : List Byte) :
    Option Serializer := do
  let response ← (prepare buffer.pooled).insertUnsignedShort buffer.allocate 64 102
  let response ← response.insertUnsignedLongLong buffer.allocate 64 accountNo
  let response ← response.insertByte buffer.allocate 64 1
  let response := response.setWstring temp
  let response := response.setWstring temp
  let response := response.setWstring (temp.take 32)
  let response ← response.insertUnsignedShort buffer.allocate 64 0
  let response := response.setWstring chattingServerIp
  response.insertUnsignedShort buffer.allocate 64 12001

/-- The part of `OnRecv` after the key check. -/
def sendResponse (sessionID : SessionID) (accountNo : BitVec 64) : LoginProgram Unit := do
  let buffer ← packetNew
  let temp ← stackBytes 40
  match responseBody buffer accountNo temp.bytes with
  | none => return
  | some response =>
      let key ← getRandKey
      sendReq sessionID buffer.pointer ((response.setHeader key).encryption getStatickey)
      packetDelete buffer.pointer

def onRecv (sessionID : SessionID) (packet : Serializer) : LoginProgram Unit :=
  let (_code, packet) := packet.extractChar
  let (_payloadSize, packet) := packet.extractShort
  let (_key, packet) := packet.extractChar
  let (valid, packet) := packet.decryption getStatickey
  if valid then
    let (_checkSum, packet) := packet.extractChar
    let (type, packet) := packet.extractUnsignedShort
    if type ≠ 101 then disconnectReq sessionID
    else
      let (accountNo, packet) := packet.extractUnsignedLongLong
      let sessionKey := getHeadPtr packet
      do
        if !(← sessionKeyCheckByDatabase accountNo sessionKey) then disconnectReq sessionID
        else do
          redisUpdate accountNo sessionKey
          sendResponse sessionID accountNo
  else do
    log ("checkSum error ID " ++ toString sessionID)
    disconnectReq sessionID

end Login
end LoginServer
