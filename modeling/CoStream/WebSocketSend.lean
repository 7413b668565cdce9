import CoStream.WebSocketStream

namespace CoStream
open Foundation

-- The first bytes of a frame as both senders build them: fin and the opcode,
-- then the mask bit and the shortest of the three length fields.
def sendHeader (len : Nat) (opCode : UInt8) : List UInt8 :=
  let first := 0x80 ||| (opCode &&& 0x0f)
  if len ≥ 126 then
    if len > 65535 then
      [first,0x80 ||| 127,byteAt len 56,byteAt len 48,byteAt len 40,byteAt len 32,byteAt len 24,byteAt len 16,
        byteAt len 8,byteAt len 0]
    else [first,0x80 ||| 126,byteAt len 8,byteAt len 0]
  else [first,0x80 ||| (len.toUInt8 &&& 0x7f)]

inductive Sender where
  | server | client
deriving DecidableEq,Repr

-- The buffers handed to the transport. The server writes the three parts one
-- after the other, the client joins them first. `maskingKey` is what the random
-- source gave.
def sendWsFrame (sender : Sender) (maskingKey : MaskingKey) (data : List UInt8) (opCode : UInt8) :
    Except Fault (List (List UInt8)) := do
  let p ← maskPayload maskingKey data.length data
  match sender with
  | .server => .ok [sendHeader data.length opCode,maskingKey.bytes,p]
  | .client => .ok [sendHeader data.length opCode++maskingKey.bytes++p]

def encode (maskingKey : MaskingKey) (data : List UInt8) (opCode : UInt8) : List UInt8 :=
  sendHeader data.length opCode++maskingKey.bytes++xorStream maskingKey.byte data

theorem sendWsFrame_exact (sender : Sender) (maskingKey : MaskingKey) (data : List UInt8) (opCode : UInt8) :
    ∃ writes, sendWsFrame sender maskingKey data opCode = .ok writes ∧
      writes.flatten = encode maskingKey data opCode := by
  have masked : maskPayload maskingKey data.length data = .ok (xorStream maskingKey.byte data) := by
    simp [maskPayload_exact]
  unfold sendWsFrame
  rw [masked,ok_bind]
  cases sender with
  | server => exact ⟨_,rfl,by simp [encode]⟩
  | client => exact ⟨_,rfl,by simp [encode]⟩

theorem packet_first (opCode : UInt8) : opCode < 0x10 →
    (0x80 ||| (opCode &&& 0x0f)) &&& 0x0f = opCode ∧ (0x80 ||| (opCode &&& 0x0f)) >>> 7 ≠ 0 :=
  forall_byte (fun opCode => opCode < 0x10 →
    (0x80 ||| (opCode &&& 0x0f)) &&& 0x0f = opCode ∧ (0x80 ||| (opCode &&& 0x0f)) >>> 7 ≠ 0) (by decide +kernel) opCode

theorem packet_second : ∀ len : Fin 126, (0x80 ||| (len.val.toUInt8 &&& 0x7f)) &&& 0x7f ≠ 127 ∧
    (0x80 ||| (len.val.toUInt8 &&& 0x7f)) &&& 0x7f ≠ 126 ∧
    ((0x80 ||| (len.val.toUInt8 &&& 0x7f)) &&& 0x7f).toNat = len.val ∧
    (0x80 ||| (len.val.toUInt8 &&& 0x7f)) >>> 7 ≠ 0 := by
  decide +kernel

theorem read?_encode (maskingKey : MaskingKey) (data more : List UInt8) (opCode : UInt8) (kind : opCode < 0x10)
    (fits : data.length < 2^64) : Header.read? (encode maskingKey data opCode++more) =
      some ⟨true,opCode,some maskingKey,(sendHeader data.length opCode).length+4,data.length⟩ := by
  obtain ⟨low,fin⟩ := packet_first opCode kind
  unfold encode sendHeader
  dsimp only
  split
  · split
    · have field : ((0x80 : UInt8) ||| 127) &&& 0x7f = 127 ∧ ((0x80 : UInt8) ||| 127) >>> 7 ≠ 0 := by decide
      simp [Header.read?,Header.length?,wsPacketHeader,MaskingKey.bytes,low,fin,field,bigEndian_byteAt_eight _ fits]
    · have field : ((0x80 : UInt8) ||| 126) &&& 0x7f = 126 ∧ ((0x80 : UInt8) ||| 126) >>> 7 ≠ 0 := by decide
      simp [Header.read?,Header.length?,wsPacketHeader,MaskingKey.bytes,low,fin,field,
        bigEndian_byteAt_two data.length (by omega)]
  · rename_i short
    obtain ⟨wide,extended,len,mask⟩ := packet_second ⟨data.length,by omega⟩
    simp [Header.read?,Header.length?,wsPacketHeader,MaskingKey.bytes,low,fin,wide,extended,len,mask]

theorem nextFrame_encode (maskingKey : MaskingKey) (data more : List UInt8) (opCode : UInt8) (kind : opCode < 0x10)
    (fits : data.length < 2^64) :
    nextFrame (encode maskingKey data opCode++more) = some (⟨true,opCode,data⟩,more) := by
  have prefixLength : (sendHeader data.length opCode++maskingKey.bytes).length =
      (sendHeader data.length opCode).length+4 := by simp [MaskingKey.bytes]
  have behind : (encode maskingKey data opCode++more).drop ((sendHeader data.length opCode).length+4) =
      xorStream maskingKey.byte data++more := by
    rw [encode,List.append_assoc,List.drop_left' prefixLength]
  refine nextFrame_some.mpr ⟨_,read?_encode maskingKey data more opCode kind fits,?_,?_,?_⟩
  · simp only [Header.Whole,encode,List.length_append,length_xorStream,MaskingKey.bytes,List.length_cons,List.length_nil]
    omega
  · simp only [Header.frame,Header.unmask,behind]
    rw [List.take_left' (length_xorStream data),xorStream_twice]
  · rw [← List.drop_drop,behind,List.drop_left' (length_xorStream data)]

-- Messages, as the two write calls of a session send them.
inductive MessageType where
  | text | binary
deriving DecidableEq,Repr

def MessageType.opCode : MessageType → UInt8
  | .text => wsOpTextType
  | .binary => wsOpBinType

structure Message where
  kind : MessageType
  payload : List UInt8
  maskingKey : MaskingKey
deriving DecidableEq,Repr

namespace Message

def frame (message : Message) : Frame := ⟨true,message.kind.opCode,message.payload⟩
def bytes (message : Message) : List UInt8 := encode message.maskingKey message.payload message.kind.opCode

theorem payload_le (message : Message) : message.payload.length ≤ message.bytes.length := by
  simp only [bytes,encode,List.length_append,length_xorStream]
  omega

theorem nextFrame_bytes (message : Message) (fits : message.payload.length < 2^64) (more : List UInt8) :
    nextFrame (message.bytes++more) = some (message.frame,more) := by
  have kind : message.kind.opCode < 0x10 := by cases message.kind <;> decide
  exact nextFrame_encode message.maskingKey message.payload more message.kind.opCode kind fits

end Message

def sendAll (sender : Sender) : List Message → Except Fault (List UInt8)
  | [] => .ok []
  | message::rest => do
    let writes ← sendWsFrame sender message.maskingKey message.payload message.kind.opCode
    let later ← sendAll sender rest
    return writes.flatten++later

theorem sendAll_exact (sender : Sender) (messages : List Message) : sendAll sender messages =
    .ok (messages.flatMap Message.bytes) := by
  induction messages with
  | nil => rfl
  | cons message rest ih =>
    obtain ⟨writes,sent,joined⟩ := sendWsFrame_exact sender message.maskingKey message.payload message.kind.opCode
    rw [sendAll,sent,ok_bind,ih,ok_bind,joined,pure_ok,List.flatMap_cons,Message.bytes]

namespace WebSocketSessionBase

theorem absorb_messages (a : Assembly) (settled : a.pending = []) (messages : List Message) :
    (a.absorb (messages.map Message.frame)).1.pending = [] ∧
      (a.absorb (messages.map Message.frame)).2 =
        messages.map fun message => .handleWsData message.payload message.kind.opCode := by
  induction messages generalizing a with
  | nil => exact ⟨settled,rfl⟩
  | cons message rest ih =>
    have accepted : a.accept message.frame =
        (⟨[],message.kind.opCode⟩,[.handleWsData message.payload message.kind.opCode]) := by
      cases kind : message.kind <;>
        simp [Assembly.accept,Assembly.answers,Assembly.remember,Message.frame,MessageType.opCode,settled,kind,
          wsOpTextType,wsOpBinType,wsOpPingType,wsOpPongType,wsOpCloseType,wsOpContinueType]
    obtain ⟨pending,called⟩ := ih ⟨[],message.kind.opCode⟩ rfl
    simp only [List.map_cons,Assembly.absorb,accepted]
    exact ⟨pending,by rw [called]; rfl⟩

-- However the bytes of the messages are cut, each of them comes out once, in
-- order and as it was sent, and nothing is left over.
theorem messages_roundTrip (sender : Sender) (messages : List Message) : ∃ bytes, sendAll sender messages = .ok bytes ∧
    ∀ reads, stream reads = bytes → bytes.length < 2^31-65536 → ∃ final actions,
      machine.run reads = .ok (final,actions) ∧
      calls actions = messages.map (fun message => .handleWsData message.payload message.kind.opCode) ∧
      final.frame.buffer = [] ∧ final.recvBufferVec = [] := by
  refine ⟨_,sendAll_exact sender messages,?_⟩
  intro reads cut short
  have decodes : ∀ message ∈ messages, ∀ more,
      nextFrame (message.bytes++more) = some (message.frame,more) := by
    intro message member more
    have part : message.bytes.length ≤ (messages.flatMap Message.bytes).length :=
      (List.sublist_flatten_of_mem (List.mem_map_of_mem member)).length_le
    have payload := message.payload_le
    exact message.nextFrame_bytes (by omega) more
  have whole := frameDecoder.drain_flatMap _ _ messages decodes
  rw [← cut] at whole short
  obtain ⟨final,actions,ran,empty,answered⟩ := run_complete whole (by omega)
    (liveBelow_short (framesBelow_complete (by rw [whole]) (by omega)) (by omega))
  obtain ⟨pending,called⟩ := absorb_messages ⟨[],1⟩ rfl messages
  rw [answered] at pending called
  exact ⟨final,actions,ran,called,empty,pending⟩

-- A greeting, one byte in each read.
def greeting : List Message := [⟨.text,[104,105],⟨1,2,3,4⟩⟩]
def greetingReads : List Read := [0x81,0x82,1,2,3,4,105,107].map fun byte => ⟨0,[byte]⟩

theorem greeting_roundTrip : ∃ final actions, machine.run greetingReads = .ok (final,actions) ∧
    calls actions = [.handleWsData [104,105] wsOpTextType] ∧ final.frame.buffer = [] ∧ final.recvBufferVec = [] := by
  obtain ⟨bytes,sent,arrives⟩ := messages_roundTrip .client greeting
  have known : bytes = [0x81,0x82,1,2,3,4,105,107] := Except.ok.inj (sent.symm.trans rfl)
  exact arrives greetingReads (by rw [known]; rfl) (by rw [known]; decide)

end WebSocketSessionBase
end CoStream
