import CoStream.Foundation.Link
import CoStream.WebSocketBoundary
import CoStream.WebSocketDelivery
import CoStream.WebSocketSend

namespace CoStream
open Foundation
open WebSocketFrame (Pending)
open WebSocketSessionBase (Assembly FramesBelow assembly calls isClose sentFrames serverSends clientSends)

-- What one application says to the other.
abbrev Said := MessageType × Bytes

def messageOf (opCode : UInt8) (data : Bytes) : List Said :=
  if opCode = wsOpTextType then [(.text,data)] else if opCode = wsOpBinType then [(.binary,data)] else []
def pingOf (opCode : UInt8) (data : Bytes) : List Bytes := if opCode = wsOpPingType then [data] else []
def pongOf (opCode : UInt8) (data : Bytes) : List Bytes := if opCode = wsOpPongType then [data] else []

-- The frames that the two ends send: each is whole, and HandleFrame can count it.
structure Ordinary (opCode : UInt8) (data : Bytes) : Prop where
  kind : opCode = wsOpTextType ∨ opCode = wsOpBinType ∨ opCode = wsOpPingType ∨ opCode = wsOpPongType
  short : data.length+2^16 < 2^31

theorem Ordinary.nibble (plain : Ordinary opCode data) : opCode < 0x10 := by
  rcases plain.kind with rfl | rfl | rfl | rfl <;> decide

namespace Action

def sent (view : UInt8 → Bytes → List τ) : Action → List τ
  | .sendWsFrame data opCode => view opCode data
  | _ => []

def handed : Action → List Said
  | .handleWsData data opCode => messageOf opCode data
  | _ => []

end Action

namespace Frame

def brings (view : UInt8 → Bytes → List τ) (frame : Frame) : List τ := view frame.opcode frame.payload

def Sent (frame : Frame) : Prop := frame.fin = true ∧ Ordinary frame.opcode frame.payload

-- What HandleFrame calls for it when nothing was collected before.
def answers (frame : Frame) : List Action :=
  if frame.opcode = wsOpPingType then [.sendWsFrame frame.payload wsOpPongType]
  else if frame.opcode = wsOpPongType then []
  else [.handleWsData frame.payload frame.opcode]

variable {frame : Frame} {frames : List Frame}

theorem Sent.kinds (sent : frame.Sent) :
    frame.opcode = wsOpPingType ∧ frame.answers = [.sendWsFrame frame.payload wsOpPongType] ∨
    frame.opcode = wsOpPongType ∧ frame.answers = [] ∨
    (frame.opcode = wsOpTextType ∨ frame.opcode = wsOpBinType) ∧
      frame.answers = [.handleWsData frame.payload frame.opcode] := by
  unfold answers
  rcases sent.2.kind with kind | kind | kind | kind
  · exact .inr (.inr ⟨.inl kind,by rw [kind]; rfl⟩)
  · exact .inr (.inr ⟨.inr kind,by rw [kind]; rfl⟩)
  · exact .inl ⟨kind,by rw [kind]; rfl⟩
  · exact .inr (.inl ⟨kind,by rw [kind]; rfl⟩)

end Frame

-- A frame on the wire, with the key that masks it.
structure Packet where
  data : Bytes
  opCode : UInt8
  maskingKey : MaskingKey
deriving DecidableEq,Repr

namespace Packet

def bytes (packet : Packet) : Bytes := encode packet.maskingKey packet.data packet.opCode
def frame (packet : Packet) : Frame := ⟨true,packet.opCode,packet.data⟩
def action (packet : Packet) : Action := .sendWsFrame packet.data packet.opCode

theorem length_bytes (packet : Packet) : packet.bytes.length ≤ packet.data.length+14 := by
  unfold bytes encode sendHeader
  dsimp only
  split
  · split <;> simp [MaskingKey.bytes]
  · simp [MaskingKey.bytes]

variable {packets : List Packet}

theorem decodes (plain : ∀ packet ∈ packets, Ordinary packet.opCode packet.data) :
    frameDecoder.Decodes bytes frame packets := by
  intro packet member more
  have fits := (plain packet member).short
  exact nextFrame_encode packet.maskingKey packet.data more packet.opCode (plain packet member).nibble (by omega)

end Packet

-- Both ends hand what SendWsFrame built to the connection. `random` is what
-- the random source gives, one key after the other.
def transmit (sender : Sender) (random : Nat → MaskingKey) : Nat → List Action → Except Fault (Nat × Bytes)
  | drawn,[] => .ok (drawn,[])
  | drawn,.sendWsFrame data opCode::rest => do
    let writes ← sendWsFrame sender (random drawn) data opCode
    let (last,later) ← transmit sender random (drawn+1) rest
    return (last,writes.flatten++later)
  | drawn,_::rest => transmit sender random drawn rest

-- What came out of one direction: what the sender sent, what its application
-- said, what the receiver handed to its own, and what it answered pings with.
structure Direction (held wire : Bytes) (sends : List Action) (said heard : List Said) (ponged : List Bytes) : Prop where
  said : sends.flatMap (Action.sent messageOf) = said
  carried : ∃ packets frames, Link frameDecoder Packet.bytes Packet.frame packets frames held wire ∧
    (∀ packet ∈ packets, Ordinary packet.opCode packet.data) ∧ packets.map Packet.action = sends ∧
    frames.flatMap (Frame.brings messageOf) = heard ∧ frames.flatMap (Frame.brings pingOf) = ponged

-- What one end does in one step, for the frames that the step completes.
structure Turn (frames : List Frame) (sends : List Action) (said heard : List Said) : Prop where
  plain : ∀ data opCode, .sendWsFrame data opCode ∈ sends → Ordinary opCode data
  said : sends.flatMap (Action.sent messageOf) = said
  ponged : sends.flatMap (Action.sent pongOf) = frames.flatMap (Frame.brings pingOf)
  heard : frames.flatMap (Frame.brings messageOf) = heard

namespace Direction
variable {held data wire : Bytes} {sends more : List Action} {said heard now : List Said} {ponged : List Bytes}

theorem start : Direction [] [] [] [] [] [] :=
  ⟨rfl,[],[],Link.start,fun _ member => absurd member List.not_mem_nil,rfl,rfl,rfl⟩

theorem waits (direction : Direction held wire sends said heard ponged) : nextFrame held = none := by
  obtain ⟨packets,frames,link,-⟩ := direction.carried
  exact link.waits

-- Nothing in a read of these bytes is out of the range of HandleFrame.
theorem inRange (direction : Direction held (data++wire) sends said heard ponged) (short : data.length ≤ 10*1024) :
    FramesBelow (held++data) ∧ (held++data).length < 2^31 ∧
      ∀ frame ∈ (frameDecoder.drain (held++data)).1, frame.Sent := by
  obtain ⟨packets,frames,link,plain,-⟩ := direction.carried
  refine ⟨fun place h reached found => ?_,?_,fun frame member => ?_⟩
  · obtain ⟨back,inside,goes⟩ := link.goes_on reached
    have longer := Header.read?_append found wire
    rw [goes] at longer
    cases back with
    | nil => cases longer
    | cons first behind =>
      have packet := plain first (inside first List.mem_cons_self)
      have known := read?_encode first.maskingKey first.data (behind.flatMap Packet.bytes) first.opCode packet.nibble
        (by have fits := packet.short; omega)
      cases longer.symm.trans known
      have header := first.length_bytes
      have fits := packet.short
      unfold Packet.bytes encode at header
      simp only [List.length_append,length_xorStream,MaskingKey.bytes,List.length_cons,List.length_nil] at header
      dsimp only
      omega
  · have most := link.held_le (2^31-2^16+14) fun packet member => by
      have fits := (plain packet member).short
      have bound := packet.length_bytes
      omega
    rw [List.length_append]
    omega
  · obtain ⟨front,same,inside⟩ := link.deliver.taken_front
    have among : frame ∈ front.map Packet.frame := same ▸ List.mem_append_right _ member
    obtain ⟨packet,listed,rfl⟩ := List.mem_map.mp among
    exact ⟨rfl,plain packet (inside.subset listed)⟩

theorem deliver (direction : Direction held (data++wire) sends said heard ponged)
    (turn : Turn (frameDecoder.drain (held++data)).1 answers spoke now) :
    Direction (frameDecoder.drain (held++data)).2 wire sends said (heard++now)
      (ponged++answers.flatMap (Action.sent pongOf)) := by
  obtain ⟨packets,frames,link,plain,acted,rfl,rfl⟩ := direction.carried
  refine ⟨direction.said,packets,_,link.deliver,plain,acted,?_,?_⟩
  · rw [List.flatMap_append,turn.heard]
  · rw [List.flatMap_append,turn.ponged]

theorem send (direction : Direction held wire sends said heard ponged) (packets : List Packet)
    (acted : packets.map Packet.action = more) (turn : Turn frames more now theirs) :
    Direction held (wire++packets.flatMap Packet.bytes) (sends++more) (said++now) heard ponged := by
  obtain ⟨before,taken,link,plain,same,rfl,rfl⟩ := direction.carried
  have fits : ∀ packet ∈ packets, Ordinary packet.opCode packet.data := by
    intro packet member
    exact turn.plain packet.data packet.opCode (acted ▸ List.mem_map_of_mem (f := Packet.action) member)
  refine ⟨by rw [List.flatMap_append,direction.said,turn.said],before++packets,taken,link.send (Packet.decodes fits),?_,
    by rw [List.map_append,same,acted],rfl,rfl⟩
  intro packet member
  rcases List.mem_append.mp member with early | late
  · exact plain packet early
  · exact fits packet late

theorem views (view : UInt8 → Bytes → List τ) (packets : List Packet) :
    (packets.map Packet.action).flatMap (Action.sent view) = (packets.map Packet.frame).flatMap (Frame.brings view) := by
  rw [List.flatMap_map,List.flatMap_map]
  rfl

-- What the receiver has is the front of what the sender gave, and all of it when
-- nothing is on the way.
theorem fronts (direction : Direction held wire sends said heard ponged) :
    heard <+: said ∧ ponged <+: sends.flatMap (Action.sent pingOf) := by
  obtain ⟨packets,frames,link,plain,rfl,rfl,rfl⟩ := direction.carried
  obtain ⟨front,rfl,behind,rfl⟩ := link.taken_front
  rw [← direction.said,← views,← views,List.map_append,List.flatMap_append,List.flatMap_append]
  exact ⟨List.prefix_append _ _,List.prefix_append _ _⟩

theorem whole (direction : Direction held [] sends said heard ponged) :
    heard = said ∧ ponged = sends.flatMap (Action.sent pingOf) := by
  obtain ⟨packets,frames,link,plain,rfl,rfl,rfl⟩ := direction.carried
  rw [link.arrived,← direction.said,← views,← views]
  exact ⟨rfl,rfl⟩

end Direction

namespace WebSocketSessionBase
variable {s : WebSocketSessionBase} {frames : List Frame} {actions : List Action}

-- A base part between two reads: nothing is collected.
structure Settled (s : WebSocketSessionBase) : Prop where
  isOpen : s.close = false
  pending : Pending s.frame
  empty : s.recvBufferVec = []

end WebSocketSessionBase

def SessionCall.said : SessionCall → List Said
  | .asyncWriteText text => [(.text,text)]
  | .asyncWriteData data => [(.binary,data)]
  | .setSessionCallback => []

-- A message that HandleFrame can count on the other side, with what stands in
-- front of it and one read more.
def SessionCall.Short (call : SessionCall) : Prop := ∀ message ∈ call.said, message.2.length+2^16 < 2^31

-- A read that the transport makes: an error, or no more bytes than its buffer
-- holds.
def Arrives (size : Nat) (retCode : Int) (data : Bytes) : Prop :=
  retCode < 0 ∧ data = [] ∨ retCode = 0 ∧ data ≠ [] ∧ data.length ≤ size

instance {size : Nat} {retCode : Int} {data : Bytes} : Decidable (Arrives size retCode data) :=
  inferInstanceAs (Decidable (_ ∨ _))

namespace Turn

theorem silent : Turn [] [] [] [] := ⟨by simp,rfl,rfl,rfl⟩

theorem writing (data : Bytes) (short : data.length+2^16 < 2^31) :
    Turn [] [.sendWsFrame data wsOpBinType] [(.binary,data)] [] := by
  refine ⟨?_,rfl,rfl,rfl⟩
  intro other opCode member
  cases List.mem_singleton.mp member
  exact ⟨.inr (.inl rfl),short⟩

end Turn

namespace WebSocketSession
variable {s : WebSocketSession} {event : Event}

def delivered (outputs : List Output) : List Said :=
  outputs.flatMap fun
    | .onReadText text => [(.text,text)]
    | .onReadData data => [(.binary,data)]
    | _ => []

theorem delivered_append (first second : List Output) : delivered (first++second) = delivered first++delivered second :=
  List.flatMap_append

def Event.bytes : Event → Bytes
  | .read _ data _ => data
  | _ => []

def Event.said : Event → List Said
  | .call made => made.said
  | _ => []

def Event.Proper : Event → Prop
  | .read retCode data _ => Arrives (5*1024) retCode data
  | .call made => made.Short
  | _ => True

-- A session behind its handshake whose handler has set a callback.
structure Switched (s : WebSocketSession) : Prop where
  ready : s.httpRequestReady = true
  calledBack : s.hasCallback = true
  settled : s.base.Settled

def Event.loses : Event → Bool
  | .read retCode _ _ => retCode < 0
  | _ => false

end WebSocketSession

namespace WebSocketClient
variable {client : WebSocketClient} {event : Event}

def delivered (outputs : List Output) : List Said :=
  outputs.flatMap fun
    | .onReadText text => [(.text,text)]
    | .onReadData data => [(.binary,data)]
    | _ => []

theorem delivered_append (first second : List Output) : delivered (first++second) = delivered first++delivered second :=
  List.flatMap_append

def Event.bytes : Event → Bytes
  | .read _ data _ => data
  | _ => []

def Event.said : Event → List Said
  | .call made => made.said
  | _ => []

def Event.Proper : Event → Prop
  | .read retCode data _ => Arrives (10*1024) retCode data
  | .call made => made.Short
  | _ => True

-- A client behind its handshake: the response has no body of its own, so every
-- read goes to HandleFrame.
structure Switched (client : WebSocketClient) : Prop where
  ready : client.httpReady = true
  settled : client.base.Settled
  answered : ∃ r, client.http.response = some r ∧ r.headerReady = true ∧ r.contentLength ≤ 0 ∧ r.data = []

-- OnClose is called for an error of the connection or for a missing pong, never
-- for a close frame.
def Output.unclosed : Output → Prop
  | .onClose code _ => code = -1
  | _ => True

theorem Switched.moved (switched : Switched client) (http : next.http = client.http) (ready : next.httpReady = client.httpReady)
    (frame : next.base.frame = client.base.frame) (vec : next.base.recvBufferVec = client.base.recvBufferVec)
    (close : next.base.close = client.base.close) : Switched next where
  ready := ready.trans switched.ready
  settled := ⟨close.trans switched.settled.isOpen,frame ▸ switched.settled.pending,vec.trans switched.settled.empty⟩
  answered := http ▸ switched.answered

def Event.loses : Event → Bool
  | .read retCode _ _ => retCode < 0
  | _ => false

end WebSocketClient

end CoStream
