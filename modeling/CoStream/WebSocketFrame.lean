import CoStream.Foundation.Undefined
import CoStream.Foundation.Wire

namespace CoStream
open Foundation

structure MaskingKey where
  byte0 : UInt8
  byte1 : UInt8
  byte2 : UInt8
  byte3 : UInt8
deriving DecidableEq,Repr

namespace MaskingKey

def byte (key : MaskingKey) (i : Nat) : UInt8 :=
  match i%4 with
  | 0 => key.byte0
  | 1 => key.byte1
  | 2 => key.byte2
  | _ => key.byte3

def bytes (key : MaskingKey) : List UInt8 := [key.byte0,key.byte1,key.byte2,key.byte3]

end MaskingKey

-- The two loops of the masking code. The first takes four bytes at a time, the
-- second the bytes from `i` on that are left over. Both index a buffer whose
-- end they do not know.
def maskWords (key : MaskingKey) : Nat → List UInt8 → Except Fault (List UInt8)
  | 0,p => .ok p
  | words+1,a::b::c::d::p => do
    let rest ← maskWords key words p
    return (a ^^^ key.byte0)::(b ^^^ key.byte1)::(c ^^^ key.byte2)::(d ^^^ key.byte3)::rest
  | _+1,_ => .error .outOfBounds

def maskTail (key : MaskingKey) (i : Nat) : Nat → List UInt8 → Except Fault (List UInt8)
  | 0,p => .ok p
  | count+1,a::p => do
    let rest ← maskTail key (i+1) count p
    return (a ^^^ key.byte i)::rest
  | _+1,[] => .error .outOfBounds

def maskPayload (key : MaskingKey) (frameLength : Nat) (p : List UInt8) : Except Fault (List UInt8) := do
  let tempLen := frameLength-frameLength%4
  let words ← maskWords key (tempLen/4) p
  let tail ← maskTail key tempLen (frameLength-tempLen) (words.drop tempLen)
  return words.take tempLen++tail

-- The bit fields of WS_PACKET_HEADER, low bits first.
structure WsPacketHeader where
  opcode : UInt8
  fin : Bool
  payloadLen : UInt8
  mask : Bool
deriving DecidableEq,Repr

def wsPacketHeader (first second : UInt8) : WsPacketHeader :=
  {opcode:=first &&& 0x0f,fin:=first >>> 7 ≠ 0,payloadLen:=second &&& 0x7f,mask:=second >>> 7 ≠ 0}

-- The buffer is a byte queue. `payloadLen` is `int64_t`, `payloadStart` is `int`.
structure WebSocketFrame where
  buffer : List UInt8 := []
  payloadStart : Int := 0
  payloadLen : Int := 0
  opcode : UInt8 := 0
  maskEnable : Bool := false
  fin : Bool := false
  headerReady : Bool := false
  maskingKey : MaskingKey := ⟨0,0,0,0⟩
deriving DecidableEq,Repr

namespace WebSocketFrame

-- The extended length, if the buffer holds all of it. `none` leaves the fields
-- as the bytes read so far have set them.
def extendLength (f : WebSocketFrame) (payloadLen : UInt8) : Option WebSocketFrame :=
  if payloadLen = 127 then
    match f.buffer with
    | _::_::a::b::c::d::e::g::h::i::_ =>
      let extLen := a.toNat <<< 56 ||| b.toNat <<< 48 ||| c.toNat <<< 40 ||| d.toNat <<< 32 ||| e.toNat <<< 24 |||
        g.toNat <<< 16 ||| h.toNat <<< 8 ||| i.toNat
      some {f with payloadLen:=toInt64 extLen,payloadStart:=f.payloadStart+8}
    | _ => none
  else if payloadLen = 126 then
    match f.buffer with
    | _::_::a::b::_ => some {f with payloadLen:=(a.toNat <<< 8 ||| b.toNat : Nat),payloadStart:=f.payloadStart+2}
    | _ => none
  else some f

def readKey (f : WebSocketFrame) : Option WebSocketFrame :=
  if f.maskEnable then
    if toInt f.buffer.length < f.payloadStart+4 then none
    else
      match f.buffer.drop f.payloadStart.toNat with
      | a::b::c::d::_ => some {f with payloadStart:=f.payloadStart+4,maskingKey:=⟨a,b,c,d⟩}
      | _ => none
  else some f

def readPacket (f : WebSocketFrame) (header : WsPacketHeader) : WebSocketFrame :=
  {f with payloadLen:=header.payloadLen.toNat,payloadStart:=2,fin:=header.fin,opcode:=header.opcode}

-- The branch of Parse for a header that is not ready. The flag tells whether
-- it is ready now; without it Parse returns 1.
def parseHeader (f : WebSocketFrame) (first second : UInt8) : WebSocketFrame × Bool :=
  let header := wsPacketHeader first second
  match (f.readPacket header).extendLength header.payloadLen with
  | none => (f.readPacket header,false)
  | some extended =>
    let masked := {extended with maskEnable:=header.mask}
    match masked.readKey with
    | none => (masked,false)
    | some keyed => ({keyed with headerReady:=true},true)

-- The second half of Parse: wait for the payload, then unmask it in place.
def parsePayload (f : WebSocketFrame) : Except Fault (WebSocketFrame × Int) := do
  let total ← int64 (f.payloadStart+f.payloadLen)
  if toInt f.buffer.length < total then .ok (f,1)
  else if f.maskEnable then do
    let start := f.payloadStart.toNat
    let payload ← maskPayload f.maskingKey (toSize f.payloadLen) (f.buffer.drop start)
    .ok ({f with buffer:=f.buffer.take start++payload},0)
  else .ok (f,0)

def parse (f : WebSocketFrame) (data : List UInt8) : Except Fault (WebSocketFrame × Int) :=
  let filled := {f with buffer:=f.buffer++data}
  match filled.buffer with
  | first::second::_ =>
    if filled.headerReady then filled.parsePayload
    else
      match filled.parseHeader first second with
      | (waiting,false) => .ok (waiting,1)
      | (ready,true) => ready.parsePayload
  | _ => .ok (filled,1)

def payloadIsReady (f : WebSocketFrame) : Except Fault Bool := do
  let room ← int (toInt f.buffer.length-f.payloadStart)
  return toInt f.payloadLen ≤ room

-- The payload as a caller copies it, `GetPayloadLen()` bytes from `GetPayloadData()`.
def payload (f : WebSocketFrame) : Except Fault (List UInt8) :=
  let available := f.buffer.drop f.payloadStart.toNat
  if toSize f.payloadLen ≤ available.length then .ok (available.take (toSize f.payloadLen)) else .error .outOfBounds

-- `Consume` hands its `size_t` on as an `int`. A queue gives nothing when it is
-- asked for more than it has, and the loops below never ask for less than nothing.
def consume (f : WebSocketFrame) (len : Int) : WebSocketFrame :=
  if toInt (toSize len) > f.buffer.length then f else {f with buffer:=f.buffer.drop (toInt (toSize len)).toNat}

def reset (f : WebSocketFrame) : WebSocketFrame := {f with payloadStart:=0,payloadLen:=0,headerReady:=false}

end WebSocketFrame
end CoStream
