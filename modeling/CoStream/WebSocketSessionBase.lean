import CoStream.WebSocketFrame

namespace CoStream
open Foundation

def wsOpContinueType : UInt8 := 0x00
def wsOpTextType : UInt8 := 0x01
def wsOpBinType : UInt8 := 0x02
def wsOpCloseType : UInt8 := 0x08
def wsOpPingType : UInt8 := 0x09
def wsOpPongType : UInt8 := 0x0a

-- What HandleFrame does to the outside, in order: its virtual calls, and
-- between them a record of each Parse that returned 0 and of each Consume.
inductive Action where
  | parsed (frame : WebSocketFrame)
  | consumed (before after : Nat)
  | handleWsData (data : List UInt8) (opCode : UInt8)
  | sendWsFrame (data : List UInt8) (opCode : UInt8)
  | handleWsClose (data : List UInt8)
deriving DecidableEq,Repr

-- `isConnected`, `close` and `lastSendPingMs` belong to the two subclasses.
structure WebSocketSessionBase where
  frame : WebSocketFrame := {}
  recvBufferVec : List (List UInt8) := []
  lastOpCode : UInt8 := 1
  dieCount : Nat := 0
  lastRecvPongMs : Int := -1
  lastSendPingMs : Int := -1
  isConnected : Bool := false
  close : Bool := false
deriving DecidableEq,Repr

namespace WebSocketSessionBase

def handleWsPing (s : WebSocketSessionBase) : List Action := s.recvBufferVec.map (.sendWsFrame · wsOpPongType)

-- The switch at the end of the loop. Only the last pong of a call leaves its
-- clock reading, so one reading stands for them all.
def switch (nowMs : Int) (s : WebSocketSessionBase) : WebSocketSessionBase × List Action :=
  let opcode := s.frame.opcode
  if opcode = wsOpPingType then (s,s.handleWsPing)
  else if opcode = wsOpPongType then ({s with lastRecvPongMs:=nowMs},[])
  else if opcode = wsOpCloseType then (s,s.recvBufferVec.map .handleWsClose)
  else if opcode = wsOpContinueType then (s,s.recvBufferVec.map (.handleWsData · s.lastOpCode))
  else if opcode = wsOpTextType ∨ opcode = wsOpBinType then (s,s.recvBufferVec.map (.handleWsData · opcode))
  else (s,[])

def finish (nowMs : Int) (s : WebSocketSessionBase) : WebSocketSessionBase × List Action :=
  if s.frame.fin then
    let switched := switch nowMs {s with dieCount:=0}
    ({switched.1 with recvBufferVec:=[]},switched.2)
  else (s,[])

def rememberOpCode (s : WebSocketSessionBase) : WebSocketSessionBase :=
  if s.frame.opcode = wsOpTextType ∨ s.frame.opcode = wsOpBinType then {s with lastOpCode:=s.frame.opcode} else s

-- The payload joins the collected ones, and the frame is taken off the buffer.
def collect (s : WebSocketSessionBase) (payload : List UInt8) (consumed : WebSocketFrame) : WebSocketSessionBase :=
  {s.rememberOpCode with recvBufferVec:=s.recvBufferVec++[payload],frame:=consumed.reset}

-- One pass of the loop. `some ret` leaves HandleFrame, `none` goes on to the
-- loop's condition.
def takeFrame (nowMs : Int) (s : WebSocketSessionBase) :
    Except Fault (WebSocketSessionBase × List Action × Option Int) := do
  let ready ← s.frame.payloadIsReady
  if ready then do
    let payload ← s.frame.payload
    let len ← int64 (s.frame.payloadStart+s.frame.payloadLen)
    let consumed := s.frame.consume len
    let finished := finish nowMs (s.collect payload consumed)
    .ok (finished.1,.parsed s.frame::.consumed s.frame.buffer.length consumed.buffer.length::finished.2,none)
  else .ok (s.rememberOpCode,[.parsed s.frame],some 1)

def pass (nowMs : Int) (s : WebSocketSessionBase) (data : List UInt8) :
    Except Fault (WebSocketSessionBase × List Action × Option Int) := do
  let (frame,ret) ← s.frame.parse data
  if ret ≠ 0 then .ok ({s with frame},[],some ret) else takeFrame nowMs {s with frame}

def loop (nowMs : Int) : Nat → WebSocketSessionBase → List UInt8 →
    Except Fault (WebSocketSessionBase × List Action × Int)
  | 0,_,_ => .error .endless
  | fuel+1,s,data => do
    let (next,actions,left) ← pass nowMs s data
    match left with
    | some ret => .ok (next,actions,ret)
    | none =>
      if next.frame.buffer.length > 0 then do
        let (final,later,ret) ← loop nowMs fuel next []
        .ok (final,actions++later,ret)
      else .ok (next,actions,0)

def handleFrame (nowMs : Int) (s : WebSocketSessionBase) (data : List UInt8) :
    Except Fault (WebSocketSessionBase × List Action × Int) :=
  loop nowMs (s.frame.buffer.length+data.length+1) s data

-- A read, and the clock while it is handled.
structure Read where
  nowMs : Int
  data : List UInt8
deriving DecidableEq,Repr

def stream (reads : List Read) : List UInt8 := reads.flatMap Read.data

def step (s : WebSocketSessionBase) (read : Read) : Except Fault (WebSocketSessionBase × List Action) := do
  let (next,actions,_) ← handleFrame read.nowMs s read.data
  return (next,actions)

def machine : Machine WebSocketSessionBase Read Action Fault := ⟨{},step⟩

end WebSocketSessionBase
end CoStream
