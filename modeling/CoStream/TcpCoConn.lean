import CoStream.AcceptConn

namespace CoStream.TcpCoConn
open Foundation
open AcceptConn (RecvResult SendResult Resumed ReadEvent Phase sendData)

-- Why an event has no defined effect: it cannot come in this state, or the
-- callback it runs follows a null or an unwritten pointer, or `memcpy` is given
-- a negative length.
inductive Stop where
  | disabled
  | nullCallback
  | wildHandle
  | outOfBounds
deriving DecidableEq,Repr

-- `π` names the promises. The two callbacks point to a promise or are null;
-- `handleData` says whether `handle->data`, which `uv_tcp_init` does not write,
-- has been set. A coroutine that is resumed destroys its promise, and a receive
-- promise clears the callback as it goes.
structure Conn (π : Type) where
  recvBuffer : List UInt8 := []
  recvData : Nat := 0
  recvSize : Nat := 0
  readStarted : Bool := false
  recvAwaiterCallback : Option π := none
  sendBuffer : List UInt8 := []
  sendAwaiterCallback : Option π := none
  handleData : Bool := false
deriving DecidableEq,Repr

def uvReadBufferSize : Nat := 20*1024

variable {π : Type}

-- Where more has arrived than the caller asked for, the coroutine is resumed
-- before the result is recorded, so it sees the one the promise was made with.
def onAwaiterRecv (c : Conn π) (promise : π) (recvLen : Int) : Except Stop (Conn π × List (Resumed π)) :=
  let closed := {c with recvAwaiterCallback:=none}
  if recvLen ≤ 0 then .ok (closed,[.received promise ⟨.error,0⟩ c.recvData []])
  else if recvLen > toInt c.recvSize then
    let recvLen := toInt c.recvSize
    if recvLen < 0 then .error .outOfBounds
    else .ok ({closed with recvBuffer:=c.recvBuffer.drop recvLen.toNat},
      [.received promise ⟨.pending,0⟩ c.recvData (c.recvBuffer.take recvLen.toNat)])
  else .ok ({closed with recvBuffer:=c.recvBuffer.drop recvLen.toNat},
    [.received promise ⟨.ok,recvLen⟩ c.recvData (c.recvBuffer.take recvLen.toNat)])

-- `uvReadStart` is what `uv_read_start` answers. `await_suspend` does not look
-- at the outcome.
def startReceive (c : Conn π) (uvReadStart : Int) : Conn π :=
  if c.readStarted then c
  else if uvReadStart ≠ 0 then c
  else {c with readStarted:=true}

def coReceive (c : Conn π) (promise : π) (recvData recvSize : Nat) (uvReadStart : Int) :
    Except Stop (Conn π × List (Resumed π)) :=
  let called := {c with recvData,recvSize,recvAwaiterCallback:=some promise}
  if called.recvBuffer.length > 0 then onAwaiterRecv called promise (toInt called.recvBuffer.length)
  else .ok (startReceive called uvReadStart,[])

def onRead (c : Conn π) (read : ReadEvent) : Except Stop (Conn π × List (Resumed π)) :=
  let filled := if read.nread ≤ 0 then c else {c with recvBuffer:=c.recvBuffer++read.bytes}
  match c.recvAwaiterCallback with
  | none => .error .nullCallback
  | some promise => onAwaiterRecv filled promise (toInt read.nread)

def onUVClientRead (c : Conn π) (read : ReadEvent) : Except Stop (Conn π × List (Resumed π)) :=
  if c.handleData then onRead c read else .error .wildHandle

def onAwaiterSend (promise : π) (sentLen : Int) : List (Resumed π) :=
  if sentLen > 0 then [.sent promise ⟨.ok,sentLen⟩] else [.sent promise ⟨.error,-1⟩]

-- `uvWrite` is what `uv_write` answers to StartSend.
def coSend (c : Conn π) (promise : π) (data : List UInt8) (uvWrite : Int) : Conn π × List (Resumed π) :=
  let called := {c with sendBuffer:=data,sendAwaiterCallback:=some promise,handleData:=true}
  if uvWrite ≠ 0 then (called,[.sent promise ⟨.error,-1⟩]) else (called,[])

def onWrite (c : Conn π) (request : List UInt8) (status : Int) : Except Stop (List (Resumed π)) :=
  if status = 0 then
    match c.sendAwaiterCallback with
    | none => .error .nullCallback
    | some promise => .ok (onAwaiterSend promise (toInt request.length))
  else .ok []

-- One coroutine on one connected client, its awaits numbered. libuv reads once
-- reading has started, whatever the coroutine is doing, into a buffer of 20 KiB.
structure Session where
  conn : Conn Nat := {}
  phase : Phase := .running
  request : Option (List UInt8) := none
  calls : Nat := 0
deriving DecidableEq,Repr

inductive Event where
  | uvRead (read : ReadEvent)
  | coReceive (recvData recvSize : Nat) (uvReadStart : Int)
  | coSend (data : List UInt8) (uvWrite : Int)
  | uvWrite (status : Int)
deriving DecidableEq,Repr

def resume (phase : Phase) (outputs : List (Resumed Nat)) : Phase := if outputs = [] then phase else .running

-- What libuv can report: a read that fits its buffer, or a code in `int`.
def Reportable (read : ReadEvent) : Prop := read.bytes.length ≤ uvReadBufferSize ∧ FitsInt read.nread
instance (read : ReadEvent) : Decidable (Reportable read) := inferInstanceAs (Decidable (_ ∧ _))

def step (s : Session) : Event → Except Stop (Session × List (Resumed Nat))
  | .uvRead read =>
    if s.conn.readStarted ∧ Reportable read then do
      let (conn,outputs) ← onUVClientRead s.conn read
      return ({s with conn,phase:=resume s.phase outputs},outputs)
    else .error .disabled
  | .coReceive recvData recvSize uvReadStart =>
    if s.phase = .running then do
      let (conn,outputs) ← TcpCoConn.coReceive s.conn s.calls recvData recvSize uvReadStart
      return ({s with conn,phase:=resume .receiving outputs,calls:=s.calls+1},outputs)
    else .error .disabled
  | .coSend data uvWrite =>
    if s.phase = .running then
      let (conn,outputs) := TcpCoConn.coSend s.conn s.calls data uvWrite
      let request := if uvWrite = 0 then some (sendData data) else s.request
      .ok ({conn,phase:=resume .sending outputs,request,calls:=s.calls+1},outputs)
    else .error .disabled
  | .uvWrite status =>
    match s.request with
    | none => .error .disabled
    | some request => do
      let outputs ← onWrite s.conn request status
      return ({s with request:=none,phase:=resume s.phase outputs},outputs)

def machine : Machine Session Event (Resumed Nat) Stop := ⟨{},step⟩

end CoStream.TcpCoConn
