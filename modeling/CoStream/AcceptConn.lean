import CoStream.Foundation.Undefined

namespace CoStream.AcceptConn
open Foundation

inductive RecvStatus where
  | pending | ok | error
deriving DecidableEq,Repr

inductive SendStatus where
  | pending | ok | error
deriving DecidableEq,Repr

structure RecvResult where
  status : RecvStatus
  recvLen : Int
deriving DecidableEq,Repr

structure SendResult where
  status : SendStatus
  sentLen : Int
deriving DecidableEq,Repr

-- `π` names the promises, one for each co_await. The receive buffer is a byte
-- queue. `recvData` names the caller's buffer that the latest CoReceive passed:
-- the connection keeps one destination, not one for each promise.
structure Conn (π : Type) where
  recvBuffer : List UInt8 := []
  recvData : Nat := 0
  recvSize : Nat := 0
  readAwaiters : List π := []
  writeAwaiters : List π := []
deriving DecidableEq,Repr

-- What a resumed coroutine sees: the awaited result and, for a receive, the
-- bytes written to the caller's buffer.
inductive Resumed (π : Type) where
  | received (promise : π) (result : RecvResult) (recvData : Nat) (bytes : List UInt8)
  | sent (promise : π) (result : SendResult)
deriving DecidableEq,Repr

variable {π : Type}

-- A buffer is shorter than 2^63 bytes, so its size is the same as `ssize_t`.
def handleReceive (c : Conn π) (promise : π) (nread : Int) : Conn π × List (Resumed π) :=
  if nread ≤ 0 then (c,[.received promise ⟨.error,0⟩ c.recvData []])
  else if nread > c.recvSize then
    ({c with recvBuffer:=c.recvBuffer.drop c.recvSize},
      [.received promise ⟨.ok,c.recvSize⟩ c.recvData (c.recvBuffer.take c.recvSize)])
  else
    ({c with recvBuffer:=c.recvBuffer.drop nread.toNat},
      [.received promise ⟨.ok,nread⟩ c.recvData (c.recvBuffer.take nread.toNat)])

-- CoReceive stores the destination, then await_suspend looks into the buffer.
def coReceive (c : Conn π) (promise : π) (recvData recvSize : Nat) : Conn π × List (Resumed π) :=
  let called := {c with recvData,recvSize}
  if called.recvBuffer.length > 0 then handleReceive called promise called.recvBuffer.length
  else ({called with readAwaiters:=called.readAwaiters++[promise]},[])

-- The outcome of one libuv read: data, or a code below zero.
inductive ReadEvent where
  | data (bytes : List UInt8)
  | failed (code : Nat)
deriving DecidableEq,Repr

def ReadEvent.nread : ReadEvent → Int
  | .data bytes => bytes.length
  | .failed code => -(code+1)
def ReadEvent.bytes : ReadEvent → List UInt8
  | .data bytes => bytes
  | .failed _ => []

theorem ReadEvent.quiet_bytes {read : ReadEvent} (quiet : read.nread ≤ 0) : read.bytes = [] := by
  cases read with
  | data bytes =>
    simp only [nread] at quiet
    exact List.length_eq_zero_iff.mp (show bytes.length = 0 by omega)
  | failed code => rfl

def onReceive (c : Conn π) (read : ReadEvent) : Conn π × List (Resumed π) :=
  match c.readAwaiters with
  | [] => (c,[])
  | awaiter::rest =>
    let filled := if read.nread > 0 then {c with recvBuffer:=c.recvBuffer++read.bytes} else c
    handleReceive {filled with readAwaiters:=rest} awaiter read.nread

def onUvRead (c : Conn π) (read : ReadEvent) : Conn π × List (Resumed π) :=
  if read.nread = 0 then (c,[]) else onReceive c read

def handleSend (promise : π) (status : Int) (sentLen : Nat) : List (Resumed π) :=
  if status = 0 then [.sent promise ⟨.ok,toInt sentLen⟩] else [.sent promise ⟨.error,-1⟩]

-- SendData hands libuv a copy; the length passes through `unsigned int`.
def sendData (data : List UInt8) : List UInt8 := data.take (data.length % 2^32)

-- await_suspend of a send. `uvWrite` is what uv_write answers to SendData.
def coSend (c : Conn π) (promise : π) (uvWrite : Int) : Conn π × List (Resumed π) :=
  if uvWrite ≠ 0 then (c,[.sent promise ⟨.error,-1⟩])
  else ({c with writeAwaiters:=c.writeAwaiters++[promise]},[])

def onWrite (c : Conn π) (request : List UInt8) (status : Int) : Conn π × List (Resumed π) :=
  match c.writeAwaiters with
  | [] => (c,[])
  | awaiter::rest => ({c with writeAwaiters:=rest},handleSend awaiter status request.length)

-- One coroutine on one connection. It calls only while it runs; libuv reads
-- whenever it likes, and completes the requests it accepted in their order.
inductive Phase where
  | running | receiving | sending
deriving DecidableEq,Repr

structure Session where
  conn : Conn Unit := {}
  phase : Phase := .running
  requests : List (List UInt8) := []
deriving DecidableEq,Repr

inductive Event where
  | uvRead (read : ReadEvent)
  | coReceive (recvData recvSize : Nat)
  | coSend (data : List UInt8) (uvWrite : Int)
  | uvWrite (status : Int)
deriving DecidableEq,Repr

inductive Disabled where
  | suspended
  | nothingSubmitted
deriving DecidableEq,Repr

def resume (phase : Phase) (outputs : List (Resumed Unit)) : Phase := if outputs = [] then phase else .running

def step (s : Session) : Event → Except Disabled (Session × List (Resumed Unit))
  | .uvRead read =>
    let (conn,outputs) := onUvRead s.conn read
    .ok ({s with conn,phase:=resume s.phase outputs},outputs)
  | .coReceive recvData recvSize =>
    if s.phase = .running then
      let (conn,outputs) := AcceptConn.coReceive s.conn () recvData recvSize
      .ok ({s with conn,phase:=resume .receiving outputs},outputs)
    else .error .suspended
  | .coSend data uvWrite =>
    if s.phase = .running then
      let (conn,outputs) := AcceptConn.coSend s.conn () uvWrite
      let requests := if uvWrite = 0 then s.requests++[sendData data] else s.requests
      .ok ({conn,phase:=resume .sending outputs,requests},outputs)
    else .error .suspended
  | .uvWrite status =>
    match s.requests with
    | [] => .error .nothingSubmitted
    | request::requests =>
      let (conn,outputs) := onWrite s.conn request status
      .ok ({conn,phase:=resume s.phase outputs,requests},outputs)

def machine : Machine Session Event (Resumed Unit) Disabled := ⟨{},step⟩

end CoStream.AcceptConn
