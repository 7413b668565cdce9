import CoStream.TcpCoConn

namespace CoStream.TcpCoConn
open Foundation
open AcceptConn (RecvResult SendResult Resumed ReadEvent handleReceive onReceive)

-- The two ends of a connection keep the same fields for a receive.
structure Alike (client : Conn π) (server : AcceptConn.Conn π) : Prop where
  recvBuffer : client.recvBuffer = server.recvBuffer
  recvData : client.recvData = server.recvData
  recvSize : client.recvSize = server.recvSize

-- The client comes back, with the same bytes left in its buffer, and what its
-- coroutine sees as it is resumed (whether it is, its result and the bytes
-- copied for it) is what the server's sees.
def AgreeAfter (client : Except Stop (Conn π × List (Resumed π))) (server : AcceptConn.Conn π × List (Resumed π)) :
    Prop :=
  ∃ next, client = .ok (next,server.2) ∧ next.recvBuffer = server.1.recvBuffer

-- Nothing to hand out, or no more than the destination takes as an `int`.
def Within (recvSize : Nat) (count : Int) : Prop := count ≤ 0 ∨ count ≤ toInt recvSize

variable {π : Type} {client : Conn π} {server : AcceptConn.Conn π} {promise : π} {count : Int}

theorem handlers_agree (alike : Alike client server) (within : Within client.recvSize count) :
    AgreeAfter (onAwaiterRecv client promise count) (handleReceive server promise count) := by
  obtain ⟨buffer,data,size⟩ := alike
  have narrow := toInt_le client.recvSize
  by_cases failed : count ≤ 0
  · refine ⟨{client with recvAwaiterCallback:=none},?_,?_⟩
    · simp only [onAwaiterRecv,handleReceive,if_pos failed,data]
    · simp only [handleReceive,if_pos failed,buffer]
  · have room : ¬ count > toInt client.recvSize := by
      rcases within with none | fits
      · exact absurd none failed
      · omega
    have fits : ¬ count > server.recvSize := by
      rw [← size]
      omega
    refine ⟨{client with recvAwaiterCallback:=none,recvBuffer:=client.recvBuffer.drop count.toNat},?_,?_⟩
    · simp only [onAwaiterRecv,handleReceive,if_neg failed,if_neg room,if_neg fits,data,buffer]
    · simp only [handleReceive,if_neg failed,if_neg fits,buffer]

-- Beyond that the server reports what it has copied; the client is resumed with
-- a promise that has not been settled, or not at all.
theorem handlers_within (agree : AgreeAfter (onAwaiterRecv client promise count) (handleReceive server promise count)) :
    Within client.recvSize count := by
  obtain ⟨next,same,-⟩ := agree
  by_contra wide
  obtain ⟨positive,beyond⟩ := not_or.mp wide
  have more : count > toInt client.recvSize := by omega
  simp only [onAwaiterRecv,handleReceive,if_neg positive,if_pos more] at same
  split at same
  · cases same
  · split at same
    · simp at same
    · simp at same

theorem handlers_agree_iff (alike : Alike client server) :
    AgreeAfter (onAwaiterRecv client promise count) (handleReceive server promise count) ↔
      Within client.recvSize count :=
  ⟨handlers_within,handlers_agree alike⟩

-- A waiting receive is resumed by a read on either side, one that finds bytes
-- in the buffer by the call itself.
theorem awaiters_agree_iff (client : Conn π) (server : AcceptConn.Conn π) (promise : π) (alike : Alike client server)
    (held : server.recvBuffer.length < 2^31) :
    (∀ read rest, Reportable read → client.recvAwaiterCallback = some promise →
        server.readAwaiters = promise::rest →
        (AgreeAfter (onRead client read) (onReceive server read) ↔ Within client.recvSize read.nread)) ∧
      ∀ recvData recvSize uvReadStart,
        (AgreeAfter (coReceive client promise recvData recvSize uvReadStart)
            (AcceptConn.coReceive server promise recvData recvSize) ↔
          Within recvSize client.recvBuffer.length) := by
  obtain ⟨buffer,data,size⟩ := alike
  constructor
  · intro read rest reportable callback awaiters
    let arrived : Conn π := if read.nread ≤ 0 then client else {client with recvBuffer:=client.recvBuffer++read.bytes}
    let taken : AcceptConn.Conn π :=
      {(if read.nread > 0 then {server with recvBuffer:=server.recvBuffer++read.bytes} else server) with
        readAwaiters := rest}
    have clientRan : onRead client read = onAwaiterRecv arrived promise read.nread := by
      simp only [onRead,callback,arrived,toInt_fits reportable.2]
    have serverRan : onReceive server read = handleReceive taken promise read.nread := by
      simp only [onReceive,awaiters,taken]
    have stillAlike : Alike arrived taken := by
      by_cases quiet : read.nread ≤ 0
      · have none : ¬ read.nread > 0 := by omega
        simp only [arrived,taken,if_pos quiet,if_neg none]
        exact ⟨buffer,data,size⟩
      · have some : read.nread > 0 := by omega
        simp only [arrived,taken,if_neg quiet,if_pos some]
        exact ⟨by rw [buffer],data,size⟩
    have sameSize : arrived.recvSize = client.recvSize := by
      simp only [arrived]
      split <;> rfl
    rw [clientRan,serverRan,handlers_agree_iff stillAlike,sameSize]
  · intro recvData recvSize uvReadStart
    by_cases empty : client.recvBuffer = []
    · have none : server.recvBuffer = [] := buffer.symm.trans empty
      refine ⟨fun _ => .inl (by simp [empty]),fun _ => ?_⟩
      simp only [coReceive,AcceptConn.coReceive,empty,none,List.length_nil,gt_iff_lt,Nat.lt_irrefl,if_false]
      refine ⟨_,rfl,?_⟩
      unfold startReceive
      split
      · rfl
      split
      · rfl
      · rfl
    · have long := List.length_pos_iff.mpr empty
      have length : toInt client.recvBuffer.length = client.recvBuffer.length := by
        rw [buffer]
        exact toInt_fits (by constructor <;> omega)
      have called : Alike {client with recvData,recvSize,recvAwaiterCallback:=some promise}
        {server with recvData,recvSize} := ⟨buffer,rfl,rfl⟩
      have same : server.recvBuffer.length = client.recvBuffer.length := by rw [buffer]
      simp only [coReceive,AcceptConn.coReceive,gt_iff_lt,if_pos long,length,same]
      exact handlers_agree_iff called

def waitingClient : Conn Nat := {recvSize:=2,recvAwaiterCallback:=some 0,readStarted:=true,handleData:=true}
def waitingServer : AcceptConn.Conn Nat := {recvSize:=2,readAwaiters:=[0]}

theorem awaiters_agree_twoBytes :
    (∀ read rest, Reportable read → waitingClient.recvAwaiterCallback = some 0 →
        waitingServer.readAwaiters = 0::rest →
        (AgreeAfter (onRead waitingClient read) (onReceive waitingServer read) ↔
          Within waitingClient.recvSize read.nread)) ∧
      ∀ recvData recvSize uvReadStart,
        (AgreeAfter (coReceive waitingClient 0 recvData recvSize uvReadStart)
            (AcceptConn.coReceive waitingServer 0 recvData recvSize) ↔
          Within recvSize waitingClient.recvBuffer.length) :=
  awaiters_agree_iff waitingClient waitingServer 0 ⟨rfl,rfl,rfl⟩ (by decide)

-- Three bytes for two places: both copy two, and only the server says so.
theorem threeBytes_disagree : Alike waitingClient waitingServer ∧
    onRead waitingClient (.data [97,98,99]) = .ok ({waitingClient with recvAwaiterCallback:=none,recvBuffer:=[99]},
      [.received 0 ⟨.pending,0⟩ 0 [97,98]]) ∧
    onReceive waitingServer (.data [97,98,99]) = ({waitingServer with readAwaiters:=[],recvBuffer:=[99]},
      [.received 0 ⟨.ok,2⟩ 0 [97,98]]) ∧
    ¬ AgreeAfter (onRead waitingClient (.data [97,98,99])) (onReceive waitingServer (.data [97,98,99])) := by
  have clientRead : onRead waitingClient (.data [97,98,99]) =
      .ok ({waitingClient with recvAwaiterCallback:=none,recvBuffer:=[99]},[.received 0 ⟨.pending,0⟩ 0 [97,98]]) := by
    have two : toInt 2 = 2 := by decide
    have three : toInt 3 = 3 := by decide
    simp [onRead,onAwaiterRecv,waitingClient,ReadEvent.nread,ReadEvent.bytes,two,three]
  have serverRead : onReceive waitingServer (.data [97,98,99]) =
      ({waitingServer with readAwaiters:=[],recvBuffer:=[99]},[.received 0 ⟨.ok,2⟩ 0 [97,98]]) := rfl
  refine ⟨⟨rfl,rfl,rfl⟩,clientRead,serverRead,?_⟩
  rw [clientRead,serverRead]
  rintro ⟨next,same,-⟩
  exact absurd (ok_pair same).2 (by decide)

end CoStream.TcpCoConn
