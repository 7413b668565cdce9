import CoStream.AcceptConn
import CoStream.DataBuffer
import CoStream.RtmpHandshake

namespace CoStream
open Foundation

inductive RtmpServerSessionPhase where
  | initialPhase | handshakeC2Phase | connectPhase | createStreamPhase | createPublishPlayPhase | mediaHandlePhase
deriving DecidableEq,Repr

-- The two coroutines share the members. `receiving` says that Run waits in
-- CoReceive; `sending` counts the calls of HandleRequest that wait in CoSend.
structure CoRtmpSession where
  recvData : List.Vector UInt8 10240 := List.Vector.replicate 10240 0
  recvBuffer : Bytes := []
  phase : RtmpServerSessionPhase := .initialPhase
  closed : Bool := false
  hs : RtmpServerHandshake
  receiving : Bool := true
  sending : Nat := 0
deriving DecidableEq

namespace CoRtmpSession

-- What a CoReceive into `recv_data_` brings with RECV_OK.
structure Chunk where
  bytes : Bytes
  nonempty : bytes ≠ []
  fits : bytes.length ≤ 10240
deriving DecidableEq

-- HandleReceive copies the chunk to the front; the rest of the array keeps what
-- earlier chunks left there.
def Chunk.copyTo (chunk : Chunk) (recvData : List.Vector UInt8 10240) : List.Vector UInt8 10240 :=
  ⟨chunk.bytes++recvData.toList.drop chunk.bytes.length,by have fits := chunk.fits; simp; omega⟩

-- A received chunk comes with what OpenSSL and uv_write answer while it is
-- handled.
inductive Event where
  | received (chunk : Chunk) (crypto : Crypto) (uvWrite : Int)
  | failed
  | sent (status : Int)

-- `held` is the buffer a handshake function was called on, `c0c1` what an
-- answer was made from.
inductive Output where
  | recvBuffer (operation : DataBuffer.Operation)
  | handleC0C1 (held : Bytes) (ret : Int)
  | handleC2 (held : Bytes) (ret : Int)
  | coSend (c0c1 s0s1s2 : Bytes)
deriving DecidableEq,Repr

inductive Stopped where
  | undefined (fault : Fault)
  | finished
  | nothingSubmitted
deriving DecidableEq,Repr

-- From C0C1 that was accepted to the co_await. A refused uv_write resumes the
-- coroutine at once, and it returns.
def answerC0C1 (crypto : Crypto) (uvWrite : Int) (s : CoRtmpSession) : Except Fault (CoRtmpSession × List Output) := do
  let c0c1 := s.recvBuffer.take 1537
  let s := {s with recvBuffer:=[]}
  let (hs,made) ← s.hs.sendS0S1S2 crypto
  match made with
  | none => return ({s with hs,closed:=true},[.recvBuffer .reset])
  | some s0s1s2 =>
    let sending := if uvWrite = 0 then s.sending+1 else s.sending
    return ({s with hs,sending},[.recvBuffer .reset,.coSend c0c1 s0s1s2])

def handleRequest (crypto : Crypto) (uvWrite : Int) (s : CoRtmpSession) : Except Fault (CoRtmpSession × List Output) :=
  match s.phase with
  | .initialPhase => do
    let (hs,ret) ← s.hs.handleC0C1 crypto s.recvBuffer
    if ret < 0 then return ({s with hs,closed:=true},[.handleC0C1 s.recvBuffer ret])
    if ret = rtmpNeedReadMore then return ({s with hs},[.handleC0C1 s.recvBuffer ret])
    let (next,outputs) ← answerC0C1 crypto uvWrite {s with hs}
    return (next,.handleC0C1 s.recvBuffer ret::outputs)
  | .handshakeC2Phase =>
    let (recvBuffer,ret) := RtmpServerHandshake.handleC2 s.recvBuffer
    if ret < 0 then .ok ({s with closed:=true},[.handleC2 s.recvBuffer ret])
    else if ret = rtmpNeedReadMore then .ok (s,[.handleC2 s.recvBuffer ret])
    else .ok ({s with recvBuffer,phase:=.connectPhase},
      [.handleC2 s.recvBuffer ret,.recvBuffer (.consumeData 1536)])
  | _ => .ok (s,[])

-- A DataBuffer is this queue as long as its `int` positions are sure to last.
def appendData (recvBuffer data : Bytes) : Except Fault Bytes :=
  if recvBuffer.length+data.length+20480 < 2^31 then .ok (recvBuffer++data) else .error .signedOverflow

-- One turn of Run behind the co_await. The whole array is appended, whatever
-- the length of the chunk.
def onReceived (s : CoRtmpSession) (chunk : Chunk) (crypto : Crypto) (uvWrite : Int) :
    Except Fault (CoRtmpSession × List Output) := do
  let recvData := chunk.copyTo s.recvData
  let recvBuffer ← appendData s.recvBuffer recvData.toList
  let (next,outputs) ← handleRequest crypto uvWrite {s with recvData,recvBuffer}
  return ({next with receiving:=!next.closed},.recvBuffer (.appendData recvData.toList)::outputs)

def step (s : CoRtmpSession) : Event → Except Stopped (CoRtmpSession × List Output)
  | .received chunk crypto uvWrite =>
    if s.receiving then (s.onReceived chunk crypto uvWrite).mapError .undefined else .error .finished
  | .failed => if s.receiving then .ok ({s with closed:=false,receiving:=false},[]) else .error .finished
  | .sent status =>
    match s.sending with
    | 0 => .error .nothingSubmitted
    | sending+1 =>
      if status = 0 then .ok ({s with sending,phase:=.handshakeC2Phase},[]) else .ok ({s with sending},[])

def machine (hs : RtmpServerHandshake) : Machine CoRtmpSession Event Output Stopped := ⟨{hs},step⟩

-- All that a call of HandleRequest can do before it returns or waits.
inductive Handled (uvWrite : Int) (s : CoRtmpSession) : CoRtmpSession → List Output → Prop where
  | waitsC0C1 : s.phase = .initialPhase → s.recvBuffer.length < 1537 →
      Handled uvWrite s s [.handleC0C1 s.recvBuffer rtmpNeedReadMore]
  | refused : s.phase = .initialPhase → 1537 ≤ s.recvBuffer.length → ret ≠ rtmpNeedReadMore →
      Handled uvWrite s {s with hs:=answering,recvBuffer:=[],closed:=true} [.handleC0C1 s.recvBuffer ret,.recvBuffer .reset]
  | answered : s.phase = .initialPhase → 1537 ≤ s.recvBuffer.length → ret ≠ rtmpNeedReadMore →
      Handled uvWrite s {s with hs:=answering,recvBuffer:=[],sending:=if uvWrite = 0 then s.sending+1 else s.sending}
        [.handleC0C1 s.recvBuffer ret,.recvBuffer .reset,.coSend (s.recvBuffer.take 1537) s0s1s2]
  | waitsC2 : s.phase = .handshakeC2Phase → s.recvBuffer.length < 1536 →
      Handled uvWrite s s [.handleC2 s.recvBuffer rtmpNeedReadMore]
  | tookC2 : s.phase = .handshakeC2Phase → 1536 ≤ s.recvBuffer.length →
      Handled uvWrite s {s with recvBuffer:=s.recvBuffer.drop 1536,phase:=.connectPhase}
        [.handleC2 s.recvBuffer rtmpOk,.recvBuffer (.consumeData 1536)]
  | idle : s.phase ≠ .initialPhase → s.phase ≠ .handshakeC2Phase → Handled uvWrite s s []

variable {s next : CoRtmpSession}

theorem answerC0C1_exact (answered : answerC0C1 crypto uvWrite s = .ok (next,outputs)) : ∃ hs,
    (next = {s with hs,recvBuffer:=[],closed:=true} ∧ outputs = [.recvBuffer .reset]) ∨
    ∃ s0s1s2, next = {s with hs,recvBuffer:=[],sending:=if uvWrite = 0 then s.sending+1 else s.sending} ∧
      outputs = [.recvBuffer .reset,.coSend (s.recvBuffer.take 1537) s0s1s2] := by
  unfold answerC0C1 at answered
  obtain ⟨⟨hs,made⟩,-,answered⟩ := bind_ok.mp answered
  cases made with
  | none =>
    cases answered
    exact ⟨hs,.inl ⟨rfl,rfl⟩⟩
  | some s0s1s2 =>
    cases answered
    exact ⟨hs,.inr ⟨s0s1s2,rfl,rfl⟩⟩

theorem handleRequest_initial (initial : s.phase = .initialPhase)
    (handled : handleRequest crypto uvWrite s = .ok (next,outputs)) : Handled uvWrite s next outputs := by
  obtain ⟨recvData,recvBuffer,phase,closed,hs,receiving,sending⟩ := s
  cases initial
  obtain ⟨⟨middle,ret⟩,parsed,handled⟩ := bind_ok.mp handled
  by_cases short : recvBuffer.length < 1537
  · rw [RtmpServerHandshake.handleC0C1_waits short] at parsed
    cases parsed
    cases handled
    exact .waitsC0C1 rfl short
  · have long : 1537 ≤ recvBuffer.length := by omega
    have accepted := RtmpServerHandshake.handleC0C1_parses long parsed
    have notNegative : ¬ ret < 0 := by rcases accepted with rfl | rfl <;> decide
    have notMore : ret ≠ rtmpNeedReadMore := by rcases accepted with rfl | rfl <;> decide
    dsimp only at handled
    rw [if_neg notNegative,if_neg notMore] at handled
    obtain ⟨⟨after,later⟩,answered,handled⟩ := bind_ok.mp handled
    cases handled
    obtain ⟨last,⟨rfl,rfl⟩ | ⟨s0s1s2,rfl,rfl⟩⟩ := answerC0C1_exact answered
    · exact .refused rfl long notMore
    · exact .answered rfl long notMore

theorem handleRequest_exact (handled : handleRequest crypto uvWrite s = .ok (next,outputs)) :
    Handled uvWrite s next outputs := by
  by_cases initial : s.phase = .initialPhase
  · exact handleRequest_initial initial handled
  unfold handleRequest at handled
  split at handled
  · rename_i same
    exact absurd same initial
  · rename_i waiting
    by_cases short : s.recvBuffer.length < 1536
    · rw [RtmpServerHandshake.handleC2,if_pos short] at handled
      cases handled
      exact .waitsC2 waiting short
    · rw [RtmpServerHandshake.handleC2,if_neg short] at handled
      cases handled
      exact .tookC2 waiting (by omega)
  · rename_i notInitial notWaiting
    cases handled
    exact .idle notInitial notWaiting

-- All that one event can do to a session.
inductive Stepped (s : CoRtmpSession) : Event → CoRtmpSession → List Output → Prop where
  | received (chunk : Chunk) (crypto : Crypto) (uvWrite : Int) :
      (s.recvBuffer++(chunk.copyTo s.recvData).toList).length+20480 < 2^31 →
      Handled uvWrite {s with
        recvData := chunk.copyTo s.recvData
        recvBuffer := s.recvBuffer++(chunk.copyTo s.recvData).toList} after later →
      Stepped s (.received chunk crypto uvWrite) {after with receiving:=!after.closed}
        (.recvBuffer (.appendData (chunk.copyTo s.recvData).toList)::later)
  | failed : Stepped s .failed {s with closed:=false,receiving:=false} []
  | sent : s.sending = left+1 → Stepped s (.sent status)
      {s with sending:=left,phase:=if status = 0 then .handshakeC2Phase else s.phase} []

theorem onReceived_exact (turned : s.onReceived chunk crypto uvWrite = .ok (next,outputs)) :
    Stepped s (.received chunk crypto uvWrite) next outputs := by
  unfold onReceived at turned
  obtain ⟨recvBuffer,appended,turned⟩ := bind_ok.mp turned
  obtain ⟨⟨after,later⟩,handled,turned⟩ := bind_ok.mp turned
  cases turned
  unfold appendData at appended
  split at appended
  · rename_i room
    cases appended
    rw [← List.length_append] at room
    exact .received chunk crypto uvWrite room (handleRequest_exact handled)
  · cases appended

theorem step_exact (stepped : step s event = .ok (next,outputs)) : Stepped s event next outputs := by
  cases event with
  | received chunk crypto uvWrite =>
    rw [step] at stepped
    split at stepped
    · exact onReceived_exact (mapError_ok.mp stepped)
    · cases stepped
  | failed =>
    rw [step] at stepped
    split at stepped
    · cases stepped
      exact .failed
    · cases stepped
  | sent status =>
    rw [step] at stepped
    split at stepped
    · cases stepped
    · rename_i left counted
      have sent : Stepped s (.sent status) _ [] := .sent counted
      split at stepped
      · rename_i succeeded
        cases stepped
        rwa [if_pos succeeded] at sent
      · rename_i refused
        cases stepped
        rwa [if_neg refused] at sent

end CoRtmpSession
end CoStream
