import CoStream.AcceptConnStream
import CoStream.TcpCoConnStream
import CoStream.Foundation.Ledger

namespace CoStream.EchoPair
open Foundation
open AcceptConn (Resumed ReadEvent Phase RecvResult SendResult sendData)

-- What a coroutine does when it runs: its next co_await, or nothing behind its
-- co_return. `waiting` is suspended in one.
inductive Next where
  | waiting
  | receive
  | send (data : List UInt8)
  | returned
deriving DecidableEq,Repr

def bufferSize : Nat := 10*1024

-- A call that suspends; a coroutine that has returned stays so.
def Next.suspended : Next → Next
  | .returned => .returned
  | _ => .waiting

-- EchoRecv of the server behind the co_await it is resumed from.
def echoRecv (next : Next) : List (Resumed Unit) → Next
  | [] => next
  | .received _ result _ bytes::_ => if result.status = .ok then .send bytes else .returned
  | .sent _ result::_ => if result.status = .ok then .receive else .returned

-- DoJob of the client, which sends the same message in every round.
def doJob (sendMsg : List UInt8) (next : Next) : List (Resumed Nat) → Next
  | [] => next
  | .received _ result _ _::_ => if result.status = .ok then .send sendMsg else .returned
  | .sent _ result::_ => if result.status = .ok then .receive else .returned

-- Both ends of one TCP connection and the bytes under way in each direction.
-- What uv_write accepts is under way at once; it arrives in pieces of any size,
-- as late as it likes, or never.
structure Pair where
  client : TcpCoConn.Session := {}
  doJob : Next
  server : AcceptConn.Session := {}
  echoRecv : Next := .receive
  up : List UInt8 := []
  down : List UInt8 := []
deriving DecidableEq,Repr

inductive Event where
  | client (event : TcpCoConn.Event)
  | server (event : AcceptConn.Event)
deriving DecidableEq,Repr

-- What uv_write took from the client and from the server, and the text that
-- DoJob makes of a receive.
inductive Output where
  | said (bytes : List UInt8)
  | echoed (bytes : List UInt8)
  | got (bytes : List UInt8)
deriving DecidableEq,Repr

inductive Disabled where
  | outOfTurn
  | notUnderWay
  | server (why : AcceptConn.Disabled)
  | client (why : TcpCoConn.Stop)
deriving DecidableEq,Repr

def serverBrings : AcceptConn.Event → List UInt8
  | .uvRead read => read.bytes
  | .coReceive _ _ => []
  | .coSend _ _ => []
  | .uvWrite _ => []
def serverTakes : AcceptConn.Event → List UInt8
  | .uvRead _ => []
  | .coReceive _ _ => []
  | .coSend data uvWrite => if uvWrite = 0 then sendData data else []
  | .uvWrite _ => []
def clientBrings : TcpCoConn.Event → List UInt8
  | .uvRead read => read.bytes
  | .coReceive _ _ _ => []
  | .coSend _ _ => []
  | .uvWrite _ => []
def clientTakes : TcpCoConn.Event → List UInt8
  | .uvRead _ => []
  | .coReceive _ _ _ => []
  | .coSend data uvWrite => if uvWrite = 0 then sendData data else []
  | .uvWrite _ => []

-- A coroutine that runs makes the call it is at, before libuv gets to run a
-- callback in that process.
def ServerTurn (next : Next) : AcceptConn.Event → Prop
  | .uvRead _ => next = .waiting ∨ next = .returned
  | .coReceive _ recvSize => next = .receive ∧ recvSize = bufferSize
  | .coSend data _ => next = .send data
  | .uvWrite _ => next = .waiting ∨ next = .returned
def ClientTurn (next : Next) : TcpCoConn.Event → Prop
  | .uvRead _ => next = .waiting ∨ next = .returned
  | .coReceive _ recvSize _ => next = .receive ∧ recvSize = bufferSize
  | .coSend data _ => next = .send data
  | .uvWrite _ => next = .waiting ∨ next = .returned
instance (next : Next) : (event : AcceptConn.Event) → Decidable (ServerTurn next event)
  | .uvRead _ => inferInstanceAs (Decidable (_ ∨ _))
  | .coReceive _ _ => inferInstanceAs (Decidable (_ ∧ _))
  | .coSend _ _ => inferInstanceAs (Decidable (_ = _))
  | .uvWrite _ => inferInstanceAs (Decidable (_ ∨ _))
instance (next : Next) : (event : TcpCoConn.Event) → Decidable (ClientTurn next event)
  | .uvRead _ => inferInstanceAs (Decidable (_ ∨ _))
  | .coReceive _ _ _ => inferInstanceAs (Decidable (_ ∧ _))
  | .coSend _ _ => inferInstanceAs (Decidable (_ = _))
  | .uvWrite _ => inferInstanceAs (Decidable (_ ∨ _))

-- recv_str of DoJob, which it makes of a receive that came back with RECV_OK.
def received : List (Resumed Nat) → List UInt8
  | .received _ result _ bytes::_ => if result.status = .ok then bytes.take result.recvLen.toNat else []
  | _ => []

def step (sendMsg : List UInt8) (e : Pair) : Event → Except Disabled (Pair × List Output)
  | .server event =>
    if ¬ ServerTurn e.echoRecv event then .error .outOfTurn
    else if ¬ serverBrings event <+: e.up then .error .notUnderWay
    else do
      let (server,resumed) ← (AcceptConn.step e.server event).mapError .server
      .ok ({e with
        server
        echoRecv := echoRecv e.echoRecv.suspended resumed
        up := e.up.drop (serverBrings event).length
        down := e.down++serverTakes event},[.echoed (serverTakes event)])
  | .client event =>
    if ¬ ClientTurn e.doJob event then .error .outOfTurn
    else if ¬ clientBrings event <+: e.down then .error .notUnderWay
    else do
      let (client,resumed) ← (TcpCoConn.step e.client event).mapError .client
      .ok ({e with
        client
        doJob := doJob sendMsg e.doJob.suspended resumed
        down := e.down.drop (clientBrings event).length
        up := e.up++clientTakes event},[.said (clientTakes event),.got (received resumed)])

def machine (sendMsg : List UInt8) : Machine Pair Event Output Disabled := ⟨{doJob:=.send sendMsg},step sendMsg⟩

def saidIn (outputs : List Output) : List UInt8 :=
  outputs.flatMap fun
    | .said bytes => bytes
    | .echoed _ => []
    | .got _ => []
def echoedIn (outputs : List Output) : List UInt8 :=
  outputs.flatMap fun
    | .said _ => []
    | .echoed bytes => bytes
    | .got _ => []
def gotIn (outputs : List Output) : List UInt8 :=
  outputs.flatMap fun
    | .said _ => []
    | .echoed _ => []
    | .got bytes => bytes

@[simp] theorem saidIn_append : saidIn (first++second) = saidIn first++saidIn second := by
  simp [saidIn]
@[simp] theorem echoedIn_append : echoedIn (first++second) = echoedIn first++echoedIn second := by
  simp [echoedIn]
@[simp] theorem gotIn_append : gotIn (first++second) = gotIn first++gotIn second := by
  simp [gotIn]

-- Bytes that EchoRecv has received and not yet given to CoSend.
def Next.holding : Next → List UInt8
  | .send data => data
  | _ => []

section server
open AcceptConn

variable {s next : AcceptConn.Session} {event : AcceptConn.Event} {resumed : List (Resumed Unit)}

-- All a resumed co_await hands to EchoRecv: a chunk that fits its array, and is
-- empty exactly when the result is an error; or the result of a send.
inductive Resumption (recvSize : Nat) : List (Resumed Unit) → Prop where
  | none : Resumption recvSize []
  | received (result : RecvResult) (recvData : Nat) (bytes : List UInt8) (fits : bytes.length ≤ recvSize)
      (empty : result.status ≠ .ok → bytes = []) (some : result.status = .ok → 0 < recvSize → bytes ≠ []) :
      Resumption recvSize [.received () result recvData bytes]
  | sent (result : SendResult) : Resumption recvSize [.sent () result]

theorem handleReceive_resumption (c : AcceptConn.Conn Unit) (nread : Int) (enough : nread ≤ c.recvBuffer.length) :
    Resumption c.recvSize (handleReceive c () nread).2 := by
  unfold handleReceive
  split
  · exact .received _ _ _ (Nat.zero_le _) (fun _ => rfl) (fun never => nomatch never)
  · rename_i positive
    have filled : c.recvBuffer ≠ [] := by
      intro empty
      rw [empty] at enough
      exact positive enough
    split
    · refine .received _ _ _ (List.length_take_le _ _) (fun never => absurd rfl never) ?_
      intro _ room nothing
      rcases List.take_eq_nil_iff.mp nothing with none | empty
      · exact absurd none (Nat.ne_of_gt room)
      · exact filled empty
    · rename_i within
      refine .received _ _ _ ?_ (fun never => absurd rfl never) ?_
      · have short := List.length_take_le nread.toNat c.recvBuffer
        omega
      · intro _ room nothing
        rcases List.take_eq_nil_iff.mp nothing with none | empty
        · omega
        · exact filled empty

theorem handleReceive_recvSize (c : AcceptConn.Conn Unit) (nread : Int) :
    (handleReceive c () nread).1.recvSize = c.recvSize := by
  unfold handleReceive
  split
  · rfl
  · split <;> rfl

theorem handleReceive_hands (c : AcceptConn.Conn Unit) (nread : Int) (enough : nread ≤ c.recvBuffer.length) :
    Resumption c.recvSize (handleReceive c () nread).2 ∧ (handleReceive c () nread).1.recvSize = c.recvSize :=
  ⟨handleReceive_resumption c nread enough,handleReceive_recvSize c nread⟩

theorem onUvRead_hands (c : AcceptConn.Conn Unit) (read : ReadEvent) :
    Resumption c.recvSize (onUvRead c read).2 ∧ (onUvRead c read).1.recvSize = c.recvSize := by
  unfold onUvRead onReceive
  split
  · exact ⟨.none,rfl⟩
  · split
    · exact ⟨.none,rfl⟩
    · rename_i awaiter rest waiting
      by_cases filled : read.nread > 0
      · have enough : read.nread ≤ (c.recvBuffer++read.bytes).length := by
          cases read with
          | data bytes =>
            simp only [ReadEvent.nread,ReadEvent.bytes,List.length_append]
            omega
          | failed code =>
            simp only [ReadEvent.nread] at filled
            omega
        simpa only [if_pos filled] using
          handleReceive_hands {c with recvBuffer:=c.recvBuffer++read.bytes,readAwaiters:=rest} read.nread enough
      · have enough : read.nread ≤ c.recvBuffer.length := Int.le_trans (Int.not_lt.mp filled) (by simp)
        simpa only [if_neg filled] using handleReceive_hands {c with readAwaiters:=rest} read.nread enough

theorem coReceive_hands (c : AcceptConn.Conn Unit) (recvData recvSize : Nat) :
    Resumption recvSize (AcceptConn.coReceive c () recvData recvSize).2 ∧
      (AcceptConn.coReceive c () recvData recvSize).1.recvSize = recvSize := by
  by_cases empty : c.recvBuffer = []
  · rw [coReceive_waits empty]
    exact ⟨.none,rfl⟩
  · have long : c.recvBuffer.length > 0 := List.length_pos_iff.mpr empty
    simpa only [AcceptConn.coReceive,if_pos long] using
      handleReceive_hands {c with recvData,recvSize} c.recvBuffer.length (Int.le_refl _)

-- The receive size and the phase that a call or a callback leaves behind.
def sizeAfter (s : AcceptConn.Session) : AcceptConn.Event → Nat
  | .uvRead _ => s.conn.recvSize
  | .coReceive _ recvSize => recvSize
  | .coSend _ _ => s.conn.recvSize
  | .uvWrite _ => s.conn.recvSize
def phaseAfter (s : AcceptConn.Session) : AcceptConn.Event → Phase
  | .uvRead _ => s.phase
  | .coReceive _ _ => .receiving
  | .coSend _ _ => .sending
  | .uvWrite _ => s.phase

theorem step_hands (stepped : AcceptConn.step s event = .ok (next,resumed)) :
    Resumption (sizeAfter s event) resumed ∧ next.conn.recvSize = sizeAfter s event ∧
      next.phase = AcceptConn.resume (phaseAfter s event) resumed := by
  cases event with
  | uvRead read =>
    cases stepped
    exact ⟨(onUvRead_hands s.conn read).1,(onUvRead_hands s.conn read).2,rfl⟩
  | coReceive recvData recvSize =>
    simp only [AcceptConn.step] at stepped
    split at stepped
    · cases stepped
      exact ⟨(coReceive_hands s.conn recvData recvSize).1,(coReceive_hands s.conn recvData recvSize).2,rfl⟩
    · cases stepped
  | coSend data uvWrite =>
    simp only [AcceptConn.step] at stepped
    split at stepped
    · cases stepped
      unfold AcceptConn.coSend
      split
      · exact ⟨.sent _,rfl,rfl⟩
      · exact ⟨.none,rfl,rfl⟩
    · cases stepped
  | uvWrite status =>
    simp only [AcceptConn.step] at stepped
    split at stepped
    · cases stepped
    · cases stepped
      unfold AcceptConn.onWrite handleSend
      split
      · exact ⟨.none,rfl,rfl⟩
      · split
        · exact ⟨.sent _,rfl,rfl⟩
        · exact ⟨.sent _,rfl,rfl⟩

-- EchoRecv holds on to what it has received and to nothing else.
theorem echoRecv_holding (place : Next) (hands : Resumption recvSize resumed) :
    (echoRecv place.suspended resumed).holding = AcceptConn.returned resumed := by
  cases hands with
  | none => cases place <;> rfl
  | received result recvData bytes fits empty some =>
    by_cases ok : result.status = .ok
    · simp [echoRecv,ok,Next.holding,AcceptConn.returned]
    · simp [echoRecv,ok,Next.holding,AcceptConn.returned,empty ok]
  | sent result =>
    by_cases ok : result.status = .ok <;> simp [echoRecv,ok,Next.holding,AcceptConn.returned]

-- A read that brings bytes finds EchoRecv in its CoReceive, and uv_write takes
-- what EchoRecv sends.
def ServerKeeps (s : AcceptConn.Session) : AcceptConn.Event → Prop
  | .uvRead read => read.bytes = [] ∨ s.phase = .receiving
  | .coReceive _ _ => True
  | .coSend _ uvWrite => uvWrite = 0
  | .uvWrite _ => True

-- The server between two steps: awaits and calls alternate, and what it holds
-- fits its array.
structure Serving (s : AcceptConn.Session) (place : Next) : Prop where
  awaited : Awaited s
  running : place ≠ .waiting → s.phase = .running
  sized : place = .receive ∨ s.conn.recvSize = bufferSize
  held : ∀ data, place = .send data → data ≠ [] ∧ data.length ≤ bufferSize

theorem sendData_short (short : data.length ≤ bufferSize) : sendData data = data := by
  unfold bufferSize at short
  rw [sendData,Nat.mod_eq_of_lt (by omega),List.take_length]

theorem turn_sized {place : Next} (serving : Serving s place) (turn : ServerTurn place event) :
    sizeAfter s event = bufferSize := by
  have sized : place ≠ .receive → s.conn.recvSize = bufferSize := serving.sized.resolve_left
  cases event with
  | uvRead read =>
    apply sized
    rintro rfl
    rcases turn with never | never <;> cases never
  | coReceive recvData recvSize => exact turn.2
  | coSend data uvWrite =>
    apply sized
    rintro rfl
    cases turn
  | uvWrite status =>
    apply sized
    rintro rfl
    rcases turn with never | never <;> cases never

theorem serving_step {place : Next} (serving : Serving s place) (turn : ServerTurn place event)
    (stepped : AcceptConn.step s event = .ok (next,resumed)) : Serving next (echoRecv place.suspended resumed) := by
  obtain ⟨hands,size,phase⟩ := step_hands stepped
  rw [turn_sized serving turn] at hands size
  refine ⟨awaited_step serving.awaited stepped,?_,.inr size,?_⟩
  · intro acts
    cases hands with
    | received result recvData bytes fits empty some => exact phase
    | sent result => exact phase
    | none =>
      have ended : place = .returned := by cases place <;> first | rfl | exact absurd rfl acts
      subst ended
      have running := serving.running (by simp)
      cases event with
      | uvRead read => exact phase.trans running
      | coReceive recvData recvSize => cases turn.1
      | coSend data uvWrite => cases turn
      | uvWrite status => exact phase.trans running
  · intro data sends
    cases hands with
    | none => cases place <;> cases sends
    | received result recvData bytes fits empty some =>
      simp only [echoRecv] at sends
      split at sends
      · rename_i ok
        cases sends
        exact ⟨some ok (by simp [bufferSize]),fits⟩
      · cases sends
    | sent result =>
      simp only [echoRecv] at sends
      split at sends <;> cases sends

-- What a step leaves at the server and gives to libuv, against what was there
-- and what it brings.
theorem server_moves {place : Next} (serving : Serving s place) (turn : ServerTurn place event)
    (stepped : AcceptConn.step s event = .ok (next,resumed)) :
    (serverTakes event++((echoRecv place.suspended resumed).holding++next.conn.recvBuffer)).Sublist
        (place.holding++(s.conn.recvBuffer++serverBrings event)) ∧
      (serverTakes event++((echoRecv place.suspended resumed).holding++next.conn.recvBuffer) =
        place.holding++(s.conn.recvBuffer++serverBrings event) ↔ ServerKeeps s event) := by
  have moved := step_moves serving.awaited stepped
  rw [echoRecv_holding place (step_hands stepped).1,moved]
  cases event with
  | uvRead read =>
    have free : place.holding = [] := by rcases turn with rfl | rfl <;> rfl
    rw [free]
    by_cases receiving : s.phase = .receiving
    · simp [serverTakes,serverBrings,ServerKeeps,receiving,AcceptConn.delivered]
    · simp [serverTakes,serverBrings,ServerKeeps,receiving]
  | coReceive recvData recvSize =>
    rw [turn.1]
    simp [serverTakes,serverBrings,ServerKeeps,Next.holding,AcceptConn.delivered]
  | coSend data uvWrite =>
    have running : s.phase = .running := serving.running (by rw [show place = .send data from turn]; simp)
    obtain ⟨some,short⟩ := serving.held data turn
    rw [show place = .send data from turn,running]
    by_cases accepted : uvWrite = 0
    · simp [serverTakes,serverBrings,ServerKeeps,Next.holding,accepted,sendData_short short]
    · simp [serverTakes,serverBrings,ServerKeeps,Next.holding,accepted,some]
  | uvWrite status =>
    have free : place.holding = [] := by rcases turn with rfl | rfl <;> rfl
    rw [free]
    simp [serverTakes,serverBrings,ServerKeeps,AcceptConn.delivered]

end server

section client
open TcpCoConn

variable {s next : TcpCoConn.Session} {event : TcpCoConn.Event} {resumed : List (Resumed Nat)} {place : Next}

-- A receive that comes back with RECV_OK reports the bytes that it took.
theorem awaiterRecv_reports {c next : TcpCoConn.Conn Nat}
    (ran : onAwaiterRecv c promise recvLen = .ok (next,resumed)) : ∃ count result,
    next = {c with recvAwaiterCallback:=none,recvBuffer:=c.recvBuffer.drop count} ∧ resumed = [.received promise result c.recvData (c.recvBuffer.take count)] ∧
      (result.status = .ok → result.recvLen.toNat = count) := by
  unfold onAwaiterRecv at ran
  split at ran
  · cases ran
    exact ⟨0,⟨.error,0⟩,by simp,by simp,fun never => nomatch never⟩
  · split at ran
    · dsimp only at ran
      split at ran
      · cases ran
      · obtain ⟨rfl,rfl⟩ := ok_pair ran
        exact ⟨_,⟨.pending,0⟩,rfl,rfl,fun never => nomatch never⟩
    · obtain ⟨rfl,rfl⟩ := ok_pair ran
      exact ⟨_,⟨.ok,recvLen⟩,rfl,rfl,fun _ => rfl⟩

structure Talking (s : TcpCoConn.Session) (place : Next) : Prop where
  linked : Linked s
  running : place ≠ .waiting → s.phase = .running

-- A receive that was resumed: DoJob has the front of what was there, or it returns.
theorem resumed_moves {c next : TcpCoConn.Conn Nat} (ran : onAwaiterRecv c promise recvLen = .ok (next,resumed))
    (sendMsg : List UInt8) (before : Next) :
    (doJob sendMsg before resumed ≠ .returned → received resumed++next.recvBuffer = c.recvBuffer) ∧
      received resumed <+: c.recvBuffer ∧ resumed ≠ [] := by
  obtain ⟨count,result,rfl,rfl,reports⟩ := awaiterRecv_reports ran
  by_cases ok : result.status = .ok
  · have whole : received [.received promise result c.recvData (c.recvBuffer.take count)] = c.recvBuffer.take count := by
      simp [received,ok,reports ok,List.take_take]
    rw [whole,List.take_append_drop]
    exact ⟨fun _ => rfl,List.take_prefix _ _,by simp⟩
  · simp [doJob,received,ok]

theorem onAwaiterSend_received (call : Nat) (sentLen : Int) :
    received (onAwaiterSend call sentLen) = [] ∧ onAwaiterSend call sentLen ≠ [] := by
  unfold onAwaiterSend
  split
  · exact ⟨rfl,by simp⟩
  · exact ⟨rfl,by simp⟩

-- A coroutine that has returned takes no part any more; short of that no byte
-- is lost on the way to it unless it returns now.
theorem client_moves (talking : Talking s place) (turn : ClientTurn place event)
    (stepped : TcpCoConn.step s event = .ok (next,resumed)) (sendMsg : List UInt8) :
    place ≠ .returned ∧ Talking next (doJob sendMsg place.suspended resumed) ∧
      received resumed <+: s.conn.recvBuffer++clientBrings event ∧
      (doJob sendMsg place.suspended resumed ≠ .returned →
        received resumed++next.conn.recvBuffer = s.conn.recvBuffer++clientBrings event) := by
  have exactly := step_exact talking.linked stepped
  have linked := step_linked talking.linked exactly
  cases exactly with
  | awaited receiving on set ran =>
    obtain ⟨moves,front,some⟩ := resumed_moves ran sendMsg place.suspended
    have empty := (talking.linked.receiving receiving).2
    rw [empty,List.nil_append]
    refine ⟨?_,⟨linked,fun _ => if_neg some⟩,front,moves⟩
    rintro rfl
    cases receiving.symm.trans (talking.running (by simp))
  | waits running empty readStarted =>
    obtain ⟨rfl,-⟩ := turn
    exact ⟨by simp,⟨linked,fun acts => absurd rfl acts⟩,List.nil_prefix,fun _ => by simp [received,clientBrings]⟩
  | takes running ran =>
    obtain ⟨rfl,size⟩ := turn
    obtain ⟨moves,front,some⟩ := resumed_moves ran sendMsg .waiting
    simp only [clientBrings,List.append_nil]
    exact ⟨by simp,⟨linked,fun _ => if_neg some⟩,front,moves⟩
  | accepted running data =>
    obtain rfl : place = .send data := turn
    exact ⟨by simp,⟨linked,fun acts => absurd rfl acts⟩,List.nil_prefix,fun _ => by simp [received,clientBrings,submitted]⟩
  | refused running data refused =>
    obtain rfl : place = .send data := turn
    exact ⟨by simp,⟨linked,fun _ => running⟩,List.nil_prefix,fun _ => by simp [received,clientBrings,submitted]⟩
  | completed pending sending callback =>
    have here : place = .waiting := by
      by_contra acts
      cases sending.symm.trans (talking.running acts)
    subst here
    rw [(onAwaiterSend_received _ _).1]
    exact ⟨by simp,⟨linked,fun _ => rfl⟩,List.nil_prefix,fun _ => by simp [clientBrings]⟩
  | failed pending sending failed =>
    have here : place = .waiting := by
      by_contra acts
      cases sending.symm.trans (talking.running acts)
    subst here
    exact ⟨by simp,⟨linked,fun acts => absurd rfl acts⟩,List.nil_prefix,fun _ => by simp [received,clientBrings]⟩

end client

variable {sendMsg : List UInt8}

-- All that was said, in its order: echoed, held by EchoRecv, in the buffer of
-- the connection, or under way.
def AllThere (outputs : List Output) (e : Pair) : Prop :=
  echoedIn outputs++(e.echoRecv.holding++(e.server.conn.recvBuffer++e.up)) = saidIn outputs

structure Coherent (outputs : List Output) (e : Pair) : Prop where
  serving : Serving e.server e.echoRecv
  talking : Talking e.client e.doJob
  there : (echoedIn outputs++(e.echoRecv.holding++(e.server.conn.recvBuffer++e.up))).Sublist (saidIn outputs)
  back : gotIn outputs <+: echoedIn outputs
  whole : e.doJob ≠ .returned → gotIn outputs++(e.client.conn.recvBuffer++e.down) = echoedIn outputs

def Keeps (e : Pair) : Event → Prop
  | .server event => ServerKeeps e.server event
  | .client _ => True

-- A part that is thinned out, and what that does to a whole that is already
-- thinner than it should be.
theorem thinned {front inner thin back should : List UInt8} (less : thin.Sublist inner)
    (bounded : (front++(inner++back)).Sublist should) :
    (front++(thin++back)).Sublist should ∧
      (front++(thin++back) = should ↔ front++(inner++back) = should ∧ thin = inner) := by
  have shorter : (front++(thin++back)).Sublist (front++(inner++back)) :=
    (List.Sublist.refl front).append (less.append (List.Sublist.refl back))
  refine ⟨shorter.trans bounded,?_⟩
  constructor
  · rintro rfl
    have same := bounded.eq_of_length_le shorter.length_le
    exact ⟨same,(List.append_cancel_right (List.append_cancel_left same)).symm⟩
  · rintro ⟨rfl,rfl⟩
    rfl

theorem server_coherent (coherent : Coherent outputs e) (stepped : step sendMsg e (.server event) = .ok (next,emitted)) :
    Coherent (outputs++emitted) next ∧
      (AllThere (outputs++emitted) next ↔ AllThere outputs e ∧ ServerKeeps e.server event) := by
  simp only [step] at stepped
  split at stepped
  · cases stepped
  rename_i turn
  split at stepped
  · cases stepped
  rename_i underWay
  rw [not_not] at turn underWay
  obtain ⟨⟨server,resumed⟩,acted,same⟩ := bind_ok.mp stepped
  cases same
  have acted := mapError_ok.mp acted
  obtain ⟨front,split⟩ := underWay
  obtain ⟨less,exactly⟩ := server_moves coherent.serving turn acted
  have bounded := coherent.there
  rw [← split,← List.append_assoc e.server.conn.recvBuffer,← List.append_assoc e.echoRecv.holding] at bounded
  obtain ⟨there,all⟩ := thinned less bounded
  have up : e.up.drop (serverBrings event).length = front := by rw [← split,List.drop_left]
  have said : saidIn (outputs++[.echoed (serverTakes event)]) = saidIn outputs := by simp [saidIn]
  have echoed : echoedIn (outputs++[.echoed (serverTakes event)]) = echoedIn outputs++serverTakes event := by simp [echoedIn]
  have got : gotIn (outputs++[.echoed (serverTakes event)]) = gotIn outputs := by simp [gotIn]
  refine ⟨⟨serving_step coherent.serving turn acted,coherent.talking,?_,?_,?_⟩,?_⟩
  · rw [echoed,said,up]
    simpa only [List.append_assoc] using there
  · rw [echoed,got]
    exact coherent.back.trans (List.prefix_append _ _)
  · intro goesOn
    rw [echoed,got,← coherent.whole goesOn]
    simp only [List.append_assoc]
  · rw [AllThere,AllThere,echoed,said,up,← exactly]
    simpa only [← split,List.append_assoc] using all

theorem client_coherent (coherent : Coherent outputs e) (stepped : step sendMsg e (.client event) = .ok (next,emitted)) :
    Coherent (outputs++emitted) next ∧ (AllThere (outputs++emitted) next ↔ AllThere outputs e) := by
  simp only [step] at stepped
  split at stepped
  · cases stepped
  rename_i turn
  split at stepped
  · cases stepped
  rename_i underWay
  rw [not_not] at turn underWay
  obtain ⟨⟨client,resumed⟩,acted,same⟩ := bind_ok.mp stepped
  cases same
  have acted := mapError_ok.mp acted
  obtain ⟨front,split⟩ := underWay
  obtain ⟨active,talking,fresh,moved⟩ := client_moves coherent.talking turn acted sendMsg
  have down : e.down.drop (clientBrings event).length = front := by rw [← split,List.drop_left]
  have whole := coherent.whole active
  rw [← split] at whole
  have said : saidIn (outputs++[.said (clientTakes event),.got (received resumed)]) = saidIn outputs++clientTakes event := by
    simp [saidIn]
  have echoed : echoedIn (outputs++[.said (clientTakes event),.got (received resumed)]) = echoedIn outputs := by
    simp [echoedIn]
  have got : gotIn (outputs++[.said (clientTakes event),.got (received resumed)]) = gotIn outputs++received resumed := by
    simp [gotIn]
  refine ⟨⟨coherent.serving,talking,?_,?_,?_⟩,?_⟩
  · rw [echoed,said]
    simpa only [List.append_assoc] using coherent.there.append (List.Sublist.refl (clientTakes event))
  · rw [echoed,got,← whole,← List.append_assoc e.client.conn.recvBuffer]
    exact List.prefix_append_right_inj _ |>.mpr (fresh.trans (List.prefix_append _ _))
  · intro goesOn
    rw [echoed,got,← whole,down]
    simp only [← List.append_assoc]
    rw [List.append_assoc (gotIn outputs),moved goesOn,← List.append_assoc]
  · rw [AllThere,AllThere,echoed,said]
    simp only [← List.append_assoc]
    exact List.append_left_inj _

theorem step_coherent (coherent : Coherent outputs e) (stepped : step sendMsg e event = .ok (next,emitted)) :
    Coherent (outputs++emitted) next ∧ (AllThere (outputs++emitted) next ↔ AllThere outputs e ∧ Keeps e event) := by
  cases event with
  | server event => exact server_coherent coherent stepped
  | client event =>
    obtain ⟨kept,same⟩ := client_coherent coherent stepped
    exact ⟨kept,same.trans (and_iff_left trivial).symm⟩

theorem initial_coherent : Coherent [] (machine sendMsg).initial where
  serving := ⟨⟨rfl,rfl,rfl⟩,fun _ => rfl,.inl rfl,fun _ never => nomatch never⟩
  talking := ⟨TcpCoConn.initial_linked,fun _ => rfl⟩
  there := List.Sublist.refl _
  back := List.prefix_rfl
  whole := fun _ => rfl

-- However the two processes and the network interleave and cut the stream, the
-- client gets back the front of what was echoed, and that is what it said with
-- some bytes left out. None is left out exactly when each read reaches the server
-- while EchoRecv receives and its writes are taken.
theorem echo_returns (ran : (machine sendMsg).run events = .ok (e,outputs)) :
    gotIn outputs <+: echoedIn outputs ∧ (echoedIn outputs).Sublist (saidIn outputs) ∧
      (e.doJob ≠ .returned → gotIn outputs++(e.client.conn.recvBuffer++e.down) = echoedIn outputs) ∧
      (AllThere outputs e ↔ (machine sendMsg).Guarded (fun _ => Keeps) events) := by
  obtain ⟨coherent,exactly⟩ := (machine sendMsg).whole_iff_guarded Coherent AllThere initial_coherent rfl
    (fun _ _ _ _ _ coherent stepped => step_coherent coherent stepped) ran
  exact ⟨coherent.back,(List.sublist_append_left _ _).trans coherent.there,coherent.whole,exactly⟩

-- Two rounds of a two-byte message. The echo of the second is written while the
-- next chunk comes in, one byte of it before and one behind the completion.
def twoRounds : List Event :=
  [.client (.coSend [104,105] 0),.server (.coReceive 0 10240),.server (.uvRead (.data [104,105])),.client (.uvWrite 0),
    .client (.coReceive 0 10240 0),.server (.coSend [104,105] 0),.client (.uvRead (.data [104,105])),
    .client (.coSend [104,105] 0),.server (.uvRead (.data [104])),.server (.uvWrite 0),.server (.coReceive 0 10240),
    .server (.uvRead (.data [105])),.server (.coSend [105] 0)]

theorem rounds_return : ∃ e outputs, (machine [104,105]).run twoRounds = .ok (e,outputs) ∧
    gotIn outputs <+: echoedIn outputs ∧ (echoedIn outputs).Sublist (saidIn outputs) ∧
    (AllThere outputs e ↔ (machine [104,105]).Guarded (fun _ => Keeps) twoRounds) := by
  obtain ⟨⟨e,outputs⟩,ran⟩ : ∃ result, (machine [104,105]).run twoRounds = .ok result := ⟨_,rfl⟩
  have returns := echo_returns ran
  exact ⟨e,outputs,ran,returns.1,returns.2.1,returns.2.2.2⟩

end CoStream.EchoPair
