import CoStream.TcpCoConn

namespace CoStream.TcpCoConn
open Foundation
open AcceptConn (RecvResult SendResult Resumed ReadEvent Phase sendData)

-- The bytes libuv has handed over, and those a completed receive has returned:
-- as many as its result reports.
def delivered (events : List Event) : List UInt8 :=
  events.flatMap fun
    | .uvRead read => read.bytes
    | _ => []

def returned (outputs : List (Resumed Nat)) : List UInt8 :=
  outputs.flatMap fun
    | .received _ result _ bytes => bytes.take result.recvLen.toNat
    | .sent _ _ => []

@[simp] theorem delivered_append : delivered (first++second) = delivered first++delivered second := by
  simp [delivered]
@[simp] theorem returned_append : returned (first++second) = returned first++returned second := by
  simp [returned]

def Intact (events : List Event) (outputs : List (Resumed Nat)) (s : Session) : Prop :=
  returned outputs++s.conn.recvBuffer = delivered events

-- The event runs no callback through a null or an unwritten pointer, and no
-- copy of a negative length.
def HasPlace (s : Session) (event : Event) : Prop := ∀ fault, step s event = .error fault → fault = .disabled

-- A receive of `recvSize` bytes that finds `count` of them takes them all, or
-- has no room for any.
def Suits (recvSize : Nat) (count : Int) : Prop := count ≤ 0 ∨ count ≤ toInt recvSize ∨ toInt recvSize = 0

def Received (s : Session) : Event → Prop
  | .uvRead read => s.conn.readStarted → Reportable read →
      s.conn.handleData ∧ s.phase = .receiving ∧ Suits s.conn.recvSize read.nread
  | .coReceive _ recvSize _ => s.phase = .running → Suits recvSize s.conn.recvBuffer.length
  | .coSend _ _ => True
  | .uvWrite _ => True

variable {π : Type} {c next : Conn π} {promise : π} {outputs emitted : List (Resumed π)}

theorem awaiterRecv_fault (failed : onAwaiterRecv c promise recvLen = .error fault) :
    fault = .outOfBounds ∧ ¬ Suits c.recvSize recvLen := by
  unfold onAwaiterRecv at failed
  split at failed
  · cases failed
  split at failed
  · dsimp only at failed
    split at failed
    · cases failed
      unfold Suits
      exact ⟨rfl,by omega⟩
    · cases failed
  · cases failed

-- A receive that comes back has taken some bytes off the front, and has
-- reported them unless there were more than it asked for.
theorem awaiterRecv_exact (ran : onAwaiterRecv c promise recvLen = .ok (next,emitted)) : ∃ count result,
    next = {c with recvAwaiterCallback:=none,recvBuffer:=c.recvBuffer.drop count} ∧
      emitted = [.received promise result c.recvData (c.recvBuffer.take count)] ∧
      (Suits c.recvSize recvLen ∧ result.recvLen.toNat = count ∨
        ¬ Suits c.recvSize recvLen ∧ result.recvLen.toNat = 0 ∧ 0 < count ∧ count < recvLen) := by
  unfold onAwaiterRecv at ran
  split at ran
  · rename_i failed
    cases ran
    exact ⟨0,⟨.error,0⟩,by simp,by simp,.inl ⟨.inl failed,rfl⟩⟩
  rename_i positive
  split at ran
  · rename_i beyond
    dsimp only at ran
    split at ran
    · cases ran
    · rename_i room
      obtain ⟨rfl,rfl⟩ := ok_pair ran
      refine ⟨(toInt c.recvSize).toNat,⟨.pending,0⟩,rfl,rfl,?_⟩
      by_cases none : toInt c.recvSize = 0
      · exact .inl ⟨.inr (.inr none),by simp [none]⟩
      · refine .inr ⟨?_,rfl,?_,?_⟩
        · unfold Suits
          omega
        · omega
        · omega
  · rename_i within
    obtain ⟨rfl,rfl⟩ := ok_pair ran
    exact ⟨recvLen.toNat,⟨.ok,recvLen⟩,rfl,rfl,.inl ⟨.inr (.inl (by omega)),rfl⟩⟩

-- A receive waits only with nothing in the buffer, and only then is there a
-- callback for a read to run. A request is open only during a send.
structure Linked (s : Session) : Prop where
  receiving : s.phase = .receiving → (∃ call, s.conn.recvAwaiterCallback = some call) ∧ s.conn.recvBuffer = []
  elsewhere : s.phase ≠ .receiving → s.conn.recvAwaiterCallback = none
  bounded : s.conn.recvBuffer.length ≤ uvReadBufferSize
  sending : s.request ≠ none → s.phase = .sending ∧ ∃ call, s.conn.sendAwaiterCallback = some call

theorem nread_fits (read : ReadEvent) (reportable : Reportable read) : toInt read.nread = read.nread :=
  toInt_fits reportable.2

-- The three ways a receive is resumed share one continuation: the buffer with
-- what was there, and the bytes that were reported.
theorem awaiterRecv_moves {c next : Conn Nat} {promise : Nat} {emitted : List (Resumed Nat)}
    (ran : onAwaiterRecv c promise recvLen = .ok (next,emitted)) (suits : Suits c.recvSize recvLen) :
    returned emitted++next.recvBuffer = c.recvBuffer := by
  obtain ⟨count,result,rfl,rfl,all | short⟩ := awaiterRecv_exact ran
  · simp [returned,all.2,List.take_take]
  · exact absurd suits short.1

theorem awaiterRecv_loses {c next : Conn Nat} {promise : Nat} {emitted : List (Resumed Nat)}
    (ran : onAwaiterRecv c promise recvLen = .ok (next,emitted)) (inside : recvLen ≤ c.recvBuffer.length)
    (whole : returned emitted++next.recvBuffer = c.recvBuffer) : Suits c.recvSize recvLen := by
  obtain ⟨count,result,rfl,rfl,all | short⟩ := awaiterRecv_exact ran
  · exact all.1
  · have lengths := congrArg List.length whole
    simp only [returned,List.flatMap_cons,List.flatMap_nil,List.append_nil,short.2.1,List.take_zero,List.nil_append,
      List.length_drop] at lengths
    omega

variable {s following : Session} {read : ReadEvent} {sent : List (Resumed Nat)} {events : List Event}

theorem read_disabled (off : ¬ (s.conn.readStarted ∧ Reportable read)) : step s (.uvRead read) = .error .disabled :=
  if_neg off

theorem read_wild (on : s.conn.readStarted ∧ Reportable read) (unset : ¬ s.conn.handleData) :
    step s (.uvRead read) = .error .wildHandle := by
  simp only [step,if_pos on,onUVClientRead,if_neg unset,error_bind]

theorem read_alone (linked : Linked s) (on : s.conn.readStarted ∧ Reportable read) (set : s.conn.handleData)
    (elsewhere : s.phase ≠ .receiving) : step s (.uvRead read) = .error .nullCallback := by
  simp only [step,if_pos on,onUVClientRead,if_pos set,onRead,linked.elsewhere elsewhere,error_bind]

-- An awaited read finds the buffer empty, so what is there is what it brought.
theorem read_awaited (linked : Linked s) (on : s.conn.readStarted ∧ Reportable read) (set : s.conn.handleData)
    (receiving : s.phase = .receiving) : ∃ call, step s (.uvRead read) = do
      let done ← onAwaiterRecv {s.conn with recvBuffer:=read.bytes} call read.nread
      return ({s with conn:=done.1,phase:=resume s.phase done.2},done.2) := by
  obtain ⟨⟨call,callback⟩,empty⟩ := linked.receiving receiving
  refine ⟨call,?_⟩
  have filled : (if read.nread ≤ 0 then s.conn else {s.conn with recvBuffer:=s.conn.recvBuffer++read.bytes}) =
      {s.conn with recvBuffer:=read.bytes} := by
    split
    · rename_i quiet
      rw [ReadEvent.quiet_bytes quiet,← empty]
    · rw [empty,List.nil_append]
  have ran : onRead s.conn read = onAwaiterRecv {s.conn with recvBuffer:=read.bytes} call read.nread := by
    unfold onRead
    rw [filled,callback,nread_fits read on.2]
  simp only [step,if_pos on,onUVClientRead,if_pos set,ran]

theorem receive_suspended (elsewhere : s.phase ≠ .running) :
    step s (.coReceive recvData recvSize uvReadStart) = .error .disabled :=
  if_neg elsewhere

theorem receive_waits (running : s.phase = .running) (empty : s.conn.recvBuffer = []) :
    step s (.coReceive recvData recvSize uvReadStart) = .ok ({s with
      conn := startReceive {s.conn with recvData,recvSize,recvAwaiterCallback:=some s.calls} uvReadStart
      phase := .receiving
      calls := s.calls+1},[]) := by
  simp [step,running,coReceive,empty,resume]

theorem receive_takes (linked : Linked s) (running : s.phase = .running) (filled : s.conn.recvBuffer ≠ [])
    (recvData recvSize : Nat) (uvReadStart : Int) : step s (.coReceive recvData recvSize uvReadStart) = do
      let done ← onAwaiterRecv {s.conn with recvData,recvSize,recvAwaiterCallback:=some s.calls} s.calls
        s.conn.recvBuffer.length
      return ({s with conn:=done.1,phase:=resume .receiving done.2,calls:=s.calls+1},done.2) := by
  have bounded := linked.bounded
  have long := List.length_pos_iff.mpr filled
  have length : toInt s.conn.recvBuffer.length = s.conn.recvBuffer.length := by
    unfold uvReadBufferSize at bounded
    exact toInt_fits (by constructor <;> omega)
  simp only [step,if_pos running,coReceive,gt_iff_lt,if_pos long,length]

theorem startReceive_same (c : Conn π) (uvReadStart : Int) : ∃ readStarted,
    startReceive c uvReadStart = {c with readStarted} := by
  unfold startReceive
  split
  · exact ⟨c.readStarted,rfl⟩
  split
  · exact ⟨c.readStarted,rfl⟩
  · exact ⟨true,rfl⟩

theorem send_suspended (elsewhere : s.phase ≠ .running) : step s (.coSend data uvWrite) = .error .disabled :=
  if_neg elsewhere

def submitted (s : Session) (data : List UInt8) : Conn Nat :=
  {s.conn with sendBuffer:=data,sendAwaiterCallback:=some s.calls,handleData:=true}

theorem send_refused (running : s.phase = .running) (refused : uvWrite ≠ 0) :
    step s (.coSend data uvWrite) =
      .ok ({s with conn:=submitted s data,calls:=s.calls+1},[.sent s.calls ⟨.error,-1⟩]) := by
  simp [step,running,coSend,refused,resume,submitted]

theorem send_accepted (running : s.phase = .running) (data : List UInt8) :
    step s (.coSend data 0) =
      .ok ({conn:=submitted s data,phase:=.sending,request:=some (sendData data),calls:=s.calls+1},[]) := by
  simp [step,running,coSend,resume,submitted]

theorem write_nothing (nothing : s.request = none) : step s (.uvWrite status) = .error .disabled := by
  simp only [step,nothing]

theorem write_failed (pending : s.request = some request) (failed : status ≠ 0) :
    step s (.uvWrite status) = .ok ({s with request:=none},[]) := by
  simp [step,pending,onWrite,failed,resume]

theorem write_done (pending : s.request = some request) (callback : s.conn.sendAwaiterCallback = some call) :
    step s (.uvWrite 0) = .ok ({s with request:=none,phase:=.running},onAwaiterSend call (toInt request.length)) := by
  have resumed (outputs : List (Resumed Nat)) (some : outputs ≠ []) : resume s.phase outputs = .running := if_neg some
  have told : onAwaiterSend call (toInt request.length) ≠ [] := by
    unfold onAwaiterSend
    split <;> simp
  simp only [step,pending,onWrite,if_true,callback,ok_bind,pure_ok,resumed _ told]

theorem resumed_linked (quiet : s.request = none) {c : Conn Nat}
    (ran : onAwaiterRecv c call recvLen = .ok (conn,sent)) (bounded : c.recvBuffer.length ≤ uvReadBufferSize)
    (calls : Nat) : Linked {s with conn,phase:=resume phase sent,calls} := by
  obtain ⟨count,result,rfl,rfl,-⟩ := awaiterRecv_exact ran
  refine ⟨?_,fun _ => rfl,?_,?_⟩
  · intro waits
    cases waits
  · exact Nat.le_trans (by simp) bounded
  · exact fun waiting => absurd quiet waiting

theorem quiet_unless_sending (linked : Linked s) (elsewhere : s.phase ≠ .sending) : s.request = none := by
  by_contra waiting
  exact elsewhere (linked.sending waiting).1

-- What a step can do, and what holds when it does it.
inductive Stepped (s : Session) : Event → Session → List (Resumed Nat) → Prop where
  | awaited {read : ReadEvent} {sent : List (Resumed Nat)} (receiving : s.phase = .receiving)
      (on : s.conn.readStarted ∧ Reportable read) (set : s.conn.handleData)
      (ran : onAwaiterRecv {s.conn with recvBuffer:=read.bytes} call read.nread = .ok (conn,sent)) :
      Stepped s (.uvRead read) {s with conn,phase:=resume s.phase sent} sent
  | waits (running : s.phase = .running) (empty : s.conn.recvBuffer = []) (readStarted : Bool) :
      Stepped s (.coReceive recvData recvSize uvReadStart) {s with
        conn := {s.conn with recvData,recvSize,recvAwaiterCallback:=some s.calls,readStarted}
        phase := .receiving
        calls := s.calls+1} []
  | takes {sent : List (Resumed Nat)} (running : s.phase = .running)
      (ran : onAwaiterRecv {s.conn with recvData,recvSize,recvAwaiterCallback:=some s.calls} s.calls
        s.conn.recvBuffer.length = .ok (conn,sent)) :
      Stepped s (.coReceive recvData recvSize uvReadStart)
        {s with conn,phase:=resume .receiving sent,calls:=s.calls+1} sent
  | accepted (running : s.phase = .running) (data : List UInt8) : Stepped s (.coSend data 0)
      {conn:=submitted s data,phase:=.sending,request:=some (sendData data),calls:=s.calls+1} []
  | refused (running : s.phase = .running) (data : List UInt8) (refused : uvWrite ≠ 0) : Stepped s (.coSend data uvWrite)
      {s with conn:=submitted s data,calls:=s.calls+1} [.sent s.calls ⟨.error,-1⟩]
  | completed (pending : s.request = some request) (sending : s.phase = .sending)
      (callback : s.conn.sendAwaiterCallback = some call) : Stepped s (.uvWrite 0)
      {s with request:=none,phase:=.running} (onAwaiterSend call (toInt request.length))
  | failed (pending : s.request = some request) (sending : s.phase = .sending) (failed : status ≠ 0) :
      Stepped s (.uvWrite status) {s with request:=none} []

theorem step_exact (linked : Linked s) (stepped : step s event = .ok (following,sent)) :
    Stepped s event following sent := by
  cases event with
  | uvRead read =>
    by_cases on : s.conn.readStarted ∧ Reportable read
    · by_cases set : s.conn.handleData
      · by_cases receiving : s.phase = .receiving
        · obtain ⟨call,awaited⟩ := read_awaited linked on set receiving
          rw [awaited] at stepped
          obtain ⟨⟨conn,outputs⟩,ran,same⟩ := bind_ok.mp stepped
          obtain ⟨rfl,rfl⟩ := ok_pair same
          exact .awaited receiving on set ran
        · rw [read_alone linked on set receiving] at stepped
          cases stepped
      · rw [read_wild on set] at stepped
        cases stepped
    · rw [read_disabled on] at stepped
      cases stepped
  | coReceive recvData recvSize uvReadStart =>
    by_cases running : s.phase = .running
    · by_cases empty : s.conn.recvBuffer = []
      · rw [receive_waits running empty] at stepped
        obtain ⟨rfl,rfl⟩ := ok_pair stepped
        obtain ⟨readStarted,same⟩ := startReceive_same
          {s.conn with recvData,recvSize,recvAwaiterCallback:=some s.calls} uvReadStart
        rw [same]
        exact .waits running empty readStarted
      · rw [receive_takes linked running empty] at stepped
        obtain ⟨⟨conn,outputs⟩,ran,same⟩ := bind_ok.mp stepped
        obtain ⟨rfl,rfl⟩ := ok_pair same
        exact .takes running ran
    · rw [receive_suspended running] at stepped
      cases stepped
  | coSend data uvWrite =>
    by_cases running : s.phase = .running
    · by_cases accepted : uvWrite = 0
      · subst accepted
        rw [send_accepted running] at stepped
        obtain ⟨rfl,rfl⟩ := ok_pair stepped
        exact .accepted running data
      · rw [send_refused running accepted] at stepped
        obtain ⟨rfl,rfl⟩ := ok_pair stepped
        exact .refused running data accepted
    · rw [send_suspended running] at stepped
      cases stepped
  | uvWrite status =>
    cases pending : s.request with
    | none =>
      rw [write_nothing pending] at stepped
      cases stepped
    | some request =>
      obtain ⟨sending,call,callback⟩ := linked.sending (by simp [pending])
      by_cases done : status = 0
      · subst done
        rw [write_done pending callback] at stepped
        rw [(ok_pair stepped).1,(ok_pair stepped).2]
        dsimp only
        exact .completed pending sending callback
      · rw [write_failed pending done] at stepped
        obtain ⟨rfl,rfl⟩ := ok_pair stepped
        exact .failed pending sending done

theorem step_linked (linked : Linked s) (stepped : Stepped s event following sent) : Linked following := by
  cases stepped with
  | awaited receiving on _ ran =>
    exact resumed_linked (quiet_unless_sending linked (by simp [receiving])) ran on.2.1 s.calls
  | waits running empty readStarted =>
    refine ⟨fun _ => ⟨⟨s.calls,rfl⟩,empty⟩,fun never => absurd rfl never,linked.bounded,?_⟩
    exact fun waiting => absurd (quiet_unless_sending linked (by simp [running])) waiting
  | takes running ran =>
    exact resumed_linked (quiet_unless_sending linked (by simp [running])) ran linked.bounded (s.calls+1)
  | accepted running data =>
    have idle := linked.elsewhere (by simp [running])
    refine ⟨?_,fun _ => idle,linked.bounded,fun _ => ⟨rfl,s.calls,rfl⟩⟩
    intro waits
    cases waits
  | refused running data =>
    have idle := linked.elsewhere (by simp [running])
    refine ⟨?_,fun _ => idle,linked.bounded,?_⟩
    · intro waits
      cases running.symm.trans waits
    · exact fun waiting => absurd (quiet_unless_sending linked (by simp [running])) waiting
  | completed pending sending callback =>
    have idle := linked.elsewhere (by simp [sending])
    refine ⟨?_,fun _ => idle,linked.bounded,fun waiting => absurd rfl waiting⟩
    intro waits
    cases waits
  | failed => exact ⟨linked.receiving,linked.elsewhere,linked.bounded,fun waiting => absurd rfl waiting⟩

theorem initial_linked : Linked {} := by
  refine ⟨?_,fun _ => rfl,Nat.zero_le _,fun waiting => absurd rfl waiting⟩
  intro waits
  cases waits

theorem run_linked (ran : machine.run events = .ok (s,sent)) : Linked s :=
  machine.history (fun _ _ s => Linked s) initial_linked (fun _ _ _ _ _ _ linked stepped =>
    step_linked linked (step_exact linked stepped)) ran

-- Under the condition nothing faults, and a step moves bytes from the buffer
-- to the coroutine behind which the bytes of a read have come in.
theorem received_hasPlace (linked : Linked s) (received : Received s event) : HasPlace s event := by
  intro fault failed
  cases event with
  | uvRead read =>
    by_cases on : s.conn.readStarted ∧ Reportable read
    · obtain ⟨set,receiving,suits⟩ := received on.1 on.2
      obtain ⟨call,awaited⟩ := read_awaited linked on set receiving
      rw [awaited] at failed
      rcases bind_error.mp failed with wide | ⟨_,_,never⟩
      · exact absurd suits (awaiterRecv_fault wide).2
      · cases never
    · rw [read_disabled on] at failed
      cases failed
      rfl
  | coReceive recvData recvSize uvReadStart =>
    by_cases running : s.phase = .running
    · by_cases empty : s.conn.recvBuffer = []
      · rw [receive_waits running empty] at failed
        cases failed
      · rw [receive_takes linked running empty] at failed
        rcases bind_error.mp failed with wide | ⟨_,_,never⟩
        · exact absurd (received running) (awaiterRecv_fault wide).2
        · cases never
    · rw [receive_suspended running] at failed
      cases failed
      rfl
  | coSend data uvWrite =>
    by_cases running : s.phase = .running
    · simp only [step,running,if_true] at failed
      cases failed
    · rw [send_suspended running] at failed
      cases failed
      rfl
  | uvWrite status =>
    cases pending : s.request with
    | none =>
      rw [write_nothing pending] at failed
      cases failed
      rfl
    | some request =>
      obtain ⟨sending,call,callback⟩ := linked.sending (by simp [pending])
      by_cases done : status = 0
      · subst done
        rw [write_done pending callback] at failed
        exact absurd failed (by simp)
      · rw [write_failed pending done] at failed
        cases failed

theorem onAwaiterSend_returned (call : Nat) (sentLen : Int) : returned (onAwaiterSend call sentLen) = [] := by
  unfold onAwaiterSend
  split <;> simp [returned]

theorem step_moves (linked : Linked s) (received : Received s event) (stepped : Stepped s event following sent) :
    returned sent++following.conn.recvBuffer = s.conn.recvBuffer++delivered [event] := by
  cases stepped with
  | awaited receiving on _ ran =>
    rw [awaiterRecv_moves ran (received on.1 on.2).2.2,(linked.receiving receiving).2]
    simp [delivered]
  | waits => simp [returned,delivered]
  | takes running ran =>
    have moved := awaiterRecv_moves ran (received running)
    simpa [delivered] using moved
  | accepted => simp [returned,delivered,submitted]
  | refused => simp [returned,delivered,submitted]
  | completed =>
    rw [onAwaiterSend_returned]
    simp [delivered]
  | failed => simp [returned,delivered]

-- Conversely, an event with a place that keeps the stream whole meets the
-- condition.
theorem received_of_moves (linked : Linked s) (place : HasPlace s event)
    (moves : ∀ following sent, step s event = .ok (following,sent) →
      returned sent++following.conn.recvBuffer = s.conn.recvBuffer++delivered [event]) : Received s event := by
  cases event with
  | uvRead read =>
    intro started reportable
    have on := And.intro started reportable
    by_cases set : s.conn.handleData
    · by_cases receiving : s.phase = .receiving
      · refine ⟨set,receiving,?_⟩
        obtain ⟨call,awaited⟩ := read_awaited linked on set receiving
        cases ran : onAwaiterRecv {s.conn with recvBuffer:=read.bytes} call read.nread with
        | error fault =>
          have failed : step s (.uvRead read) = .error fault := by rw [awaited,ran,error_bind]
          cases (awaiterRecv_fault ran).1.symm.trans (place fault failed)
        | ok done =>
          obtain ⟨conn,outputs⟩ := done
          have inside : read.nread ≤ read.bytes.length := by
            cases read with
            | data bytes => exact Int.le_refl _
            | failed code =>
              simp only [ReadEvent.nread]
              omega
          have whole := moves _ _ (by rw [awaited,ran,ok_bind]; rfl)
          rw [(linked.receiving receiving).2] at whole
          have suits := awaiterRecv_loses ran inside (by simpa [delivered] using whole)
          exact suits
      · cases place _ (read_alone linked on set receiving)
    · cases place _ (read_wild on set)
  | coReceive recvData recvSize uvReadStart =>
    intro running
    by_cases empty : s.conn.recvBuffer = []
    · exact .inl (by simp [empty])
    · have takes := receive_takes linked running empty recvData recvSize uvReadStart
      cases ran : onAwaiterRecv {s.conn with recvData,recvSize,recvAwaiterCallback:=some s.calls} s.calls
          s.conn.recvBuffer.length with
      | error fault =>
        rw [ran,error_bind] at takes
        cases (awaiterRecv_fault ran).1.symm.trans (place fault takes)
      | ok done =>
        obtain ⟨conn,outputs⟩ := done
        rw [ran,ok_bind] at takes
        have whole := moves _ _ takes
        have suits := awaiterRecv_loses ran (Int.le_refl _) (by simpa [delivered] using whole)
        exact suits
  | coSend data uvWrite => trivial
  | uvWrite status => trivial

theorem intact_snoc {outputs : List (Resumed Nat)} (intact : Intact events outputs s) :
    Intact (events++[event]) (outputs++sent) following ↔
      returned sent++following.conn.recvBuffer = s.conn.recvBuffer++delivered [event] := by
  unfold Intact at intact ⊢
  rw [delivered_append,returned_append,← intact,List.append_assoc,List.append_assoc,List.append_cancel_left_eq]

theorem client_stream_iff (events : List Event) :
    machine.Guarded (fun _ => HasPlace) events ∧ machine.Throughout Intact events ↔
      machine.Guarded (fun _ => Received) events := by
  constructor
  · rintro ⟨places,intact⟩ before event after shape s outputs ran
    apply received_of_moves (run_linked ran) (places before event after shape s outputs ran)
    intro following sent stepped
    have extended := machine.runFrom_snoc.mpr ⟨s,outputs,sent,ran,stepped,rfl⟩
    have whole := intact (before++[event]) after following _ (by simp [shape]) extended
    exact (intact_snoc (intact before _ s outputs shape ran)).mp whole
  · intro received
    constructor
    · intro before event after shape s outputs ran
      exact received_hasPlace (run_linked ran) (received before event after shape s outputs ran)
    · intro before after s outputs shape ran
      subst shape
      have both := machine.guarded_history (fun _ => Received) (fun events outputs s => Linked s ∧ Intact events outputs s)
        ⟨initial_linked,rfl⟩ ?_ before (Machine.Guarded.front machine received) ran
      · exact both.2
      · rintro events outputs s event following sent ⟨linked,intact⟩ met stepped
        have made := step_exact linked stepped
        exact ⟨step_linked linked made,(intact_snoc intact).mpr (step_moves linked met made)⟩

-- The echo client sends its next message while the answer to the last one is
-- still coming in.
def chat : List Event :=
  [.coSend [97] 0,.uvWrite 0,.coReceive 0 10240 0,.uvRead (.data [97]),.coSend [98] 0,.uvRead (.data [98])]

theorem chat_hasNoPlace : ¬ (machine.Guarded (fun _ => HasPlace) chat ∧ machine.Throughout Intact chat) := by
  rintro ⟨places,-⟩
  have place := places (chat.take 5) (.uvRead (.data [98])) [] rfl _ _ rfl
  exact absurd (place .nullCallback rfl) (by decide)

end CoStream.TcpCoConn
