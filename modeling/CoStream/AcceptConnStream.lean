import CoStream.AcceptConn

namespace CoStream.AcceptConn
open Foundation

-- The bytes libuv has handed over, and the bytes the coroutine was given for
-- its completed receives.
def delivered (events : List Event) : List UInt8 :=
  events.flatMap fun
    | .uvRead read => read.bytes
    | _ => []

def returned (outputs : List (Resumed Unit)) : List UInt8 :=
  outputs.flatMap fun
    | .received _ _ _ bytes => bytes
    | .sent _ _ => []

@[simp] theorem delivered_append : delivered (first++second) = delivered first++delivered second := by
  simp [delivered]
@[simp] theorem returned_append : returned (first++second) = returned first++returned second := by
  simp [returned]

-- Nothing lost, duplicated or reordered on the way to the coroutine.
def Intact (events : List Event) (outputs : List (Resumed Unit)) (s : Session) : Prop :=
  returned outputs++s.conn.recvBuffer = delivered events

def IntactThroughout (events : List Event) : Prop :=
  ∀ before after s outputs, events = before++after → machine.run before = .ok (s,outputs) → Intact before outputs s

-- Every read that carries bytes finds the coroutine suspended in a receive.
def ReadsWhileReceiving (events : List Event) : Prop :=
  ∀ before bytes after s outputs, events = before++.uvRead (.data bytes)::after → bytes ≠ [] →
    machine.run before = .ok (s,outputs) → s.phase = .receiving

variable {c : Conn Unit} {read : ReadEvent}

-- A resumed receive takes some bytes off the front of the buffer, none when it
-- reports an error.
theorem handleReceive_exact (c : Conn Unit) (nread : Int) : ∃ count result,
    handleReceive c () nread = ({c with recvBuffer:=c.recvBuffer.drop count},
      [.received () result c.recvData (c.recvBuffer.take count)]) := by
  unfold handleReceive
  split
  · exact ⟨0,⟨.error,0⟩,by simp⟩
  split
  · exact ⟨_,_,rfl⟩
  · exact ⟨_,_,rfl⟩

theorem coReceive_waits (empty : c.recvBuffer = []) : coReceive c () recvData recvSize =
    ({c with recvData,recvSize,readAwaiters:=c.readAwaiters++[()]},[]) := by
  simp [coReceive,empty]

theorem coReceive_takes (filled : c.recvBuffer ≠ []) : ∃ count result,
    coReceive c () recvData recvSize = ({c with recvData,recvSize,recvBuffer:=c.recvBuffer.drop count},
      [.received () result recvData (c.recvBuffer.take count)]) := by
  obtain ⟨count,result,handled⟩ := handleReceive_exact {c with recvData,recvSize} c.recvBuffer.length
  have long : c.recvBuffer.length > 0 := List.length_pos_iff.mpr filled
  exact ⟨count,result,by simpa only [coReceive,if_pos long] using handled⟩

-- With an awaiter the bytes of a read pass through the buffer; without one the
-- read leaves no trace.
theorem onUvRead_resumes (awaiters : c.readAwaiters = ()::rest) (spoke : read.nread ≠ 0) : ∃ count result,
    onUvRead c read = ({c with recvBuffer:=(c.recvBuffer++read.bytes).drop count,readAwaiters:=rest},
      [.received () result c.recvData ((c.recvBuffer++read.bytes).take count)]) := by
  have filled : (if read.nread > 0 then {c with recvBuffer:=c.recvBuffer++read.bytes} else c) =
      {c with recvBuffer:=c.recvBuffer++read.bytes} := by
    split
    · rfl
    · rename_i quiet
      rw [ReadEvent.quiet_bytes (Int.not_lt.mp quiet),List.append_nil]
  obtain ⟨count,result,handled⟩ := handleReceive_exact
    {c with recvBuffer:=c.recvBuffer++read.bytes,readAwaiters:=rest} read.nread
  refine ⟨count,result,?_⟩
  unfold onUvRead onReceive
  rw [if_neg spoke]
  split
  · rename_i equal
    rw [awaiters] at equal
    cases equal
  · rename_i equal
    rw [awaiters] at equal
    cases equal
    simp only [filled]
    exact handled

theorem onUvRead_dropped (alone : c.readAwaiters = []) : onUvRead c read = (c,[]) := by
  unfold onUvRead onReceive
  split
  · rfl
  · rw [alone]

-- Each queue of awaiters is the coroutine itself, as long as it waits there,
-- and a request is in flight exactly while it waits for a send.
structure Awaited (s : Session) : Prop where
  reads : s.conn.readAwaiters = if s.phase = .receiving then [()] else []
  writes : s.conn.writeAwaiters = if s.phase = .sending then [()] else []
  requests : s.requests.length = if s.phase = .sending then 1 else 0

theorem awaited_step (awaited : Awaited s) (stepped : step s event = .ok (next,emitted)) : Awaited next := by
  obtain ⟨reads,writes,requests⟩ := awaited
  cases event with
  | uvRead read =>
    simp only [step,Except.ok.injEq,Prod.mk.injEq] at stepped
    obtain ⟨rfl,rfl⟩ := stepped
    by_cases silent : read.nread = 0
    · exact ⟨by simpa [onUvRead,silent,resume] using reads,by simpa [onUvRead,silent,resume] using writes,
        by simpa [onUvRead,silent,resume] using requests⟩
    by_cases receiving : s.phase = .receiving
    · simp only [receiving,if_true,reduceCtorEq,if_false] at reads writes requests
      obtain ⟨count,result,read⟩ := onUvRead_resumes reads silent
      rw [read]
      exact ⟨by simp [resume],by simpa [resume] using writes,by simpa [resume] using requests⟩
    · simp only [receiving,if_false] at reads
      rw [onUvRead_dropped reads]
      exact ⟨by simpa [resume,receiving] using reads,by simpa [resume] using writes,
        by simpa [resume] using requests⟩
  | coReceive recvData recvSize =>
    simp only [step] at stepped
    split at stepped
    · rename_i running
      simp only [running,reduceCtorEq,if_false] at reads writes requests
      cases stepped
      by_cases empty : s.conn.recvBuffer = []
      · rw [coReceive_waits empty]
        exact ⟨by simp [resume,reads],by simpa [resume] using writes,by simpa [resume] using requests⟩
      · obtain ⟨count,result,taken⟩ := coReceive_takes empty
        rw [taken]
        exact ⟨by simpa [resume] using reads,by simpa [resume] using writes,by simpa [resume] using requests⟩
    · cases stepped
  | coSend data uvWrite =>
    simp only [step] at stepped
    split at stepped
    · rename_i running
      simp only [running,reduceCtorEq,if_false] at reads writes requests
      cases stepped
      unfold coSend
      by_cases accepted : uvWrite = 0
      · rw [if_neg (by simpa using accepted)]
        exact ⟨by simpa [resume] using reads,by simp [resume,writes],by simpa [resume,accepted] using requests⟩
      · rw [if_pos (by simpa using accepted)]
        exact ⟨by simpa [resume] using reads,by simp [resume,writes],by simpa [resume,accepted] using requests⟩
    · cases stepped
  | uvWrite status =>
    simp only [step] at stepped
    split at stepped
    · cases stepped
    · rename_i request rest submitted
      cases stepped
      have sending : s.phase = .sending := by
        by_contra other
        simp [submitted,other] at requests
      simp only [sending,if_true,reduceCtorEq,if_false,submitted,List.length_cons] at reads writes requests
      have done : rest = [] := List.length_eq_zero_iff.mp (by omega)
      have spoke : handleSend () status request.length ≠ [] := by
        unfold handleSend
        split <;> simp
      simp only [onWrite,writes]
      exact ⟨by simpa [resume,spoke] using reads,by simp [resume,spoke],by simp [resume,spoke,done]⟩

theorem awaited_run (ran : machine.run events = .ok (s,outputs)) : Awaited s :=
  machine.history (fun _ _ s => Awaited s) ⟨rfl,rfl,rfl⟩
    (fun _ _ _ _ _ _ awaited stepped => awaited_step awaited stepped) ran

-- What one step does to the stream: it moves bytes from the buffer to the
-- coroutine, after it has put the bytes of an awaited read behind them.
theorem step_moves (awaited : Awaited s) (stepped : step s event = .ok (next,emitted)) :
    returned emitted++next.conn.recvBuffer =
      s.conn.recvBuffer++(if s.phase = .receiving then delivered [event] else []) := by
  cases event with
  | uvRead read =>
    simp only [step,Except.ok.injEq,Prod.mk.injEq] at stepped
    obtain ⟨rfl,rfl⟩ := stepped
    by_cases receiving : s.phase = .receiving
    · have reads := awaited.reads
      rw [if_pos receiving] at reads ⊢
      by_cases silent : read.nread = 0
      · simp [onUvRead,silent,returned,delivered,ReadEvent.quiet_bytes (Int.le_of_eq silent)]
      · obtain ⟨count,result,read⟩ := onUvRead_resumes reads silent
        rw [read]
        simp [returned,delivered]
    · have reads := awaited.reads
      rw [if_neg receiving] at reads ⊢
      rw [onUvRead_dropped reads]
      simp [returned]
  | coReceive recvData recvSize =>
    simp only [step] at stepped
    split at stepped
    · cases stepped
      by_cases empty : s.conn.recvBuffer = []
      · rw [coReceive_waits empty]
        simp [returned,delivered]
      · obtain ⟨count,result,taken⟩ := coReceive_takes empty
        rw [taken]
        simp [returned,delivered]
    · cases stepped
  | coSend data uvWrite =>
    simp only [step] at stepped
    split at stepped
    · cases stepped
      unfold coSend
      split <;> simp [returned,delivered]
    · cases stepped
  | uvWrite status =>
    simp only [step] at stepped
    split at stepped
    · cases stepped
    · cases stepped
      unfold onWrite handleSend
      split
      · simp [returned,delivered]
      split <;> simp [returned,delivered]

theorem step_loses (awaited : Awaited s) (intact : Intact events outputs s) (elsewhere : s.phase ≠ .receiving)
    (stepped : step s (.uvRead (.data bytes)) = .ok (next,emitted))
    (after : Intact (events++[.uvRead (.data bytes)]) (outputs++emitted) next) : bytes = [] := by
  have moved := step_moves awaited stepped
  rw [if_neg elsewhere,List.append_nil] at moved
  simp only [Intact,returned_append,delivered_append,List.append_assoc,moved] at intact after
  rw [intact] at after
  simpa [delivered,ReadEvent.bytes] using after

theorem intact_run (received : ReadsWhileReceiving events) (ran : machine.run events = .ok (s,outputs)) :
    Intact events outputs s := by
  have both := machine.guarded_history
    (fun _ s event => ∀ bytes, event = .uvRead (.data bytes) → bytes ≠ [] → s.phase = .receiving)
    (fun events outputs s => Awaited s ∧ Intact events outputs s) ⟨⟨rfl,rfl,rfl⟩,rfl⟩ ?_ events ?_ ran
  · exact both.2
  · rintro events outputs s event next emitted ⟨awaited,intact⟩ guarded stepped
    refine ⟨awaited_step awaited stepped,?_⟩
    have moved := step_moves awaited stepped
    have all : (if s.phase = .receiving then delivered [event] else []) = delivered [event] := by
      split
      · rfl
      · rename_i elsewhere
        cases event with
        | uvRead read =>
          cases read with
          | data bytes =>
            have empty : bytes = [] := by
              by_contra nonempty
              exact elsewhere (guarded bytes rfl nonempty)
            simp [delivered,ReadEvent.bytes,empty]
          | failed code => rfl
        | coReceive recvData recvSize => rfl
        | coSend data uvWrite => rfl
        | uvWrite status => rfl
    rw [all] at moved
    simp only [Intact,returned_append,delivered_append,List.append_assoc,moved] at intact ⊢
    rw [← List.append_assoc,intact]
  · intro before event after split s outputs front bytes same nonempty
    subst same
    exact received before bytes after s outputs split nonempty front

theorem stream_intact_iff (events : List Event) : IntactThroughout events ↔ ReadsWhileReceiving events := by
  constructor
  · intro intact before bytes after s outputs split nonempty ran
    by_contra elsewhere
    obtain ⟨next,emitted,stepped⟩ : ∃ next emitted, step s (.uvRead (.data bytes)) = .ok (next,emitted) := ⟨_,_,rfl⟩
    have extended : machine.run (before++[.uvRead (.data bytes)]) = .ok (next,outputs++emitted) :=
      machine.runFrom_snoc.mpr ⟨s,outputs,emitted,ran,stepped,rfl⟩
    exact nonempty (step_loses (awaited_run ran) (intact before _ s outputs split ran) elsewhere stepped
      (intact _ after next _ (by simp [split]) extended))
  · rintro received before after s outputs rfl ran
    refine intact_run ?_ ran
    intro start bytes rest middle earlier split
    exact received start bytes (rest++after) middle earlier (by simp [split])

-- The echo loop: it answers the first byte, and the second arrives while it
-- waits for the send to complete.
def echoTrace : List Event :=
  [.coReceive 0 10240,.uvRead (.data [97]),.coSend [97] 0,.uvRead (.data [98])]

theorem echo_loses_byte : ¬ IntactThroughout echoTrace := by
  intro intact
  have lost := intact echoTrace [] _ _ rfl rfl
  revert lost
  unfold Intact
  decide

end CoStream.AcceptConn
