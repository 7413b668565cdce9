import CoStream.AcceptConnReceive

namespace CoStream.AcceptConn
open Foundation

-- The receivers of a connection up to and behind the end of the stream: after
-- an error or EOF libuv reports nothing more.
structure Ending where
  receivers : Receivers := {}
  ended : Bool := false
deriving DecidableEq,Repr

namespace Ending

inductive Disabled where
  | ended
deriving DecidableEq,Repr

def endsWith : ReadEvent → Bool
  | .data _ => false
  | .failed _ => true

def step (s : Ending) : Receivers.Event → Except Disabled (Ending × List (Resumed Call))
  | .uvRead read =>
    if s.ended then .error .ended
    else
      let (conn,outputs) := onUvRead s.receivers.conn read
      .ok ({receivers:={s.receivers with conn},ended:=endsWith read},outputs)
  | .coReceive recvData recvSize =>
    let (conn,outputs) := AcceptConn.coReceive s.receivers.conn ⟨s.receivers.calls,recvData,recvSize⟩ recvData recvSize
    .ok ({s with receivers:={conn,calls:=s.receivers.calls+1}},outputs)

def machine : Machine Ending Receivers.Event (Resumed Call) Disabled := ⟨{},step⟩

-- Behind the end nobody waits for a read that will not come, and a call is
-- answered as it is made: with bytes that are left, or with an error.
def NoneWaits (s : Ending) : Prop := s.ended → s.receivers.conn.readAwaiters = []

def AtOnce (s : Ending) (event : Receivers.Event) : Prop :=
  ∀ recvData recvSize, event = .coReceive recvData recvSize → s.ended → ∃ next result bytes,
    step s event = .ok (next,[.received ⟨s.receivers.calls,recvData,recvSize⟩ result recvData bytes]) ∧
      (result.status = .error ∨
        s.receivers.conn.recvBuffer ≠ [] ∧ bytes = s.receivers.conn.recvBuffer.take recvSize ∧ result = ⟨.ok,bytes.length⟩)

def InTime (s : Ending) : Receivers.Event → Prop
  | .uvRead (.failed _) => s.receivers.conn.readAwaiters.length ≤ 1
  | .uvRead (.data _) => True
  | .coReceive _ _ => s.ended → s.receivers.conn.recvBuffer ≠ []

variable {read : ReadEvent} {event : Receivers.Event} {events : List Receivers.Event} {s next : Ending}
  {outputs emitted : List (Resumed Call)}

theorem read_ended (ended : s.ended = true) : step s (.uvRead read) = .error .ended := if_pos ended

theorem read_open (open_ : ¬ s.ended = true) (read : ReadEvent) : step s (.uvRead read) =
    .ok ({receivers:={s.receivers with conn:=(onUvRead s.receivers.conn read).1},ended:=endsWith read},
      (onUvRead s.receivers.conn read).2) := if_neg open_

theorem receive_waits (empty : s.receivers.conn.recvBuffer = []) : step s (.coReceive recvData recvSize) =
    .ok ({s with receivers:={
        conn := {s.receivers.conn with
          recvData := recvData
          recvSize := recvSize
          readAwaiters := s.receivers.conn.readAwaiters++[⟨s.receivers.calls,recvData,recvSize⟩]}
        calls := s.receivers.calls+1}},[]) := by
  rw [step,Receivers.coReceive_empty _ _ _ empty]

theorem receive_takes (filled : s.receivers.conn.recvBuffer ≠ []) : step s (.coReceive recvData recvSize) =
    .ok ({s with receivers:={
        conn := {s.receivers.conn with
          recvData := recvData
          recvSize := recvSize
          recvBuffer := s.receivers.conn.recvBuffer.drop recvSize}
        calls := s.receivers.calls+1}},
      [.received ⟨s.receivers.calls,recvData,recvSize⟩ ⟨.ok,(min s.receivers.conn.recvBuffer.length recvSize : Nat)⟩
        recvData (s.receivers.conn.recvBuffer.take recvSize)]) := by
  rw [step,Receivers.coReceive_filled _ _ _ filled]

theorem failed_awaiters (c : Conn Call) (code : Nat) :
    (onUvRead c (.failed code)).1.readAwaiters = c.readAwaiters.tail := by
  cases awaiters : c.readAwaiters with
  | nil => rw [Receivers.onUvRead_alone awaiters,awaiters,List.tail_nil]
  | cons first rest => rw [Receivers.onUvRead_failed awaiters,List.tail_cons]

theorem noneWaits_step (settled : NoneWaits s) (timely : InTime s event) (stepped : step s event = .ok (next,emitted)) :
    NoneWaits next := by
  cases event with
  | uvRead read =>
    by_cases ended : s.ended = true
    · rw [read_ended ended] at stepped
      cases stepped
    · rw [read_open ended] at stepped
      obtain ⟨rfl,rfl⟩ := ok_pair stepped
      cases read with
      | data bytes =>
        intro never
        cases never
      | failed code =>
        intro _
        change (onUvRead s.receivers.conn (.failed code)).1.readAwaiters = []
        rw [failed_awaiters]
        apply List.length_eq_zero_iff.mp
        rw [List.length_tail]
        simp only [InTime] at timely
        omega
  | coReceive recvData recvSize =>
    by_cases empty : s.receivers.conn.recvBuffer = []
    · rw [receive_waits empty] at stepped
      obtain ⟨rfl,rfl⟩ := ok_pair stepped
      exact fun ended => absurd empty (timely ended)
    · rw [receive_takes empty] at stepped
      obtain ⟨rfl,rfl⟩ := ok_pair stepped
      exact settled

theorem atOnce_step (timely : InTime s event) : AtOnce s event := by
  rintro recvData recvSize rfl ended
  refine ⟨_,_,_,receive_takes (timely ended),.inr ⟨timely ended,rfl,?_⟩⟩
  rw [List.length_take,Nat.min_comm]

-- Conversely, what waits behind the end was not in time.
theorem inTime_of_settled (stepped : step s event = .ok (next,emitted)) (settled : NoneWaits next) : InTime s event := by
  cases event with
  | uvRead read =>
    by_cases ended : s.ended = true
    · rw [read_ended ended] at stepped
      cases stepped
    · rw [read_open ended] at stepped
      obtain ⟨rfl,rfl⟩ := ok_pair stepped
      cases read with
      | data bytes => trivial
      | failed code =>
        have none : (onUvRead s.receivers.conn (.failed code)).1.readAwaiters = [] := settled rfl
        rw [failed_awaiters] at none
        have length := congrArg List.length none
        rw [List.length_tail,List.length_nil] at length
        simp only [InTime]
        omega
  | coReceive recvData recvSize =>
    intro ended empty
    rw [receive_waits empty] at stepped
    obtain ⟨rfl,rfl⟩ := ok_pair stepped
    have none := settled ended
    simp at none

theorem end_remembered_iff (events : List Receivers.Event) :
    machine.Throughout (fun _ _ => NoneWaits) events ∧ machine.Guarded (fun _ => AtOnce) events ↔
      machine.Guarded (fun _ => InTime) events := by
  constructor
  · rintro ⟨settled,-⟩ before event after shape s outputs ran
    cases stepped : machine.step s event with
    | ok done =>
      have extended := machine.runFrom_snoc.mpr ⟨s,outputs,done.2,ran,stepped,rfl⟩
      exact inTime_of_settled stepped (settled (before++[event]) after _ _ (by simp [shape]) extended)
    | error fault =>
      have waiting := settled before (event::after) s outputs shape ran
      cases event with
      | uvRead read =>
        by_cases ended : s.ended = true
        · cases read with
          | data bytes => trivial
          | failed code => simp [InTime,waiting ended]
        · cases (read_open ended read).symm.trans stepped
      | coReceive recvData recvSize => cases stepped
  · intro timely
    constructor
    · intro before after s outputs shape ran
      subst shape
      exact machine.guarded_history (fun _ => InTime) (fun _ _ s => NoneWaits s) (fun ended => absurd ended (by decide))
        (fun _ _ _ _ _ _ settled met stepped => noneWaits_step settled met stepped) before
        (Machine.Guarded.front machine timely) ran
    · intro before event after shape s outputs ran
      exact atOnce_step (timely before event after shape s outputs ran)

-- The peer closes while the coroutine is busy elsewhere, say in a send.
theorem busyAtEnd_forgotten :
    ¬ (machine.Throughout (fun _ _ => NoneWaits) [.uvRead (.failed 4094),.coReceive 0 10] ∧
      machine.Guarded (fun _ => AtOnce) [.uvRead (.failed 4094),.coReceive 0 10]) := by
  rintro ⟨settled,-⟩
  have none := settled _ [] _ _ (List.append_nil _).symm rfl
  exact absurd (none rfl) (by decide)

end Ending
end CoStream.AcceptConn
