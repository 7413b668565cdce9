import CoStream.TcpCoConnStream

namespace CoStream.TcpCoConn
open Foundation
open AcceptConn (SendResult Resumed Phase sendData)

-- What the sends of a history owe, read off the events alone: a refused one and
-- a failed one an error, a completed one its byte count. Calls are numbered as
-- the session numbers them.
structure Ledger where
  calls : Nat := 0
  waiting : Option (Nat × List UInt8) := none
  told : List (Nat × SendResult) := []
deriving DecidableEq,Repr

def sendOutcome (data : List UInt8) (status : Int) : SendResult :=
  if status = 0 then ⟨.ok,data.length⟩ else ⟨.error,-1⟩

def Ledger.note (l : Ledger) : Event → Ledger
  | .uvRead _ => l
  | .coReceive _ _ _ => {l with calls:=l.calls+1}
  | .coSend data uvWrite =>
    if uvWrite = 0 then {l with calls:=l.calls+1,waiting:=some (l.calls,data)}
    else {l with calls:=l.calls+1,told:=l.told++[(l.calls,⟨.error,-1⟩)]}
  | .uvWrite status =>
    match l.waiting with
    | none => l
    | some (call,data) => {l with waiting:=none,told:=l.told++[(call,sendOutcome data status)]}

def ledger (events : List Event) : Ledger := events.foldl Ledger.note {}

def sends (outputs : List (Resumed Nat)) : List (Nat × SendResult) :=
  outputs.filterMap fun
    | .sent call result => some (call,result)
    | .received _ _ _ _ => none

-- Every send that is owed an answer has been resumed with it, and once.
structure ComesBack (events : List Event) (outputs : List (Resumed Nat)) (s : Session) : Prop where
  told : sends outputs = (ledger events).told
  once : ((sends outputs).map Prod.fst).Pairwise (· < ·)

-- The request that completes has succeeded and has a length that `int` shows.
def Completes (s : Session) (event : Event) : Prop :=
  ∀ status, event = .uvWrite status → s.request ≠ none →
    status = 0 ∧ 0 < s.conn.sendBuffer.length ∧ s.conn.sendBuffer.length < 2^31

variable {read : AcceptConn.ReadEvent} {events : List Event} {event : Event} {outputs sent : List (Resumed Nat)}
  {s following : Session}

@[simp] theorem ledger_snoc : ledger (events++[event]) = (ledger events).note event := by
  simp [ledger]
@[simp] theorem sends_append : sends (first++second) = sends first++sends second := by
  simp [sends]

-- The session and the ledger have the same send open, and it is the last one
-- that was numbered.
structure Booked (events : List Event) (s : Session) : Prop where
  linked : Linked s
  calls : s.calls = (ledger events).calls
  idle : s.request = none → (ledger events).waiting = none
  waiting : ∀ request, s.request = some request → ∃ call, request = sendData s.conn.sendBuffer ∧
    s.conn.sendAwaiterCallback = some call ∧ (ledger events).waiting = some (call,s.conn.sendBuffer)
  numbered : ((ledger events).told.map Prod.fst++((ledger events).waiting.map Prod.fst).toList).Pairwise (· < ·)
  below : ∀ call ∈ (ledger events).told.map Prod.fst++((ledger events).waiting.map Prod.fst).toList,
    call < (ledger events).calls

theorem sendData_length (data : List UInt8) : (sendData data).length = data.length % 2^32 := by
  rw [sendData,List.length_take,Nat.min_eq_left (Nat.mod_le _ _)]

-- The client tells the coroutine what is owed in exactly these cases.
theorem outcome_iff (call : Nat) (data : List UInt8) (status : Int) :
    (if status = 0 then onAwaiterSend call (toInt (sendData data).length) else []) =
        [.sent call (sendOutcome data status)] ↔
      status = 0 ∧ 0 < data.length ∧ data.length < 2^31 := by
  have range := toInt_range (sendData data).length
  constructor
  · intro same
    by_cases done : status = 0
    · rw [if_pos done] at same
      simp only [sendOutcome,if_pos done,onAwaiterSend] at same
      split at same
      · rename_i positive
        have count : toInt (sendData data).length = data.length := by simpa using same
        rw [count] at range positive
        exact ⟨done,by omega,by have := range.2; omega⟩
      · simp at same
    · simp [done] at same
  · rintro ⟨done,some,short⟩
    have length : (sendData data).length = data.length := by
      rw [sendData_length,Nat.mod_eq_of_lt (by omega)]
    have count : toInt (data.length : Int) = data.length := toInt_fits (by constructor <;> omega)
    have positive : (data.length : Int) > 0 := by omega
    rw [if_pos done,length,count]
    simp only [onAwaiterSend,if_pos positive,sendOutcome,if_pos done]

-- A read leaves the sending side alone, and a receive only counts.
theorem read_frame (stepped : Stepped s (.uvRead read) following sent) :
    following.request = s.request ∧ following.calls = s.calls ∧ following.conn.sendBuffer = s.conn.sendBuffer ∧
      following.conn.sendAwaiterCallback = s.conn.sendAwaiterCallback ∧ sends sent = [] := by
  cases stepped with
  | awaited _ _ _ ran =>
    obtain ⟨count,result,rfl,rfl,-⟩ := awaiterRecv_exact ran
    exact ⟨rfl,rfl,rfl,rfl,rfl⟩

theorem receive_frame (stepped : Stepped s (.coReceive recvData recvSize uvReadStart) following sent) :
    s.phase = .running ∧ following.request = s.request ∧ following.calls = s.calls+1 ∧ sends sent = [] := by
  cases stepped with
  | waits running => exact ⟨running,rfl,rfl,rfl⟩
  | takes running ran =>
    obtain ⟨count,result,rfl,rfl,-⟩ := awaiterRecv_exact ran
    exact ⟨running,rfl,rfl,rfl⟩

theorem initial_booked : Booked [] {} := by
  refine ⟨initial_linked,rfl,fun _ => rfl,?_,List.Pairwise.nil,?_⟩
  · intro request never
    cases never
  · exact fun call never => absurd never List.not_mem_nil

theorem booked_read (booked : Booked events s) (stepped : Stepped s (.uvRead read) following sent) :
    Booked (events++[.uvRead read]) following := by
  obtain ⟨request,calls,buffer,callback,-⟩ := read_frame stepped
  refine ⟨step_linked booked.linked stepped,?_,?_,?_,?_,?_⟩
  all_goals rw [ledger_snoc]
  · exact calls.trans booked.calls
  · rw [request]
    exact booked.idle
  · rw [request,buffer,callback]
    exact booked.waiting
  · exact booked.numbered
  · exact booked.below

theorem booked_receive (booked : Booked events s)
    (stepped : Stepped s (.coReceive recvData recvSize uvReadStart) following sent) :
    Booked (events++[.coReceive recvData recvSize uvReadStart]) following := by
  obtain ⟨running,request,calls,-⟩ := receive_frame stepped
  have quiet := quiet_unless_sending booked.linked (by simp [running])
  refine ⟨step_linked booked.linked stepped,?_,?_,?_,?_,?_⟩
  all_goals rw [ledger_snoc]
  · rw [calls,booked.calls]
    rfl
  · exact fun _ => booked.idle quiet
  · rw [request,quiet]
    intro other never
    cases never
  · exact booked.numbered
  · exact fun call member => Nat.lt_succ_of_lt (booked.below call member)

-- The next number stands behind those that are told and none is open.
theorem numbered_next (booked : Booked events s) (quiet : s.request = none) :
    (ledger events).waiting = none ∧ ((ledger events).told.map Prod.fst++[(ledger events).calls]).Pairwise (· < ·) ∧
      ∀ call ∈ (ledger events).told.map Prod.fst++[(ledger events).calls], call < (ledger events).calls+1 := by
  have idle := booked.idle quiet
  have numbered := booked.numbered
  have below := booked.below
  rw [idle] at numbered below
  simp only [Option.map_none,Option.toList_none,List.append_nil] at numbered below
  refine ⟨idle,List.pairwise_append.mpr ⟨numbered,List.pairwise_singleton _ _,?_⟩,?_⟩
  · intro call member last same
    rw [List.mem_singleton.mp same]
    exact below call member
  · intro call member
    rcases List.mem_append.mp member with earlier | now
    · exact Nat.lt_succ_of_lt (below call earlier)
    · rw [List.mem_singleton.mp now]
      exact Nat.lt_succ_self _

theorem booked_send (booked : Booked events s) (stepped : Stepped s (.coSend data uvWrite) following sent) :
    Booked (events++[.coSend data uvWrite]) following := by
  have linked := step_linked booked.linked stepped
  cases stepped with
  | accepted running =>
    have quiet := quiet_unless_sending booked.linked (by simp [running])
    obtain ⟨-,longer,bounded⟩ := numbered_next booked quiet
    refine ⟨linked,?_,?_,?_,?_,?_⟩
    all_goals rw [ledger_snoc]
    · exact congrArg (· + 1) booked.calls
    · intro never
      cases never
    · intro request same
      cases same
      exact ⟨s.calls,rfl,rfl,by simp [Ledger.note,booked.calls,submitted]⟩
    · exact longer
    · exact bounded
  | refused running _ refused =>
    have quiet := quiet_unless_sending booked.linked (by simp [running])
    obtain ⟨idle,longer,bounded⟩ := numbered_next booked quiet
    have noted : (ledger events).note (.coSend data uvWrite) =
        {ledger events with calls:=(ledger events).calls+1,told:=(ledger events).told++[((ledger events).calls,⟨.error,-1⟩)]} :=
      if_neg refused
    refine ⟨linked,?_,?_,?_,?_,?_⟩
    all_goals rw [ledger_snoc,noted]
    · exact congrArg (· + 1) booked.calls
    · exact fun _ => idle
    · intro request same
      cases quiet.symm.trans same
    · simpa [idle] using longer
    · simpa [idle] using bounded

theorem write_defined (linked : Linked s) (pending : s.request ≠ none) (status : Int) :
    ∃ done, step s (.uvWrite status) = .ok done := by
  obtain ⟨request,waiting⟩ := Option.ne_none_iff_exists'.mp pending
  obtain ⟨sending,call,callback⟩ := linked.sending pending
  by_cases ok : status = 0
  · subst ok
    exact ⟨_,write_done waiting callback⟩
  · exact ⟨_,write_failed waiting ok⟩

theorem note_write (opened : (ledger events).waiting = some (call,data)) (status : Int) :
    ledger (events++[.uvWrite status]) =
      {ledger events with waiting:=none,told:=(ledger events).told++[(call,sendOutcome data status)]} := by
  rw [ledger_snoc]
  simp only [Ledger.note,opened]

theorem booked_closed (booked : Booked events s) (opened : (ledger events).waiting = some (call,data)) (status : Int)
    (linked : Linked {s with request:=none,phase}) : Booked (events++[.uvWrite status]) {s with request:=none,phase} := by
  have numbered := booked.numbered
  have below := booked.below
  rw [opened] at numbered below
  refine ⟨linked,?_,?_,?_,?_,?_⟩
  all_goals rw [note_write opened]
  · exact booked.calls
  · exact fun _ => rfl
  · intro request never
    cases never
  · simpa using numbered
  · simpa using below

theorem booked_write (booked : Booked events s) (stepped : Stepped s (.uvWrite status) following sent) :
    Booked (events++[.uvWrite status]) following ∧ ∃ call, s.request ≠ none ∧
      sent = (if status = 0 then onAwaiterSend call (toInt (sendData s.conn.sendBuffer).length) else []) ∧
      (ledger (events++[.uvWrite status])).told =
        (ledger events).told++[(call,sendOutcome s.conn.sendBuffer status)] := by
  have linked := step_linked booked.linked stepped
  cases stepped with
  | completed pending _ callback =>
    obtain ⟨call,rfl,same,opened⟩ := booked.waiting _ pending
    cases callback.symm.trans same
    exact ⟨booked_closed booked opened 0 linked,_,by simp [pending],(if_pos rfl).symm,by rw [note_write opened]⟩
  | failed pending _ failed =>
    obtain ⟨call,rfl,-,opened⟩ := booked.waiting _ pending
    exact ⟨booked_closed booked opened status linked,call,by simp [pending],(if_neg failed).symm,by rw [note_write opened]⟩

theorem booked_step (booked : Booked events s) (stepped : Stepped s event following sent) :
    Booked (events++[event]) following := by
  cases event with
  | uvRead read => exact booked_read booked stepped
  | coReceive recvData recvSize uvReadStart => exact booked_receive booked stepped
  | coSend data uvWrite => exact booked_send booked stepped
  | uvWrite status => exact (booked_write booked stepped).1

-- What a step tells the coroutine is what the ledger notes, a completion apart.
theorem step_tells (booked : Booked events s) (stepped : Stepped s event following sent)
    (other : ∀ status, event ≠ .uvWrite status) :
    (ledger (events++[event])).told = (ledger events).told++sends sent := by
  rw [ledger_snoc]
  cases event with
  | uvRead read =>
    rw [(read_frame stepped).2.2.2.2]
    simp [Ledger.note]
  | coReceive recvData recvSize uvReadStart =>
    rw [(receive_frame stepped).2.2.2]
    simp [Ledger.note]
  | coSend data uvWrite =>
    cases stepped with
    | accepted => simp [Ledger.note,sends]
    | refused _ _ refused => simp [Ledger.note,refused,sends,booked.calls]
  | uvWrite status => exact absurd rfl (other status)

theorem sends_completion (call : Nat) (sentLen status : Int) :
    sends (if status = 0 then onAwaiterSend call sentLen else []) = [(call,result)] ↔
      (if status = 0 then onAwaiterSend call sentLen else []) = [.sent call result] := by
  unfold onAwaiterSend
  split
  · split <;> simp [sends]
  · simp [sends]

theorem comesBack_iff (events : List Event) :
    machine.Throughout ComesBack events ↔ machine.Guarded (fun _ => Completes) events := by
  apply machine.throughout_iff (fun _ => True) (fun _ => Completes)
    (fun events outputs s => Booked events s ∧ sends outputs = (ledger events).told) ComesBack
  · exact fun _ _ _ => trivial
  · exact ⟨initial_booked,rfl⟩
  · rintro events outputs s event following sent _ ⟨booked,told⟩ completes stepped
    have ran := step_exact booked.linked stepped
    refine ⟨booked_step booked ran,?_⟩
    rw [sends_append,told]
    cases event with
    | uvWrite status =>
      obtain ⟨-,call,pending,shape,noted⟩ := booked_write booked ran
      rw [noted,shape,List.append_cancel_left_eq]
      exact (sends_completion call _ status).mpr ((outcome_iff call _ status).mpr (completes status rfl pending))
    | uvRead read => exact (step_tells booked ran (by simp)).symm
    | coReceive recvData recvSize uvReadStart => exact (step_tells booked ran (by simp)).symm
    | coSend data uvWrite => exact (step_tells booked ran (by simp)).symm
  · rintro events outputs s ⟨booked,told⟩
    refine ⟨told,?_⟩
    rw [told]
    exact (List.pairwise_append.mp booked.numbered).1
  · rintro events outputs s event following sent _ ⟨booked,told⟩ stepped back
    rintro status rfl pending
    obtain ⟨-,call,-,shape,noted⟩ := booked_write booked (step_exact booked.linked stepped)
    have same := back.told
    rw [sends_append,told,noted,List.append_cancel_left_eq,shape] at same
    exact (outcome_iff call _ status).mp ((sends_completion call _ status).mp same)
  · rintro events outputs s event fault _ ⟨booked,-⟩ failed
    rintro status rfl pending
    obtain ⟨done,ran⟩ := write_defined booked.linked pending status
    cases ran.symm.trans failed
  · trivial

-- A peer that has gone: the write fails, and the coroutine is not told.
theorem broken_neverBack : ¬ machine.Throughout ComesBack [.coSend [97] 0,.uvWrite (-32)] := by
  intro back
  have told := (back _ [] _ _ (List.append_nil _).symm rfl).told
  exact absurd told (by decide)

end CoStream.TcpCoConn
