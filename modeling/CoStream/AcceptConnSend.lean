import CoStream.AcceptConn

namespace CoStream.AcceptConn
open Foundation

-- The sending side of a connection, with the requests libuv has accepted and
-- not completed yet.
structure Outbox (π : Type) where
  conn : Conn π := {}
  requests : List (List UInt8) := []
deriving DecidableEq,Repr

namespace Outbox
variable {π : Type}

def submit (o : Outbox π) (promise : π) (data : List UInt8) (uvWrite : Int) : Outbox π × List (Resumed π) :=
  let (conn,outputs) := coSend o.conn promise uvWrite
  ({conn,requests:=if uvWrite = 0 then o.requests++[sendData data] else o.requests},outputs)

-- libuv calls back once for each request it accepted, in their order.
def complete (o : Outbox π) (status : Int) : Except Disabled (Outbox π × List (Resumed π)) :=
  match o.requests with
  | [] => .error .nothingSubmitted
  | request::requests =>
    let (conn,outputs) := onWrite o.conn request status
    .ok ({conn,requests},outputs)

-- The two queues hold the same sends: each promise with the data it was given.
def Holds (o : Outbox π) (pending : List (π × List UInt8)) : Prop :=
  o.conn.writeAwaiters = pending.map Prod.fst ∧ o.requests = pending.map fun send => sendData send.2

def sentCount (data : List UInt8) : Int := toInt (data.length % 2^32)

def sentResult (count : List UInt8 → Int) (data : List UInt8) (status : Int) : SendResult :=
  if status = 0 then ⟨.ok,count data⟩ else ⟨.error,-1⟩

variable {o : Outbox π} {pending : List (π × List UInt8)} {promise : π} {data : List UInt8} {uvWrite status : Int}

theorem submit_refused (o : Outbox π) (promise : π) (data : List UInt8) (refused : uvWrite ≠ 0) :
    o.submit promise data uvWrite = (o,[.sent promise ⟨.error,-1⟩]) := by
  simp [submit,coSend,refused]

theorem submit_accepted (holds : o.Holds pending) :
    (o.submit promise data 0).1.Holds (pending++[(promise,data)]) ∧ (o.submit promise data 0).2 = [] := by
  obtain ⟨awaiters,requests⟩ := holds
  refine ⟨⟨?_,?_⟩,rfl⟩
  · simp [submit,coSend,awaiters]
  · simp [submit,coSend,requests]

theorem handleSend_sendData (promise : π) (data : List UInt8) (status : Int) :
    handleSend promise status (sendData data).length = [.sent promise (sentResult sentCount data status)] := by
  have size : (sendData data).length = data.length % 2^32 := by
    rw [sendData,List.length_take,Nat.min_eq_left (Nat.mod_le _ _)]
  unfold handleSend sentResult sentCount
  split
  · rw [size,Int.natCast_emod]
    rfl
  · rfl

theorem sentCount_short (short : data.length < 2^31) : sentCount data = data.length := by
  have fits : FitsInt (data.length : Int) := ⟨by omega,by omega⟩
  rw [sentCount,Int.emod_eq_of_lt (by omega) (by omega),toInt_fits fits]

theorem complete_nothing (holds : o.Holds []) : o.complete status = .error .nothingSubmitted := by
  simp [complete,holds.2]

-- The promise at the head of one queue meets the request at the head of the
-- other one, so it is told about its own data.
theorem complete_first (holds : o.Holds ((promise,data)::pending)) (status : Int) :
    ∃ next, o.complete status = .ok (next,[.sent promise (sentResult sentCount data status)]) ∧
      next.Holds pending := by
  obtain ⟨awaiters,requests⟩ := holds
  refine ⟨{conn:={o.conn with writeAwaiters:=pending.map Prod.fst},requests:=pending.map fun send => sendData send.2},?_,rfl,rfl⟩
  simp [complete,requests,onWrite,awaiters,handleSend_sendData]

end Outbox

def Resumed.promise : Resumed π → π
  | .received promise _ _ _ => promise
  | .sent promise _ => promise

-- Any number of coroutines on one connection, each CoSend named by its number.
structure Senders where
  outbox : Outbox Nat := {}
  calls : Nat := 0
deriving DecidableEq,Repr

namespace Senders

inductive Event where
  | coSend (data : List UInt8) (uvWrite : Int)
  | uvWrite (status : Int)
deriving DecidableEq,Repr

-- OnWrite takes the awaiter off its queue before it resumes it, so what the
-- resumed coroutine sends is a later event.
def step (s : Senders) : Event → Except Disabled (Senders × List (Resumed Nat))
  | .coSend data uvWrite =>
    let (outbox,outputs) := s.outbox.submit s.calls data uvWrite
    .ok ({outbox,calls:=s.calls+1},outputs)
  | .uvWrite status => do
    let (outbox,outputs) ← s.outbox.complete status
    return ({s with outbox},outputs)

def machine : Machine Senders Event (Resumed Nat) Disabled := ⟨{},step⟩

def callCount : List Event → Nat
  | [] => 0
  | .coSend _ _::rest => callCount rest+1
  | .uvWrite _::rest => callCount rest

def completionCount : List Event → Nat
  | [] => 0
  | .coSend _ _::rest => completionCount rest
  | .uvWrite _::rest => completionCount rest+1

-- The accepted calls in their order, counted from the number of the first call.
def accepted : Nat → List Event → List (Nat × List UInt8)
  | _,[] => []
  | n,.coSend data uvWrite::rest => if uvWrite = 0 then (n,data)::accepted (n+1) rest else accepted (n+1) rest
  | n,.uvWrite _::rest => accepted n rest

@[simp] theorem callCount_append : callCount (first++second) = callCount first+callCount second := by
  induction first with
  | nil => simp [callCount]
  | cons event rest ih =>
    cases event with
    | coSend data uvWrite => simp only [List.cons_append,callCount,ih,Nat.add_right_comm]
    | uvWrite status => simp only [List.cons_append,callCount,ih]

@[simp] theorem completionCount_append : completionCount (first++second) = completionCount first+completionCount second := by
  induction first with
  | nil => simp [completionCount]
  | cons event rest ih =>
    cases event with
    | coSend data uvWrite => simp only [List.cons_append,completionCount,ih]
    | uvWrite status => simp only [List.cons_append,completionCount,ih,Nat.add_right_comm]

theorem accepted_append (n : Nat) : accepted n (first++second) = accepted n first++accepted (n+callCount first) second := by
  induction first generalizing n with
  | nil => simp [accepted,callCount]
  | cons event rest ih =>
    cases event with
    | coSend data uvWrite =>
      simp only [List.cons_append,accepted,callCount,ih,Nat.add_assoc,Nat.add_comm 1]
      split <;> simp
    | uvWrite status => simp only [List.cons_append,accepted,callCount,ih]

-- The calls that wait after these events, if each completion has answered the
-- first of them.
def pending (events : List Event) : List (Nat × List UInt8) := (accepted 0 events).drop (completionCount events)

-- Refused calls and completed ones are answered at once, the i-th completion
-- answering the i-th accepted call.
structure Answers (count : List UInt8 → Int) (events : List Event) (s : Senders) : Prop where
  refused : ∀ data uvWrite, uvWrite ≠ 0 →
    ∃ next, step s (.coSend data uvWrite) = .ok (next,[.sent (callCount events) ⟨.error,-1⟩])
  waiting : ∀ data, ∃ next, step s (.coSend data 0) = .ok (next,[])
  completed : ∀ status promise data, (accepted 0 events)[completionCount events]? = some (promise,data) →
    ∃ next, step s (.uvWrite status) = .ok (next,[.sent promise (Outbox.sentResult count data status)])
  nothing : ∀ status, (accepted 0 events)[completionCount events]? = none →
    step s (.uvWrite status) = .error .nothingSubmitted

def Matched (count : List UInt8 → Int) : Prop :=
  ∀ events s outputs, machine.run events = .ok (s,outputs) →
    (outputs.map Resumed.promise).Nodup ∧ Answers count events s

-- A call has been resumed or waits, never both, and none is forgotten.
structure Aligned (events : List Event) (outputs : List (Resumed Nat)) (s : Senders) : Prop where
  calls : s.calls = callCount events
  waits : s.outbox.Holds (pending events)
  once : (outputs.map Resumed.promise++(pending events).map Prod.fst).Perm (List.range (callCount events))
  within : completionCount events ≤ (accepted 0 events).length

theorem callCount_coSend : callCount (events++[.coSend data uvWrite]) = callCount events+1 := by simp [callCount]
theorem callCount_uvWrite : callCount (events++[.uvWrite status]) = callCount events := by simp [callCount]

theorem accepted_refused (refused : uvWrite ≠ 0) :
    accepted 0 (events++[.coSend data uvWrite]) = accepted 0 events := by
  simp [accepted_append,accepted,refused]
theorem accepted_coSend : accepted 0 (events++[.coSend data 0]) = accepted 0 events++[(callCount events,data)] := by
  simp [accepted_append,accepted]
theorem accepted_uvWrite : accepted 0 (events++[.uvWrite status]) = accepted 0 events := by
  simp [accepted_append,accepted]

theorem pending_refused (refused : uvWrite ≠ 0) : pending (events++[.coSend data uvWrite]) = pending events := by
  simp [pending,accepted_refused refused,completionCount]
theorem pending_coSend (within : completionCount events ≤ (accepted 0 events).length) :
    pending (events++[.coSend data 0]) = pending events++[(callCount events,data)] := by
  simp [pending,accepted_coSend,completionCount,List.drop_append_of_le_length within]
theorem pending_uvWrite : pending (events++[.uvWrite status]) = (pending events).drop 1 := by
  simp [pending,accepted_uvWrite,completionCount]

theorem aligned_refused (aligned : Aligned events outputs s) (refused : uvWrite ≠ 0) (data : List UInt8) :
    Aligned (events++[.coSend data uvWrite]) (outputs++[.sent s.calls ⟨.error,-1⟩]) {s with calls:=s.calls+1} := by
  obtain ⟨calls,waits,once,within⟩ := aligned
  constructor
  · rw [callCount_coSend,← calls]
  · rw [pending_refused refused]
    exact waits
  · rw [pending_refused refused,callCount_coSend,List.range_succ,List.map_append,List.append_assoc]
    apply List.Perm.trans ?_ (once.append_right _)
    rw [List.append_assoc,← calls]
    exact List.perm_append_comm.append_left _
  · rw [accepted_refused refused]
    simpa [completionCount] using within

theorem aligned_accepted (aligned : Aligned events outputs s) (data : List UInt8) :
    Aligned (events++[.coSend data 0]) outputs {outbox:=(s.outbox.submit s.calls data 0).1,calls:=s.calls+1} := by
  obtain ⟨calls,waits,once,within⟩ := aligned
  constructor
  · rw [callCount_coSend,← calls]
  · rw [pending_coSend within,← calls]
    exact (Outbox.submit_accepted waits).1
  · rw [pending_coSend within,callCount_coSend,List.range_succ,List.map_append,← List.append_assoc]
    exact once.append_right _
  · rw [accepted_coSend]
    simp only [completionCount_append,completionCount,List.length_append,List.length_singleton]
    omega

theorem aligned_completed (aligned : Aligned events outputs s) (front : pending events = (promise,data)::rest)
    (waits : o.Holds rest) :
    Aligned (events++[.uvWrite status]) (outputs++[.sent promise result]) {s with outbox:=o} := by
  have fewer : pending (events++[.uvWrite status]) = rest := by rw [pending_uvWrite,front,List.drop_one,List.tail_cons]
  constructor
  · rw [callCount_uvWrite]
    exact aligned.calls
  · rw [fewer]
    exact waits
  · have once := aligned.once
    rw [front] at once
    rw [fewer,callCount_uvWrite,List.map_append,List.append_assoc]
    exact once
  · have some : 0 < (pending events).length := by simp [front]
    rw [accepted_uvWrite]
    simp only [pending,List.length_drop,completionCount_append,completionCount] at some ⊢
    omega

theorem aligned_step (aligned : Aligned events outputs s) (stepped : step s event = .ok (next,emitted)) :
    Aligned (events++[event]) (outputs++emitted) next := by
  cases event with
  | coSend data uvWrite =>
    simp only [step,Except.ok.injEq,Prod.mk.injEq] at stepped
    obtain ⟨rfl,rfl⟩ := stepped
    by_cases taken : uvWrite = 0
    · subst taken
      rw [(Outbox.submit_accepted aligned.waits).2,List.append_nil]
      exact aligned_accepted aligned data
    · rw [Outbox.submit_refused _ _ _ taken]
      exact aligned_refused aligned taken data
  | uvWrite status =>
    obtain ⟨⟨outbox,outputs⟩,completed,shape⟩ := bind_ok.mp stepped
    cases shape
    cases front : pending events with
    | nil =>
      have waits := aligned.waits
      rw [front] at waits
      rw [Outbox.complete_nothing waits] at completed
      cases completed
    | cons send rest =>
      have waits := aligned.waits
      rw [front] at waits
      obtain ⟨after,answered,holds⟩ := Outbox.complete_first waits status
      cases completed.symm.trans answered
      exact aligned_completed aligned front holds

theorem run_aligned (ran : machine.run events = .ok (s,outputs)) : Aligned events outputs s := by
  apply machine.history Aligned ?_ ?_ ran
  · exact ⟨rfl,⟨rfl,rfl⟩,List.Perm.refl _,Nat.le_refl _⟩
  · intro events outputs s event next emitted aligned stepped
    exact aligned_step aligned stepped

theorem pending_cons (first : (accepted 0 events)[completionCount events]? = some send) :
    pending events = send::(pending events).drop 1 := by
  obtain ⟨inside,equal⟩ := List.getElem?_eq_some_iff.mp first
  rw [pending,List.drop_eq_getElem_cons inside,equal,List.drop_one,List.tail_cons]

theorem aligned_answers (aligned : Aligned events outputs s) : Answers Outbox.sentCount events s := by
  have waits := aligned.waits
  constructor
  · intro data uvWrite refused
    rw [← aligned.calls,step,Outbox.submit_refused _ _ _ refused]
    exact ⟨_,rfl⟩
  · intro data
    exact ⟨_,rfl⟩
  · intro status promise data first
    rw [pending_cons first] at waits
    obtain ⟨next,answered,-⟩ := Outbox.complete_first waits status
    exact ⟨_,bind_ok.mpr ⟨_,answered,rfl⟩⟩
  · intro status none
    have empty : pending events = [] := List.drop_eq_nil_of_le (List.getElem?_eq_none_iff.mp none)
    rw [empty] at waits
    rw [step,Outbox.complete_nothing waits,error_bind]

-- A completion reports the length as uv_buf_init and SendResult keep it, which
-- is the caller's own length as long as it is below 2^31.
theorem sends_matched : Matched Outbox.sentCount ∧
    ∀ data : List UInt8, data.length < 2^31 → Outbox.sentCount data = data.length := by
  refine ⟨?_,fun data short => Outbox.sentCount_short short⟩
  intro events s outputs ran
  have aligned := run_aligned ran
  refine ⟨?_,aligned_answers aligned⟩
  have distinct := (aligned.once.nodup_iff).mpr List.nodup_range
  exact (List.nodup_append.mp distinct).1

theorem huge_mismatched : ¬ Matched (fun data => data.length) := by
  intro matched
  have first : machine.run [.coSend (List.replicate (2^31) 0) 0] =
      .ok ({outbox:=(Outbox.submit {} 0 (List.replicate (2^31) 0) 0).1,calls:=1},[]) := rfl
  have answers := (matched _ _ _ first).2
  obtain ⟨claimed,said⟩ := answers.completed 0 0 (List.replicate (2^31) 0) rfl
  obtain ⟨actual,did⟩ := (aligned_answers (run_aligned first)).completed 0 0 (List.replicate (2^31) 0) rfl
  have same := did.symm.trans said
  simp only [Outbox.sentResult,Except.ok.injEq,Prod.mk.injEq,List.cons.injEq,Resumed.sent.injEq,if_true,
    SendResult.mk.injEq,Outbox.sentCount,List.length_replicate] at same
  exact absurd same.2.1.2.2 (by decide)

end Senders
end CoStream.AcceptConn
