import CoStream.AcceptConn

namespace CoStream.AcceptConn
open Foundation

-- One CoReceive: its place among all calls, and the buffer and size it passed.
structure Call where
  number : Nat
  recvData : Nat
  recvSize : Nat
deriving DecidableEq,Repr

-- Any number of coroutines that receive on one connection.
structure Receivers where
  conn : Conn Call := {}
  calls : Nat := 0
deriving DecidableEq,Repr

namespace Receivers

inductive Event where
  | coReceive (recvData recvSize : Nat)
  | uvRead (read : ReadEvent)
deriving DecidableEq,Repr

def step (s : Receivers) : Event → Except Empty (Receivers × List (Resumed Call))
  | .coReceive recvData recvSize =>
    let (conn,outputs) := AcceptConn.coReceive s.conn ⟨s.calls,recvData,recvSize⟩ recvData recvSize
    .ok ({conn,calls:=s.calls+1},outputs)
  | .uvRead read =>
    let (conn,outputs) := onUvRead s.conn read
    .ok ({s with conn},outputs)

def machine : Machine Receivers Event (Resumed Call) Empty := ⟨{},step⟩

def served : Resumed Call → Nat
  | .received call _ _ _ => call.number
  | .sent call _ => call.number

-- What a call was given stands in the call's own buffer, and fits it.
def InOwnBuffer : Resumed Call → Prop
  | .received call _ recvData bytes => (bytes ≠ [] → recvData = call.recvData) ∧ bytes.length ≤ call.recvSize
  | .sent _ _ => True

structure Orderly (outputs : List (Resumed Call)) (s : Receivers) : Prop where
  own : ∀ output ∈ outputs, InOwnBuffer output
  inOrder : (outputs.map served).Pairwise (· < ·)
  drained : s.conn.readAwaiters = [] ∨ s.conn.recvBuffer = []

-- The connection keeps the buffer and size of the latest call only. A read that
-- finds calls waiting has to suit the first of them with these.
def Suits (s : Receivers) : Event → Prop
  | .uvRead (.data bytes) =>
    match s.conn.readAwaiters with
    | [] => True
    | first::rest => bytes ≠ [] →
      (s.conn.recvSize ≠ 0 → s.conn.recvData = first.recvData) ∧
      min bytes.length s.conn.recvSize ≤ first.recvSize ∧ (rest = [] ∨ bytes.length ≤ s.conn.recvSize)
  | _ => True

variable {π : Type} {c : Conn π} {s next : Receivers} {outputs emitted : List (Resumed Call)} {events : List Event}

theorem handleReceive_all (promise : π) (filled : c.recvBuffer ≠ []) :
    handleReceive c promise c.recvBuffer.length = ({c with recvBuffer:=c.recvBuffer.drop c.recvSize},
      [.received promise ⟨.ok,(min c.recvBuffer.length c.recvSize : Nat)⟩ c.recvData (c.recvBuffer.take c.recvSize)]) := by
  have long := List.length_pos_iff.mpr filled
  unfold handleReceive
  rw [if_neg (by omega)]
  split
  · rw [Nat.min_eq_right (by omega)]
  · have short : c.recvBuffer.length ≤ c.recvSize := by omega
    simp [Nat.min_eq_left short,List.drop_eq_nil_of_le short,List.take_of_length_le short]

theorem coReceive_filled (promise : π) (recvData recvSize : Nat) (filled : c.recvBuffer ≠ []) :
    coReceive c promise recvData recvSize = ({c with recvData,recvSize,recvBuffer:=c.recvBuffer.drop recvSize},
      [.received promise ⟨.ok,(min c.recvBuffer.length recvSize : Nat)⟩ recvData (c.recvBuffer.take recvSize)]) := by
  have long := List.length_pos_iff.mpr filled
  simp only [coReceive,gt_iff_lt,if_pos long]
  exact handleReceive_all (c := {c with recvData,recvSize}) promise filled

theorem coReceive_empty (promise : π) (recvData recvSize : Nat) (empty : c.recvBuffer = []) :
    coReceive c promise recvData recvSize = ({c with recvData,recvSize,readAwaiters:=c.readAwaiters++[promise]},[]) := by
  simp [coReceive,empty]

theorem onUvRead_alone (alone : c.readAwaiters = []) (read : ReadEvent) : onUvRead c read = (c,[]) := by
  simp [onUvRead,onReceive,alone]

theorem onUvRead_failed (awaiters : c.readAwaiters = promise::rest) (code : Nat) :
    onUvRead c (.failed code) = ({c with readAwaiters:=rest},[.received promise ⟨.error,0⟩ c.recvData []]) := by
  have spoke : (ReadEvent.failed code).nread ≠ 0 := by simp only [ReadEvent.nread]; omega
  have negative : (ReadEvent.failed code).nread ≤ 0 := by simp only [ReadEvent.nread]; omega
  have quiet : ¬ (ReadEvent.failed code).nread > 0 := by omega
  simp [onUvRead,onReceive,awaiters,spoke,handleReceive,negative,if_neg quiet]

theorem onUvRead_data (awaiters : c.readAwaiters = promise::rest) (empty : c.recvBuffer = []) (some : bytes ≠ []) :
    onUvRead c (.data bytes) = ({c with recvBuffer:=bytes.drop c.recvSize,readAwaiters:=rest},
      [.received promise ⟨.ok,(min bytes.length c.recvSize : Nat)⟩ c.recvData (bytes.take c.recvSize)]) := by
  have positive := List.length_pos_iff.mpr some
  have spoke : (ReadEvent.data bytes).nread ≠ 0 := by simp only [ReadEvent.nread]; omega
  have carries : (ReadEvent.data bytes).nread > 0 := by simp only [ReadEvent.nread]; omega
  simp only [onUvRead,onReceive,awaiters,if_neg spoke,if_pos carries,empty,List.nil_append]
  exact handleReceive_all (c := {c with recvBuffer:=bytes,readAwaiters:=rest}) promise some

-- All an event can do as long as no call waits beside a filled buffer.
inductive Stepped (s : Receivers) : Event → Receivers → List (Resumed Call) → Prop where
  | waits (empty : s.conn.recvBuffer = []) : Stepped s (.coReceive recvData recvSize)
      ⟨{s.conn with
          recvData
          recvSize
          readAwaiters := s.conn.readAwaiters++[⟨s.calls,recvData,recvSize⟩]},s.calls+1⟩ []
  | takes (filled : s.conn.recvBuffer ≠ []) (alone : s.conn.readAwaiters = []) :
      Stepped s (.coReceive recvData recvSize)
        ⟨{s.conn with
            recvData
            recvSize
            recvBuffer := s.conn.recvBuffer.drop recvSize},s.calls+1⟩
        [.received ⟨s.calls,recvData,recvSize⟩ ⟨.ok,(min s.conn.recvBuffer.length recvSize : Nat)⟩ recvData
          (s.conn.recvBuffer.take recvSize)]
  | alone (read : ReadEvent) (alone : s.conn.readAwaiters = []) : Stepped s (.uvRead read) s []
  | nothing : Stepped s (.uvRead (.data [])) s []
  | failed (awaiters : s.conn.readAwaiters = first::rest) : Stepped s (.uvRead (.failed code))
      {s with conn:={s.conn with readAwaiters:=rest}} [.received first ⟨.error,0⟩ s.conn.recvData []]
  | serves (awaiters : s.conn.readAwaiters = first::rest) (empty : s.conn.recvBuffer = []) (some : bytes ≠ []) :
      Stepped s (.uvRead (.data bytes))
        {s with conn:={s.conn with
            recvBuffer := bytes.drop s.conn.recvSize
            readAwaiters := rest}}
        [.received first ⟨.ok,(min bytes.length s.conn.recvSize : Nat)⟩ s.conn.recvData (bytes.take s.conn.recvSize)]

theorem step_exact (drained : s.conn.readAwaiters = [] ∨ s.conn.recvBuffer = []) (event : Event) :
    ∃ next emitted, step s event = .ok (next,emitted) ∧ Stepped s event next emitted := by
  cases event with
  | coReceive recvData recvSize =>
    by_cases empty : s.conn.recvBuffer = []
    · refine ⟨_,_,?_,.waits empty⟩
      rw [step,coReceive_empty _ _ _ empty]
    · refine ⟨_,_,?_,.takes empty (drained.resolve_right empty)⟩
      rw [step,coReceive_filled _ _ _ empty]
  | uvRead read =>
    cases awaiters : s.conn.readAwaiters with
    | nil =>
      refine ⟨_,_,?_,.alone read awaiters⟩
      rw [step,onUvRead_alone awaiters]
    | cons first rest =>
      cases read with
      | failed code =>
        refine ⟨_,_,?_,.failed awaiters⟩
        rw [step,onUvRead_failed awaiters]
      | data bytes =>
        have empty := drained.resolve_left (by simp [awaiters])
        by_cases some : bytes = []
        · subst some
          exact ⟨_,_,rfl,.nothing⟩
        · refine ⟨_,_,?_,.serves awaiters empty some⟩
          rw [step,onUvRead_data awaiters empty some]

-- Each call has been served or waits, in the order of the calls.
structure Serving (outputs : List (Resumed Call)) (s : Receivers) : Prop where
  own : ∀ output ∈ outputs, InOwnBuffer output
  drained : s.conn.readAwaiters = [] ∨ s.conn.recvBuffer = []
  queued : outputs.map served++s.conn.readAwaiters.map Call.number = List.range s.calls

theorem serving_orderly (serving : Serving outputs s) : Orderly outputs s := by
  refine ⟨serving.own,?_,serving.drained⟩
  have increasing := List.pairwise_lt_range (n := s.calls)
  rw [← serving.queued] at increasing
  exact (List.pairwise_append.mp increasing).1

theorem own_snoc (own : ∀ output ∈ outputs, InOwnBuffer output) (last : InOwnBuffer output) :
    ∀ given ∈ outputs++[output], InOwnBuffer given := by
  intro given member
  rcases List.mem_append.mp member with earlier | now
  · exact own given earlier
  · rw [List.mem_singleton.mp now]
    exact last

theorem queued_served {waiting : List Call} (queued : outputs.map served++waiting.map Call.number = numbers)
    (awaiters : waiting = first::rest) :
    (outputs++[Resumed.received first result recvData bytes]).map served++rest.map Call.number = numbers := by
  rw [← queued,awaiters]
  simp [served]

theorem serving_step (serving : Serving outputs s) (suits : Suits s event) (stepped : Stepped s event next emitted) :
    Serving (outputs++emitted) next := by
  obtain ⟨own,drained,queued⟩ := serving
  cases stepped with
  | waits empty =>
    refine ⟨by simpa using own,Or.inr empty,?_⟩
    simp [List.range_succ,← queued]
  | takes filled alone =>
    refine ⟨own_snoc own ⟨fun _ => rfl,List.length_take_le _ _⟩,Or.inl alone,?_⟩
    simp [List.range_succ,← queued,alone,served]
  | alone read alone => exact ⟨by simpa using own,drained,by simpa using queued⟩
  | nothing => exact ⟨by simpa using own,drained,by simpa using queued⟩
  | failed awaiters =>
    refine ⟨own_snoc own ⟨by simp,by simp⟩,?_,queued_served queued awaiters⟩
    exact Or.inr (drained.resolve_left (by simp [awaiters]))
  | serves awaiters empty some =>
    simp only [Suits,awaiters] at suits
    obtain ⟨sameBuffer,fits,last⟩ := suits some
    refine ⟨own_snoc own ⟨?_,?_⟩,?_,queued_served queued awaiters⟩
    · intro given
      apply sameBuffer
      rintro zero
      exact given (by rw [zero,List.take_zero])
    · rw [List.length_take]
      omega
    · rcases last with alone | short
      · exact Or.inl alone
      · exact Or.inr (List.drop_eq_nil_of_le short)

-- Conversely, a read that does not suit the first waiting call shows at once.
theorem suits_of_orderly (stepped : Stepped s event next emitted)
    (after : Orderly (outputs++emitted) next) : Suits s event := by
  cases stepped with
  | serves awaiters empty some =>
    have own := after.own _ (List.mem_append_right _ (List.mem_singleton.mpr rfl))
    simp only [Suits,awaiters]
    intro _
    refine ⟨?_,?_,?_⟩
    · intro nonzero
      apply own.1
      simp [List.take_eq_nil_iff,nonzero,some]
    · have fits := own.2
      rw [List.length_take] at fits
      omega
    · rcases after.drained with alone | short
      · exact Or.inl alone
      · exact Or.inr (List.drop_eq_nil_iff.mp short)
  | waits empty => trivial
  | takes filled alone => trivial
  | failed awaiters => trivial
  | nothing =>
    simp only [Suits]
    split
    · trivial
    · intro some
      exact absurd rfl some
  | alone read alone =>
    unfold Suits
    split
    · rw [alone]
      trivial
    · trivial

theorem orderly_iff (events : List Event) :
    machine.Throughout (fun _ => Orderly) events ↔ machine.Guarded (fun _ => Suits) events := by
  apply machine.throughout_iff (fun _ => True) (fun _ => Suits) (fun _ => Serving) (fun _ => Orderly)
  · exact fun _ _ _ => trivial
  · exact ⟨by simp,Or.inl rfl,rfl⟩
  · intro events outputs s event next emitted _ serving suits ran
    obtain ⟨after,given,same,stepped⟩ := step_exact serving.drained event
    cases ran.symm.trans same
    exact serving_step serving suits stepped
  · exact fun _ _ _ serving => serving_orderly serving
  · intro events outputs s event next emitted _ serving ran orderly
    obtain ⟨after,given,same,stepped⟩ := step_exact serving.drained event
    cases ran.symm.trans same
    exact suits_of_orderly stepped orderly
  · intro events outputs s event fault _
    exact fault.elim
  · trivial

-- Two calls wait; the byte for the first one goes to the buffer of the second.
theorem pair_disorderly :
    ¬ machine.Throughout (fun _ => Orderly) [.coReceive 1 10,.coReceive 2 10,.uvRead (.data [97])] := by
  intro orderly
  have after := orderly _ [] _ _ (List.append_nil _).symm rfl
  exact absurd (after.own _ (List.mem_singleton.mpr rfl)).1 (by decide)

end Receivers
end CoStream.AcceptConn
