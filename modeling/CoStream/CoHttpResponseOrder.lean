import CoStream.CoHttpResponse

namespace CoStream.CoHttpExchange
open Foundation CoHttpResponse
open AcceptConn (Outbox Disabled)

structure WriteCall where
  data : Bytes
  continueFlag : Bool
deriving DecidableEq,Repr

-- Writes on a response that a handler has prepared, and the completions of the
-- connection between them.
inductive Overlap where
  | write (data : Bytes) (continueFlag : Bool) (uvWrite : Int)
  | completed (status : Int) (uvWrite : Int)
deriving DecidableEq,Repr

def Overlap.event : Overlap → Event
  | .write data continueFlag uvWrite => .write data continueFlag uvWrite
  | .completed status uvWrite => .completed status uvWrite

def prepared (statusCode : Int) (status : Bytes) (headers : Headers) : CoHttpResponse := {statusCode,status,headers}

def overlapping (r : CoHttpResponse) : Machine CoHttpExchange Overlap Output Disabled :=
  ⟨{response:=r},fun s event => step s event.event⟩

def calls (events : List Overlap) : List WriteCall :=
  events.filterMap fun
    | .write data continueFlag _ => some ⟨data,continueFlag⟩
    | .completed _ _ => none

-- What CoSend was given, each piece with the loop that gave it.
def handed (outputs : List Output) : List (Stage × Bytes) :=
  outputs.filterMap fun
    | .handed stage bytes => some (stage,bytes)
    | .called _ => none

def WriteCall.header (r : CoHttpResponse) (call : WriteCall) : Activation :=
  ⟨.header,r.head call.data.length call.continueFlag,call.data,call.continueFlag⟩
def WriteCall.body (call : WriteCall) : Activation := ⟨.body,call.data,call.data,call.continueFlag⟩

def underOneHeader (r : CoHttpResponse) : List WriteCall → List (Stage × Bytes)
  | [] => []
  | first::rest => (.header,(first.header r).left)::(first::rest).map fun call => (.body,call.data)

-- Nothing out of order at any time, and nothing missing when nothing is in flight.
structure InOrder (r : CoHttpResponse) (events : List Overlap) (outputs : List Output) (s : CoHttpExchange) : Prop where
  front : handed outputs <+: underOneHeader r (calls events)
  whole : s.outbox.requests = [] → handed outputs = underOneHeader r (calls events)

-- Only the last call may end the response, and all lengths are kept by `int`.
structure Admissible (r : CoHttpResponse) (events : List Overlap) : Prop where
  continued : (calls events).Pairwise fun earlier _ => earlier.continueFlag = true
  short : ∀ call ∈ calls events, call.data.length < 2^31 ∧ (call.header r).left.length < 2^31

-- No other Write is issued while the header is on its way, and the header gets
-- through.
def HeaderAlone (s : CoHttpExchange) : Overlap → Prop
  | .write _ _ uvWrite => s.response.writtenHeader = true ∨ s.outbox.requests = [] ∧ uvWrite = 0
  | .completed status _ => s.outbox.requests ≠ [] → s.response.writtenHeader = false → status = 0

@[simp] theorem calls_append : calls (first++second) = calls first++calls second := by simp [calls]
@[simp] theorem calls_write : calls [.write data continueFlag uvWrite] = [⟨data,continueFlag⟩] := rfl
@[simp] theorem calls_completed (status uvWrite : Int) : calls [.completed status uvWrite] = [] := rfl
@[simp] theorem handed_append : handed (first++second) = handed first++handed second := by simp [handed]
@[simp] theorem handed_piece : handed [.handed stage bytes] = [(stage,bytes)] := rfl
@[simp] theorem handed_callbacks (callbacks : List Callback) : handed (callbacksOf callbacks) = [] := by
  simp [handed,callbacksOf]

theorem admissible_front (admissible : Admissible r (before++after)) : Admissible r before := by
  obtain ⟨continued,short⟩ := admissible
  rw [calls_append] at continued short
  exact ⟨(List.pairwise_append.mp continued).1,fun call member => short call (List.mem_append_left _ member)⟩

theorem underOneHeader_more (r : CoHttpResponse) (some : front ≠ []) (more : List WriteCall) :
    underOneHeader r (front++more) = underOneHeader r front++more.map fun call => (.body,call.data) := by
  cases front with
  | nil => exact absurd rfl some
  | cons first rest => simp [underOneHeader]

theorem narrow_short (short : bytes.length < 2^31) : narrow bytes = some bytes := by
  have kept : toInt bytes.length = bytes.length := toInt_fits ⟨by omega,by omega⟩
  have negative : ¬ (bytes.length : Int) < 0 := by omega
  simp [narrow,kept,negative]

theorem enter_short (stage : Stage) (data : Bytes) (continueFlag : Bool) (short : bytes.length < 2^31) :
    enter stage bytes data continueFlag = some ⟨stage,bytes,data,continueFlag⟩ := by
  rw [enter,narrow_short short]
  rfl

variable {r : CoHttpResponse} {s next : CoHttpExchange} {outputs emitted : List Output} {events : List Overlap}
  {pending : List (Activation × Bytes)} {a : Activation} {status uvWrite : Int}

theorem proceed_sends (waits : s.outbox.Holds pending) (r : CoHttpResponse) (callbacks : List Callback) (a : Activation)
    (uvWrite : Int) : ∃ outbox outputs, s.proceed ⟨r,callbacks,some a⟩ uvWrite = (⟨r,outbox⟩,outputs) ∧
      handed outputs = [(a.stage,a.left)] ∧
      outbox.Holds (if uvWrite = 0 then pending++[(a,a.left)] else pending) := by
  refine ⟨_,_,rfl,by simp,?_⟩
  split
  · rename_i taken
    subst taken
    exact (Outbox.submit_accepted waits).1
  · rename_i refused
    rw [Outbox.submit_refused _ _ _ refused]
    exact waits

-- The connection sends all it was given, so each loop ends with its first send.
theorem sent_all {left : Bytes} (short : left.length < 2^31) : left.drop (Outbox.sentCount left).toNat = [] := by
  rw [Outbox.sentCount_short short,Int.toNat_natCast,List.drop_length]

theorem resume_header (r : CoHttpResponse) (stage : a.stage = .header) (short : a.left.length < 2^31) :
    r.resume a (Outbox.sentResult Outbox.sentCount a.left 0) =
      ⟨{r with writtenHeader:=true},[.alive],enter .body a.data a.data a.continueFlag⟩ := by
  simp [CoHttpResponse.resume,Outbox.sentResult,sent_all short,stage]

theorem resume_body (r : CoHttpResponse) (stage : a.stage = .body) (short : a.left.length < 2^31) :
    r.resume a (Outbox.sentResult Outbox.sentCount a.left 0) = finish r a.continueFlag [.alive] := by
  simp [CoHttpResponse.resume,Outbox.sentResult,sent_all short,stage]

theorem resume_failed (r : CoHttpResponse) (a : Activation) (failed : status ≠ 0) :
    r.resume a (Outbox.sentResult Outbox.sentCount a.left status) = ⟨r,[],none⟩ := by
  simp [CoHttpResponse.resume,Outbox.sentResult,failed]

theorem step_completed (waits : s.outbox.Holds ((a,a.left)::pending)) (status uvWrite : Int) : ∃ outbox, outbox.Holds pending ∧
    step s (.completed status uvWrite) =
      .ok (CoHttpExchange.proceed {s with outbox} (s.response.resume a (Outbox.sentResult Outbox.sentCount a.left status))
        uvWrite) := by
  obtain ⟨outbox,completed,holds⟩ := Outbox.complete_first waits status
  exact ⟨outbox,holds,by rw [step,completed,ok_bind]; rfl⟩

-- The three stretches of a run: before the first Write, while its header is on
-- its way, and behind the header.
inductive Phase (r : CoHttpResponse) (events : List Overlap) (outputs : List Output) (s : CoHttpExchange) : Prop where
  | idle (untouched : s.response = r) (uncalled : calls events = []) (silent : handed outputs = [])
      (waits : s.outbox.Holds [])
  | heading (untouched : s.response = r) (call : WriteCall) (once : calls events = [call])
      (sent : handed outputs = [(.header,(call.header r).left)])
      (waits : s.outbox.Holds [(call.header r,(call.header r).left)])
  | writing (called : calls events ≠ []) (sent : handed outputs = underOneHeader r (calls events))
      (written : s.response.writtenHeader = true) (pending : List WriteCall)
      (waits : s.outbox.Holds (pending.map fun call => (call.body,call.data))) (known : pending ⊆ calls events)
      (ended : s.response.isClose = true → ∃ call ∈ calls events, call.continueFlag = false)

theorem phase_inOrder (phase : Phase r events outputs s) : InOrder r events outputs s := by
  cases phase with
  | idle untouched uncalled silent waits =>
    constructor
    · simp [silent]
    · simp [uncalled,silent,underOneHeader]
  | heading untouched call once sent waits =>
    constructor
    · simp [once,sent,underOneHeader]
    · intro nothing
      exact absurd (waits.2.symm.trans nothing) (by simp)
  | writing called sent written pending waits known ended => exact ⟨sent ▸ List.prefix_refl _,fun _ => sent⟩

def Fresh (r : CoHttpResponse) : Prop := r.isClose = false ∧ r.writtenHeader = false

variable {call : WriteCall}

theorem step_header (fresh : Fresh r) (untouched : s.response = r) (waits : s.outbox.Holds pending)
    (short : (call.header r).left.length < 2^31) (uvWrite : Int) :
    ∃ o outputs, step s (.write call.data call.continueFlag uvWrite) = .ok (⟨r,o⟩,outputs) ∧
      handed outputs = [(.header,(call.header r).left)] ∧
      o.Holds (if uvWrite = 0 then pending++[(call.header r,(call.header r).left)] else pending) := by
  obtain ⟨o,outputs,proceeds,sent,holds⟩ := proceed_sends waits r [] (call.header r) uvWrite
  refine ⟨o,outputs,?_,sent,holds⟩
  have entered : enter .header (r.head call.data.length call.continueFlag) call.data call.continueFlag =
      some (call.header r) := enter_short _ _ _ short
  simp only [step,untouched,CoHttpResponse.write,fresh.1,fresh.2,entered,Bool.false_eq_true,if_false,proceeds]

theorem step_body (opened : s.response.isClose = false) (written : s.response.writtenHeader = true)
    (waits : s.outbox.Holds pending) (short : call.data.length < 2^31) (uvWrite : Int) :
    ∃ o outputs, step s (.write call.data call.continueFlag uvWrite) = .ok (⟨s.response,o⟩,outputs) ∧
      handed outputs = [(.body,call.data)] ∧
      o.Holds (if uvWrite = 0 then pending++[(call.body,call.data)] else pending) := by
  obtain ⟨o,outputs,proceeds,sent,holds⟩ := proceed_sends waits s.response [] call.body uvWrite
  refine ⟨o,outputs,?_,sent,holds⟩
  have entered : enter .body call.data call.data call.continueFlag = some call.body := enter_short _ _ _ short
  simp only [step,CoHttpResponse.write,opened,written,entered,Bool.false_eq_true,if_false,if_true,proceeds]

theorem step_headerDone (waits : s.outbox.Holds ((call.header r,(call.header r).left)::pending))
    (short : call.data.length < 2^31 ∧ (call.header r).left.length < 2^31) (uvWrite : Int) :
    ∃ o outputs, step s (.completed 0 uvWrite) = .ok (⟨{s.response with writtenHeader:=true},o⟩,outputs) ∧
      handed outputs = [(.body,call.data)] ∧
      o.Holds (if uvWrite = 0 then pending++[(call.body,call.data)] else pending) := by
  obtain ⟨o,left,stepped⟩ := step_completed waits 0 uvWrite
  obtain ⟨later,outputs,proceeds,sent,holds⟩ :=
    proceed_sends (s := {s with outbox:=o}) left {s.response with writtenHeader:=true} [.alive] call.body uvWrite
  refine ⟨later,outputs,?_,sent,holds⟩
  have entered : enter .body call.data call.data call.continueFlag = some call.body := enter_short _ _ _ short.1
  rw [stepped,resume_header _ rfl short.2,← proceeds,← entered]
  rfl

theorem step_bodyDone (waits : s.outbox.Holds ((call.body,call.data)::pending)) (short : call.data.length < 2^31)
    (uvWrite : Int) : ∃ o outputs, step s (.completed 0 uvWrite) =
        .ok (⟨if call.continueFlag then s.response else {s.response with isClose:=true},o⟩,outputs) ∧
      handed outputs = [] ∧ o.Holds pending := by
  obtain ⟨o,left,stepped⟩ := step_completed waits 0 uvWrite
  rw [stepped,resume_body _ rfl short,finish]
  cases ended : call.continueFlag with
  | false => exact ⟨o,callbacksOf [.alive,.close],by simp [WriteCall.body,ended,proceed],handed_callbacks _,left⟩
  | true => exact ⟨o,callbacksOf [.alive],by simp [WriteCall.body,ended,proceed],handed_callbacks _,left⟩

theorem step_failed (waits : s.outbox.Holds ((a,a.left)::pending)) (failed : status ≠ 0) (uvWrite : Int) :
    ∃ o, step s (.completed status uvWrite) = .ok (⟨s.response,o⟩,[]) ∧ o.Holds pending := by
  obtain ⟨o,left,stepped⟩ := step_completed waits status uvWrite
  refine ⟨o,?_,left⟩
  rw [stepped,resume_failed _ _ failed]
  rfl

theorem step_nothing (waits : s.outbox.Holds []) : step s (.completed status uvWrite) = .error .nothingSubmitted := by
  rw [step,Outbox.complete_nothing waits,error_bind]

theorem Admissible.last (admissible : Admissible r (events++[.write call.data call.continueFlag uvWrite])) :
    (call.data.length < 2^31 ∧ (call.header r).left.length < 2^31) ∧
      ∀ earlier ∈ calls events, earlier.continueFlag = true := by
  obtain ⟨continued,short⟩ := admissible
  rw [calls_append,calls_write] at continued short
  have before := (List.pairwise_append.mp continued).2.2
  exact ⟨short call (by simp),fun earlier member => before earlier member call (by simp)⟩

theorem Admissible.known (admissible : Admissible r (events++more)) (member : call ∈ calls events) :
    call.data.length < 2^31 ∧ (call.header r).left.length < 2^31 :=
  admissible.short call (by rw [calls_append]; exact List.mem_append_left _ member)

-- A piece that is handed over waits as one more body, unless it was refused.
theorem bodies_more {o : Outbox Activation} {earlier : List WriteCall} (pending : List WriteCall) (known : pending ⊆ earlier)
    (holds : o.Holds (if uvWrite = 0 then pending.map (fun call => (call.body,call.data))++[(call.body,call.data)]
      else pending.map fun call => (call.body,call.data))) :
    ∃ waiting : List WriteCall, o.Holds (waiting.map fun call => (call.body,call.data)) ∧ waiting ⊆ earlier++[call] := by
  split at holds
  · refine ⟨pending++[call],by simpa using holds,?_⟩
    exact List.append_subset.mpr ⟨fun _ member => List.mem_append_left _ (known member),List.subset_append_right _ _⟩
  · exact ⟨pending,holds,fun _ member => List.mem_append_left _ (known member)⟩

theorem phase_write (call : WriteCall) (fresh : Fresh r)
    (admissible : Admissible r (events++[.write call.data call.continueFlag uvWrite]))
    (phase : Phase r events outputs s) (alone : HeaderAlone s (.write call.data call.continueFlag uvWrite))
    (stepped : step s (.write call.data call.continueFlag uvWrite) = .ok (next,emitted)) :
    Phase r (events++[.write call.data call.continueFlag uvWrite]) (outputs++emitted) next := by
  obtain ⟨short,continued⟩ := admissible.last
  cases phase with
  | idle untouched uncalled silent waits =>
    obtain ⟨o,now,same,sent,holds⟩ := step_header fresh untouched waits short.2 uvWrite
    cases stepped.symm.trans same
    have taken : uvWrite = 0 := by
      rcases alone with written | ⟨-,taken⟩
      · rw [untouched,fresh.2] at written
        cases written
      · exact taken
    rw [if_pos taken] at holds
    exact .heading rfl call (by simp [uncalled]) (by simp [silent,sent]) holds
  | heading untouched first once sent waits =>
    rcases alone with written | ⟨nothing,-⟩
    · rw [untouched,fresh.2] at written
      cases written
    · exact absurd (waits.2.symm.trans nothing) (by simp)
  | writing called sent written pending waits known ended =>
    have opened : s.response.isClose = false := by
      cases closed : s.response.isClose with
      | false => rfl
      | true =>
        obtain ⟨last,member,final⟩ := ended closed
        rw [continued last member] at final
        cases final
    obtain ⟨o,now,same,piece,holds⟩ := step_body opened written waits short.1 uvWrite
    cases stepped.symm.trans same
    obtain ⟨waiting,holds,among⟩ := bodies_more pending known holds
    refine .writing (by simp) ?_ written waiting holds (by simpa using among) ?_
    · rw [calls_append,calls_write,underOneHeader_more r called,handed_append,sent,piece]
      rfl
    · intro closed
      rw [opened] at closed
      cases closed

theorem phase_completed (admissible : Admissible r (events++[.completed status uvWrite]))
    (phase : Phase r events outputs s) (alone : HeaderAlone s (.completed status uvWrite)) (fresh : Fresh r)
    (stepped : step s (.completed status uvWrite) = .ok (next,emitted)) :
    Phase r (events++[.completed status uvWrite]) (outputs++emitted) next := by
  have same : calls (events++[.completed status uvWrite]) = calls events := by simp
  cases phase with
  | idle untouched uncalled silent waits =>
    rw [step_nothing waits] at stepped
    cases stepped
  | heading untouched call once sent waits =>
    have succeeded : status = 0 := by
      apply alone
      · rw [waits.2]
        simp
      · rw [untouched]
        exact fresh.2
    subst succeeded
    have member : call ∈ calls events := by simp [once]
    have short := admissible.known member
    obtain ⟨o,now,done,piece,holds⟩ := step_headerDone waits short uvWrite
    cases stepped.symm.trans done
    obtain ⟨waiting,holds,among⟩ := bodies_more [] (List.nil_subset []) holds
    refine .writing (by simp [once]) ?_ rfl waiting holds (by simpa [once] using among) ?_
    · rw [same,once,handed_append,sent,piece]
      rfl
    · intro closed
      rw [untouched] at closed
      exact absurd (fresh.1.symm.trans closed) (by simp)
  | writing called sent written pending waits known ended =>
    cases pending with
    | nil =>
      rw [step_nothing waits] at stepped
      cases stepped
    | cons call rest =>
      have member : call ∈ calls events := known List.mem_cons_self
      have others : rest ⊆ calls events := fun _ later => known (List.mem_cons_of_mem _ later)
      by_cases succeeded : status = 0
      · subst succeeded
        obtain ⟨o,now,done,piece,holds⟩ := step_bodyDone waits (admissible.known member).1 uvWrite
        cases stepped.symm.trans done
        refine .writing (by rw [same]; exact called) (by simp [same,piece,sent]) ?_ rest holds (by rw [same]; exact others) ?_
        · split <;> exact written
        · rw [same]
          split
          · exact ended
          · rename_i final
            exact fun _ => ⟨call,member,Bool.not_eq_true _ ▸ final⟩
      · obtain ⟨o,done,holds⟩ := step_failed (a := call.body) waits succeeded uvWrite
        cases stepped.symm.trans done
        exact .writing (by rw [same]; exact called) (by simp [same,sent]) written rest holds (by rw [same]; exact others)
          (by rw [same]; exact ended)

-- Where the header is refused, fails or has company, it shows at once: a body is
-- missing with nothing in flight, or a second header stands in its place.
theorem forced_write (call : WriteCall) (fresh : Fresh r)
    (admissible : Admissible r (events++[.write call.data call.continueFlag uvWrite]))
    (phase : Phase r events outputs s) (stepped : step s (.write call.data call.continueFlag uvWrite) = .ok (next,emitted))
    (ordered : InOrder r (events++[.write call.data call.continueFlag uvWrite]) (outputs++emitted) next) :
    HeaderAlone s (.write call.data call.continueFlag uvWrite) := by
  obtain ⟨short,-⟩ := admissible.last
  cases phase with
  | idle untouched uncalled silent waits =>
    obtain ⟨o,now,same,sent,holds⟩ := step_header fresh untouched waits short.2 uvWrite
    cases stepped.symm.trans same
    refine Or.inr ⟨waits.2,?_⟩
    by_contra refused
    rw [if_neg refused] at holds
    have whole := ordered.whole holds.2
    simp [silent,sent,uncalled,underOneHeader] at whole
  | heading untouched first once sent waits =>
    obtain ⟨o,now,same,piece,holds⟩ := step_header fresh untouched waits short.2 uvWrite
    cases stepped.symm.trans same
    have front := ordered.front
    simp [sent,piece,once,underOneHeader] at front
  | writing called sent written pending waits known ended => exact Or.inl written

theorem forced_completed (phase : Phase r events outputs s)
    (stepped : step s (.completed status uvWrite) = .ok (next,emitted))
    (ordered : InOrder r (events++[.completed status uvWrite]) (outputs++emitted) next) :
    HeaderAlone s (.completed status uvWrite) := by
  intro filled unwritten
  cases phase with
  | idle untouched uncalled silent waits => exact absurd waits.2 filled
  | heading untouched call once sent waits =>
    by_contra failed
    obtain ⟨o,done,holds⟩ := step_failed waits failed uvWrite
    cases stepped.symm.trans done
    have whole := ordered.whole holds.2
    simp [sent,once,underOneHeader] at whole
  | writing called sent written pending waits known ended =>
    rw [written] at unwritten
    cases unwritten

theorem ordered_exact (fresh : Fresh r) (events : List Overlap) (admissible : Admissible r events) :
    (overlapping r).Throughout (InOrder r) events ↔ (overlapping r).Guarded (fun _ => HeaderAlone) events := by
  apply (overlapping r).throughout_iff (Admissible r) (fun _ => HeaderAlone) (Phase r) (InOrder r)
  · exact fun _ _ => admissible_front
  · exact .idle rfl rfl rfl ⟨rfl,rfl⟩
  · intro events outputs s event next emitted admissible phase alone stepped
    cases event with
    | write data continueFlag uvWrite => exact phase_write ⟨data,continueFlag⟩ fresh admissible phase alone stepped
    | completed status uvWrite => exact phase_completed admissible phase alone fresh stepped
  · exact fun _ _ _ => phase_inOrder
  · intro events outputs s event next emitted admissible phase stepped ordered
    cases event with
    | write data continueFlag uvWrite =>
      exact forced_write ⟨data,continueFlag⟩ fresh admissible phase stepped ordered
    | completed status uvWrite => exact forced_completed phase stepped ordered
  · intro events outputs s event fault _ phase disabled
    cases event with
    | write data continueFlag uvWrite => cases disabled
    | completed status uvWrite =>
      intro filled
      exfalso
      cases requests : s.outbox.requests with
      | nil => exact filled requests
      | cons request rest => simp [overlapping,Overlap.event,step,Outbox.complete,requests] at disabled
  · exact admissible

-- The bytes are those of one header and of the calls' data in order, exactly as
-- long as the first Write has its header sent before another one is issued.
theorem ordered_iff (statusCode : Int) (status : Bytes) (headers : Headers) (events : List Overlap)
    (admissible : Admissible (prepared statusCode status headers) events) :
    (overlapping (prepared statusCode status headers)).Throughout (InOrder (prepared statusCode status headers)) events ↔
      (overlapping (prepared statusCode status headers)).Guarded (fun _ => HeaderAlone) events :=
  ordered_exact ⟨rfl,rfl⟩ events admissible

theorem patient_ordered : Admissible (prepared 200 (ascii "OK") ∅) [.write [97] true 0,.completed 0 0,.write [98] false 0] ∧
    (overlapping (prepared 200 (ascii "OK") ∅)).Throughout (InOrder (prepared 200 (ascii "OK") ∅))
      [.write [97] true 0,.completed 0 0,.write [98] false 0] := by
  have admissible : Admissible (prepared 200 (ascii "OK") ∅) [.write [97] true 0,.completed 0 0,.write [98] false 0] := by
    constructor
    · simp [calls]
    · decide +kernel
  have first : (overlapping (prepared 200 (ascii "OK") ∅)).Guarded (fun _ => HeaderAlone) [.write [97] true 0] := by
    refine Machine.Guarded.snoc _ (Machine.Guarded.nil _) ?_
    intro s outputs ran
    cases ran
    exact Or.inr ⟨rfl,rfl⟩
  have second : (overlapping (prepared 200 (ascii "OK") ∅)).Guarded (fun _ => HeaderAlone)
      [.write [97] true 0,.completed 0 0] := by
    refine Machine.Guarded.snoc _ first ?_
    intro s outputs ran
    exact fun _ _ => rfl
  refine ⟨admissible,(ordered_iff _ _ _ _ admissible).mpr ?_⟩
  refine Machine.Guarded.snoc _ second ?_
  intro s outputs ran
  cases ran
  exact Or.inl rfl

theorem eager_disordered : Admissible (prepared 200 (ascii "OK") ∅) [.write [97] true 0,.write [98] false 0] ∧
    ¬ (overlapping (prepared 200 (ascii "OK") ∅)).Throughout (InOrder (prepared 200 (ascii "OK") ∅))
      [.write [97] true 0,.write [98] false 0] := by
  constructor
  · constructor
    · simp [calls]
    · decide +kernel
  · intro throughout
    have front := (throughout _ [] _ _ (List.append_nil _).symm rfl).front
    revert front
    decide +kernel

end CoStream.CoHttpExchange
