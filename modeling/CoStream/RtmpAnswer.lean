import CoStream.RtmpStream

namespace CoStream.CoRtmpSession
open Foundation

variable {hs : RtmpServerHandshake} {s next : CoRtmpSession} {events : List Event} {outputs emitted : List Output}

-- An output that passes on S0S1S2, and one that takes bytes for C0C1 or answers
-- them.
def Sends : Output → Prop
  | .coSend _ _ => True
  | _ => False

def Answers : Output → Prop
  | .handleC0C1 _ ret => ret ≠ rtmpNeedReadMore
  | .coSend _ _ => True
  | _ => False

-- S0S1S2 is passed on at most once, and no C0C1 is taken behind it.
def SentOnce (outputs : List Output) : Prop := outputs.Pairwise fun earlier later => Sends earlier → ¬ Answers later

def Sent (outputs : List Output) : Prop := ∃ output ∈ outputs, Sends output

-- Nothing is received between a CoSend of S0S1S2 and the completion that
-- reports its success.
def AwaitsSend (hs : RtmpServerHandshake) (events : List Event) : Prop :=
  ∀ before chunk crypto uvWrite after s outputs, events = before++.received chunk crypto uvWrite::after →
    (machine hs).run before = .ok (s,outputs) → Sent outputs → .sent 0 ∈ before

-- The phase leaves its start by such a completion only, and never goes back.
def Phased (events : List Event) (s : CoRtmpSession) : Prop := s.phase = .initialPhase ↔ .sent 0 ∉ events

theorem Handled.phase_start (handled : Handled uvWrite s next outputs) :
    next.phase = .initialPhase ↔ s.phase = .initialPhase := by
  cases handled with
  | waitsC0C1 => rfl
  | refused => rfl
  | answered => rfl
  | waitsC2 => rfl
  | tookC2 waiting => simp [waiting]
  | idle => rfl

theorem phased_step (phased : Phased events s) (stepped : Stepped s event next emitted) :
    Phased (events++[event]) next := by
  unfold Phased at phased ⊢
  cases stepped with
  | received chunk crypto uvWrite room handled =>
    have same := handled.phase_start
    simp only [List.mem_append,List.mem_singleton,reduceCtorEq,or_false]
    exact same.trans phased
  | failed => simpa using phased
  | @sent left status counted =>
    by_cases succeeded : status = 0
    · simp [succeeded]
    · have other : ¬ (0 : Int) = status := fun same => succeeded same.symm
      simpa [succeeded,other] using phased

theorem phased_run (ran : (machine hs).run events = .ok (s,outputs)) : Phased events s :=
  (machine hs).history (fun events _ s => Phased events s) (iff_of_true rfl (List.not_mem_nil))
    (fun _ _ _ _ _ _ phased stepped => phased_step phased (step_exact stepped)) ran

theorem Handled.sentOnce (handled : Handled uvWrite s next outputs) : SentOnce outputs := by
  cases handled <;> simp [SentOnce,Sends]

theorem Handled.silent (handled : Handled uvWrite s next outputs) (later : s.phase ≠ .initialPhase) :
    ∀ output ∈ outputs, ¬ Answers output := by
  cases handled with
  | waitsC0C1 initial => exact absurd initial later
  | refused initial => exact absurd initial later
  | answered initial => exact absurd initial later
  | waitsC2 => simp [Answers]
  | tookC2 => simp [Answers]
  | idle => simp

-- A whole array is enough for C0C1, so that every turn at the start takes one.
theorem Handled.answers (handled : Handled uvWrite s next outputs) (initial : s.phase = .initialPhase)
    (long : 1537 ≤ s.recvBuffer.length) : ∃ output ∈ outputs, Answers output := by
  cases handled with
  | waitsC0C1 _ short => omega
  | @refused ret _ _ _ taken => exact ⟨.handleC0C1 s.recvBuffer ret,by simp,taken⟩
  | @answered ret _ _ _ _ taken => exact ⟨.handleC0C1 s.recvBuffer ret,by simp,taken⟩
  | waitsC2 waiting => simp [waiting] at initial
  | tookC2 waiting => simp [waiting] at initial
  | idle other => exact absurd initial other

theorem sentOnce_step (once : SentOnce outputs) (stepped : Stepped s event next emitted)
    (waits : ∀ chunk crypto uvWrite, event = .received chunk crypto uvWrite → Sent outputs → s.phase ≠ .initialPhase) :
    SentOnce (outputs++emitted) := by
  cases stepped with
  | failed => simpa using once
  | sent => simpa using once
  | received chunk crypto uvWrite room handled =>
    have turn : SentOnce (.recvBuffer (.appendData (chunk.copyTo s.recvData).toList)::_) :=
      List.pairwise_cons.mpr ⟨by simp [Sends],handled.sentOnce⟩
    refine List.pairwise_append.mpr ⟨once,turn,?_⟩
    intro earlier member output new sends
    have silent := handled.silent (waits chunk crypto uvWrite rfl ⟨earlier,member,sends⟩)
    rcases List.mem_cons.mp new with rfl | later
    · simp [Answers]
    · exact silent output later

theorem sentOnce_run (awaits : AwaitsSend hs events) (ran : (machine hs).run events = .ok (s,outputs)) :
    SentOnce outputs := by
  have both := (machine hs).guarded_history
    (fun outputs s event => ∀ chunk crypto uvWrite, event = .received chunk crypto uvWrite → Sent outputs →
      s.phase ≠ .initialPhase)
    (fun _ outputs _ => SentOnce outputs) List.Pairwise.nil
    (fun _ _ _ _ _ _ once waits stepped => sentOnce_step once (step_exact stepped) waits) events ?_ ran
  · exact both
  · rintro before _ after shape s outputs front chunk crypto uvWrite rfl sent initial
    exact (phased_run front).mp initial (awaits before chunk crypto uvWrite after s outputs shape front sent)

-- Run does not wait for HandleRequest: what comes in before the send is done is
-- taken for C0C1 once more.
theorem sentOnce_iff (ran : (machine hs).run events = .ok (final,outputs)) :
    SentOnce outputs ↔ AwaitsSend hs events := by
  refine ⟨?_,fun awaits => sentOnce_run awaits ran⟩
  rintro once before chunk crypto uvWrite after s earlier rfl front ⟨output,member,sends⟩
  by_contra pending
  obtain ⟨middle,again,rest,frontAgain,back,rfl⟩ := (machine hs).runFrom_append.mp ran
  cases front.symm.trans frontAgain
  obtain ⟨next,emitted,later,stepped,-,rfl⟩ := (machine hs).runFrom_cons.mp back
  have initial := (phased_run front).mpr pending
  have turned : Stepped s (.received chunk crypto uvWrite) next emitted := step_exact stepped
  cases turned with
  | received _ _ _ room handled =>
    obtain ⟨answer,new,answers⟩ := handled.answers initial (by simp)
    obtain ⟨-,-,apart⟩ := List.pairwise_append.mp once
    exact apart output member answer (by simp [new]) sends answers

def calls (events : List Event) : Except Stopped (List (Call × Nat)) :=
  ((machine freshHandshake).run events).map fun result => result.2.map outline

-- The client goes on with C2 when it has its answer.
def patient : List Event := [.received fullChunk helloCrypto 0,.sent 0,.received fullChunk helloCrypto 0]

theorem patient_calls : calls patient = .ok [(.recvBuffer,10240),(.handleC0C1,10240),(.recvBuffer,0),(.coSend,3073),
    (.recvBuffer,10240),(.handleC2,10240),(.recvBuffer,0)] := by
  decide +kernel

theorem patient_once : ∃ final outputs, (machine freshHandshake).run patient = .ok (final,outputs) ∧ SentOnce outputs := by
  obtain ⟨⟨final,outputs⟩,ran,-⟩ := map_ok.mp patient_calls
  refine ⟨final,outputs,ran,(sentOnce_iff ran).mpr ?_⟩
  rintro before chunk crypto uvWrite after s earlier shape front ⟨output,member,sends⟩
  match before,shape with
  | [],_ =>
    cases front
    cases member
  | [_],shape => simp [patient] at shape
  | [_,_],shape =>
    obtain ⟨-,rfl,-⟩ : _ ∧ Event.sent 0 = _ ∧ _ := by simpa [patient] using shape
    simp
  | _::_::_::_,shape => simp [patient] at shape

-- It sends more bytes while the answer is on its way.
def eager : List Event := [.received fullChunk helloCrypto 0,.received fullChunk helloCrypto 0]

theorem eager_calls : calls eager = .ok [(.recvBuffer,10240),(.handleC0C1,10240),(.recvBuffer,0),(.coSend,3073),
    (.recvBuffer,10240),(.handleC0C1,10240),(.recvBuffer,0),(.coSend,3073)] := by
  decide +kernel

theorem sends_of_outline (shape : outline output = (.coSend,size)) : Sends output := by
  cases output <;> simp [outline,Sends] at shape ⊢
theorem Sends.answers (sends : Sends output) : Answers output := by
  cases output <;> simp_all [Sends,Answers]

theorem eager_twice : ∃ final outputs, (machine freshHandshake).run eager = .ok (final,outputs) ∧ ¬ SentOnce outputs := by
  obtain ⟨⟨final,outputs⟩,ran,made⟩ := map_ok.mp eager_calls
  refine ⟨final,outputs,ran,?_⟩
  intro once
  have early : ((outputs.map outline)[3]?) = some (.coSend,3073) := by rw [show outputs.map outline = _ from made]; rfl
  have late : ((outputs.map outline)[7]?) = some (.coSend,3073) := by rw [show outputs.map outline = _ from made]; rfl
  obtain ⟨one,atOne,isOne⟩ := Option.map_eq_some_iff.mp (List.getElem?_map ▸ early)
  obtain ⟨two,atTwo,isTwo⟩ := Option.map_eq_some_iff.mp (List.getElem?_map ▸ late)
  obtain ⟨inOne,rfl⟩ := List.getElem?_eq_some_iff.mp atOne
  obtain ⟨inTwo,rfl⟩ := List.getElem?_eq_some_iff.mp atTwo
  have apart := List.pairwise_iff_getElem.mp once 3 7 inOne inTwo (by decide)
  exact apart (sends_of_outline isOne) (sends_of_outline isTwo).answers

end CoStream.CoRtmpSession
