import CoStream.RtmpS1

namespace CoStream.CoRtmpSession
open Foundation

-- HandleRequest behind an append of any bytes, and the other events of a
-- session.
inductive Arrival where
  | appended (data : Bytes) (crypto : Crypto) (uvWrite : Int)
  | failed
  | sent (status : Int)

def onAppended (s : CoRtmpSession) (data : Bytes) (crypto : Crypto) (uvWrite : Int) :
    Except Fault (CoRtmpSession × List Output) := do
  let recvBuffer ← appendData s.recvBuffer data
  let (next,outputs) ← handleRequest crypto uvWrite {s with recvBuffer}
  return ({next with receiving:=!next.closed},.recvBuffer (.appendData data)::outputs)

def handle (s : CoRtmpSession) : Arrival → Except Stopped (CoRtmpSession × List Output)
  | .appended data crypto uvWrite =>
    if s.receiving then (s.onAppended data crypto uvWrite).mapError .undefined else .error .finished
  | .failed => s.step .failed
  | .sent status => s.step (.sent status)

def handling (hs : RtmpServerHandshake) : Machine CoRtmpSession Arrival Output Stopped := ⟨{hs},handle⟩

-- A turn of Run is one of these with the whole array.
theorem received_appends (s : CoRtmpSession) (chunk : Chunk) (crypto : Crypto) (uvWrite : Int) :
    s.step (.received chunk crypto uvWrite) =
      handle {s with recvData:=chunk.copyTo s.recvData} (.appended (chunk.copyTo s.recvData).toList crypto uvWrite) := rfl

def tookC0C1 : Output → Bool
  | .handleC0C1 _ ret => ret ≠ rtmpNeedReadMore
  | _ => false

def tookC2 : Output → Bool
  | .handleC2 _ ret => ret ≠ rtmpNeedReadMore
  | _ => false

-- The bytes of the handshake messages that were taken.
def due (outputs : List Output) : Nat :=
  (if outputs.any tookC0C1 then 1537 else 0)+(if outputs.any tookC2 then 1536 else 0)

-- The handshake took its own bytes and left all others.
def Consumes (_ : List Arrival) (outputs : List Output) (s : CoRtmpSession) : Prop :=
  s.recvBuffer = (appended outputs).drop (due outputs) ∧
    (s.phase = .connectPhase → s.recvBuffer = (appended outputs).drop 3073)

-- C0C1 is complete with nothing behind it, and is the first.
def ExactC0C1 (outputs : List Output) (s : CoRtmpSession) (arrival : Arrival) : Prop :=
  ∀ data crypto uvWrite result, arrival = .appended data crypto uvWrite → s.handle arrival = .ok result →
    s.phase = .initialPhase → 1537 ≤ (s.recvBuffer++data).length →
    (s.recvBuffer++data).length = 1537 ∧ outputs.any tookC0C1 = false

inductive Stage : Bool → Bool → RtmpServerSessionPhase → Nat → Prop where
  | fresh : Stage false false .initialPhase 0
  | answered (pending : Nat) : pending ≤ 1 → Stage true false .initialPhase pending
  | awaiting : Stage true false .handshakeC2Phase 0
  | connected : Stage true true .connectPhase 0

structure Tracked (outputs : List Output) (s : CoRtmpSession) : Prop where
  stage : Stage (outputs.any tookC0C1) (outputs.any tookC2) s.phase s.sending
  within : due outputs ≤ (appended outputs).length
  buffer : s.recvBuffer = (appended outputs).drop (due outputs)

variable {s next : CoRtmpSession} {outputs emitted : List Output}

theorem onAppended_exact (turned : s.onAppended data crypto uvWrite = .ok (next,outputs)) : ∃ after later,
    Handled uvWrite {s with recvBuffer:=s.recvBuffer++data} after later ∧ next = {after with receiving:=!after.closed} ∧
      outputs = .recvBuffer (.appendData data)::later := by
  unfold onAppended at turned
  obtain ⟨recvBuffer,appended,turned⟩ := bind_ok.mp turned
  obtain ⟨⟨after,later⟩,handled,turned⟩ := bind_ok.mp turned
  cases turned
  unfold appendData at appended
  split at appended
  · cases appended
    exact ⟨after,later,handleRequest_exact handled,rfl,rfl⟩
  · cases appended

theorem Stage.connected_flags (stage : Stage first second .connectPhase count) : first = true ∧ second = true := by
  cases stage
  exact ⟨rfl,rfl⟩

theorem Stage.initial_flags (stage : Stage first second .initialPhase count) :
    second = false ∧ (first = false → count = 0) := by
  cases stage with
  | fresh => exact ⟨rfl,fun _ => rfl⟩
  | answered pending few => exact ⟨rfl,fun absurdity => by cases absurdity⟩

theorem Stage.waiting_flags (stage : Stage first second .handshakeC2Phase count) :
    first = true ∧ second = false ∧ count = 0 := by
  cases stage
  exact ⟨rfl,rfl,rfl⟩

theorem Tracked.consumes (tracked : Tracked outputs s) (arrivals : List Arrival) : Consumes arrivals outputs s := by
  refine ⟨tracked.buffer,fun connected => ?_⟩
  have stage := tracked.stage
  rw [connected] at stage
  obtain ⟨first,second⟩ := stage.connected_flags
  have buffer := tracked.buffer
  rw [due,if_pos first,if_pos second] at buffer
  exact buffer

-- The buffer before a call, with the new bytes behind it.
theorem Tracked.held (tracked : Tracked outputs s) (data : Bytes) :
    s.recvBuffer++data = (appended outputs++data).drop (due outputs) := by
  rw [tracked.buffer,List.drop_append_of_le_length tracked.within]

theorem appended_data (nothing : appended later = []) (outputs : List Output) (data : Bytes) :
    appended (outputs++.recvBuffer (.appendData data)::later) = appended outputs++data := by
  rw [appended_append,appended_cons,nothing,List.append_nil,added]

-- A call that takes no message leaves the new bytes in the buffer.
theorem Tracked.quiet (tracked : Tracked outputs s) (data : Bytes) (later : List Output)
    (none : later.any tookC0C1 = false ∧ later.any tookC2 = false) (nothing : appended later = []) (after : CoRtmpSession)
    (same : after.phase = s.phase ∧ after.sending = s.sending ∧ after.recvBuffer = s.recvBuffer++data) :
    Tracked (outputs++.recvBuffer (.appendData data)::later) after := by
  have taken : (outputs++.recvBuffer (.appendData data)::later).any tookC0C1 = outputs.any tookC0C1 := by
    simp [none.1,tookC0C1]
  have takenC2 : (outputs++.recvBuffer (.appendData data)::later).any tookC2 = outputs.any tookC2 := by
    simp [none.2,tookC2]
  have bytes := appended_data nothing outputs data
  have within := tracked.within
  refine ⟨?_,?_,?_⟩
  · rw [taken,takenC2,same.1,same.2.1]
    exact tracked.stage
  · rw [due,taken,takenC2,bytes,List.length_append]
    exact Nat.le_add_right_of_le within
  · rw [due,taken,takenC2,bytes,same.2.2,tracked.held]
    rfl

-- C0C1 was taken: the buffer is empty, and its bytes were all there were.
theorem Tracked.afterC0C1 (tracked : Tracked outputs s) (data : Bytes) (later : List Output)
    (took : later.any tookC0C1 = true ∧ later.any tookC2 = false) (nothing : appended later = []) (after : CoRtmpSession)
    (initial : s.phase = .initialPhase) (exactly : (s.recvBuffer++data).length = 1537) (first : outputs.any tookC0C1 = false)
    (same : after.phase = .initialPhase ∧ after.sending ≤ s.sending+1 ∧ after.recvBuffer = []) :
    Tracked (outputs++.recvBuffer (.appendData data)::later) after := by
  have stage := tracked.stage
  rw [initial] at stage
  obtain ⟨second,few⟩ := stage.initial_flags
  have taken : (outputs++.recvBuffer (.appendData data)::later).any tookC0C1 = true := by simp [took.1]
  have takenC2 : (outputs++.recvBuffer (.appendData data)::later).any tookC2 = false := by
    rw [List.any_append,second,List.any_cons,took.2]
    rfl
  have bytes := appended_data nothing outputs data
  have before : due outputs = 0 := by rw [due,first,second]; rfl
  have held := tracked.held data
  rw [before,List.drop_zero] at held
  have now : due (outputs++.recvBuffer (.appendData data)::later) = 1537 := by rw [due,taken,takenC2]; rfl
  refine ⟨?_,?_,?_⟩
  · rw [taken,takenC2,same.1]
    exact .answered _ (by have := few first; omega)
  · rw [now,bytes,← held]
    omega
  · rw [now,bytes,← held,same.2.2,List.drop_eq_nil_of_le (by omega)]

theorem Tracked.afterC2 (tracked : Tracked outputs s) (data : Bytes) (later : List Output) (took : later.any tookC2 = true)
    (nothing : appended later = []) (after : CoRtmpSession) (waiting : s.phase = .handshakeC2Phase)
    (long : 1536 ≤ (s.recvBuffer++data).length)
    (same : after.phase = .connectPhase ∧ after.sending = s.sending ∧ after.recvBuffer = (s.recvBuffer++data).drop 1536) :
    Tracked (outputs++.recvBuffer (.appendData data)::later) after := by
  have stage := tracked.stage
  rw [waiting] at stage
  obtain ⟨first,second,none⟩ := stage.waiting_flags
  have taken : (outputs++.recvBuffer (.appendData data)::later).any tookC0C1 = true := by simp [first]
  have takenC2 : (outputs++.recvBuffer (.appendData data)::later).any tookC2 = true := by simp [took]
  have bytes := appended_data nothing outputs data
  have before : due outputs = 1537 := by rw [due,first,second]; rfl
  have held := tracked.held data
  rw [before] at held
  have length := congrArg List.length held
  rw [List.length_drop] at length
  refine ⟨?_,?_,?_⟩
  · rw [taken,takenC2,same.1,same.2.1,none]
    exact .connected
  · rw [due,taken,takenC2,bytes]
    simp only [if_true]
    omega
  · rw [due,taken,takenC2,bytes,same.2.2,held,List.drop_drop]
    rfl

theorem tracked_handled (tracked : Tracked outputs s) (handled : Handled uvWrite {s with recvBuffer:=s.recvBuffer++data} after later)
    (exactly : s.phase = .initialPhase → 1537 ≤ (s.recvBuffer++data).length →
      (s.recvBuffer++data).length = 1537 ∧ outputs.any tookC0C1 = false) :
    Tracked (outputs++.recvBuffer (.appendData data)::later) {after with receiving:=!after.closed} := by
  have nothing := handled.nothing_added
  cases handled with
  | waitsC0C1 initial short => exact tracked.quiet data _ ⟨rfl,rfl⟩ nothing _ ⟨rfl,rfl,rfl⟩
  | refused initial long accepted =>
    obtain ⟨whole,first⟩ := exactly initial long
    exact tracked.afterC0C1 data _ ⟨by simp [tookC0C1,accepted],rfl⟩ nothing _ initial whole first ⟨initial,Nat.le_succ _,rfl⟩
  | answered initial long accepted =>
    obtain ⟨whole,first⟩ := exactly initial long
    refine tracked.afterC0C1 data _ ⟨by simp [tookC0C1,accepted],rfl⟩ nothing _ initial whole first ⟨initial,?_,rfl⟩
    dsimp only
    split <;> omega
  | waitsC2 waiting short => exact tracked.quiet data _ ⟨rfl,rfl⟩ nothing _ ⟨rfl,rfl,rfl⟩
  | tookC2 waiting long => exact tracked.afterC2 data _ rfl nothing _ waiting long ⟨rfl,rfl,rfl⟩
  | idle notInitial notWaiting => exact tracked.quiet data _ ⟨rfl,rfl⟩ nothing _ ⟨rfl,rfl,rfl⟩

theorem Stage.completed (stage : Stage first second current (count+1)) (status : Int) :
    Stage first second (if status = 0 then .handshakeC2Phase else current) count := by
  cases stage with
  | answered pending few =>
    cases Nat.le_zero.mp (Nat.le_of_succ_le_succ few)
    split
    · exact .awaiting
    · exact .answered 0 (Nat.zero_le _)

theorem tracked_step (tracked : Tracked outputs s) (exactly : ExactC0C1 outputs s arrival)
    (stepped : s.handle arrival = .ok (next,emitted)) : Tracked (outputs++emitted) next := by
  cases arrival with
  | appended data crypto uvWrite =>
    have taken := exactly data crypto uvWrite _ rfl stepped
    rw [handle] at stepped
    split at stepped
    · obtain ⟨after,later,handled,rfl,rfl⟩ := onAppended_exact (mapError_ok.mp stepped)
      exact tracked_handled tracked handled taken
    · cases stepped
  | failed =>
    have happened : Stepped s .failed next emitted := step_exact stepped
    cases happened
    rw [List.append_nil]
    exact ⟨tracked.stage,tracked.within,tracked.buffer⟩
  | sent status =>
    have happened : Stepped s (.sent status) next emitted := step_exact stepped
    cases happened with
    | sent counted =>
      rw [List.append_nil]
      have stage := tracked.stage
      rw [counted] at stage
      exact ⟨stage.completed status,tracked.within,tracked.buffer⟩

-- Where C0C1 is taken the buffer is emptied: nothing may have stood behind it.
theorem exact_forced (tracked : Tracked outputs s) (stepped : s.handle arrival = .ok (next,emitted))
    (consumes : Consumes arrivals (outputs++emitted) next) : ExactC0C1 outputs s arrival := by
  rintro data crypto uvWrite - rfl - initial long
  rw [handle] at stepped
  split at stepped
  case isFalse => cases stepped
  obtain ⟨after,later,handled,rfl,rfl⟩ := onAppended_exact (mapError_ok.mp stepped)
  have bytes := appended_data handled.nothing_added outputs data
  have stage := tracked.stage
  rw [initial] at stage
  have second := stage.initial_flags.1
  obtain ⟨took,silent,emptied⟩ : later.any tookC0C1 = true ∧ later.any tookC2 = false ∧ after.recvBuffer = [] := by
    cases handled with
    | waitsC0C1 _ short => exact absurd long (by simpa using short)
    | refused _ _ accepted => exact ⟨by simp [tookC0C1,accepted],rfl,rfl⟩
    | answered _ _ accepted => exact ⟨by simp [tookC0C1,accepted],rfl,rfl⟩
    | waitsC2 waiting => exact absurd (waiting.symm.trans initial) (by decide)
    | tookC2 waiting => exact absurd (waiting.symm.trans initial) (by decide)
    | idle notInitial => exact absurd initial notInitial
  have taken : (outputs++.recvBuffer (.appendData data)::later).any tookC0C1 = true := by simp [took]
  have takenC2 : (outputs++.recvBuffer (.appendData data)::later).any tookC2 = false := by
    rw [List.any_append,second,List.any_cons,silent]
    rfl
  have left := consumes.1
  rw [due,taken,takenC2,bytes,emptied] at left
  have few : (appended outputs++data).length ≤ 1537 := List.drop_eq_nil_iff.mp left.symm
  have held := congrArg List.length (tracked.held data)
  rw [List.length_drop] at held
  cases first : outputs.any tookC0C1 with
  | false =>
    have before : due outputs = 0 := by rw [due,first,second]; rfl
    exact ⟨by omega,rfl⟩
  | true =>
    have before : due outputs = 1537 := by rw [due,first,second]; rfl
    omega

theorem handshake_consumes_exactly (hs : RtmpServerHandshake) (arrivals : List Arrival) :
    (handling hs).Throughout Consumes arrivals ↔ (handling hs).Guarded ExactC0C1 arrivals := by
  apply Machine.throughout_iff _ (fun _ => True) ExactC0C1 (fun _ => Tracked) Consumes
  · exact fun _ _ _ => trivial
  · exact ⟨.fresh,Nat.zero_le _,rfl⟩
  · exact fun _ _ _ _ _ _ _ => tracked_step
  · exact fun arrivals _ _ tracked => tracked.consumes arrivals
  · exact fun _ _ _ _ _ _ _ => exact_forced
  · intro _ outputs s arrival fault _ _ failed data crypto uvWrite result _ handled
    exact absurd (failed.symm.trans handled) (by simp)
  · trivial

-- One byte stands behind C0C1 and is lost with it.
def crowded : List Arrival := [.appended (3::(C1S1Handle.fours++[9])) C1S1Handle.foursCrypto 0]

theorem crowded_left : ((handling freshHandshake).run crowded).map
    (fun result => (result.1.recvBuffer,(appended result.2).drop (due result.2))) = .ok ([],[9]) := by
  decide +kernel

theorem behind_c0c1_lost : ¬ ∀ (hs : RtmpServerHandshake) (arrivals : List Arrival),
    (handling hs).Throughout Consumes arrivals := by
  intro always
  obtain ⟨⟨s,outputs⟩,ran,left⟩ := map_ok.mp crowded_left
  obtain ⟨emptied,kept⟩ := Prod.mk.inj left
  have consumes := always freshHandshake crowded crowded [] s outputs (List.append_nil _).symm ran
  exact absurd (emptied.symm.trans (consumes.1.trans kept)) (by decide)

end CoStream.CoRtmpSession
