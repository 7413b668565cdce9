import CoStream.WebSocketParse
import CoStream.WebSocketSessionBase

namespace CoStream.WebSocketSessionBase
open Foundation
open WebSocketFrame (Pending Agrees parse_good parse_bad)

variable {s next : WebSocketSessionBase} {h : Header} {input data : List UInt8}

-- What a receiver of frames is for: it collects payloads until a frame has the
-- fin bit, then answers the collected ones according to that frame's opcode.
structure Assembly where
  pending : List (List UInt8)
  lastOpCode : UInt8
deriving DecidableEq,Repr

namespace Assembly

def answers (opcode lastOpCode : UInt8) (pending : List (List UInt8)) : List Action :=
  if opcode = wsOpPingType then pending.map (.sendWsFrame · wsOpPongType)
  else if opcode = wsOpPongType then []
  else if opcode = wsOpCloseType then pending.map .handleWsClose
  else if opcode = wsOpContinueType then pending.map (.handleWsData · lastOpCode)
  else if opcode = wsOpTextType ∨ opcode = wsOpBinType then pending.map (.handleWsData · opcode)
  else []

def remember (opcode lastOpCode : UInt8) : UInt8 :=
  if opcode = wsOpTextType ∨ opcode = wsOpBinType then opcode else lastOpCode

def accept (a : Assembly) (frame : Frame) : Assembly × List Action :=
  let lastOpCode := remember frame.opcode a.lastOpCode
  let pending := a.pending++[frame.payload]
  if frame.fin then (⟨[],lastOpCode⟩,answers frame.opcode lastOpCode pending) else (⟨pending,lastOpCode⟩,[])

def absorb (a : Assembly) : List Frame → Assembly × List Action
  | [] => (a,[])
  | frame::rest => ((absorb (a.accept frame).1 rest).1,(a.accept frame).2++(absorb (a.accept frame).1 rest).2)

theorem absorb_append (a : Assembly) (first second : List Frame) : a.absorb (first++second) =
    (((a.absorb first).1.absorb second).1,(a.absorb first).2++((a.absorb first).1.absorb second).2) := by
  induction first generalizing a with
  | nil => rfl
  | cons frame first ih => simp [absorb,ih]

end Assembly

def assembly (s : WebSocketSessionBase) : Assembly := ⟨s.recvBufferVec,s.lastOpCode⟩

def calls (actions : List Action) : List Action :=
  actions.filter fun
    | .parsed _ => false
    | .consumed _ _ => false
    | _ => true

@[simp] theorem calls_append : calls (first++second) = calls first++calls second := by simp [calls]
@[simp] theorem calls_parsed (frame : WebSocketFrame) : calls (.parsed frame::rest) = calls rest := by simp [calls]
@[simp] theorem calls_consumed (before after : Nat) : calls (.consumed before after::rest) = calls rest := by
  simp [calls]

theorem calls_answers : calls (Assembly.answers opcode last pending) = Assembly.answers opcode last pending := by
  unfold Assembly.answers
  split
  · simp [calls]
  split
  · rfl
  split
  · simp [calls]
  split
  · simp [calls]
  split
  · simp [calls]
  · rfl

theorem calls_accept (a : Assembly) (frame : Frame) : calls (a.accept frame).2 = (a.accept frame).2 := by
  unfold Assembly.accept
  dsimp only
  split
  · exact calls_answers
  · rfl

-- The fields of a frame for which Parse returned 0 lie inside the buffer.
def Inside (frame : WebSocketFrame) : Prop :=
  2 ≤ frame.payloadStart ∧ frame.payloadStart ≤ 14 ∧ 0 ≤ frame.payloadLen ∧
    frame.payloadStart+frame.payloadLen ≤ frame.buffer.length

def Sound : Action → Prop
  | .parsed frame => Inside frame
  | .consumed before after => after+2 ≤ before
  | _ => True

theorem accept_sound {a : Assembly} {frame : Frame} (member : action ∈ (a.accept frame).2) : Sound action := by
  rw [← calls_accept] at member
  obtain ⟨-,visible⟩ := List.mem_filter.mp member
  cases action with
  | parsed frame => cases visible
  | consumed before after => cases visible
  | handleWsData data opCode => trivial
  | sendWsFrame data opCode => trivial
  | handleWsClose data => trivial

theorem finish_exact (nowMs : Int) (s : WebSocketSessionBase) : ∃ next,
    finish nowMs s = (next,if s.frame.fin then Assembly.answers s.frame.opcode s.lastOpCode s.recvBufferVec else []) ∧
      next.frame = s.frame ∧ next.lastOpCode = s.lastOpCode ∧
      next.recvBufferVec = if s.frame.fin then [] else s.recvBufferVec := by
  unfold finish
  split
  · unfold switch Assembly.answers handleWsPing
    dsimp only
    split
    · exact ⟨_,rfl,rfl,rfl,rfl⟩
    split
    · exact ⟨_,rfl,rfl,rfl,rfl⟩
    split
    · exact ⟨_,rfl,rfl,rfl,rfl⟩
    split
    · exact ⟨_,rfl,rfl,rfl,rfl⟩
    split
    · exact ⟨_,rfl,rfl,rfl,rfl⟩
    · exact ⟨_,rfl,rfl,rfl,rfl⟩
  · exact ⟨_,rfl,rfl,rfl,rfl⟩

theorem rememberOpCode_exact (s : WebSocketSessionBase) :
    s.rememberOpCode = {s with lastOpCode:=Assembly.remember s.frame.opcode s.lastOpCode} := by
  unfold rememberOpCode Assembly.remember
  split <;> rfl

theorem finish_collect (nowMs : Int) (s : WebSocketSessionBase) (payload : List UInt8) (consumed : WebSocketFrame)
    (same : s.frame.opcode = consumed.opcode) : ∃ next,
    finish nowMs (s.collect payload consumed) =
      (next,(s.assembly.accept ⟨consumed.fin,consumed.opcode,payload⟩).2) ∧
    next.frame = consumed.reset ∧ next.assembly = (s.assembly.accept ⟨consumed.fin,consumed.opcode,payload⟩).1 := by
  obtain ⟨next,finished,kept,last,vec⟩ := finish_exact nowMs (s.collect payload consumed)
  have remembered : (s.collect payload consumed).lastOpCode = Assembly.remember consumed.opcode s.lastOpCode := by
    rw [collect,rememberOpCode_exact,same]
  rw [remembered] at last finished
  refine ⟨next,finished.trans ?_,kept,?_⟩
  · simp only [collect,WebSocketFrame.reset,Assembly.accept,assembly]
    by_cases fin : consumed.fin = true <;> simp [fin]
  · simp only [assembly,last,vec,collect,WebSocketFrame.reset,Assembly.accept]
    by_cases fin : consumed.fin = true <;> simp [fin]

-- The rest of a pass, once Parse has returned 0 for the header `h` in front of
-- `input`: it takes exactly that frame off.
section taken
variable {frame : WebSocketFrame}

theorem arrived_whole (arrived : (h.start : Int)+h.len ≤ toInt input.length) : h.Whole input := by
  have narrow := toInt_le input.length
  simp only [Header.Whole]
  omega

theorem length_opened (whole : h.Whole input) : (h.opened input).length = input.length := by
  simp only [Header.Whole] at whole
  simp only [Header.opened,List.length_append,List.length_take,Header.length_unmask,List.length_drop]
  omega

theorem len_good (arrived : (h.start : Int)+h.len ≤ toInt input.length) (agrees : Agrees frame h) :
    frame.payloadLen = h.len := by
  obtain ⟨-,high⟩ := toInt_range input.length
  rw [agrees.len,toInt64_fits (by constructor <;> omega)]

variable (found : Header.read? input = some h) (arrived : (h.start : Int)+h.len ≤ toInt input.length)
  (agrees : Agrees frame h) (buffer : frame.buffer = h.opened input)
include arrived agrees buffer

theorem payload_good : frame.payload = .ok (h.frame input).payload := by
  have whole := arrived_whole arrived
  obtain ⟨-,high⟩ := toInt_range input.length
  simp only [Header.Whole] at whole
  have size : toSize h.len = h.len := by rw [toSize_fits (by omega) (by omega)]; omega
  have dropped : (h.opened input).drop h.start =
      h.unmask ((input.drop h.start).take h.len)++input.drop (h.start+h.len) := by
    rw [Header.opened,List.append_assoc,List.drop_left' (by rw [List.length_take]; omega)]
  have count : (h.unmask ((input.drop h.start).take h.len)).length = h.len := by
    rw [Header.length_unmask,List.length_take,List.length_drop]
    omega
  simp only [WebSocketFrame.payload,agrees.start,len_good arrived agrees,Int.toNat_natCast,buffer,dropped,size]
  rw [if_pos (by rw [List.length_append]; omega),List.take_left' count]
  rfl

theorem consume_good : frame.consume (frame.payloadStart+frame.payloadLen) =
    {frame with buffer:=input.drop (h.start+h.len)} := by
  have whole := arrived_whole arrived
  have same := length_opened whole
  obtain ⟨-,high⟩ := toInt_range input.length
  simp only [Header.Whole] at whole
  have size : toInt (toSize ((h.start : Int)+h.len)) = (h.start+h.len : Nat) := by
    rw [toSize_fits (by omega) (by omega),toInt_fits (by constructor <;> omega)]
    omega
  have dropped : (h.opened input).drop (h.start+h.len) = input.drop (h.start+h.len) := by
    rw [Header.opened,List.drop_left']
    rw [List.length_append,Header.length_unmask,List.length_take,List.length_take,List.length_drop]
    omega
  have sum : frame.payloadStart+frame.payloadLen = (h.start : Int)+h.len := by
    rw [agrees.start,len_good arrived agrees]
  rw [sum]
  simp only [WebSocketFrame.consume,size,buffer,same,Int.toNat_natCast,dropped]
  rw [if_neg (by omega)]

include found

theorem inside_good : Inside frame := by
  have bounds := Header.read?_bounds found
  have whole := arrived_whole arrived
  have same := length_opened whole
  simp only [Header.Whole] at whole
  simp only [Inside,agrees.start,len_good arrived agrees,buffer,same]
  omega

theorem payloadIsReady_good : frame.payloadIsReady = .ok true := by
  have bounds := Header.read?_bounds found
  have same := length_opened (arrived_whole arrived)
  obtain ⟨low,high⟩ := toInt_range input.length
  have room : int (toInt input.length-h.start) = .ok (toInt input.length-h.start) :=
    int_ok (by constructor <;> omega)
  have len : toInt h.len = h.len := toInt_fits (by constructor <;> omega)
  simp only [WebSocketFrame.payloadIsReady,buffer,same,agrees.start,len_good arrived agrees,room,ok_bind,pure_ok,len]
  rw [decide_eq_true (by omega)]

theorem takeFrame_good (nowMs : Int) (framed : s.frame = frame) : ∃ next,
    takeFrame nowMs s = .ok (next,.parsed frame::.consumed input.length (input.drop (h.start+h.len)).length::
      (s.assembly.accept (h.frame input)).2,none) ∧
    next.frame.buffer = input.drop (h.start+h.len) ∧ next.frame.headerReady = false ∧
    next.assembly = (s.assembly.accept (h.frame input)).1 := by
  subst framed
  obtain ⟨-,high⟩ := toInt_range input.length
  have total : int64 (s.frame.payloadStart+s.frame.payloadLen) = .ok (s.frame.payloadStart+s.frame.payloadLen) := by
    rw [agrees.start,len_good arrived agrees]
    exact int64_ok (by constructor <;> omega)
  have frame : h.frame input = ⟨s.frame.fin,s.frame.opcode,(h.frame input).payload⟩ := by
    rw [agrees.fin,agrees.opcode]
    rfl
  obtain ⟨next,finished,kept,assembled⟩ := finish_collect nowMs s (h.frame input).payload
    {s.frame with buffer:=input.drop (h.start+h.len)} rfl
  refine ⟨next,?_,by rw [kept]; rfl,by rw [kept]; rfl,by rw [frame]; exact assembled⟩
  unfold takeFrame
  rw [payloadIsReady_good found arrived agrees buffer,ok_bind,if_pos rfl,payload_good arrived agrees buffer,ok_bind,total,
    ok_bind,consume_good arrived agrees buffer]
  simp only [finished]
  rw [buffer,length_opened (arrived_whole arrived),← frame]

end taken

-- The places a header can be read from keep below the signed range.
def FramesBelow (input : List UInt8) : Prop :=
  ∀ place h, frameDecoder.Reaches input place → Header.read? place = some h → h.start+h.len < 2^63

theorem framesBelow_reached (below : FramesBelow input) (reached : frameDecoder.Reaches input place) :
    FramesBelow place := fun _ _ later => below _ _ (reached.trans later)

theorem framesBelow_front (more : List UInt8) (below : FramesBelow (input++more)) : FramesBelow input :=
  fun _ _ reached found => below _ _ (reached.append more) (Header.read?_append found more)

theorem pending_unready {frame : WebSocketFrame} (unready : frame.headerReady = false) : Pending frame :=
  fun ready => absurd ready (by simp [unready])

-- One pass either leaves the loop, with everything it was given still in the
-- buffer, or takes the first frame off and answers it.
theorem pass_good (nowMs : Int) (pending : Pending s.frame) (data : List UInt8)
    (good : ∀ h, Header.read? (s.frame.buffer++data) = some h → h.start+h.len < 2^63) :
    (∃ next, pass nowMs s data = .ok (next,[],some 1) ∧ next.frame.buffer = s.frame.buffer++data ∧
      Pending next.frame ∧ next.assembly = s.assembly ∧
      ((s.frame.buffer++data).length < 2^31 → nextFrame (s.frame.buffer++data) = none)) ∨
    ∃ next parsed frame rest, pass nowMs s data = .ok (next,
        .parsed parsed::.consumed (s.frame.buffer++data).length rest.length::(s.assembly.accept frame).2,none) ∧
      nextFrame (s.frame.buffer++data) = some (frame,rest) ∧ rest.length+2 ≤ (s.frame.buffer++data).length ∧
      Inside parsed ∧ next.frame.buffer = rest ∧ Pending next.frame ∧ next.assembly = (s.assembly.accept frame).1 := by
  unfold pass
  rcases parse_good pending data good with
    ⟨frame,waits,kept,still,unfound⟩ | ⟨frame,h,parsed,found,arrived,agrees,buffer⟩
  · left
    rw [waits,ok_bind]
    exact ⟨_,rfl,kept,still,rfl,unfound⟩
  · right
    have bounds := Header.read?_bounds found
    have whole := arrived_whole arrived
    obtain ⟨next,taken,left,unready,assembled⟩ :=
      takeFrame_good (s := {s with frame}) found arrived agrees buffer nowMs rfl
    rw [parsed,ok_bind]
    refine ⟨next,frame,h.frame (s.frame.buffer++data),_,taken,nextFrame_some.mpr ⟨h,found,whole,rfl,rfl⟩,?_,
      inside_good found arrived agrees buffer,left,pending_unready unready,assembled⟩
    simp only [Header.Whole] at whole
    rw [List.length_drop]
    omega

-- The loop ends, each of its passes stays inside the buffer, and it stops at a
-- place of the stream. Below the range of `int` it stops nowhere else than the
-- decoder does, having answered the frames up to there.
theorem loop_good (nowMs : Int) (fuel : Nat) (pending : Pending s.frame) (data : List UInt8)
    (enough : (s.frame.buffer++data).length < fuel) (below : FramesBelow (s.frame.buffer++data)) :
    ∃ next actions ret, loop nowMs fuel s data = .ok (next,actions,ret) ∧ (∀ action ∈ actions, Sound action) ∧
      Pending next.frame ∧ frameDecoder.Reaches (s.frame.buffer++data) next.frame.buffer ∧
      ((s.frame.buffer++data).length < 2^31 →
        next.frame.buffer = (frameDecoder.drain (s.frame.buffer++data)).2 ∧
        s.assembly.absorb (frameDecoder.drain (s.frame.buffer++data)).1 = (next.assembly,calls actions)) := by
  induction fuel generalizing s data with
  | zero => omega
  | succ fuel ih =>
    unfold loop
    rcases pass_good nowMs pending data fun h => below _ h .here with
      ⟨next,passed,kept,still,assembled,unfound⟩ |
      ⟨next,parsed,frame,rest,passed,found,shorter,inside,left,still,assembled⟩
    · rw [passed,ok_bind]
      refine ⟨next,[],1,rfl,by simp,still,by rw [kept]; exact .here,fun short => ?_⟩
      rw [frameDecoder.drain_none (unfound short)]
      exact ⟨kept,by rw [assembled]; rfl⟩
    · rw [passed,ok_bind]
      have sound : ∀ action ∈ Action.parsed parsed::.consumed (s.frame.buffer++data).length rest.length::
          (s.assembly.accept frame).2, Sound action := by
        simp only [List.mem_cons,forall_eq_or_imp]
        exact ⟨inside,shorter,fun _ => accept_sound⟩
      have called : calls (Action.parsed parsed::.consumed (s.frame.buffer++data).length rest.length::
          (s.assembly.accept frame).2) = (s.assembly.accept frame).2 := by
        rw [calls_parsed,calls_consumed,calls_accept]
      have drained := frameDecoder.drain_some found
      have reached : frameDecoder.Reaches (s.frame.buffer++data) rest := .step found .here
      dsimp only
      split
      · have again : next.frame.buffer++[] = rest := by rw [left,List.append_nil]
        obtain ⟨final,later,ret,looped,laterSound,finalPending,on,exact_⟩ :=
          ih still [] (by rw [again]; omega) (by rw [again]; exact framesBelow_reached below reached)
        rw [again] at on exact_
        rw [looped,ok_bind]
        refine ⟨final,_,ret,rfl,?_,finalPending,.step found on,fun short => ?_⟩
        · intro action member
          rcases List.mem_append.mp member with early | late
          · exact sound action early
          · exact laterSound action late
        · obtain ⟨place,answered⟩ := exact_ (by omega)
          rw [drained,calls_append,called,Assembly.absorb,← assembled,answered]
          exact ⟨place,rfl⟩
      · rename_i empty
        have nothing : rest = [] := by
          rw [left] at empty
          exact List.length_eq_zero_iff.mp (by omega)
        refine ⟨next,_,0,rfl,sound,still,by rw [left]; exact reached,fun short => ?_⟩
        rw [called,drained,nothing,frameDecoder.drain_nil,left,nothing,assembled]
        exact ⟨rfl,by simp [Assembly.absorb]⟩

theorem step_good (pending : Pending s.frame) (read : Read) (below : FramesBelow (s.frame.buffer++read.data)) :
    ∃ next actions, step s read = .ok (next,actions) ∧ (∀ action ∈ actions, Sound action) ∧ Pending next.frame ∧
      frameDecoder.Reaches (s.frame.buffer++read.data) next.frame.buffer ∧
      (s.frame.buffer.length+read.data.length < 2^31 →
        next.frame.buffer = (frameDecoder.drain (s.frame.buffer++read.data)).2 ∧
        s.assembly.absorb (frameDecoder.drain (s.frame.buffer++read.data)).1 = (next.assembly,calls actions)) := by
  obtain ⟨next,actions,ret,looped,sound,still,reached,drained⟩ :=
    loop_good read.nowMs (s.frame.buffer.length+read.data.length+1) pending read.data
      (by rw [List.length_append]; omega) below
  refine ⟨next,actions,?_,sound,still,reached,fun short => drained (by rwa [List.length_append])⟩
  rw [step,handleFrame,looped,ok_bind]
  rfl

@[simp] theorem stream_append : stream (first++second) = stream first++stream second := by simp [stream]
@[simp] theorem stream_single (read : Read) : stream [read] = read.data := by simp [stream]

-- The buffer never holds more than an `int` can count.
def LiveBelow (reads : List Read) : Prop :=
  ∀ before read after s actions, reads = before++read::after → machine.run before = .ok (s,actions) →
    s.frame.buffer.length+read.data.length < 2^31

theorem liveBelow_front (more : List Read) (live : LiveBelow (reads++more)) : LiveBelow reads := by
  intro before read after s actions split
  exact live before read (after++more) s actions (by simp [split])

-- Whole runs: as long as every header keeps below 2^63 the run is defined and
-- sound. If the buffer stays in `int` too, it answers the frames of the stream.
theorem run_good (reads : List Read) (below : FramesBelow (stream reads)) :
    ∃ final actions, machine.run reads = .ok (final,actions) ∧ (∀ action ∈ actions, Sound action) ∧
      Pending final.frame ∧ frameDecoder.Reaches (stream reads) final.frame.buffer ∧
      (LiveBelow reads → final.frame.buffer = (frameDecoder.drain (stream reads)).2 ∧
        Assembly.absorb ⟨[],1⟩ (frameDecoder.drain (stream reads)).1 = (final.assembly,calls actions)) := by
  induction reads using List.reverseRecOn with
  | nil =>
    refine ⟨{},[],rfl,by simp,pending_unready rfl,.here,fun _ => ?_⟩
    rw [stream,List.flatMap_nil,frameDecoder.drain_nil]
    exact ⟨rfl,rfl⟩
  | append_singleton before read ih =>
    rw [stream_append,stream_single] at below ⊢
    obtain ⟨middle,earlier,ran,sound,pending,reached,drained⟩ := ih (framesBelow_front _ below)
    obtain ⟨final,actions,stepped,nextSound,still,on,drainedNext⟩ :=
      step_good pending read (framesBelow_reached below (reached.append read.data))
    refine ⟨final,earlier++actions,machine.runFrom_snoc.mpr ⟨middle,earlier,actions,ran,stepped,rfl⟩,?_,still,
      (reached.append read.data).trans on,fun live => ?_⟩
    · intro action member
      rcases List.mem_append.mp member with early | late
      · exact sound action early
      · exact nextSound action late
    · obtain ⟨place,answered⟩ := drained (liveBelow_front [read] live)
      obtain ⟨placeNext,answeredNext⟩ := drainedNext (live before read [] middle earlier rfl ran)
      rw [frameDecoder.drain_append,Assembly.absorb_append,answered,calls_append,← place]
      exact ⟨placeNext,by rw [answeredNext]⟩

-- A stream of whole frames announces nothing that does not come.
theorem complete_inside (complete : (frameDecoder.drain input).2 = []) (reached : frameDecoder.Reaches input place)
    (found : Header.read? place = some h) : h.start+h.len ≤ input.length := by
  have inside := reached.length_le
  by_cases whole : h.Whole place
  · simp only [Header.Whole] at whole
    omega
  · have waits : nextFrame place = none := by
      rw [nextFrame_none]
      intro other again
      rw [found] at again
      cases again
      exact whole
    rw [reached.waits waits,complete] at found
    cases found

theorem framesBelow_complete (complete : (frameDecoder.drain input).2 = []) (short : input.length < 2^63) :
    FramesBelow input :=
  fun _ _ reached found => Nat.lt_of_le_of_lt (complete_inside complete reached found) short

theorem liveBelow_short (below : FramesBelow (stream reads)) (short : (stream reads).length < 2^31) :
    LiveBelow reads := by
  rintro before read after s actions rfl ran
  rw [stream_append] at below short
  obtain ⟨same,others,again,-,-,reached,-⟩ := run_good before (framesBelow_front _ below)
  cases ran.symm.trans again
  have inside := reached.length_le
  simp only [stream,List.flatMap_cons,List.length_append] at short inside
  omega

theorem run_complete (whole : frameDecoder.drain (stream reads) = (frames,[])) (short : (stream reads).length < 2^63)
    (live : LiveBelow reads) : ∃ final actions, machine.run reads = .ok (final,actions) ∧
      final.frame.buffer = [] ∧ Assembly.absorb ⟨[],1⟩ frames = (final.assembly,calls actions) := by
  obtain ⟨final,actions,ran,-,-,-,drained⟩ := run_good reads (framesBelow_complete (by rw [whole]) short)
  obtain ⟨place,answered⟩ := drained live
  rw [whole] at place answered
  exact ⟨final,actions,ran,place,answered⟩

end CoStream.WebSocketSessionBase
