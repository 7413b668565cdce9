import CoStream.WebSocketControl
import CoStream.WebSocketClient

namespace CoStream

namespace Frame

-- The two kinds of frames that make the session act: the one that closes it, and
-- those that are answered with data for the application or with pongs.
def closes (frame : Frame) : Bool := frame.fin && frame.opcode == wsOpCloseType
def answered (frame : Frame) : Bool :=
  frame.fin && (frame.opcode == wsOpContinueType || frame.opcode == wsOpTextType || frame.opcode == wsOpBinType ||
    frame.opcode == wsOpPingType)

end Frame

namespace WebSocketSessionBase
open Foundation

-- What a session does for these calls. HandleWsClose returns at once when close_
-- is set; else it sends its reply and closes.
def effects : Bool → List Action → List Action
  | _,[] => []
  | true,.handleWsClose _::rest => effects true rest
  | false,.handleWsClose data::rest => .handleWsClose data::WebSocketSession.closeReply data::effects true rest
  | close,action::rest => action::effects close rest

-- Behind HandleWsClose comes its reply and nothing else.
def CloseIsLast (done : List Action) : Prop :=
  ∀ before data after, done = before++.handleWsClose data::after → after = [WebSocketSession.closeReply data]

def NothingAnsweredBehind (frames : List Frame) : Prop :=
  frames.Pairwise fun earlier later => earlier.closes = true → later.answered = false
instance {frames : List Frame} : Decidable (NothingAnsweredBehind frames) := inferInstanceAs (Decidable (List.Pairwise _ _))

def isClose : Action → Bool
  | .handleWsClose _ => true
  | _ => false

variable {frame : Frame} {actions rest : List Action}

theorem effects_other (close : Bool) (other : isClose action = false) :
    effects close (action::rest) = action::effects close rest := by
  cases action <;> cases close <;> first | rfl | cases other

theorem effects_others (close : Bool) (others : ∀ action ∈ actions, isClose action = false) (rest : List Action) :
    effects close (actions++rest) = actions++effects close rest := by
  induction actions with
  | nil => rfl
  | cons action actions ih =>
    rw [List.cons_append,effects_other close (others action List.mem_cons_self),
      ih fun other member => others other (List.mem_cons_of_mem _ member)]
    rfl

theorem effects_closed (payloads : List (List UInt8)) (rest : List Action) :
    effects true (payloads.map .handleWsClose++rest) = effects true rest := by
  induction payloads with
  | nil => rfl
  | cons payload payloads ih => exact ih

theorem closeReply_other (data : Bytes) : isClose (WebSocketSession.closeReply data) = false := by
  unfold WebSocketSession.closeReply
  split
  · rfl
  · dsimp only
    split <;> rfl

theorem closeIsLast_close (data : Bytes) (rest : List Action) :
    CloseIsLast (.handleWsClose data::WebSocketSession.closeReply data::rest) ↔ rest = [] := by
  constructor
  · intro last
    have only := last [] data _ rfl
    simpa using only
  · rintro rfl before other after split
    match before with
    | [] =>
      cases split
      rfl
    | [_] =>
      have reply := closeReply_other data
      simp only [List.cons_append,List.nil_append,List.cons.injEq] at split
      rw [split.2.1] at reply
      cases reply
    | _::_::_ =>
      have short := congrArg List.length split
      simp at short

theorem closeIsLast_others (others : ∀ action ∈ actions, isClose action = false) :
    CloseIsLast (actions++rest) ↔ CloseIsLast rest := by
  induction actions with
  | nil => rfl
  | cons action actions ih =>
    rw [← ih fun other member => others other (List.mem_cons_of_mem _ member)]
    have first := others action List.mem_cons_self
    constructor
    · intro last before data after split
      exact last (action::before) data after (by simp [split])
    · intro last before data after split
      cases before with
      | nil =>
        simp only [List.cons_append,List.nil_append,List.cons.injEq] at split
        rw [split.1] at first
        cases first
      | cons head before =>
        simp only [List.cons_append,List.cons.injEq] at split
        exact last before data after split.2

theorem accept_closes (a : Assembly) (closes : frame.closes = true) :
    (a.accept frame).2 = (a.pending++[frame.payload]).map .handleWsClose := by
  simp only [Frame.closes,Bool.and_eq_true,beq_iff_eq] at closes
  simp [Assembly.accept,closes.1,Assembly.answers,closes.2,wsOpCloseType,wsOpPingType,wsOpPongType]

theorem answers_others (plain : opcode ≠ wsOpCloseType) (pending : List (List UInt8)) :
    ∀ action ∈ Assembly.answers opcode last pending, isClose action = false := by
  unfold Assembly.answers
  intro action member
  split at member
  · obtain ⟨payload,-,rfl⟩ := List.mem_map.mp member
    rfl
  split at member
  · cases member
  split at member
  · obtain ⟨payload,-,rfl⟩ := List.mem_map.mp member
    rfl
  split at member
  · obtain ⟨payload,-,rfl⟩ := List.mem_map.mp member
    rfl
  · cases member

theorem answers_nothing (plain : opcode ≠ wsOpCloseType) (some : pending ≠ []) : Assembly.answers opcode last pending = [] ↔
    (opcode == wsOpContinueType || opcode == wsOpTextType || opcode == wsOpBinType || opcode == wsOpPingType) = false := by
  unfold Assembly.answers
  by_cases ping : opcode = wsOpPingType
  · simp [ping,some]
  by_cases pong : opcode = wsOpPongType
  · simp [pong,wsOpPongType,wsOpPingType,wsOpContinueType,wsOpTextType,wsOpBinType]
  by_cases continued : opcode = wsOpContinueType
  · simp [continued,some,wsOpPongType,wsOpPingType,wsOpCloseType,wsOpContinueType]
  by_cases data : opcode = wsOpTextType ∨ opcode = wsOpBinType
  · rcases data with text | binary
    · simp [text,some,wsOpPongType,wsOpPingType,wsOpCloseType,wsOpContinueType,wsOpTextType]
    · simp [binary,some,wsOpPongType,wsOpPingType,wsOpCloseType,wsOpContinueType,wsOpBinType]
  · have apart := not_or.mp data
    simp [ping,pong,plain,continued,apart.1,apart.2]

theorem accept_others (a : Assembly) (plain : frame.closes = false) :
    ∀ action ∈ (a.accept frame).2, isClose action = false := by
  unfold Assembly.accept
  dsimp only
  split
  · rename_i fin
    have other : frame.opcode ≠ wsOpCloseType := by simpa [Frame.closes,fin] using plain
    exact answers_others other _
  · simp

theorem accept_nothing (a : Assembly) (plain : frame.closes = false) : (a.accept frame).2 = [] ↔ frame.answered = false := by
  unfold Assembly.accept Frame.answered
  dsimp only
  split
  · rename_i fin
    have other : frame.opcode ≠ wsOpCloseType := by simpa [Frame.closes,fin] using plain
    rw [answers_nothing other (by simp),fin,Bool.true_and]
  · rename_i fin
    simp [fin]

theorem closes_unanswered (closes : frame.closes = true) : frame.answered = false := by
  simp only [Frame.closes,Bool.and_eq_true,beq_iff_eq] at closes
  simp [Frame.answered,closes.2,wsOpCloseType,wsOpContinueType,wsOpTextType,wsOpBinType,wsOpPingType]

-- A closed session does nothing for frames exactly if none of them is answered.
theorem absorb_closed (frames : List Frame) (a : Assembly) :
    effects true (a.absorb frames).2 = [] ↔ ∀ frame ∈ frames, frame.answered = false := by
  induction frames generalizing a with
  | nil => simp [Assembly.absorb,effects]
  | cons frame rest ih =>
    rw [Assembly.absorb,List.forall_mem_cons]
    cases closes : frame.closes with
    | true =>
      rw [accept_closes a closes,effects_closed,ih]
      exact ⟨fun silent => ⟨closes_unanswered closes,silent⟩,And.right⟩
    | false =>
      rw [effects_others true (accept_others a closes),List.append_eq_nil_iff,accept_nothing a closes,ih]

theorem absorb_closeIsLast (frames : List Frame) (a : Assembly) :
    CloseIsLast (effects false (a.absorb frames).2) ↔ NothingAnsweredBehind frames := by
  induction frames generalizing a with
  | nil =>
    refine ⟨fun _ => List.Pairwise.nil,fun _ before data after split => ?_⟩
    simp [Assembly.absorb,effects] at split
  | cons frame rest ih =>
    rw [Assembly.absorb,NothingAnsweredBehind,List.pairwise_cons]
    cases closes : frame.closes with
    | true =>
      obtain ⟨first,others,shape⟩ := List.exists_cons_of_ne_nil (l := a.pending++[frame.payload]) (by simp)
      rw [accept_closes a closes,shape,List.map_cons,List.cons_append,effects,effects_closed,closeIsLast_close,absorb_closed]
      constructor
      · intro silent
        refine ⟨fun later member _ => silent later member,?_⟩
        exact List.pairwise_of_forall_mem_list fun _ _ later member _ => silent later member
      · exact fun behind later member => behind.1 later member rfl
    | false =>
      rw [effects_others false (accept_others a closes),closeIsLast_others (accept_others a closes),ih]
      constructor
      · exact fun behind => ⟨fun later member never => Bool.noConfusion never,behind⟩
      · exact And.right

-- Both ends do these things: what they send is what the effects send.
def serverSends (outputs : List WebSocketSession.Output) : List Action :=
  outputs.filterMap fun
    | .frame (.sendWsFrame data opCode) => some (.sendWsFrame data opCode)
    | _ => none
def clientSends (outputs : List WebSocketClient.Output) : List Action :=
  outputs.filterMap fun
    | .frame (.sendWsFrame data opCode) => some (.sendWsFrame data opCode)
    | _ => none

theorem closeReply_sends (data : Bytes) : ∃ reply opCode, WebSocketSession.closeReply data = .sendWsFrame reply opCode := by
  unfold WebSocketSession.closeReply
  split
  · exact ⟨_,_,rfl⟩
  · dsimp only
    split
    · exact ⟨_,_,rfl⟩
    · exact ⟨_,_,rfl⟩

theorem effects_cons (close : Bool) (action : Action) (rest : List Action) :
    effects close (action::rest) = effects close [action]++effects (close || isClose action) rest := by
  cases action <;> cases close <;> rfl

theorem server_perform (s : WebSocketSession) (action : Action) :
    serverSends (s.perform action).2 = sentFrames (effects s.base.close [action]) ∧
      (s.perform action).1.base.close = (s.base.close || isClose action) := by
  cases action with
  | handleWsClose data =>
    obtain ⟨reply,opCode,sends⟩ := closeReply_sends data
    cases closed : s.base.close with
    | false => simp [WebSocketSession.perform,closed,effects,sends,sentFrames,serverSends,isClose]
    | true => simp [WebSocketSession.perform,closed,effects,sentFrames,serverSends]
  | handleWsData data opCode =>
    rw [effects_other _ rfl]
    simp only [WebSocketSession.perform]
    split
    · split
      · simp [serverSends,sentFrames,effects,isClose]
      · split <;> simp [serverSends,sentFrames,effects,isClose]
    · simp [serverSends,sentFrames,effects,isClose]
  | _ => simp [WebSocketSession.perform,effects,sentFrames,serverSends,isClose]

theorem client_perform (client : WebSocketClient) (action : Action) :
    clientSends (client.perform action).2 = sentFrames (effects client.base.close [action]) ∧
      (client.perform action).1.base.close = (client.base.close || isClose action) := by
  cases action with
  | handleWsClose data =>
    obtain ⟨reply,opCode,sends⟩ := closeReply_sends data
    cases closed : client.base.close with
    | false => simp [WebSocketClient.perform,closed,effects,sends,sentFrames,clientSends,isClose]
    | true => simp [WebSocketClient.perform,closed,effects,sentFrames,clientSends]
  | handleWsData data opCode =>
    rw [effects_other _ rfl]
    simp only [WebSocketClient.perform]
    split
    · simp [clientSends,sentFrames,effects,isClose]
    · split <;> simp [clientSends,sentFrames,effects,isClose]
  | _ => simp [WebSocketClient.perform,effects,sentFrames,clientSends,isClose]

theorem server_effects (s : WebSocketSession) (actions : List Action) :
    serverSends (s.performAll actions).2 = sentFrames (effects s.base.close actions) := by
  induction actions generalizing s with
  | nil => simp [WebSocketSession.performAll,serverSends,sentFrames,effects]
  | cons action rest ih =>
    obtain ⟨now,closed⟩ := server_perform s action
    have later := ih (s.perform action).1
    rw [closed] at later
    rw [effects_cons,sentFrames_append,← now,← later]
    simp [WebSocketSession.performAll,serverSends]

theorem client_effects (client : WebSocketClient) (actions : List Action) :
    clientSends (client.performAll actions).2 = sentFrames (effects client.base.close actions) := by
  induction actions generalizing client with
  | nil => simp [WebSocketClient.performAll,clientSends,sentFrames,effects]
  | cons action rest ih =>
    obtain ⟨now,closed⟩ := client_perform client action
    have later := ih (client.perform action).1
    rw [closed] at later
    rw [effects_cons,sentFrames_append,← now,← later]
    simp [WebSocketClient.performAll,clientSends]

theorem closeIsLast_iff (reads : List Read) (below : FramesBelow (stream reads)) (live : LiveBelow reads) :
    ∃ s actions, machine.run reads = .ok (s,actions) ∧
      (CloseIsLast (effects false (calls actions)) ↔ NothingAnsweredBehind (frameDecoder.drain (stream reads)).1) := by
  obtain ⟨s,actions,ran,-,-,-,drained⟩ := run_good reads below
  have answered := (drained live).2
  refine ⟨s,actions,ran,?_⟩
  have exactly := absorb_closeIsLast (frameDecoder.drain (stream reads)).1 ⟨[],1⟩
  rw [answered] at exactly
  exact exactly

theorem farewell_last : ∃ s actions, machine.run [⟨0,[0x81,1,104]⟩,⟨0,[0x88,0]⟩] = .ok (s,actions) ∧
    CloseIsLast (effects false (calls actions)) := by
  have below : FramesBelow (stream [⟨0,[0x81,1,104]⟩,⟨0,[0x88,0]⟩]) := framesBelow_complete (by decide) (by decide)
  obtain ⟨s,actions,ran,exactly⟩ := closeIsLast_iff _ below (liveBelow_short below (by decide))
  exact ⟨s,actions,ran,exactly.mpr (by decide)⟩

-- A ping behind the close frame, in one read.
theorem ping_behind_close : ∃ s actions, machine.run [⟨0,[0x88,0,0x89,0]⟩] = .ok (s,actions) ∧
    ¬ CloseIsLast (effects false (calls actions)) := by
  have made : (machine.run [⟨0,[0x88,0,0x89,0]⟩]).map (fun result => calls result.2) =
      .ok [.handleWsClose [],.sendWsFrame [] wsOpPongType] := by decide
  obtain ⟨⟨s,actions⟩,ran,called⟩ := map_ok.mp made
  refine ⟨s,actions,ran,?_⟩
  rw [show calls actions = _ from called]
  intro last
  have only := last [] [] _ rfl
  exact absurd only (by decide)

end WebSocketSessionBase
end CoStream
