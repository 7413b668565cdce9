import CoStream.WebSocketSwitch
import CoStream.WebSocketStream

namespace CoStream
open Foundation

-- The frame that HandleFrame takes the clock for.
def Frame.isPong (frame : Frame) : Bool := frame.fin && frame.opcode == wsOpPongType

namespace WebSocketSessionBase
open WebSocketFrame (Pending)

-- What the virtual calls of HandleFrame and the rest of the two ends leave alone.
structure SameClocks (s next : WebSocketSessionBase) : Prop where
  frame : next.frame = s.frame
  ping : next.lastSendPingMs = s.lastSendPingMs
  pong : next.lastRecvPongMs = s.lastRecvPongMs

-- A call of HandleFrame moves the time of the last pong to its own, or nowhere.
structure Clocks (nowMs : Int) (s next : WebSocketSessionBase) : Prop where
  ping : next.lastSendPingMs = s.lastSendPingMs
  pong : next.lastRecvPongMs = s.lastRecvPongMs ∨ next.lastRecvPongMs = nowMs

variable {nowMs : Int} {s middle next : WebSocketSessionBase} {data : List UInt8}

theorem SameClocks.refl (s : WebSocketSessionBase) : SameClocks s s := ⟨rfl,rfl,rfl⟩

theorem SameClocks.trans (first : SameClocks s middle) (second : SameClocks middle next) : SameClocks s next :=
  ⟨second.frame.trans first.frame,second.ping.trans first.ping,second.pong.trans first.pong⟩

theorem SameClocks.clocks (same : SameClocks s next) (nowMs : Int) : Clocks nowMs s next := ⟨same.ping,.inl same.pong⟩

theorem Clocks.trans (first : Clocks nowMs s middle) (second : Clocks nowMs middle next) : Clocks nowMs s next where
  ping := second.ping.trans first.ping
  pong := by
    rcases second.pong with kept | taken
    · rw [kept]
      exact first.pong
    · exact .inr taken

theorem switch_pong (nowMs : Int) (s : WebSocketSessionBase) :
    (switch nowMs s).1.lastSendPingMs = s.lastSendPingMs ∧
      (switch nowMs s).1.lastRecvPongMs = if s.frame.opcode = wsOpPongType then nowMs else s.lastRecvPongMs := by
  unfold switch
  dsimp only
  split
  · rename_i ping
    rw [ping]
    exact ⟨rfl,rfl⟩
  · split
    · exact ⟨rfl,rfl⟩
    · split
      · exact ⟨rfl,rfl⟩
      · split
        · exact ⟨rfl,rfl⟩
        · split <;> exact ⟨rfl,rfl⟩

theorem finish_pong (nowMs : Int) (s : WebSocketSessionBase) :
    (finish nowMs s).1.lastSendPingMs = s.lastSendPingMs ∧ (finish nowMs s).1.lastRecvPongMs =
      if (s.frame.fin && s.frame.opcode == wsOpPongType) = true then nowMs else s.lastRecvPongMs := by
  unfold finish
  cases fin : s.frame.fin with
  | true =>
    obtain ⟨ping,pong⟩ := switch_pong nowMs {s with dieCount:=0}
    refine ⟨ping,pong.trans ?_⟩
    simp
  | false => exact ⟨rfl,rfl⟩

theorem collect_clocks (s : WebSocketSessionBase) (payload : List UInt8) (consumed : WebSocketFrame) :
    (s.collect payload consumed).lastSendPingMs = s.lastSendPingMs ∧
      (s.collect payload consumed).lastRecvPongMs = s.lastRecvPongMs ∧
      (s.collect payload consumed).frame = {consumed with payloadStart:=0,payloadLen:=0,headerReady:=false} := by
  unfold collect
  rw [rememberOpCode_exact]
  exact ⟨rfl,rfl,rfl⟩

theorem finish_collect_pong (nowMs : Int) (s : WebSocketSessionBase) (payload : List UInt8) (consumed : WebSocketFrame) :
    (finish nowMs (s.collect payload consumed)).1.lastSendPingMs = s.lastSendPingMs ∧
      (finish nowMs (s.collect payload consumed)).1.lastRecvPongMs =
        if (consumed.fin && consumed.opcode == wsOpPongType) = true then nowMs else s.lastRecvPongMs := by
  obtain ⟨ping,pong⟩ := finish_pong nowMs (s.collect payload consumed)
  obtain ⟨keptPing,keptPong,front⟩ := collect_clocks s payload consumed
  rw [ping,pong,keptPing,keptPong,front]
  exact ⟨rfl,rfl⟩

-- With a frame taken off, the clock is that of its header.
theorem takeFrame_pong (taken : takeFrame nowMs s = .ok (next,actions,left)) :
    next.lastSendPingMs = s.lastSendPingMs ∧ next.lastRecvPongMs =
      if left = none ∧ (s.frame.fin && s.frame.opcode == wsOpPongType) = true then nowMs else s.lastRecvPongMs := by
  unfold takeFrame at taken
  obtain ⟨ready,-,taken⟩ := bind_ok.mp taken
  split at taken
  · obtain ⟨payload,-,taken⟩ := bind_ok.mp taken
    obtain ⟨len,-,taken⟩ := bind_ok.mp taken
    simp only [Except.ok.injEq,Prod.mk.injEq] at taken
    have header : (s.frame.consume len).fin = s.frame.fin ∧ (s.frame.consume len).opcode = s.frame.opcode := by
      unfold WebSocketFrame.consume
      split <;> exact ⟨rfl,rfl⟩
    generalize s.frame.consume len = consumed at header taken
    obtain ⟨ping,pong⟩ := finish_collect_pong nowMs s payload consumed
    rw [← taken.1,← taken.2.2,ping,pong,header.1,header.2]
    exact ⟨rfl,by simp only [true_and]⟩
  · cases taken
    rw [if_neg (by simp),rememberOpCode_exact]
    exact ⟨rfl,rfl⟩

theorem pass_clocks (passed : pass nowMs s data = .ok (next,actions,left)) : Clocks nowMs s next := by
  unfold pass at passed
  obtain ⟨⟨frame,ret⟩,-,passed⟩ := bind_ok.mp passed
  dsimp only at passed
  split at passed
  · cases passed
    exact ⟨rfl,.inl rfl⟩
  · obtain ⟨ping,pong⟩ := takeFrame_pong passed
    refine ⟨ping,?_⟩
    split at pong
    · exact .inr pong
    · exact .inl pong

theorem loop_clocks (fuel : Nat) (looped : loop nowMs fuel s data = .ok (next,actions,ret)) : Clocks nowMs s next := by
  induction fuel generalizing s data actions with
  | zero => cases looped
  | succ fuel ih =>
    unfold loop at looped
    obtain ⟨⟨middle,first,left⟩,passed,looped⟩ := bind_ok.mp looped
    have kept := pass_clocks passed
    cases left with
    | some ret =>
      cases looped
      exact kept
    | none =>
      dsimp only at looped
      split at looped
      · obtain ⟨⟨final,later,ret⟩,again,looped⟩ := bind_ok.mp looped
        cases looped
        exact kept.trans (ih again)
      · cases looped
        exact kept

-- A pass that takes a frame off takes the clock for a pong; one that waits does
-- not.
theorem pass_pong (pending : Pending s.frame)
    (good : ∀ h, Header.read? (s.frame.buffer++data) = some h → h.start+h.len < 2^63)
    (passed : pass nowMs s data = .ok (next,actions,left)) :
    (left ≠ none → next.lastRecvPongMs = s.lastRecvPongMs) ∧
      (left = none → ∀ frame rest, nextFrame (s.frame.buffer++data) = some (frame,rest) →
        next.lastRecvPongMs = if frame.isPong then nowMs else s.lastRecvPongMs) := by
  unfold pass at passed
  rcases WebSocketFrame.parse_good pending data good with
    ⟨frame,waits,-,-,-⟩ | ⟨frame,h,parsed,found,arrived,agrees,-⟩
  · rw [waits,ok_bind] at passed
    cases passed
    exact ⟨fun _ => rfl,fun never => by cases never⟩
  · rw [parsed,ok_bind] at passed
    have taken := (takeFrame_pong (s := {s with frame}) passed).2
    constructor
    · intro waits
      rw [taken,if_neg fun both => waits both.1]
    · rintro rfl item rest next
      obtain ⟨other,again,-,rfl,-⟩ := nextFrame_some.mp next
      cases found.symm.trans again
      rw [taken,agrees.fin,agrees.opcode]
      simp [Frame.isPong,Header.frame]

-- The bytes a call of HandleFrame has before it are in the ranges of its
-- integers.
structure Fits (s : WebSocketSessionBase) (data : List UInt8) : Prop where
  below : FramesBelow (s.frame.buffer++data)
  short : (s.frame.buffer++data).length < 2^31

-- The frames that are complete with some new bytes.
def completes (s : WebSocketSessionBase) (data : List UInt8) : List Frame := (frameDecoder.drain (s.frame.buffer++data)).1

theorem loop_pong (fuel : Nat) (pending : Pending s.frame) (fits : Fits s data)
    (looped : loop nowMs fuel s data = .ok (next,actions,ret)) :
    next.lastRecvPongMs = if (s.completes data).any Frame.isPong then nowMs else s.lastRecvPongMs := by
  induction fuel generalizing s data actions with
  | zero => cases looped
  | succ fuel ih =>
    unfold loop at looped
    obtain ⟨⟨middle,first,left⟩,passed,looped⟩ := bind_ok.mp looped
    have pong := pass_pong pending (fun h => fits.below _ h .here) passed
    have short := fits.short
    unfold completes
    rcases pass_good nowMs pending data fun h => fits.below _ h .here with
      ⟨waiting,waits,-,-,-,unfound⟩ | ⟨taking,parsed,frame,rest,takes,found,shorter,-,place,still,-⟩
    · cases passed.symm.trans waits
      cases looped
      rw [frameDecoder.drain_none (unfound short)]
      exact pong.1 (Option.some_ne_none 1)
    · cases passed.symm.trans takes
      have now := pong.2 rfl frame rest found
      rw [frameDecoder.drain_some found,List.any_cons]
      dsimp only at looped
      split at looped
      · obtain ⟨⟨final,later,ret⟩,again,looped⟩ := bind_ok.mp looped
        cases looped
        have behind : middle.frame.buffer++[] = rest := by rw [place,List.append_nil]
        have later := ih still ⟨by rw [behind]; exact framesBelow_reached fits.below (.step found .here),
          by rw [behind]; omega⟩ again
        unfold completes at later
        rw [behind,now] at later
        rw [later]
        cases frame.isPong <;> simp
      · rename_i empty
        cases looped
        have nothing : rest = [] := by
          rw [place] at empty
          exact List.length_eq_zero_iff.mp (by omega)
        rw [now,nothing,frameDecoder.drain_nil]
        simp

-- What HandleFrame leaves behind for the next call.
theorem handleFrame_pong (pending : Pending s.frame) (fits : Fits s data)
    (handled : handleFrame nowMs s data = .ok (next,actions,ret)) : Pending next.frame ∧
      next.lastSendPingMs = s.lastSendPingMs ∧
      next.lastRecvPongMs = if (s.completes data).any Frame.isPong then nowMs else s.lastRecvPongMs := by
  obtain ⟨final,_,_,looped,-,still,-⟩ := loop_good nowMs (s.frame.buffer.length+data.length+1) pending data
    (by rw [List.length_append]; omega) fits.below
  unfold handleFrame at handled
  have same := congrArg Prod.fst (Except.ok.inj (looped.symm.trans handled))
  dsimp only at same
  exact ⟨same ▸ still,(loop_clocks _ handled).ping,loop_pong _ pending fits handled⟩

end WebSocketSessionBase

namespace WebSocketSession
open WebSocketFrame (Pending)
open WebSocketSessionBase (Clocks SameClocks Fits)
variable {sha1 : Bytes → Bytes} {server : WebSocketServer} {s next : WebSocketSession} {nowMs : Int}

theorem perform_clocks (s : WebSocketSession) (action : Action) : SameClocks s.base (s.perform action).1.base := by
  cases action with
  | handleWsData data opCode =>
    unfold perform
    dsimp only
    split
    · split
      · exact SameClocks.refl _
      · split <;> exact SameClocks.refl _
    · exact SameClocks.refl _
  | handleWsClose data =>
    unfold perform
    dsimp only
    split
    · exact SameClocks.refl _
    · exact ⟨rfl,rfl,rfl⟩
  | _ => exact SameClocks.refl _

theorem performAll_clocks (actions : List Action) (s : WebSocketSession) :
    SameClocks s.base (s.performAll actions).1.base := by
  induction actions generalizing s with
  | nil => exact SameClocks.refl _
  | cons action rest ih => exact (perform_clocks s action).trans (ih _)

theorem applyAll_clocks (calls : List SessionCall) (s : WebSocketSession) :
    SameClocks s.base (s.applyAll calls).1.base := by
  induction calls generalizing s with
  | nil => exact SameClocks.refl _
  | cons call rest ih =>
    have first : SameClocks s.base (s.apply call).1.base := by cases call <;> exact SameClocks.refl _
    exact first.trans (ih _)

theorem readHttp_clocks (data : Bytes) : SameClocks s.base (s.readHttp sha1 server data).1.base := by
  unfold readHttp onHandleHttpRequest
  dsimp only
  cases find? blankLine (s.httpRecvBuffer++data) with
  | none => exact SameClocks.refl _
  | some pos =>
    dsimp only
    cases read : readRequest server {s with httpRecvBuffer:=s.httpRecvBuffer++data,httpRequestReady:=true}
        ((s.httpRecvBuffer++data).take pos) with
    | error thrown =>
      obtain ⟨thrown,exn⟩ := thrown
      have kept := (readRequest_thrown read).1
      show SameClocks s.base {thrown.base with isConnected:=false}
      rw [kept]
      exact ⟨rfl,rfl,rfl⟩
    | ok result =>
      obtain ⟨filled,handle⟩ := result
      have kept := (readRequest_handle read).2.1
      have applied := applyAll_clocks (handle filled.path) filled
      rw [kept] at applied
      exact ⟨applied.frame,applied.ping,applied.pong⟩

-- A read brings a pong if the frames it completes do.
def hears (s : WebSocketSession) (retCode : Int) (data : Bytes) : Bool :=
  0 ≤ retCode && !s.base.close && s.httpRequestReady && (s.base.completes data).any Frame.isPong

theorem read_clocks (read : step sha1 server s (.read retCode data nowMs) = .ok (next,emitted)) :
    Clocks nowMs s.base next.base := by
  unfold step onRead at read
  dsimp only at read
  split at read
  · cases read
    exact (SameClocks.refl _).clocks nowMs
  · split at read
    · cases read
      exact ⟨rfl,.inl rfl⟩
    · split at read
      · unfold readFrames at read
        obtain ⟨⟨base,actions,ret⟩,handled,read⟩ := bind_ok.mp read
        cases read
        have kept := performAll_clocks actions {s with base}
        exact (WebSocketSessionBase.loop_clocks _ handled).trans (kept.clocks nowMs)
      · have same : s.readHttp sha1 server data = (next,emitted) := Except.ok.inj read
        have kept : SameClocks s.base (s.readHttp sha1 server data).1.base := readHttp_clocks data
        rw [same] at kept
        exact kept.clocks nowMs

theorem read_pong (pending : Pending s.base.frame) (fits : s.httpRequestReady = true → Fits s.base data)
    (read : step sha1 server s (.read retCode data nowMs) = .ok (next,emitted)) : Pending next.base.frame ∧
      next.base.lastSendPingMs = s.base.lastSendPingMs ∧
      next.base.lastRecvPongMs = if s.hears retCode data then nowMs else s.base.lastRecvPongMs := by
  have same : ∀ base : WebSocketSessionBase, SameClocks s.base base → s.hears retCode data = false →
      Pending base.frame ∧ base.lastSendPingMs = s.base.lastSendPingMs ∧
        base.lastRecvPongMs = if s.hears retCode data then nowMs else s.base.lastRecvPongMs := by
    intro base kept silent
    rw [silent,kept.frame]
    exact ⟨pending,kept.ping,kept.pong⟩
  unfold step onRead at read
  dsimp only at read
  split at read
  · rename_i closed
    cases read
    exact same _ (SameClocks.refl _) (by simp [hears,closed])
  · rename_i opened
    split at read
    · rename_i failed
      cases read
      exact same _ ⟨rfl,rfl,rfl⟩ (by simp [hears,show ¬ 0 ≤ retCode by omega])
    · rename_i came
      split at read
      · rename_i ready
        unfold readFrames at read
        obtain ⟨⟨base,actions,ret⟩,handled,read⟩ := bind_ok.mp read
        cases read
        obtain ⟨still,ping,pong⟩ := WebSocketSessionBase.handleFrame_pong pending (fits ready) handled
        have kept := performAll_clocks actions {s with base}
        have heard : s.hears retCode data = (s.base.completes data).any Frame.isPong := by
          simp [hears,opened,ready,show 0 ≤ retCode by omega]
        rw [heard]
        exact ⟨kept.frame ▸ still,kept.ping.trans ping,kept.pong.trans pong⟩
      · rename_i waiting
        have reached : s.readHttp sha1 server data = (next,emitted) := Except.ok.inj read
        have kept : SameClocks s.base (s.readHttp sha1 server data).1.base := readHttp_clocks data
        rw [reached] at kept
        exact same _ kept (by simp [hears,waiting])

end WebSocketSession
end CoStream
