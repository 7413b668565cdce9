import CoStream.WebSocketClose

namespace CoStream
open Foundation
namespace WebSocketSessionBase
open WebSocketFrame (Pending)
variable {s next : WebSocketSessionBase} {data : List UInt8}

-- HandleFrame leaves the two flags of the client alone; they change in its
-- virtual calls.
def SameFlags (next s : WebSocketSessionBase) : Prop := next.isConnected = s.isConnected ∧ next.close = s.close

theorem SameFlags.trans (second : SameFlags last next) (first : SameFlags next s) : SameFlags last s :=
  ⟨second.1.trans first.1,second.2.trans first.2⟩

theorem switch_flags (nowMs : Int) (s : WebSocketSessionBase) : SameFlags (switch nowMs s).1 s := by
  unfold switch
  dsimp only
  split
  · exact ⟨rfl,rfl⟩
  split
  · exact ⟨rfl,rfl⟩
  split
  · exact ⟨rfl,rfl⟩
  split
  · exact ⟨rfl,rfl⟩
  split
  · exact ⟨rfl,rfl⟩
  · exact ⟨rfl,rfl⟩

theorem finish_flags (nowMs : Int) (s : WebSocketSessionBase) : SameFlags (finish nowMs s).1 s := by
  unfold finish
  split
  · exact switch_flags nowMs {s with dieCount:=0}
  · exact ⟨rfl,rfl⟩

theorem rememberOpCode_flags (s : WebSocketSessionBase) : SameFlags s.rememberOpCode s := by
  unfold rememberOpCode
  split <;> exact ⟨rfl,rfl⟩

theorem collect_flags (s : WebSocketSessionBase) (payload : List UInt8) (consumed : WebSocketFrame) :
    SameFlags (s.collect payload consumed) s := by
  have kept := rememberOpCode_flags s
  unfold collect
  exact ⟨kept.1,kept.2⟩

theorem takeFrame_flags (taken : takeFrame nowMs s = .ok (next,actions,left)) : SameFlags next s := by
  unfold takeFrame at taken
  obtain ⟨ready,-,taken⟩ := bind_ok.mp taken
  split at taken
  · obtain ⟨payload,-,taken⟩ := bind_ok.mp taken
    obtain ⟨len,-,taken⟩ := bind_ok.mp taken
    simp only [Except.ok.injEq,Prod.mk.injEq] at taken
    rw [← taken.1]
    exact (finish_flags nowMs _).trans (collect_flags s payload _)
  · cases taken
    exact rememberOpCode_flags s

theorem pass_flags (passed : pass nowMs s data = .ok (next,actions,left)) : SameFlags next s := by
  unfold pass at passed
  obtain ⟨⟨frame,ret⟩,-,passed⟩ := bind_ok.mp passed
  dsimp only at passed
  split at passed
  · cases passed
    exact ⟨rfl,rfl⟩
  · exact (takeFrame_flags passed).trans ⟨rfl,rfl⟩

theorem loop_flags (fuel : Nat) (looped : loop nowMs fuel s data = .ok (next,actions,ret)) : SameFlags next s := by
  induction fuel generalizing s data actions with
  | zero => cases looped
  | succ fuel ih =>
    unfold loop at looped
    obtain ⟨⟨middle,first,left⟩,passed,looped⟩ := bind_ok.mp looped
    have kept := pass_flags passed
    cases left with
    | some ret =>
      cases looped
      exact kept
    | none =>
      dsimp only at looped
      split at looped
      · obtain ⟨⟨final,later,ret⟩,again,looped⟩ := bind_ok.mp looped
        cases looped
        exact (ih again).trans kept
      · cases looped
        exact kept

-- The op codes under which HandleWsData hands its data over.
def Known (opCode : UInt8) : Prop := opCode = wsOpTextType ∨ opCode = wsOpBinType

theorem remember_known (opcode : UInt8) (known : Known last) : Known (Assembly.remember opcode last) := by
  unfold Assembly.remember
  split
  · assumption
  · exact known

theorem rememberOpCode_known (known : Known s.lastOpCode) : Known s.rememberOpCode.lastOpCode := by
  rw [rememberOpCode_exact]
  exact remember_known _ known

theorem accept_known {a : Assembly} (frame : Frame) (known : Known a.lastOpCode) : Known (a.accept frame).1.lastOpCode := by
  unfold Assembly.accept
  dsimp only
  split
  · exact remember_known _ known
  · exact remember_known _ known

-- Whatever header stands in front, a pass waits or takes the next frame off.
theorem pass_front (pending : Pending s.frame) (room : (s.frame.buffer++data).length < 2^63)
    (passed : pass nowMs s data = .ok (next,actions,left)) :
    (left ≠ none ∧ calls actions = [] ∧ Pending next.frame ∧ (Known s.lastOpCode → Known next.lastOpCode) ∧
      (FramesBelow (s.frame.buffer++data) → (s.frame.buffer++data).length < 2^31 → nextFrame (s.frame.buffer++data) = none)) ∨
    ∃ frame rest, left = none ∧ calls actions = (s.assembly.accept frame).2 ∧
      nextFrame (s.frame.buffer++data) = some (frame,rest) ∧ next.frame.buffer = rest ∧ Pending next.frame ∧
      next.assembly = (s.assembly.accept frame).1 := by
  by_cases good : ∀ h, Header.read? (s.frame.buffer++data) = some h → h.start+h.len < 2^63
  · rcases pass_good nowMs pending data good with
      ⟨waiting,waits,-,still,assembled,unfound⟩ | ⟨taking,parsed,frame,rest,takes,found,-,-,place,still,assembled⟩
    · left
      cases passed.symm.trans waits
      have same : next.lastOpCode = s.lastOpCode := congrArg Assembly.lastOpCode assembled
      exact ⟨nofun,rfl,still,fun known => by rw [same]; exact known,fun _ => unfound⟩
    · right
      cases passed.symm.trans takes
      exact ⟨frame,rest,rfl,by rw [calls_parsed,calls_consumed,calls_accept],found,place,still,assembled⟩
  · left
    obtain ⟨h,exceeds⟩ := not_forall.mp good
    obtain ⟨found,large⟩ := Classical.not_imp.mp exceeds
    have never : FramesBelow (s.frame.buffer++data) → (s.frame.buffer++data).length < 2^31 →
        nextFrame (s.frame.buffer++data) = none := fun below => absurd (below _ h .here found) large
    unfold pass at passed
    obtain ⟨⟨frame,ret⟩,parsed,passed⟩ := bind_ok.mp passed
    dsimp only at passed
    rcases WebSocketFrame.parse_cases pending data with ⟨waiting,waits,kept,unready,-⟩ | ⟨ready,other,goes,kept,again,agrees⟩
    · cases parsed.symm.trans waits
      cases passed
      exact ⟨nofun,rfl,pending_unready unready,id,never⟩
    · cases found.symm.trans again
      rw [goes] at parsed
      rw [← kept] at room found
      obtain ⟨rfl,huge⟩ := WebSocketFrame.parsePayload_large found agrees (by omega) room parsed
      have still : Pending frame := fun _ => ⟨h,found,agrees⟩
      split at passed
      · cases passed
        exact ⟨nofun,rfl,still,id,never⟩
      · unfold takeFrame at passed
        obtain ⟨taken,-,passed⟩ := bind_ok.mp passed
        split at passed
        · obtain ⟨payload,copied,-⟩ := bind_ok.mp passed
          have overrun : frame.payload = .error .outOfBounds := by
            unfold WebSocketFrame.payload
            dsimp only
            rw [if_neg (by rw [List.length_drop]; omega)]
          cases overrun.symm.trans copied
        · cases passed
          have same : (rememberOpCode {s with frame}).frame = frame := by rw [rememberOpCode_exact]
          exact ⟨nofun,rfl,by rw [same]; exact still,rememberOpCode_known (s := {s with frame}),never⟩

-- What HandleFrame calls, whichever way it ends: the answers to the frames in
-- front of the buffered bytes, and to all of them in the ranges of its integers.
theorem loop_front (fuel : Nat) (pending : Pending s.frame) (room : (s.frame.buffer++data).length < 2^63)
    (looped : loop nowMs fuel s data = .ok (next,actions,ret)) :
    Pending next.frame ∧ (Known s.lastOpCode → Known next.lastOpCode) ∧ ∃ front more,
      (frameDecoder.drain (s.frame.buffer++data)).1 = front++more ∧ calls actions = (s.assembly.absorb front).2 ∧
      (FramesBelow (s.frame.buffer++data) → (s.frame.buffer++data).length < 2^31 → more = []) := by
  induction fuel generalizing s data actions with
  | zero => cases looped
  | succ fuel ih =>
    unfold loop at looped
    obtain ⟨⟨middle,early,left⟩,passed,looped⟩ := bind_ok.mp looped
    rcases pass_front pending room passed with
      ⟨leaves,silent,still,known,unfound⟩ | ⟨frame,rest,goes,answered,found,place,still,assembled⟩
    · cases left with
      | none => exact absurd rfl leaves
      | some ret =>
        cases looped
        refine ⟨still,known,[],_,rfl,silent,fun below short => ?_⟩
        rw [frameDecoder.drain_none (unfound below short)]
    · have known : Known s.lastOpCode → Known middle.lastOpCode := by
        intro known
        have kept := accept_known (a := s.assembly) frame known
        rw [← assembled] at kept
        exact kept
      have shorter := frameDecoder.consumes found
      rw [goes] at looped
      rw [frameDecoder.drain_some found]
      dsimp only at looped
      split at looped
      · obtain ⟨⟨final,later,ret⟩,again,looped⟩ := bind_ok.mp looped
        cases looped
        have behind : middle.frame.buffer++[] = rest := by rw [place,List.append_nil]
        obtain ⟨last,stays,front,more,split,answers,whole⟩ := ih still (by rw [behind]; omega) again
        rw [behind] at split whole
        refine ⟨last,fun first => stays (known first),frame::front,more,?_,?_,fun below short => ?_⟩
        · rw [split]
          rfl
        · rw [calls_append,answered,answers,assembled]
          rfl
        · exact whole (framesBelow_reached below (.step found .here)) (by omega)
      · rename_i empty
        have nothing : rest = [] := by
          rw [place] at empty
          exact List.length_eq_zero_iff.mp (by omega)
        cases looped
        refine ⟨still,known,[frame],[],?_,?_,fun _ _ => rfl⟩
        · rw [nothing,frameDecoder.drain_nil]
          rfl
        · rw [answered]
          exact (List.append_nil _).symm

end WebSocketSessionBase

namespace WebSocketClient
open WebSocketSessionBase (Assembly calls calls_parsed calls_consumed isClose closeReply_sends client_perform)

-- What HttpClient and the timer call, with the response that is handed over.
-- `thrown` is what the first callback throws, if it does: HandleHttpRespone
-- catches it.
inductive Delivery where
  | httpRead (ret : Int) (resp : HttpClientResponse) (thrown : Option Bytes) (nowMs : Int)
  | timer (nowMs : Int)

-- The catch of HandleHttpRespone. What stands behind the callback is not done.
def caught (client : WebSocketClient) (resp : HttpClientResponse) (thrown : Option Bytes)
    (handled : WebSocketClient × List Output) : WebSocketClient × List Output :=
  match thrown with
  | none => handled
  | some what =>
    ({handled.1 with
        httpReady:=client.httpReady
        base:={handled.1.base with isConnected:=false}
        http:={handled.1.http with response:=handled.1.http.response.map fun kept => {kept with data:=resp.data}}},
      handled.2++[.onClose (-1) (ascii "websocket http handshake exception:"++what)])

-- OnHttpRead with any response at all, and OnTimer. Nothing is read behind
-- TcpClient::Close.
def deliver (sha1 : Bytes → Bytes) (client : WebSocketClient) : Delivery → Except Failure (WebSocketClient × List Output)
  | .httpRead ret resp thrown nowMs =>
    if !client.connected then .ok (client,[])
    else if ret < 0 then .ok (client.refuse (ascii "http read error"))
    else if client.httpReady then client.readFrames resp nowMs
    else .ok (client.caught resp thrown (client.handleHttpRespone sha1 resp))
  | .timer nowMs => .ok (client.onTimer nowMs)

def deliveries (sha1 : Bytes → Bytes) (http : HttpClient) (key : Bytes) : Machine WebSocketClient Delivery Output Failure :=
  ⟨{http,key},deliver sha1⟩

-- With the response that HttpClient holds, a delivery is OnHttpRead.
theorem onHttpRead_delivers (sha1 : Bytes → Bytes) (client : WebSocketClient) (connected : client.connected = true)
    (held : client.http.response = some resp) (ret nowMs : Int) :
    client.onHttpRead sha1 ret nowMs = client.deliver sha1 (.httpRead ret resp none nowMs) := by
  unfold onHttpRead deliver
  rw [held,connected]
  rfl

def Output.ends : Output → Bool
  | .onClose _ _ => true
  | _ => false
def Output.reports : Output → Bool
  | .onConnection => true
  | .onClose _ _ => true
  | .onReadText _ => true
  | .onReadData _ => true
  | _ => false

-- Behind OnClose the callback hears nothing.
def EndsOnce (outputs : List Output) : Prop := outputs.Pairwise fun earlier later => earlier.ends = true → later.reports = false

-- What the callback hears of the calls that HandleFrame makes, before and
-- behind the first HandleWsClose.
def told : Bool → List Action → List Output
  | _,[] => []
  | close,.handleWsData data opCode::rest =>
    (if opCode = wsOpTextType then [.onReadText data] else if opCode = wsOpBinType then [.onReadData data] else [])++
      told close rest
  | true,.handleWsClose _::rest => told true rest
  | false,.handleWsClose _::rest => .onClose 0 (ascii "close")::told true rest
  | close,_::rest => told close rest

variable {client : WebSocketClient} {action : Action} {actions rest : List Action}

theorem told_cons (close : Bool) (action : Action) (rest : List Action) :
    told close (action::rest) = told close [action]++told (close || isClose action) rest := by
  cases action with
  | handleWsClose data => cases close <;> rfl
  | handleWsData data opCode => cases close <;> simp [told,isClose]
  | _ => cases close <;> rfl

theorem perform_told (client : WebSocketClient) (action : Action) :
    (client.perform action).2.filter Output.reports = told client.base.close [action] := by
  cases action with
  | handleWsClose data =>
    obtain ⟨reply,opCode,sends⟩ := closeReply_sends data
    cases closed : client.base.close with
    | false =>
      simp only [perform,closed,told,sends]
      rfl
    | true => simp [perform,closed,told]
  | handleWsData data opCode =>
    simp only [perform,told,List.append_nil]
    split
    · rfl
    · split <;> rfl
  | _ => cases closed : client.base.close <;> rfl

theorem performAll_told (actions : List Action) (client : WebSocketClient) :
    (client.performAll actions).2.filter Output.reports = told client.base.close actions := by
  induction actions generalizing client with
  | nil => cases client.base.close <;> rfl
  | cons action rest ih =>
    rw [performAll,told_cons,List.filter_append,perform_told,ih,(client_perform client action).2]

theorem told_calls (actions : List Action) (close : Bool) : told close (calls actions) = told close actions := by
  induction actions generalizing close with
  | nil => rfl
  | cons action rest ih =>
    cases action with
    | parsed frame => rw [calls_parsed,ih]; cases close <;> rfl
    | consumed before after => rw [calls_consumed,ih]; cases close <;> rfl
    | handleWsData data opCode =>
      have kept : calls (.handleWsData data opCode::rest) = .handleWsData data opCode::calls rest := rfl
      rw [kept,told_cons,ih,← told_cons]
    | sendWsFrame data opCode =>
      have kept : calls (.sendWsFrame data opCode::rest) = .sendWsFrame data opCode::calls rest := rfl
      rw [kept,told_cons,ih,← told_cons]
    | handleWsClose data =>
      have kept : calls (.handleWsClose data::rest) = .handleWsClose data::calls rest := rfl
      rw [kept,told_cons,ih,← told_cons]

-- HandleWsClose ends the session once.
def shut (client : WebSocketClient) : WebSocketClient :=
  {client with base:={client.base with close:=true,isConnected:=false},connected:=false}

theorem perform_cases (client : WebSocketClient) (action : Action) :
    (client.perform action).1 = client ∧ (∀ output ∈ (client.perform action).2, output.ends = false) ∨
      (client.perform action).1 = client.shut := by
  cases action with
  | handleWsClose data =>
    cases closed : client.base.close with
    | true =>
      left
      simp [perform,closed]
    | false =>
      right
      simp [perform,closed,shut]
  | handleWsData data opCode =>
    left
    simp only [perform]
    split
    · simp [Output.ends]
    · split <;> simp [Output.ends]
  | _ =>
    left
    simp [perform,Output.ends]

theorem performAll_cases (actions : List Action) (client : WebSocketClient) :
    (client.performAll actions).1 = client ∧ (∀ output ∈ (client.performAll actions).2, output.ends = false) ∨
      (client.performAll actions).1 = client.shut := by
  induction actions generalizing client with
  | nil => exact .inl ⟨rfl,nofun⟩
  | cons action rest ih =>
    unfold performAll
    dsimp only
    rcases perform_cases client action with ⟨same,quiet⟩ | ended
    · rw [same]
      rcases ih client with ⟨still,silent⟩ | ended
      · left
        refine ⟨still,fun output member => ?_⟩
        rcases List.mem_append.mp member with early | late
        · exact quiet output early
        · exact silent output late
      · exact .inr ended
    · right
      rw [ended]
      rcases ih client.shut with ⟨still,-⟩ | again
      · exact still
      · exact again

end WebSocketClient
end CoStream
