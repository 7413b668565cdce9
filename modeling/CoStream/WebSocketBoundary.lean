import CoStream.WebSocketStream
import CoStream.WebSocketClient
import CoStream.WebSocketSwitch
import CoStream.HttpClientSafety

namespace CoStream
open Foundation
open WebSocketSessionBase (Read stream)

-- A byte stream that starts with an HTTP block, and reads that cut it inside
-- that block only: `last` brings the end of the block.
structure Opening (block : Bytes) (front : List Read) (last : Read) : Prop where
  found : find? blankLine (block++blankLine) = some block.length
  cut : stream front++last.data = block++blankLine
  filled : ∀ read ∈ last::front, read.data ≠ []

-- A read that goes on behind the block, the block in one read, and the cut at
-- its end, which is left out where there is nothing behind it.
def overrun (last : Read) (overhang : Bytes) : Read := ⟨last.nowMs,last.data++overhang⟩
def atOnce (last : Read) (block : Bytes) : Read := ⟨last.nowMs,block++blankLine⟩
def boundary (last : Read) (overhang : Bytes) : List Read := if overhang = [] then [] else [⟨last.nowMs,overhang⟩]

namespace Opening

theorem waits (opening : Opening block front last) : find? blankLine (stream front) = none := by
  cases now : find? blankLine (stream front) with
  | none => rfl
  | some pos =>
    have early := (find?_inside now).1
    have same := find?_append now last.data
    rw [opening.cut,opening.found] at same
    cases same
    have whole := congrArg List.length opening.cut
    have longer := List.length_pos_iff.mpr (opening.filled last List.mem_cons_self)
    rw [List.length_append,List.length_append] at whole
    omega

theorem completes (opening : Opening block front last) (overhang : Bytes) :
    find? blankLine (stream front++(last.data++overhang)) = some block.length ∧
    (stream front++(last.data++overhang)).take block.length = block ∧
    (stream front++(last.data++overhang)).drop (block.length+4) = overhang := by
  rw [← List.append_assoc,opening.cut]
  refine ⟨find?_append opening.found overhang,?_,List.drop_left' (by simp [blankLine,crlf])⟩
  rw [List.append_assoc,List.take_left' rfl]

theorem whole (opening : Opening block front last) : Opening block [] (atOnce last block) :=
  ⟨opening.found,by simp [stream,atOnce],by simp [atOnce,blankLine,crlf]⟩

end Opening

namespace WebSocketSessionBase

-- Two pings, with no payload and with one byte; any number of bytes but one can
-- be filled with them.
def pingBytes (long : Bool) : Bytes := if long then [0x89,0x01,0x00] else [0x89,0x00]
def pingFrame (long : Bool) : Frame := ⟨true,wsOpPingType,if long then [0] else []⟩
def pings (extra : Nat) : List Bool := if extra%2 = 0 then List.replicate (extra/2+1) false
  else true::List.replicate (extra/2) false

theorem pings_length (extra : Nat) : ((pings extra).flatMap pingBytes).length = extra+2 := by
  unfold pings
  split <;> simp [pingBytes,List.length_flatMap] <;> omega

theorem nextFrame_ping (long : Bool) (more : Bytes) :
    nextFrame (pingBytes long++more) = some (pingFrame long,more) := by
  rw [nextFrame_some]
  cases long with
  | false => exact ⟨⟨true,wsOpPingType,none,2,0⟩,rfl,by simp [Header.Whole,pingBytes],
      by simp [Header.frame,Header.unmask,pingBytes,pingFrame],rfl⟩
  | true => exact ⟨⟨true,wsOpPingType,none,2,1⟩,rfl,by simp [Header.Whole,pingBytes],
      by simp [Header.frame,Header.unmask,pingBytes,pingFrame],rfl⟩

theorem pings_drain (sizes : List Bool) :
    frameDecoder.drain (sizes.flatMap pingBytes) = (sizes.map pingFrame,[]) :=
  frameDecoder.drain_flatMap pingBytes pingFrame sizes fun long _ more => nextFrame_ping long more

-- A session with nothing collected answers a ping that comes first.
theorem answers_ping (nowMs : Int) (s : WebSocketSessionBase) (unready : s.frame.headerReady = false)
    (empty : s.recvBufferVec = []) (data : Bytes) (sizes : List Bool) (present : sizes ≠ [])
    (whole : s.frame.buffer++data = sizes.flatMap pingBytes) (short : (s.frame.buffer++data).length < 2^31) :
    ∃ next actions ret payload, handleFrame nowMs s data = .ok (next,actions,ret) ∧
      .sendWsFrame payload wsOpPongType ∈ actions := by
  obtain ⟨long,sizes,rfl⟩ := List.exists_cons_of_ne_nil present
  have drained : frameDecoder.drain (s.frame.buffer++data) = ((long::sizes).map pingFrame,[]) := by
    rw [whole]
    exact pings_drain _
  obtain ⟨next,actions,ret,looped,-,-,-,answered⟩ := loop_good nowMs (s.frame.buffer.length+data.length+1)
    (pending_unready unready) data (by rw [List.length_append]; omega)
    (framesBelow_complete (by rw [drained]) (by omega))
  have called := congrArg Prod.snd (answered short).2
  rw [drained] at called
  dsimp only at called
  refine ⟨next,actions,ret,(pingFrame long).payload,looped,?_⟩
  have member : .sendWsFrame (pingFrame long).payload wsOpPongType ∈ calls actions := by
    rw [← called]
    simp [Assembly.absorb,Assembly.accept,Assembly.answers,assembly,empty,pingFrame]
  exact (List.mem_filter.mp member).1

theorem handleFrame_byte (nowMs : Int) (s : WebSocketSessionBase) (fresh : s.frame = {}) (byte : UInt8) :
    handleFrame nowMs s [byte] = .ok ({s with frame:={s.frame with buffer:=[byte]}},[],1) := by
  cases s
  cases fresh
  rfl

end WebSocketSessionBase

section indifferent
variable {σ ι ω ε : Type} (m : Machine σ ι ω ε) (event : Read → ι) (processed : List ω → List ω)

-- Whatever bytes of frames come, in the read that brings the end of the block
-- and later, they are processed as they are with the cut at its end.
def Indifferent (block : Bytes) (front : List Read) (last : Read) (overhanging : Nat) : Prop :=
  ∀ (overhang : Bytes) (rest : List Read), overhang.length = overhanging →
    (m.run ((front++[overrun last overhang]++rest).map event)).map (fun result => processed result.2) =
    (m.run ((atOnce last block::boundary last overhang++rest).map event)).map (fun result => processed result.2)

-- The state behind the block answers pings from the first byte on.
structure AnswersPings (switched : σ) : Prop where
  whole : ∀ nowMs extra, extra+2 < 2^31 → ∃ final outputs,
    m.runFrom switched [event ⟨nowMs,(WebSocketSessionBase.pings extra).flatMap WebSocketSessionBase.pingBytes⟩] =
      .ok (final,outputs) ∧ processed outputs ≠ []
  parts : ∀ nowMs, ∃ final outputs,
    m.runFrom switched [event ⟨nowMs,[0x89]⟩,event ⟨nowMs,[0x00]⟩] = .ok (final,outputs) ∧ processed outputs ≠ []
  byte : ∀ nowMs, ∃ final outputs,
    m.runFrom switched [event ⟨nowMs,[0x00]⟩] = .ok (final,outputs) ∧ processed outputs = []

variable {m event processed} {block : Bytes} {front : List Read} {last : Read}

-- It does so when its reads go to HandleFrame: `At` relates it to the base part.
theorem answersPings (At : WebSocketSessionBase → σ → Prop)
    (advances : ∀ base s nowMs data next actions ret, At base s → data ≠ [] →
      base.handleFrame nowMs data = .ok (next,actions,ret) → ∃ after outputs,
        m.step s (event ⟨nowMs,data⟩) = .ok (after,outputs) ∧
        (actions = [] → next.close = base.close → At next after ∧ processed outputs = []) ∧
        ∀ payload opCode, .sendWsFrame payload opCode ∈ actions → processed outputs ≠ [])
    (splits : ∀ one two, processed (one++two) = processed one++processed two)
    (base : WebSocketSessionBase) (fresh : base.frame = {}) (empty : base.recvBufferVec = []) (starts : At base switched) :
    AnswersPings m event processed switched := by
  refine ⟨fun nowMs extra countable => ?_,fun nowMs => ?_,fun nowMs => ?_⟩
  · have sized := WebSocketSessionBase.pings_length extra
    obtain ⟨next,actions,ret,payload,handled,sent⟩ := WebSocketSessionBase.answers_ping nowMs base (by rw [fresh]) empty
      _ (WebSocketSessionBase.pings extra) (by unfold WebSocketSessionBase.pings; split <;> simp) (by rw [fresh]; rfl)
      (by rw [fresh]; exact sized ▸ countable)
    have filled : (WebSocketSessionBase.pings extra).flatMap WebSocketSessionBase.pingBytes ≠ [] := by
      intro empty
      rw [empty] at sized
      cases sized
    obtain ⟨after,outputs,stepped,-,loud⟩ := advances _ _ _ _ _ _ _ starts filled handled
    exact ⟨after,_,m.runFrom_cons.mpr ⟨_,_,[],stepped,rfl,rfl⟩,by rw [List.append_nil]; exact loud _ _ sent⟩
  · have first := WebSocketSessionBase.handleFrame_byte nowMs base fresh 0x89
    obtain ⟨middle,silence,stepped,still,-⟩ := advances _ _ _ _ _ _ _ starts (by simp) first
    obtain ⟨kept,silent⟩ := still rfl rfl
    obtain ⟨next,actions,ret,payload,handled,sent⟩ := WebSocketSessionBase.answers_ping nowMs
      {base with frame:={base.frame with buffer:=[0x89]}} (by simp [fresh]) empty [0x00] [false] (by simp) rfl
      (by simp)
    obtain ⟨after,outputs,answered,-,loud⟩ := advances _ _ _ _ _ _ _ kept (by simp) handled
    refine ⟨after,_,m.runFrom_cons.mpr ⟨_,_,_,stepped,m.runFrom_cons.mpr ⟨_,_,[],answered,rfl,rfl⟩,rfl⟩,?_⟩
    rw [splits,silent,List.nil_append,List.append_nil]
    exact loud _ _ sent
  · have first := WebSocketSessionBase.handleFrame_byte nowMs base fresh 0x00
    obtain ⟨after,outputs,stepped,still,-⟩ := advances _ _ _ _ _ _ _ starts (by simp) first
    exact ⟨after,_,m.runFrom_cons.mpr ⟨_,_,[],stepped,rfl,rfl⟩,by rw [List.append_nil]; exact (still rfl rfl).2⟩

-- A switch that forgets what came behind the block in the same read is
-- indifferent to the cut only if nothing did.
theorem indifferent_iff (switched : σ) (splits : ∀ one two, processed (one++two) = processed one++processed two)
    (announced : List ω)
    (cut : ∀ overhang, ∃ outputs, m.run ((front++[overrun last overhang]).map event) = .ok (switched,outputs) ∧
      processed outputs = announced)
    (uncut : ∃ outputs, m.run [event (atOnce last block)] = .ok (switched,outputs) ∧ processed outputs = announced)
    (answers : AnswersPings m event processed switched) (countable : overhanging < 2^31) :
    Indifferent m event processed block front last overhanging ↔ overhanging = 0 := by
  -- Both runs get to the same state, so what follows is compared from there.
  have compared : ∀ overhang rest,
      (m.run ((front++[overrun last overhang]++rest).map event)).map (fun result => processed result.2) =
        (m.runFrom switched (rest.map event)).map (fun result => announced++processed result.2) ∧
      (m.run ((atOnce last block::boundary last overhang++rest).map event)).map (fun result => processed result.2) =
        (m.runFrom switched ((boundary last overhang++rest).map event)).map
          (fun result => announced++processed result.2) := by
    intro overhang rest
    obtain ⟨one,first,seenOne⟩ := cut overhang
    obtain ⟨two,second,seenTwo⟩ := uncut
    constructor
    · rw [List.map_append,m.view_after processed splits first,seenOne]
    · rw [List.cons_append,List.map_cons,← List.singleton_append,m.view_after processed splits second,seenTwo]
  have nothing : processed [] = [] := by simpa using splits [] []
  constructor
  · intro indifferent
    match overhanging,countable,indifferent with
    | 0,_,_ => rfl
    | 1,_,indifferent =>
      have same := indifferent [0x89] [⟨last.nowMs,[0x00]⟩] rfl
      obtain ⟨_,unanswered,byte,silent⟩ := answers.byte last.nowMs
      obtain ⟨_,answered,parts,loud⟩ := answers.parts last.nowMs
      rw [(compared _ _).1,(compared _ _).2] at same
      have seen := (congrArg _ byte.symm).trans (same.trans (congrArg _ parts))
      simp [Except.map,silent,loud] at seen
    | extra+2,countable,indifferent =>
      have length := WebSocketSessionBase.pings_length extra
      have filled : (WebSocketSessionBase.pings extra).flatMap WebSocketSessionBase.pingBytes ≠ [] := by
        intro empty
        rw [empty] at length
        cases length
      have same := indifferent ((WebSocketSessionBase.pings extra).flatMap WebSocketSessionBase.pingBytes) [] length
      obtain ⟨_,answered,whole,loud⟩ := answers.whole last.nowMs extra countable
      rw [(compared _ _).1,(compared _ _).2,boundary,if_neg filled] at same
      have seen := same.trans (congrArg _ whole)
      simp [Except.map,nothing,loud] at seen
  · rintro rfl overhang rest empty
    rw [List.length_eq_zero_iff.mp empty,(compared _ _).1,(compared _ _).2]
    rfl

end indifferent

namespace WebSocketSession

def event (read : Read) : Event := .read 0 read.data read.nowMs

-- What a session did, without its reads and the records of the parser.
def processed (outputs : List Output) : List Output :=
  outputs.filter fun
    | .asyncRead => false
    | .frame (.parsed _) => false
    | .frame (.consumed _ _) => false
    | _ => true

@[simp] theorem processed_append : processed (first++second) = processed first++processed second := by simp [processed]
@[simp] theorem processed_read : processed [.asyncRead] = [] := rfl

-- Reading a request neither looks at the buffer nor changes it.
def buffered (s : WebSocketSession) (buffer : Bytes) : WebSocketSession := {s with httpRecvBuffer:=buffer}

variable {s next : WebSocketSession} {server : WebSocketServer}

theorem requireField_buffered (buffer : Bytes) (checked : s.requireField key value missing wrong = .ok next) :
    (s.buffered buffer).requireField key value missing wrong = .ok (next.buffered buffer) := by
  unfold requireField raise at checked ⊢
  cases held : s.headers[key]? with
  | none =>
    rw [held] at checked
    cases checked
  | some field =>
    simp only [held,buffered] at checked ⊢
    split at checked
    · cases checked
    · rename_i same
      rw [if_neg same]
      cases checked
      rfl

theorem readKey_buffered (buffer : Bytes) (read : s.readKey = .ok next) :
    (s.buffered buffer).readKey = .ok (next.buffered buffer) := by
  unfold readKey raise at read ⊢
  cases held : s.headers[ascii "sec-websocket-key"]? with
  | none =>
    rw [held] at read
    cases read
  | some field =>
    simp only [held,buffered] at read ⊢
    cases read
    rfl

theorem readVersion_buffered (buffer : Bytes) : (s.buffered buffer).readVersion = s.readVersion.buffered buffer := by
  unfold readVersion buffered
  dsimp only
  split <;> rfl

theorem readProtocol_buffered (buffer : Bytes) : (s.buffered buffer).readProtocol = s.readProtocol.buffered buffer := by
  unfold readProtocol buffered
  dsimp only
  split <;> rfl

theorem readFields_buffered (buffer : Bytes) (read : s.readFields lines = .ok next) :
    (s.buffered buffer).readFields lines = .ok (next.buffered buffer) := by
  obtain ⟨connected,first,read⟩ := bind_ok.mp read
  obtain ⟨upgraded,second,read⟩ := bind_ok.mp read
  obtain ⟨keyed,third,read⟩ := bind_ok.mp read
  cases read
  refine bind_ok.mpr ⟨_,requireField_buffered buffer first,bind_ok.mpr ⟨_,requireField_buffered buffer second,?_⟩⟩
  rw [readVersion_buffered]
  exact bind_ok.mpr ⟨_,readKey_buffered buffer third,by rw [readProtocol_buffered]⟩

theorem readRequest_buffered (buffer : Bytes) (read : readRequest server s content = .ok (next,handle)) :
    readRequest server (s.buffered buffer) content = .ok (next.buffered buffer,handle) := by
  unfold readRequest raise at read ⊢
  split at read
  · cases read
  · split at read
    · dsimp only at read ⊢
      split at read
      · cases read
      · obtain ⟨filled,fields,same⟩ := bind_ok.mp read
        cases same
        exact bind_ok.mpr ⟨_,readFields_buffered buffer fields,rfl⟩
    · cases read

theorem applyAll_buffered (buffer : Bytes) (calls : List SessionCall) (s : WebSocketSession) :
    (s.buffered buffer).applyAll calls = ((s.applyAll calls).1.buffered buffer,(s.applyAll calls).2) := by
  induction calls generalizing s with
  | nil => rfl
  | cons call rest ih =>
    cases call with
    | asyncWriteText text => simp only [applyAll,apply,ih]
    | asyncWriteData data => simp only [applyAll,apply,ih]
    | setSessionCallback =>
      have again := ih {s with hasCallback:=true}
      simp only [applyAll,apply]
      exact Prod.ext (congrArg Prod.fst again) (congrArg (fun pair => [].append pair.2) again)

def fresh (startMs : Int) : WebSocketSession := {base:={isConnected:=true,lastRecvPongMs:=startMs}}

def Accepts (server : WebSocketServer) (startMs : Int) (block : Bytes) : Prop :=
  ∃ filled handle, readRequest server {fresh startMs with httpRequestReady:=true} block = .ok (filled,handle)

-- The session behind an accepted request, and what it did on the way. Nothing
-- of the buffer is left in it.
def switched (sha1 : Bytes → Bytes) (filled : WebSocketSession) (handle : HandleWebSocket) : WebSocketSession :=
  ((filled.applyAll (handle filled.path)).1.sendHttpResponse sha1).1.buffered []

def switching (sha1 : Bytes → Bytes) (filled : WebSocketSession) (handle : HandleWebSocket) : List Output :=
  (filled.applyAll (handle filled.path)).2++((filled.applyAll (handle filled.path)).1.sendHttpResponse sha1).2

variable (sha1 : Bytes → Bytes) (server : WebSocketServer) (startMs : Int) {block : Bytes} {front : List Read} {last : Read}
  {filled : WebSocketSession} {handle : HandleWebSocket}

theorem onHandleHttpRequest_complete (s : WebSocketSession) (found : find? blankLine s.httpRecvBuffer = some pos)
    (accepted : readRequest server {s.buffered [] with httpRequestReady:=true} (s.httpRecvBuffer.take pos) =
      .ok (filled,handle)) :
    onHandleHttpRequest server s = .ok ((filled.applyAll (handle filled.path)).1.buffered s.httpRecvBuffer,
      (filled.applyAll (handle filled.path)).2,0) := by
  have read := readRequest_buffered s.httpRecvBuffer accepted
  have same : {s with httpRequestReady:=true} =
      buffered {s.buffered [] with httpRequestReady:=true} s.httpRecvBuffer := rfl
  unfold onHandleHttpRequest
  rw [found]
  dsimp only
  rw [same,read,ok_bind]
  dsimp only
  have path : (filled.buffered s.httpRecvBuffer).path = filled.path := rfl
  rw [path,applyAll_buffered]

theorem readHttp_complete (s : WebSocketSession) (data : Bytes)
    (found : find? blankLine (s.httpRecvBuffer++data) = some pos)
    (accepted : readRequest server {s.buffered [] with httpRequestReady:=true} ((s.httpRecvBuffer++data).take pos) =
      .ok (filled,handle)) :
    s.readHttp sha1 server data = (switched sha1 filled handle,switching sha1 filled handle++[.asyncRead]) := by
  have complete := onHandleHttpRequest_complete server (s.buffered (s.httpRecvBuffer++data)) found accepted
  unfold readHttp
  rw [show {s with httpRecvBuffer:=s.httpRecvBuffer++data} = s.buffered (s.httpRecvBuffer++data) from rfl,complete]
  rfl

theorem step_http (s : WebSocketSession) (data : Bytes) (nowMs : Int) (isOpen : s.base.close = false)
    (waiting : s.httpRequestReady = false) :
    step sha1 server s (.read 0 data nowMs) = .ok (s.readHttp sha1 server data) := by
  unfold step onRead
  dsimp only
  rw [if_neg (by simp [isOpen]),if_neg (by decide),if_neg (by simp [waiting])]

theorem runFrom_waiting (front : List Read) (s : WebSocketSession) (isOpen : s.base.close = false)
    (waiting : s.httpRequestReady = false) (missing : find? blankLine (s.httpRecvBuffer++stream front) = none) :
    ∃ outputs, (machine sha1 server startMs).runFrom s (front.map event) =
      .ok (s.buffered (s.httpRecvBuffer++stream front),outputs) ∧ processed outputs = [] := by
  induction front generalizing s with
  | nil => exact ⟨[],by simp [stream,buffered],rfl⟩
  | cons read front ih =>
    have joined : s.httpRecvBuffer++stream (read::front) = s.httpRecvBuffer++read.data++stream front := by simp [stream]
    rw [joined] at missing ⊢
    have stepped := step_http sha1 server s read.data read.nowMs isOpen waiting
    obtain ⟨later,continued,silent⟩ := ih (s.buffered (s.httpRecvBuffer++read.data)) isOpen waiting missing
    have first : s.readHttp sha1 server read.data = (s.buffered (s.httpRecvBuffer++read.data),[.asyncRead]) := by
      unfold readHttp onHandleHttpRequest
      dsimp only
      rw [find?_none_of_append missing]
      rfl
    rw [first] at stepped
    exact ⟨_,(machine sha1 server startMs).runFrom_cons.mpr ⟨_,_,later,stepped,continued,rfl⟩,by rw [processed_append,silent]; rfl⟩

-- However the block is cut, and whatever comes in the same read behind it, the
-- session ends in the same state: the bytes behind it are gone.
theorem run_switched (opening : Opening block front last) (accepted : readRequest server
      {fresh startMs with httpRequestReady:=true} block = .ok (filled,handle)) (overhang : Bytes) :
    ∃ outputs, (machine sha1 server startMs).run ((front++[overrun last overhang]).map event) =
      .ok (switched sha1 filled handle,outputs) ∧ processed outputs = processed (switching sha1 filled handle) := by
  obtain ⟨outputs,waited,silent⟩ := runFrom_waiting sha1 server startMs front (fresh startMs) rfl rfl
    opening.waits
  obtain ⟨found,taken,-⟩ := opening.completes overhang
  have complete := readHttp_complete sha1 server ((fresh startMs).buffered (stream front)) (last.data++overhang)
    found (by rw [show ((fresh startMs).buffered (stream front)).httpRecvBuffer = stream front from rfl,taken]; exact accepted)
  have stepped := step_http sha1 server ((fresh startMs).buffered (stream front)) (last.data++overhang) last.nowMs
    rfl rfl
  rw [complete] at stepped
  refine ⟨outputs++(switching sha1 filled handle++[.asyncRead]),?_,by simp [silent]⟩
  rw [List.map_append]
  exact (machine sha1 server startMs).runFrom_snoc.mpr ⟨_,_,_,waited,stepped,rfl⟩

theorem applyAll_base (calls : List SessionCall) (s : WebSocketSession) :
    (s.applyAll calls).1.base = s.base ∧ (s.applyAll calls).1.httpRequestReady = s.httpRequestReady := by
  induction calls generalizing s with
  | nil => exact ⟨rfl,rfl⟩
  | cons call rest ih =>
    obtain ⟨base,ready⟩ := ih (s.apply call).1
    rw [applyAll]
    dsimp only
    rw [base,ready]
    cases call <;> exact ⟨rfl,rfl⟩

theorem switched_base (accepted : readRequest server {fresh startMs with httpRequestReady:=true} block =
      .ok (filled,handle)) :
    (switched sha1 filled handle).base = (fresh startMs).base ∧ (switched sha1 filled handle).httpRequestReady = true := by
  obtain ⟨-,base,ready⟩ := readRequest_handle accepted
  obtain ⟨same,still⟩ := applyAll_base (handle filled.path) filled
  exact ⟨same.trans base,still.trans ready⟩

theorem step_frames (s : WebSocketSession) (data : Bytes) (nowMs : Int) (after : WebSocketSessionBase)
    (isOpen : s.base.close = false) (ready : s.httpRequestReady = true)
    (handled : s.base.handleFrame nowMs data = .ok (after,actions,ret)) :
    step sha1 server s (.read 0 data nowMs) =
      .ok ((performAll {s with base:=after} actions).1,(performAll {s with base:=after} actions).2++[.asyncRead]) := by
  unfold step onRead readFrames
  dsimp only
  rw [if_neg (by simp [isOpen]),if_neg (by decide),if_pos ready,handled,ok_bind]

theorem performAll_sends (actions : List Action) (s : WebSocketSession)
    (sent : .sendWsFrame payload opCode ∈ actions) : .frame (.sendWsFrame payload opCode) ∈ (performAll s actions).2 := by
  induction actions generalizing s with
  | nil => cases sent
  | cons action rest ih =>
    rw [performAll]
    rcases List.mem_cons.mp sent with rfl | later
    · exact List.mem_append_left _ List.mem_cons_self
    · exact List.mem_append_right _ (ih _ later)

theorem indifferent_session (opening : Opening block front last) (accepts : Accepts server startMs block)
    (countable : overhanging < 2^31) :
    Indifferent (machine sha1 server startMs) event processed block front last overhanging ↔ overhanging = 0 := by
  obtain ⟨filled,handle,accepted⟩ := accepts
  obtain ⟨base,ready⟩ := switched_base sha1 server startMs accepted
  refine indifferent_iff (switched sha1 filled handle) (fun _ _ => processed_append) _
    (run_switched sha1 server startMs opening accepted) ?_ ?_ countable
  · have once := run_switched sha1 server startMs opening.whole accepted []
    rw [show overrun (atOnce last block) [] = atOnce last block from by simp [overrun,atOnce]] at once
    exact once
  · refine answersPings (fun base s => s.base = base ∧ base.close = false ∧ s.httpRequestReady = true) ?_
      (fun _ _ => processed_append) (fresh startMs).base rfl rfl ⟨base,rfl,ready⟩
    rintro _ s nowMs data next actions ret ⟨rfl,isOpen,ready⟩ - handled
    refine ⟨_,_,step_frames sha1 server s data nowMs next isOpen ready handled,?_,?_⟩
    · rintro rfl same
      exact ⟨⟨rfl,same.trans isOpen,ready⟩,rfl⟩
    · intro payload opCode sent nothing
      have listed := performAll_sends actions {s with base:=next} sent
      have member : .frame (.sendWsFrame payload opCode) ∈
          processed ((performAll {s with base:=next} actions).2++[.asyncRead]) :=
        List.mem_filter.mpr ⟨List.mem_append_left _ listed,rfl⟩
      rw [nothing] at member
      cases member

end WebSocketSession

namespace WebSocketClient

def event (read : Read) : Event := .read 0 read.data read.nowMs

def processed (outputs : List Output) : List Output :=
  outputs.filter fun
    | .asyncRead => false
    | .frame (.parsed _) => false
    | .frame (.consumed _ _) => false
    | _ => true

@[simp] theorem processed_append : processed (first++second) = processed first++processed second := by simp [processed]

-- A client that waits for its response, and a response that it accepts.
structure Waiting (client : WebSocketClient) : Prop where
  connected : client.connected = true
  unready : client.httpReady = false
  frame : client.base.frame = {}
  empty : client.base.recvBufferVec = []

structure Welcome (sha1 : Bytes → Bytes) (key block : Bytes) (r : HttpClientResponse) : Prop where
  read : HttpClient.readResponse {headerReady:=true} block = .ok r
  code : r.statusCode = 101
  bodiless : r.contentLength ≤ 0
  connection : r.headers.getD (ascii "Connection") [] = ascii "Upgrade"
  upgrade : r.headers.getD (ascii "Upgrade") [] = ascii "websocket"
  accept : r.headers.getD (ascii "Sec-WebSocket-Accept") [] = genWebSocketHashcode sha1 (base64Encode key)

variable (sha1 : Bytes → Bytes) {client : WebSocketClient} {block : Bytes} {front : List Read} {last : Read}
  {r : HttpClientResponse}

-- Its state behind the response: the bytes that were there are gone.
def switched (client : WebSocketClient) (r : HttpClientResponse) : WebSocketClient :=
  let named := lookUp (lookUp (lookUp r (ascii "Connection")) (ascii "Upgrade")) (ascii "Sec-WebSocket-Accept")
  {client.respond {named with data:=[]} with httpReady:=true,base:={client.base with isConnected:=true}}

theorem handleHttpRespone_welcome (client : WebSocketClient) (welcome : Welcome sha1 client.key block r) (data : Bytes) :
    client.handleHttpRespone sha1 {r with data} = (client.switched r,[.onConnection]) := by
  unfold handleHttpRespone
  dsimp only
  rw [if_neg (by simp [welcome.code]),if_neg (by simp [welcome.connection]),if_neg (by simp [welcome.upgrade]),
    if_neg (by simp [welcome.accept])]
  rfl

def held (client : WebSocketClient) : HttpClientResponse := client.http.response.getD {}

theorem step_collect (client : WebSocketClient) (data : Bytes) (nowMs : Int) (connected : client.connected = true) (filled : data ≠ [])
    (collected : HttpClient.collect client.held data = .ok (r,notice)) :
    step sha1 client (.read 0 data nowMs) = notify sha1 (client.respond r) notice nowMs := by
  have longer := List.length_pos_iff.mpr filled
  have read : client.http.onRead 0 data = .ok ({client.http with response:=some r},notice) := by
    unfold HttpClient.onRead
    rw [if_neg (by decide),if_neg (by omega)]
    exact bind_ok.mpr ⟨_,collected,rfl⟩
  unfold step onRead
  dsimp only
  rw [if_pos connected,read]
  rfl

theorem collect_waits (r : HttpClientResponse) (data : Bytes) (unready : r.headerReady = false)
    (missing : find? blankLine (r.data++data) = none) :
    HttpClient.collect r data = .ok ({r with data:=r.data++data},⟨none,true⟩) := by
  unfold HttpClient.collect
  dsimp only
  rw [if_neg (by simp [unready]),missing]

theorem runFrom_waiting (initial : WebSocketClient) (front : List Read) (client : WebSocketClient)
    (connected : client.connected = true) (filled : ∀ read ∈ front, read.data ≠ []) (data : Bytes)
    (holds : client.held = {data}) (missing : find? blankLine (data++stream front) = none) :
    ∃ response outputs, (machine sha1 initial).runFrom client (front.map event) =
      .ok ({client with http:={client.http with response}},outputs) ∧ processed outputs = [] ∧
      response.getD {} = {data:=data++stream front} := by
  induction front generalizing client data with
  | nil => exact ⟨client.http.response,[],rfl,rfl,by simpa [stream,held] using holds⟩
  | cons read front ih =>
    have joined : data++stream (read::front) = data++read.data++stream front := by simp [stream]
    rw [joined] at missing ⊢
    have collected := collect_waits client.held read.data (by rw [holds])
      (by rw [holds]; exact find?_none_of_append missing)
    have stepped := step_collect sha1 client read.data read.nowMs connected (filled read List.mem_cons_self) collected
    obtain ⟨response,later,continued,silent,now⟩ := ih
      (client.respond {client.held with data:=client.held.data++read.data}) connected
      (fun other member => filled other (List.mem_cons_of_mem _ member)) (data++read.data)
      (by change {client.held with data:=client.held.data++read.data} = _; rw [holds]) missing
    refine ⟨response,_,(machine sha1 initial).runFrom_cons.mpr ⟨_,_,later,stepped,continued,rfl⟩,?_,now⟩
    rw [processed_append,silent]
    rfl

theorem collect_welcome (welcome : Welcome sha1 client.key block r) (before data overhang : Bytes)
    (found : find? blankLine (before++data) = some block.length) (taken : (before++data).take block.length = block)
    (beyond : (before++data).drop (block.length+4) = overhang) :
    HttpClient.collect {data:=before} data = .ok ({r with data:=overhang},⟨some 0,true⟩) := by
  have read := (HttpClient.readResponse_data _ block overhang welcome.read).1
  have bodiless := welcome.bodiless
  unfold HttpClient.collect
  dsimp only
  rw [if_neg (by decide),found]
  dsimp only
  rw [taken,beyond,read,ok_bind,HttpClient.deliver,if_neg (by dsimp only; omega)]

theorem onHttpRead_response (client : WebSocketClient) (nowMs : Int) (unready : client.httpReady = false)
    (answered : client.http.response = some r) :
    client.onHttpRead sha1 0 nowMs = .ok (client.handleHttpRespone sha1 r) := by
  unfold onHttpRead
  rw [if_neg (by decide),answered]
  dsimp only
  rw [if_neg (by simp [unready])]

theorem notify_zero (client : WebSocketClient) (nowMs : Int) (read : client.onHttpRead sha1 0 nowMs = .ok notified) :
    client.notify sha1 ⟨some 0,true⟩ nowMs = .ok (notified.1,notified.2++[.asyncRead]) := by
  unfold notify
  dsimp only
  rw [read]
  rfl

theorem run_switched (waiting : Waiting client) (unanswered : client.http.response = none)
    (opening : Opening block front last) (welcome : Welcome sha1 client.key block r) (overhang : Bytes) :
    ∃ outputs, (machine sha1 client).run ((front++[overrun last overhang]).map event) =
      .ok (client.switched r,outputs) ∧ processed outputs = [.onConnection] := by
  obtain ⟨response,outputs,waited,silent,holds⟩ := runFrom_waiting sha1 client front client waiting.connected
    (fun read member => opening.filled read (List.mem_cons_of_mem _ member)) [] (by simp [held,unanswered]) opening.waits
  obtain ⟨found,taken,beyond⟩ := opening.completes overhang
  have collected := collect_welcome sha1 welcome (stream front) (last.data++overhang) overhang found taken beyond
  have longer : last.data++overhang ≠ [] := by simp [opening.filled last List.mem_cons_self]
  have stepped := step_collect sha1 {client with http:={client.http with response}} (last.data++overhang) last.nowMs
    waiting.connected longer (by rw [held,holds]; exact collected)
  have answered := notify_zero sha1 _ last.nowMs (onHttpRead_response sha1 (client.respond {r with data:=overhang})
    last.nowMs waiting.unready rfl)
  rw [handleHttpRespone_welcome sha1 (client.respond {r with data:=overhang}) welcome overhang] at answered
  refine ⟨outputs++[.onConnection,.asyncRead],?_,by rw [processed_append,silent]; rfl⟩
  rw [List.map_append]
  exact (machine sha1 client).runFrom_snoc.mpr ⟨_,_,_,waited,stepped.trans answered,rfl⟩

theorem step_frames (s : WebSocketClient) (data : Bytes) (nowMs : Int) (after : WebSocketSessionBase)
    (connected : s.connected = true) (ready : s.httpReady = true) (answered : s.http.response = some r)
    (headed : r.headerReady = true) (bodiless : r.contentLength ≤ 0) (drained : r.data = []) (filled : data ≠ [])
    (handled : s.base.handleFrame nowMs data = .ok (after,actions,ret)) :
    step sha1 s (.read 0 data nowMs) = .ok ((performAll {s with base:=after} actions).1,
      (performAll {s with base:=after} actions).2++[.asyncRead]) := by
  have collected : HttpClient.collect s.held data = .ok ({r with data},⟨some 0,true⟩) := by
    rw [held,answered,Option.getD_some]
    unfold HttpClient.collect
    dsimp only
    rw [if_pos headed,drained,List.nil_append,HttpClient.deliver,if_neg (by dsimp only; omega)]
  have back : s.respond {r with data:=[]} = s := by
    have same : {r with data:=[]} = r := by
      rw [← drained]
    rw [same,respond,← answered]
  have read : (s.respond {r with data}).onHttpRead sha1 0 nowMs = .ok (performAll {s with base:=after} actions) := by
    unfold onHttpRead
    rw [if_neg (by decide)]
    change (if s.httpReady then (s.respond {r with data}).readFrames {r with data} nowMs else _) = _
    rw [if_pos ready]
    have entered : (s.respond {r with data}).base.handleFrame nowMs data = .ok (after,actions,ret) := handled
    unfold readFrames
    rw [entered]
    change Except.ok (performAll {s.respond {r with data:=[]} with base:=after} actions) = _
    rw [back]
  rw [step_collect sha1 s data nowMs connected filled collected,notify_zero sha1 _ nowMs read]

theorem performAll_sends (actions : List Action) (s : WebSocketClient)
    (sent : .sendWsFrame payload opCode ∈ actions) : .frame (.sendWsFrame payload opCode) ∈ (performAll s actions).2 := by
  induction actions generalizing s with
  | nil => cases sent
  | cons action rest ih =>
    rw [performAll]
    rcases List.mem_cons.mp sent with rfl | later
    · exact List.mem_append_left _ List.mem_cons_self
    · exact List.mem_append_right _ (ih _ later)

theorem indifferent_client (waiting : Waiting client) (unanswered : client.http.response = none)
    (opening : Opening block front last) (welcome : Welcome sha1 client.key block r) (countable : overhanging < 2^31) :
    Indifferent (machine sha1 client) event processed block front last overhanging ↔ overhanging = 0 := by
  refine indifferent_iff (client.switched r) (fun _ _ => processed_append) _
    (run_switched sha1 waiting unanswered opening welcome) ?_ ?_ countable
  · have once := run_switched sha1 waiting unanswered opening.whole welcome []
    rw [show overrun (atOnce last block) [] = atOnce last block from by simp [overrun,atOnce]] at once
    exact once
  · refine answersPings (fun base s => s.base = base ∧ s.connected = true ∧ s.httpReady = true ∧ ∃ r,
        s.http.response = some r ∧ r.headerReady = true ∧ r.contentLength ≤ 0 ∧ r.data = []) ?_
      (fun _ _ => processed_append) (client.switched r).base waiting.frame waiting.empty
      ⟨rfl,waiting.connected,rfl,_,rfl,(HttpClient.readResponse_data _ block [] welcome.read).2,welcome.bodiless,rfl⟩
    rintro _ s nowMs data next actions ret ⟨rfl,connected,ready,r,answered,headed,bodiless,drained⟩ filled handled
    refine ⟨_,_,step_frames sha1 s data nowMs next connected ready answered headed bodiless drained filled handled,?_,?_⟩
    · rintro rfl -
      exact ⟨⟨rfl,connected,ready,r,answered,headed,bodiless,drained⟩,rfl⟩
    · intro payload opCode sent nothing
      have listed := performAll_sends actions {s with base:=next} sent
      have member : .frame (.sendWsFrame payload opCode) ∈
          processed ((performAll {s with base:=next} actions).2++[.asyncRead]) :=
        List.mem_filter.mpr ⟨List.mem_append_left _ listed,rfl⟩
      rw [nothing] at member
      cases member

end WebSocketClient

-- On both ends: the frames are processed as with the cut at the end of the HTTP
-- block exactly if the read that brings this end brings nothing more.
theorem boundary_indifferent_iff (sha1 : Bytes → Bytes) (server : WebSocketServer) (startMs : Int)
    (request : Bytes) (requestFront : List Read) (requestLast : Read) (opens : Opening request requestFront requestLast)
    (accepts : WebSocketSession.Accepts server startMs request)
    (client : WebSocketClient) (waiting : client.Waiting) (unanswered : client.http.response = none)
    (response : Bytes) (responseFront : List Read) (responseLast : Read)
    (answers : Opening response responseFront responseLast) (r : HttpClientResponse)
    (welcome : WebSocketClient.Welcome sha1 client.key response r) (overhanging : Nat) (countable : overhanging < 2^31) :
    (Indifferent (WebSocketSession.machine sha1 server startMs) WebSocketSession.event WebSocketSession.processed
      request requestFront requestLast overhanging ↔ overhanging = 0) ∧
    (Indifferent (WebSocketClient.machine sha1 client) WebSocketClient.event WebSocketClient.processed
      response responseFront responseLast overhanging ↔ overhanging = 0) :=
  ⟨WebSocketSession.indifferent_session sha1 server startMs opens accepts countable,
    WebSocketClient.indifferent_client sha1 waiting unanswered answers welcome countable⟩

def chatClient : WebSocketClient :=
  WebSocketClient.asyncConnect {host:=ascii "h"} (ascii "the sample nonce") (ascii "/chat")

def welcomeBlock : Bytes :=
  ascii "HTTP/1.1 101 Switching Protocols"++crlf++ascii "Upgrade: websocket"++crlf++ascii "Connection: Upgrade"++crlf++
  ascii "Sec-WebSocket-Accept: s3pPLMBiTxaQ9kYGzzhZRbK+xOo="

theorem cut_opening (block : Bytes) (place : Nat) (found : find? blankLine (block++blankLine) = some block.length)
    (inside : 0 < place ∧ place < block.length) :
    Opening block [⟨0,(block++blankLine).take place⟩] ⟨0,(block++blankLine).drop place⟩ := by
  refine ⟨found,by simp [stream],?_⟩
  intro read member empty
  simp only [List.mem_cons,List.not_mem_nil,or_false] at member
  have size := congrArg List.length empty
  rcases member with rfl | rfl
  · simp only [List.length_drop,List.length_append,List.length_nil] at size
    omega
  · simp only [List.length_take,List.length_append,List.length_nil] at size
    omega

theorem chat_accepts : WebSocketSession.Accepts WebSocketSession.chatServer 0 WebSocketSession.openingBlock := by
  have accepted : (WebSocketSession.readRequest WebSocketSession.chatServer
      {WebSocketSession.fresh 0 with httpRequestReady:=true} WebSocketSession.openingBlock).toBool = true := by
    decide +kernel
  unfold WebSocketSession.Accepts
  cases read : WebSocketSession.readRequest WebSocketSession.chatServer
      {WebSocketSession.fresh 0 with httpRequestReady:=true} WebSocketSession.openingBlock with
  | error thrown =>
    rw [read] at accepted
    cases accepted
  | ok result => exact ⟨_,_,rfl⟩

theorem chat_welcome : ∃ r,
    WebSocketClient.Welcome (fun _ => WebSocketSession.openingDigest) chatClient.key welcomeBlock r := by
  have fields : (HttpClient.readResponse {headerReady:=true} welcomeBlock).map (fun r =>
      (r.statusCode,r.contentLength,r.headers.getD (ascii "Connection") [],r.headers.getD (ascii "Upgrade") [],
        r.headers.getD (ascii "Sec-WebSocket-Accept") [])) =
      .ok (101,0,ascii "Upgrade",ascii "websocket",ascii "s3pPLMBiTxaQ9kYGzzhZRbK+xOo=") := by decide +kernel
  obtain ⟨r,read,seen⟩ := map_ok.mp fields
  simp only [Prod.mk.injEq] at seen
  obtain ⟨code,length,connection,upgrade,accept⟩ := seen
  refine ⟨r,read,code,by omega,connection,upgrade,accept.trans ?_⟩
  decide +kernel

theorem chat_indifferent :
    (Indifferent (WebSocketSession.machine (fun _ => WebSocketSession.openingDigest) WebSocketSession.chatServer 0)
      WebSocketSession.event WebSocketSession.processed WebSocketSession.openingBlock
      [⟨0,(WebSocketSession.openingBlock++blankLine).take 30⟩] ⟨0,(WebSocketSession.openingBlock++blankLine).drop 30⟩ 0) ∧
    (Indifferent (WebSocketClient.machine (fun _ => WebSocketSession.openingDigest) chatClient)
      WebSocketClient.event WebSocketClient.processed welcomeBlock
      [⟨0,(welcomeBlock++blankLine).take 30⟩] ⟨0,(welcomeBlock++blankLine).drop 30⟩ 0) := by
  obtain ⟨r,welcome⟩ := chat_welcome
  have both := boundary_indifferent_iff _ _ 0 _ _ _
    (cut_opening WebSocketSession.openingBlock 30 (by decide +kernel) (by decide +kernel)) chat_accepts
    chatClient ⟨rfl,rfl,rfl,rfl⟩ rfl _ _ _ (cut_opening welcomeBlock 30 (by decide +kernel) (by decide +kernel)) r welcome
    0 (by decide)
  exact ⟨both.1.mpr rfl,both.2.mpr rfl⟩

-- A ping in the read that ends the handshake is not answered; in a read of its
-- own it is.
theorem chat_loses_ping :
    ((WebSocketSession.machine (fun _ => WebSocketSession.openingDigest) WebSocketSession.chatServer 0).run
      [.read 0 (WebSocketSession.openingBlock++blankLine++[0x89,0x00]) 0]).map
      (fun result => WebSocketSession.processed result.2) ≠
    ((WebSocketSession.machine (fun _ => WebSocketSession.openingDigest) WebSocketSession.chatServer 0).run
      [.read 0 (WebSocketSession.openingBlock++blankLine) 0,.read 0 [0x89,0x00] 0]).map
      (fun result => WebSocketSession.processed result.2) ∧
    ((WebSocketClient.machine (fun _ => WebSocketSession.openingDigest) chatClient).run
      [.read 0 (welcomeBlock++blankLine++[0x89,0x00]) 0]).map (fun result => WebSocketClient.processed result.2) ≠
    ((WebSocketClient.machine (fun _ => WebSocketSession.openingDigest) chatClient).run
      [.read 0 (welcomeBlock++blankLine) 0,.read 0 [0x89,0x00] 0]).map
      (fun result => WebSocketClient.processed result.2) := by
  decide +kernel

end CoStream
