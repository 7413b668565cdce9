import CoStream.WebSocketConform
import CoStream.WebSocketSwitch

namespace CoStream
open Foundation

def SessionCall.payload : SessionCall → Bytes
  | .asyncWriteText text => text
  | .asyncWriteData data => data
  | .setSessionCallback => []

namespace WebSocketSession
open WebSocketSessionBase (serverSends sentFrames effects server_effects effects_silent effects_echoes mem_sentFrames
  handleFrame_sends FramesBelow)
open WebSocketFrame (Pending)

-- The lengths that memory and the integers of HandleFrame have room for.
def Small (s : WebSocketSession) : Event → Prop
  | .read retCode data _ => s.base.close = false → 0 ≤ retCode → s.httpRequestReady = true →
      (s.base.frame.buffer++data).length < 2^63
  | _ => True

def Framed (s : WebSocketSession) : Event → Prop
  | .read retCode data _ => s.base.close = false → 0 ≤ retCode → s.httpRequestReady = true →
      FramesBelow (s.base.frame.buffer++data) ∧ (s.base.frame.buffer++data).length < 2^31
  | _ => True

-- Where the session sends nothing: no write, no ping that is due, no ping or close
-- among the frames that a read completes.
def Silent (server : WebSocketServer) (s : WebSocketSession) : Event → Prop
  | .read retCode data _ => s.base.close = false → 0 ≤ retCode →
      if s.httpRequestReady then ∀ frame ∈ (frameDecoder.drain (s.base.frame.buffer++data)).1, frame.echoed = false
      else HandlerSilent server s data
  | .written _ => True
  | .timer nowMs => s.base.isConnected = true → nowMs-s.base.lastSendPingMs ≤ 2000
  | .call call => call = .setSessionCallback

variable {s next : WebSocketSession} {server : WebSocketServer} {event : Event} {outputs emitted : List Output}

@[simp] theorem serverSends_append (first second : List Output) :
    serverSends (first++second) = serverSends first++serverSends second := by simp [serverSends]

theorem applyAll_sends (calls : List SessionCall) (s : WebSocketSession) : (s.applyAll calls).1.base = s.base ∧
    (∀ data opCode, .sendWsFrame data opCode ∈ serverSends (s.applyAll calls).2 → SentOpCode opCode) ∧
    (serverSends (s.applyAll calls).2 = [] ↔ ∀ call ∈ calls, call = .setSessionCallback) := by
  induction calls generalizing s with
  | nil => exact ⟨rfl,everySend_nothing rfl,by simp [applyAll,serverSends]⟩
  | cons call rest ih =>
    obtain ⟨base,known,silent⟩ := ih (s.apply call).1
    rw [applyAll,serverSends_append,List.append_eq_nil_iff,silent,List.forall_mem_cons]
    cases call with
    | asyncWriteText text =>
      refine ⟨base,?_,by simp [apply,serverSends]⟩
      intro data opCode member
      rcases List.mem_cons.mp member with same | later
      · cases same
        exact .inl rfl
      · exact known data opCode later
    | asyncWriteData bytes =>
      refine ⟨base,?_,by simp [apply,serverSends]⟩
      intro data opCode member
      rcases List.mem_cons.mp member with same | later
      · cases same
        exact .inr (.inl rfl)
      · exact known data opCode later
    | setSessionCallback => exact ⟨base,known,by simp [apply,serverSends]⟩

theorem readHttp_sends (sha1 : Bytes → Bytes) (server : WebSocketServer) (s : WebSocketSession) (data : Bytes) :
    (s.readHttp sha1 server data).1.base.frame = s.base.frame ∧
    (∀ payload opCode, .sendWsFrame payload opCode ∈ serverSends (s.readHttp sha1 server data).2 → SentOpCode opCode) ∧
    (serverSends (s.readHttp sha1 server data).2 = [] ↔ HandlerSilent server s data) := by
  unfold HandlerSilent
  cases found : find? blankLine (s.httpRecvBuffer++data) with
  | none =>
    have waits : s.readHttp sha1 server data = ({s with httpRecvBuffer:=s.httpRecvBuffer++data},[.asyncRead]) := by
      unfold readHttp onHandleHttpRequest
      dsimp only
      rw [found]
      rfl
    rw [waits]
    exact ⟨rfl,everySend_nothing rfl,by simp [serverSends]⟩
  | some pos =>
    cases read : readRequest server {s with httpRecvBuffer:=s.httpRecvBuffer++data,httpRequestReady:=true}
        ((s.httpRecvBuffer++data).take pos) with
    | error thrown =>
      obtain ⟨left,exn⟩ := thrown
      have refused : s.readHttp sha1 server data = ({left with base:={left.base with isConnected:=false}},[]) := by
        unfold readHttp onHandleHttpRequest
        dsimp only
        rw [found]
        dsimp only
        rw [read,error_bind]
      have base := (readRequest_thrown read).1
      rw [refused]
      have frame := congrArg WebSocketSessionBase.frame base
      refine ⟨frame,everySend_nothing rfl,?_⟩
      constructor
      · rintro - other filled handle same again
        cases same
        cases read.symm.trans again
      · exact fun _ => rfl
    | ok result =>
      obtain ⟨filled,handle⟩ := result
      have accepted : s.readHttp sha1 server data =
          ({(filled.applyAll (handle filled.path)).1.sendHttpResponse sha1 |>.1 with httpRecvBuffer:=[]},
            (filled.applyAll (handle filled.path)).2++
              ((filled.applyAll (handle filled.path)).1.sendHttpResponse sha1).2++[.asyncRead]) := by
        unfold readHttp onHandleHttpRequest
        dsimp only
        rw [found]
        dsimp only
        rw [read,ok_bind]
        rfl
      obtain ⟨base,known,silent⟩ := applyAll_sends (handle filled.path) filled
      have kept := base.trans (readRequest_handle read).2.1
      have same : serverSends (s.readHttp sha1 server data).2 = serverSends (filled.applyAll (handle filled.path)).2 := by
        rw [accepted]
        simp [serverSends,sendHttpResponse]
      rw [same,silent,accepted]
      refine ⟨congrArg WebSocketSessionBase.frame kept,known,?_⟩
      constructor
      · intro quiet other filled' handle' place again
        cases place
        cases read.symm.trans again
        exact quiet
      · exact fun quiet => quiet pos filled handle rfl read

theorem serverSends_nothing : serverSends outputs = [] ↔ ∀ data opCode, .sendWsFrame data opCode ∉ serverSends outputs := by
  constructor
  · exact everySend_nothing
  · intro silent
    refine List.eq_nil_iff_forall_not_mem.mpr fun action member => ?_
    obtain ⟨output,-,sends⟩ := List.mem_filterMap.mp member
    split at sends
    · cases sends
      exact silent _ _ member
    · cases sends

theorem performAll_frame (actions : List Action) (s : WebSocketSession) :
    (s.performAll actions).1.base.frame = s.base.frame := by
  induction actions generalizing s with
  | nil => rfl
  | cons action rest ih =>
    refine (ih (s.perform action).1).trans ?_
    unfold perform
    split
    · split
      · split
        · rfl
        · split <;> rfl
      · rfl
    · split <;> rfl
    · rfl

theorem readFrames_sends (pending : Pending s.base.frame) (isOpen : s.base.close = false)
    (room : (s.base.frame.buffer++data).length < 2^63) (read : s.readFrames data nowMs = .ok (next,emitted)) :
    Pending next.base.frame ∧ (∀ payload opCode, .sendWsFrame payload opCode ∈ serverSends emitted → SentOpCode opCode) ∧
    ∃ front more, (frameDecoder.drain (s.base.frame.buffer++data)).1 = front++more ∧
      (FramesBelow (s.base.frame.buffer++data) → (s.base.frame.buffer++data).length < 2^31 → more = []) ∧
      (serverSends emitted = [] ↔ ∀ frame ∈ front, frame.echoed = false) := by
  obtain ⟨⟨base,actions,ret⟩,handled,read⟩ := bind_ok.mp read
  cases read
  obtain ⟨still,close,front,more,split,answered,whole⟩ := handleFrame_sends pending room handled
  have sends : serverSends ((performAll {s with base} actions).2++[.asyncRead]) =
      sentFrames (effects false (s.base.assembly.absorb front).2) := by
    have performed := server_effects {s with base} actions
    rw [serverSends_append,performed]
    dsimp only
    rw [close,answered,isOpen]
    exact List.append_nil _
  refine ⟨?_,?_,front,more,split,whole,?_⟩
  · rw [performAll_frame]
    exact still
  · intro payload opCode member
    rw [sends,mem_sentFrames] at member
    exact .inr (.inr (.inr (effects_echoes front false s.base.assembly payload opCode member)))
  · rw [serverSends_nothing,← effects_silent front s.base.assembly,sends]
    simp only [mem_sentFrames]

-- What a step does, whether it is silent or not.
structure Steps (server : WebSocketServer) (s next : WebSocketSession) (event : Event) (emitted : List Output) : Prop where
  pending : Pending next.base.frame
  known : ∀ data opCode, .sendWsFrame data opCode ∈ serverSends emitted → SentOpCode opCode
  quiet : Silent server s event → serverSends emitted = []
  silent : Framed s event → serverSends emitted = [] → Silent server s event

theorem Steps.still (pending : Pending next.base.frame) (nothing : serverSends emitted = []) (silent : Silent server s event) :
    Steps server s next event emitted :=
  ⟨pending,everySend_nothing nothing,fun _ => nothing,fun _ _ => silent⟩

theorem read_steps (pending : Pending s.base.frame) (isOpen : s.base.close = false)
    (small : Small s (.read retCode data nowMs)) (read : s.onRead sha1 server retCode data nowMs = .ok (next,emitted)) :
    Steps server s next (.read retCode data nowMs) emitted := by
  unfold onRead at read
  split at read
  · rename_i failed
    cases read
    refine .still pending rfl fun _ good => ?_
    omega
  rename_i good
  split at read
  · rename_i ready
    have room := small isOpen (by omega) ready
    obtain ⟨still,known,front,more,split,whole,silent⟩ := readFrames_sends pending isOpen room read
    refine ⟨still,known,fun quiet => ?_,fun framed nothing _ _ => ?_⟩
    · have completed := quiet isOpen (by omega)
      rw [if_pos ready,split] at completed
      exact silent.mpr fun frame member => completed frame (List.mem_append_left _ member)
    · obtain ⟨below,short⟩ := framed isOpen (by omega) ready
      rw [if_pos ready,split,whole below short,List.append_nil]
      exact silent.mp nothing
  · rename_i waiting
    obtain ⟨frame,known,silent⟩ := readHttp_sends sha1 server s data
    rw [Except.ok.inj read] at frame known silent
    refine ⟨by rw [frame]; exact pending,known,fun quiet => ?_,fun _ nothing _ _ => ?_⟩
    · have handled := quiet isOpen (by omega)
      rw [if_neg waiting] at handled
      exact silent.mpr handled
    · rw [if_neg waiting]
      exact silent.mp nothing

theorem timer_steps (server : WebSocketServer) (nowMs : Int) (pending : Pending s.base.frame) :
    Steps server s (s.onTimer nowMs).1 (.timer nowMs) (s.onTimer nowMs).2 := by
  unfold onTimer
  split
  · rename_i down
    refine .still pending rfl fun connected => ?_
    rw [connected] at down
    cases down
  · rename_i up
    split
    · rename_i due
      refine ⟨pending,?_,fun quiet => ?_,?_⟩
      · intro payload opCode member
        cases List.mem_singleton.mp member
        exact .inr (.inr (.inl rfl))
      · have early := quiet (by simpa using up)
        omega
      · intro _ never
        cases never
    · rename_i early
      exact .still pending rfl fun _ => by omega

theorem call_steps (server : WebSocketServer) (call : SessionCall) (pending : Pending s.base.frame) :
    Steps server s (s.apply call).1 (.call call) (s.apply call).2 := by
  obtain ⟨base,known,silent⟩ := applyAll_sends [call] s
  have alone : s.applyAll [call] = ((s.apply call).1,(s.apply call).2) := by simp [applyAll]
  rw [alone] at base known silent
  refine ⟨by rw [base]; exact pending,known,fun quiet => silent.mpr ?_,fun _ nothing => ?_⟩
  · intro other member
    cases List.mem_singleton.mp member
    exact quiet
  · exact silent.mp nothing call List.mem_cons_self

theorem step_steps (pending : Pending s.base.frame) (small : Small s event)
    (stepped : step sha1 server s event = .ok (next,emitted)) : Steps server s next event emitted := by
  cases event with
  | read retCode data nowMs =>
    cases closed : s.base.close with
    | true =>
      cases (if_pos closed).symm.trans stepped
      refine .still pending rfl fun isOpen => ?_
      rw [closed] at isOpen
      cases isOpen
    | false => exact read_steps pending closed small ((if_neg (by simp [closed])).symm.trans stepped)
  | written retCode =>
    cases stepped
    refine .still ?_ rfl trivial
    unfold onWrite
    split
    · exact pending
    · split <;> exact pending
  | timer nowMs =>
    have steps := timer_steps server nowMs pending
    rw [Except.ok.inj stepped] at steps
    exact steps
  | call call =>
    have steps := call_steps server call pending
    rw [Except.ok.inj stepped] at steps
    exact steps

-- In the ranges of HandleFrame's integers every step is defined.
theorem step_defined (sha1 : Bytes → Bytes) (server : WebSocketServer) (pending : Pending s.base.frame)
    (framed : Framed s event) : ∃ result, step sha1 server s event = .ok result := by
  cases event with
  | read retCode data nowMs =>
    unfold step
    dsimp only
    split
    · exact ⟨_,rfl⟩
    rename_i isOpen
    unfold onRead
    split
    · exact ⟨_,rfl⟩
    rename_i good
    split
    · rename_i ready
      have below := (framed (by simpa using isOpen) (by omega) ready).1
      obtain ⟨base,actions,ret,handled,-⟩ := WebSocketSessionBase.loop_good nowMs
        (s.base.frame.buffer.length+data.length+1) pending data (by rw [List.length_append]; omega) below
      refine ⟨_,bind_ok.mpr ⟨_,handled,rfl⟩⟩
    · exact ⟨_,rfl⟩
  | written retCode => exact ⟨_,rfl⟩
  | timer nowMs => exact ⟨_,rfl⟩
  | call call => exact ⟨_,rfl⟩

theorem session_conforms (sha1 : Bytes → Bytes) (server : WebSocketServer) (startMs : Int) (events : List Event)
    (small : (machine sha1 server startMs).Guarded (fun _ => Small) events) :
    ((machine sha1 server startMs).Guarded (fun _ => Silent server) events →
      (machine sha1 server startMs).Throughout (fun _ outputs _ => Conforming .server (serverSends outputs)) events) ∧
    ((machine sha1 server startMs).Guarded (fun _ => Framed) events →
      (machine sha1 server startMs).Throughout (fun _ outputs _ => Conforming .server (serverSends outputs)) events →
      (machine sha1 server startMs).Guarded (fun _ => Silent server) events) := by
  have initially : Pending (machine sha1 server startMs).initial.base.frame := WebSocketSessionBase.pending_unready rfl
  have joins : ∀ one two, Conforming .server (serverSends (one++two)) ↔
      Conforming .server (serverSends one) ∧ Conforming .server (serverSends two) := by
    intro one two
    rw [serverSends_append]
    exact conforming_append
  have nothing : Conforming .server [] := everySend_nothing rfl
  constructor
  · intro silent
    refine (machine sha1 server startMs).stepwise_good (fun s => Pending s.base.frame)
      (fun outputs => Conforming .server (serverSends outputs)) initially nothing joins ?_ ?_ small silent
    · exact fun s event next emitted pending small stepped => (step_steps pending small stepped).pending
    · intro s event next emitted pending small stepped silent
      rw [(step_steps pending small stepped).quiet silent]
      exact nothing
  · intro framed
    refine (machine sha1 server startMs).stepwise_forced (fun s => Pending s.base.frame)
      (fun outputs => Conforming .server (serverSends outputs)) initially joins ?_ ?_ ?_ small framed
    · exact fun s event next emitted pending small stepped => (step_steps pending small stepped).pending
    · intro s event next emitted pending small framed stepped conforming
      have steps := step_steps pending small stepped
      exact steps.silent framed (serverSends_nothing.mpr ((server_conforming steps.known).mp conforming))
    · intro s event fault pending framed stepped
      obtain ⟨result,defined⟩ := step_defined sha1 server pending framed
      cases stepped.symm.trans defined

end WebSocketSession

namespace WebSocketClient
open WebSocketSessionBase (clientSends sentFrames effects client_effects effects_short effects_echoes mem_sentFrames
  handleFrame_sends FramesBelow EchoesShort ShortSends shortSends_append echoesShort_front)
open WebSocketFrame (Pending)

-- The response with the bytes of frames that a read hands over.
def offered (client : WebSocketClient) (retCode : Int) (data : Bytes) : Option HttpClientResponse :=
  if client.connected && client.httpReady then
    match client.http.onRead retCode data with
    | .ok (http,⟨some ret,_⟩) => if ret < 0 then none else http.response
    | _ => none
  else none

def arrived (client : WebSocketClient) (r : HttpClientResponse) : List UInt8 := client.base.frame.buffer++r.data

-- The lengths that memory and the integers of the code have room for.
def Roomy (client : WebSocketClient) : Event → Prop
  | .read retCode data _ => ∀ r, client.offered retCode data = some r → (client.arrived r).length < 2^63
  | .timer _ => True
  | .call call => call.payload.length < 2^64

def Ranged (client : WebSocketClient) : Event → Prop
  | .read retCode data _ => ∀ r, client.offered retCode data = some r →
      FramesBelow (client.arrived r) ∧ (client.arrived r).length < 2^31
  | _ => True

-- Where all that a read makes the client send back is short.
def Brief (client : WebSocketClient) : Event → Prop
  | .read retCode data _ => ∀ r, client.offered retCode data = some r →
      EchoesShort client.base.close client.base.recvBufferVec (frameDecoder.drain (client.arrived r)).1
  | _ => True

variable {client next : WebSocketClient} {event : Event} {outputs emitted : List Output}

@[simp] theorem clientSends_append (first second : List Output) :
    clientSends (first++second) = clientSends first++clientSends second := by simp [clientSends]

theorem performAll_frame (actions : List Action) (client : WebSocketClient) :
    (client.performAll actions).1.base.frame = client.base.frame := by
  rcases performAll_cases actions client with ⟨same,-⟩ | shut
  · rw [same]
  · rw [shut]
    rfl

theorem readFrames_sends (client : WebSocketClient) (pending : Pending client.base.frame)
    (room : (client.arrived r).length < 2^63) (read : client.readFrames r nowMs = .ok (next,emitted)) :
    Pending next.base.frame ∧
    (∀ data opCode, .sendWsFrame data opCode ∈ clientSends emitted → IsControl opCode) ∧
    ∃ front more, (frameDecoder.drain (client.arrived r)).1 = front++more ∧
      (FramesBelow (client.arrived r) → (client.arrived r).length < 2^31 → more = []) ∧
      (ShortSends (clientSends emitted) ↔ EchoesShort client.base.close client.base.recvBufferVec front) := by
  obtain ⟨⟨base,actions,ret⟩,handled,read⟩ := bind_ok.mp read
  obtain ⟨rfl,rfl⟩ := ok_pair read
  obtain ⟨still,close,front,more,split,answered,whole⟩ := handleFrame_sends pending room (mapError_ok.mp handled)
  let held : WebSocketClient := {client.respond {r with data:=[]} with base}
  have sends : clientSends (held.performAll actions).2 =
      sentFrames (effects client.base.close (client.base.assembly.absorb front).2) := by
    rw [client_effects,← answered,← close]
  refine ⟨?_,?_,front,more,split,whole,?_⟩
  · rw [performAll_frame]
    exact still
  · intro data opCode member
    rw [sends,mem_sentFrames] at member
    exact .inr (effects_echoes front _ client.base.assembly data opCode member)
  · refine Iff.trans ?_ (effects_short front client.base.close client.base.assembly)
    rw [sends]
    simp only [ShortSends,mem_sentFrames]

-- A read hands frames over, or it sends none.
theorem onRead_offers (connected : client.connected = true) (read : client.onRead sha1 retCode data nowMs = .ok (next,emitted)) :
    (∃ http r said more, client.offered retCode data = some r ∧ readFrames {client with http} r nowMs = .ok (next,said) ∧
      emitted = said++more ∧ clientSends more = []) ∨
    client.offered retCode data = none ∧ next.base.frame = client.base.frame ∧ clientSends emitted = [] := by
  obtain ⟨⟨http,httpRead,asyncRead⟩,got,read⟩ := bind_ok.mp read
  have got := mapError_ok.mp got
  have follow : clientSends (if asyncRead then [Output.asyncRead] else []) = [] := by cases asyncRead <;> rfl
  cases httpRead with
  | none =>
    cases read
    right
    refine ⟨?_,rfl,follow⟩
    unfold offered
    rw [got]
    split <;> rfl
  | some ret =>
    have answers : client.offered retCode data =
        if client.httpReady then if ret < 0 then none else http.response else none := by
      unfold offered
      rw [got,connected,Bool.true_and]
    rw [answers]
    obtain ⟨⟨handled,said⟩,notified,same⟩ := bind_ok.mp read
    obtain ⟨rfl,rfl⟩ := ok_pair same
    rw [clientSends_append,follow,List.append_nil]
    dsimp only at notified ⊢
    unfold onHttpRead at notified
    split at notified
    · rename_i failed
      cases notified
      right
      exact ⟨by simp [failed],rfl,rfl⟩
    rename_i good
    rw [if_neg good]
    split at notified
    · rename_i missing
      cases notified
      right
      rw [missing]
      exact ⟨by split <;> rfl,rfl,rfl⟩
    · rename_i r held
      split at notified
      · rename_i ready
        left
        exact ⟨http,r,said,_,by rw [if_pos ready]; exact held,notified,rfl,follow⟩
      · rename_i waiting
        right
        rw [if_neg waiting]
        obtain ⟨output,single,reported,-,base,-⟩ := handshake_exact sha1 {client with http} r
        rw [Except.ok.inj notified] at single base
        refine ⟨rfl,by rw [base],?_⟩
        dsimp only at single
        rw [single]
        cases output with
        | frame action => cases reported
        | _ => rfl

-- In the ranges of HandleFrame's integers a read that hands frames over is defined.
theorem offered_defined (sha1 : Bytes → Bytes) (nowMs : Int) (pending : Pending client.base.frame)
    (offers : client.offered retCode data = some r) (below : FramesBelow (client.arrived r)) :
    ∃ result, step sha1 client (.read retCode data nowMs) = .ok result := by
  unfold offered at offers
  split at offers
  · rename_i both
    obtain ⟨connected,ready⟩ := Bool.and_eq_true_iff.mp both
    split at offers
    · rename_i http ret asyncRead got
      split at offers
      · cases offers
      rename_i good
      obtain ⟨base,actions,left,handled,-⟩ := WebSocketSessionBase.loop_good nowMs
        (client.base.frame.buffer.length+r.data.length+1) pending r.data (by rw [List.length_append]; omega) below
      have read : ∃ result, onHttpRead sha1 {client with http} ret nowMs = .ok result := by
        unfold onHttpRead
        rw [if_neg good,offers]
        dsimp only
        rw [if_pos ready]
        exact ⟨_,bind_ok.mpr ⟨_,mapError_ok.mpr handled,rfl⟩⟩
      obtain ⟨result,read⟩ := read
      refine ⟨(result.1,result.2++if asyncRead then [.asyncRead] else []),(if_pos connected).trans ?_⟩
      exact bind_ok.mpr ⟨_,mapError_ok.mpr got,bind_ok.mpr ⟨result,read,rfl⟩⟩
    · cases offers
  · cases offers

-- What a step does, whether it is brief or not.
structure Steps (client next : WebSocketClient) (event : Event) (emitted : List Output) : Prop where
  pending : Pending next.base.frame
  known : ∀ data opCode, .sendWsFrame data opCode ∈ clientSends emitted → SentOpCode opCode
  fits : ∀ data opCode, .sendWsFrame data opCode ∈ clientSends emitted → ¬ IsControl opCode → data.length < 2^64
  short : Brief client event → ShortSends (clientSends emitted)
  brief : Ranged client event → ShortSends (clientSends emitted) → Brief client event

theorem Steps.control (pending : Pending next.base.frame)
    (control : ∀ data opCode, .sendWsFrame data opCode ∈ clientSends emitted → IsControl opCode)
    (short : Brief client event → ShortSends (clientSends emitted))
    (brief : Ranged client event → ShortSends (clientSends emitted) → Brief client event) : Steps client next event emitted :=
  ⟨pending,fun data opCode member => .inr (.inr (control data opCode member)),
    fun data opCode member other => absurd (control data opCode member) other,short,brief⟩

theorem Steps.quiet (pending : Pending next.base.frame) (quiet : clientSends emitted = []) (brief : Brief client event) :
    Steps client next event emitted :=
  .control pending (everySend_nothing quiet) (fun _ => everySend_nothing quiet) (fun _ _ => brief)

theorem read_steps (pending : Pending client.base.frame) (roomy : Roomy client (.read retCode data nowMs))
    (connected : client.connected = true) (read : client.onRead sha1 retCode data nowMs = .ok (next,emitted)) :
    Steps client next (.read retCode data nowMs) emitted := by
  rcases onRead_offers connected read with ⟨http,r,said,more,offers,handled,rfl,quiet⟩ | ⟨nothing,frame,quiet⟩
  · have room := roomy r offers
    obtain ⟨still,control,front,rest,split,whole,short⟩ := readFrames_sends {client with http} pending room handled
    have sends : clientSends (said++more) = clientSends said := by rw [clientSends_append,quiet,List.append_nil]
    refine .control still ?_ ?_ ?_
    · rw [sends]
      exact control
    · intro brief
      have every := brief r offers
      rw [sends,short]
      exact echoesShort_front front rest _ _ (split ▸ every)
    · intro ranged sent other again
      cases offers.symm.trans again
      obtain ⟨below,small⟩ := ranged r offers
      have nothing := whole below small
      rw [nothing,List.append_nil] at split
      rw [sends,short,← split] at sent
      exact sent
  · refine .quiet (by rw [frame]; exact pending) quiet fun r offers => ?_
    rw [nothing] at offers
    cases offers

theorem ping_sends (member : .sendWsFrame data opCode ∈ clientSends (client.ping nowMs).2) :
    data = WebSocketSession.pingPayload nowMs ∧ opCode = wsOpPingType := by
  unfold ping at member
  split at member
  · cases List.mem_singleton.mp member
    exact ⟨rfl,rfl⟩
  · cases member

theorem checkPong_quiet (client : WebSocketClient) (nowMs : Int) :
    (client.checkPong nowMs).1.base.frame = client.base.frame ∧ clientSends (client.checkPong nowMs).2 = [] := by
  unfold checkPong
  split
  · exact ⟨rfl,rfl⟩
  · split <;> exact ⟨rfl,rfl⟩

theorem timer_steps (nowMs : Int) (pending : Pending client.base.frame) :
    Steps client (client.onTimer nowMs).1 (.timer nowMs) (client.onTimer nowMs).2 := by
  unfold onTimer
  split
  · exact .quiet pending rfl trivial
  obtain ⟨frame,nothing⟩ := checkPong_quiet (client.ping nowMs).1 nowMs
  have kept := congrArg WebSocketSessionBase.frame (ping_kept client nowMs).1
  have same : clientSends ((client.ping nowMs).2++((client.ping nowMs).1.checkPong nowMs).2) =
      clientSends (client.ping nowMs).2 := by rw [clientSends_append,nothing,List.append_nil]
  refine .control ?_ ?_ ?_ (fun _ _ => trivial)
  · rw [frame,kept]
    exact pending
  · rw [same]
    exact fun data opCode member => .inl (ping_sends member).2
  · rw [same]
    intro _ data opCode member _
    have four : (WebSocketSession.pingPayload nowMs).length = 4 := rfl
    rw [(ping_sends member).1,four]
    omega

theorem written_steps (pending : Pending client.base.frame) (sent : SentOpCode opCode) (other : ¬ IsControl opCode)
    (fits : data.length < 2^64) (brief : Brief client event) :
    Steps client client event [.frame (.sendWsFrame data opCode)] := by
  refine ⟨pending,?_,?_,?_,fun _ _ => brief⟩
  · intro data opCode member
    cases List.mem_singleton.mp member
    exact sent
  · intro data opCode member _
    cases List.mem_singleton.mp member
    exact fits
  · intro _ data opCode member control
    cases List.mem_singleton.mp member
    exact absurd control other

theorem call_steps (call : SessionCall) (pending : Pending client.base.frame) (roomy : Roomy client (.call call)) :
    Steps client (client.apply call).1 (.call call) (client.apply call).2 := by
  cases call with
  | asyncWriteText text => exact written_steps pending (.inl rfl) (by decide) roomy trivial
  | asyncWriteData bytes => exact written_steps pending (.inr (.inl rfl)) (by decide) roomy trivial
  | setSessionCallback => exact .quiet pending rfl trivial

theorem step_steps (pending : Pending client.base.frame) (roomy : Roomy client event)
    (stepped : step sha1 client event = .ok (next,emitted)) : Steps client next event emitted := by
  cases event with
  | read retCode data nowMs =>
    cases connected : client.connected with
    | true => exact read_steps pending roomy connected ((if_pos connected).symm.trans stepped)
    | false =>
      cases (if_neg (by simp [connected])).symm.trans stepped
      refine .quiet pending rfl fun r offers => ?_
      unfold offered at offers
      rw [connected] at offers
      cases offers
  | timer nowMs =>
    have steps := timer_steps nowMs pending
    rw [Except.ok.inj stepped] at steps
    exact steps
  | call call =>
    have steps := call_steps call pending roomy
    rw [Except.ok.inj stepped] at steps
    exact steps

theorem client_conforms (sha1 : Bytes → Bytes) (http : HttpClient) (key : Bytes) (events : List Event)
    (roomy : (machine sha1 {http,key}).Guarded (fun _ => Roomy) events) :
    ((machine sha1 {http,key}).Guarded (fun _ => Brief) events →
      (machine sha1 {http,key}).Throughout (fun _ outputs _ => Conforming .client (clientSends outputs)) events) ∧
    ((machine sha1 {http,key}).Guarded (fun _ => Ranged) events →
      (machine sha1 {http,key}).Throughout (fun _ outputs _ => Conforming .client (clientSends outputs)) events →
      (machine sha1 {http,key}).Guarded (fun _ => Brief) events) := by
  have initially : Pending (machine sha1 {http,key}).initial.base.frame := WebSocketSessionBase.pending_unready rfl
  have joins : ∀ one two, Conforming .client (clientSends (one++two)) ↔
      Conforming .client (clientSends one) ∧ Conforming .client (clientSends two) := by
    intro one two
    rw [clientSends_append]
    exact conforming_append
  constructor
  · intro brief
    refine (machine sha1 {http,key}).stepwise_good (fun client => Pending client.base.frame)
      (fun outputs => Conforming .client (clientSends outputs)) initially (everySend_nothing rfl) joins ?_ ?_ roomy brief
    · exact fun client event next emitted pending roomy stepped => (step_steps pending roomy stepped).pending
    · intro client event next emitted pending roomy stepped brief
      have steps := step_steps pending roomy stepped
      exact (client_conforming steps.known steps.fits).mpr (steps.short brief)
  · intro ranged
    refine (machine sha1 {http,key}).stepwise_forced (fun client => Pending client.base.frame)
      (fun outputs => Conforming .client (clientSends outputs)) initially joins ?_ ?_ ?_ roomy ranged
    · exact fun client event next emitted pending roomy stepped => (step_steps pending roomy stepped).pending
    · intro client event next emitted pending roomy ranged stepped conforming
      have steps := step_steps pending roomy stepped
      exact steps.brief ranged ((client_conforming steps.known steps.fits).mp conforming)
    · intro client event fault pending ranged stepped
      cases event with
      | read retCode data nowMs =>
        intro r offers
        obtain ⟨result,defined⟩ := offered_defined sha1 nowMs pending offers (ranged r offers).1
        cases stepped.symm.trans defined
      | timer nowMs => trivial
      | call call => trivial

end WebSocketClient

open WebSocketSessionBase (serverSends clientSends)

-- A session conforms while it sends nothing, a client while what it sends back
-- is short; in the ranges of HandleFrame's integers neither does otherwise.
theorem emitted_conform_exactly (sha1 : Bytes → Bytes) :
    (∀ server startMs events,
      (WebSocketSession.machine sha1 server startMs).Guarded (fun _ => WebSocketSession.Small) events →
      ((WebSocketSession.machine sha1 server startMs).Guarded (fun _ => WebSocketSession.Silent server) events →
        (WebSocketSession.machine sha1 server startMs).Throughout
          (fun _ outputs _ => Conforming .server (serverSends outputs)) events) ∧
      ((WebSocketSession.machine sha1 server startMs).Guarded (fun _ => WebSocketSession.Framed) events →
        (WebSocketSession.machine sha1 server startMs).Throughout
          (fun _ outputs _ => Conforming .server (serverSends outputs)) events →
        (WebSocketSession.machine sha1 server startMs).Guarded (fun _ => WebSocketSession.Silent server) events)) ∧
    (∀ http key events,
      (WebSocketClient.machine sha1 {http,key}).Guarded (fun _ => WebSocketClient.Roomy) events →
      ((WebSocketClient.machine sha1 {http,key}).Guarded (fun _ => WebSocketClient.Brief) events →
        (WebSocketClient.machine sha1 {http,key}).Throughout
          (fun _ outputs _ => Conforming .client (clientSends outputs)) events) ∧
      ((WebSocketClient.machine sha1 {http,key}).Guarded (fun _ => WebSocketClient.Ranged) events →
        (WebSocketClient.machine sha1 {http,key}).Throughout
          (fun _ outputs _ => Conforming .client (clientSends outputs)) events →
        (WebSocketClient.machine sha1 {http,key}).Guarded (fun _ => WebSocketClient.Brief) events)) :=
  ⟨WebSocketSession.session_conforms sha1,WebSocketClient.client_conforms sha1⟩

-- A response that a digest of no bytes accepts, and a frame behind it.
def switchedReply : Bytes :=
  ascii "HTTP/1.1 101 Switching"++crlf++ascii "Connection: Upgrade"++crlf++ascii "Upgrade: websocket"++blankLine

def switchedTrace (frame : Bytes) : List WebSocketClient.Event := [.read 0 switchedReply 0,.read 0 frame 0]

def switchedClient : Machine WebSocketClient WebSocketClient.Event WebSocketClient.Output WebSocketClient.Failure :=
  WebSocketClient.machine (fun _ => []) {http:={host:=[]},key:=[]}

theorem shortPing_offered (ran : switchedClient.run [.read 0 switchedReply 0] = .ok (client,outputs))
    (offers : client.offered 0 [0x89,1,7] = some r) :
    client.base.close = false ∧ client.base.recvBufferVec = [] ∧ client.arrived r = [0x89,1,7] := by
  have seen : (switchedClient.run [.read 0 switchedReply 0]).map (fun result => (result.1.offered 0 [0x89,1,7]).map fun r =>
      (result.1.base.close,result.1.base.recvBufferVec,result.1.arrived r)) = .ok (some (false,[],[0x89,1,7])) := by
    decide +kernel
  obtain ⟨result,again,same⟩ := map_ok.mp seen
  cases ran.symm.trans again
  rw [offers] at same
  simpa using same

-- A ping with one byte is answered well.
theorem shortPing_conforms : switchedClient.Guarded (fun _ => WebSocketClient.Roomy) (switchedTrace [0x89,1,7]) ∧
    switchedClient.Guarded (fun _ => WebSocketClient.Brief) (switchedTrace [0x89,1,7]) ∧
    switchedClient.Throughout (fun _ outputs _ => Conforming .client (clientSends outputs)) (switchedTrace [0x89,1,7]) := by
  have unoffered : ∀ client outputs r, switchedClient.run [] = .ok (client,outputs) →
      client.offered 0 switchedReply ≠ some r := by
    rintro client outputs r ran
    cases ran
    simp [WebSocketClient.offered,switchedClient,WebSocketClient.machine]
  have roomy : switchedClient.Guarded (fun _ => WebSocketClient.Roomy) (switchedTrace [0x89,1,7]) := by
    refine Machine.Guarded.snoc _ (Machine.Guarded.snoc _ (Machine.Guarded.nil _) ?_) ?_
    · exact fun client outputs ran r offers => absurd offers (unoffered client outputs r ran)
    · intro client outputs ran r offers
      rw [(shortPing_offered ran offers).2.2]
      decide
  have brief : switchedClient.Guarded (fun _ => WebSocketClient.Brief) (switchedTrace [0x89,1,7]) := by
    refine Machine.Guarded.snoc _ (Machine.Guarded.snoc _ (Machine.Guarded.nil _) ?_) ?_
    · exact fun client outputs ran r offers => absurd offers (unoffered client outputs r ran)
    · intro client outputs ran r offers
      obtain ⟨close,empty,arrived⟩ := shortPing_offered ran offers
      have drained : (frameDecoder.drain [0x89,1,7]).1 = [⟨true,wsOpPingType,[7]⟩] := by decide
      rw [close,empty,arrived,drained]
      simp [WebSocketSessionBase.EchoesShort,wsOpPingType,wsOpCloseType]
  exact ⟨roomy,brief,((emitted_conform_exactly fun _ => []).2 _ _ _ roomy).1 brief⟩

-- A session that writes one letter masks it, and a client sends a ping of 126
-- bytes back as it came.
def writingTrace : List WebSocketSession.Event :=
  [.read 0 (WebSocketSession.openingBlock++blankLine) 0,.call (.asyncWriteText [97])]

def longPing : Bytes := [0x89,126,0,126]++List.replicate 126 0

theorem emitted_misformed :
    (∃ s outputs, (WebSocketSession.machine (fun _ => WebSocketSession.openingDigest) WebSocketSession.chatServer 0).run
      writingTrace = .ok (s,outputs) ∧ ¬ Conforming .server (serverSends outputs)) ∧
    (∃ client outputs, switchedClient.run (switchedTrace longPing) = .ok (client,outputs) ∧
      ¬ Conforming .client (clientSends outputs)) := by
  have wrote : ((WebSocketSession.machine (fun _ => WebSocketSession.openingDigest) WebSocketSession.chatServer 0).run
      writingTrace).map (fun result => serverSends result.2) = .ok [.sendWsFrame [97] wsOpTextType] := by decide +kernel
  have echoed : (switchedClient.run (switchedTrace longPing)).map (fun result => clientSends result.2) =
      .ok [.sendWsFrame (List.replicate 126 0) wsOpPongType] := by decide +kernel
  obtain ⟨⟨s,outputs⟩,ran,sends⟩ := map_ok.mp wrote
  obtain ⟨⟨client,emitted⟩,followed,answers⟩ := map_ok.mp echoed
  refine ⟨⟨s,outputs,ran,fun conforming => ?_⟩,client,emitted,followed,fun conforming => ?_⟩
  · obtain ⟨writes,sent,bytes⟩ := sendWsFrame_exact .server ⟨1,1,1,1⟩ [97] wsOpTextType
    have conforms := conforming [97] wsOpTextType (by rw [sends]; exact List.mem_cons_self) _ writes sent
    rw [bytes] at conforms
    cases (encode_fails (by decide) conforms).1
  · obtain ⟨writes,sent,bytes⟩ := sendWsFrame_exact .client ⟨1,1,1,1⟩ (List.replicate 126 0) wsOpPongType
    have conforms := conforming _ wsOpPongType (by rw [answers]; exact List.mem_cons_self) _ writes sent
    rw [bytes] at conforms
    have short := (encode_fails (by decide) conforms).2 (by decide)
    rw [List.length_replicate] at short
    omega

end CoStream
