import CoStream.Foundation.Ledger
import CoStream.WebSocketDelivery
import CoStream.WebSocketPong

namespace CoStream
open Foundation

namespace Frame

def pings (frame : Frame) : Bool := frame.fin && frame.opcode == wsOpPingType

end Frame

namespace WebSocketSessionBase

-- The sends among these calls that come behind a close.
def sendsBehind : Bool → List Action → Bool
  | _,[] => false
  | _,.handleWsClose _::rest => sendsBehind true rest
  | closed,.sendWsFrame _ _::rest => closed || sendsBehind closed rest
  | closed,_::rest => sendsBehind closed rest

def NothingPingedBehind (frames : List Frame) : Prop :=
  frames.Pairwise fun earlier later => earlier.closes = true → later.pings = false
instance {frames : List Frame} : Decidable (NothingPingedBehind frames) := inferInstanceAs (Decidable (List.Pairwise _ _))

variable {frame : Frame} {actions rest : List Action}

theorem sendsBehind_closes (payloads : List (List UInt8)) (some : payloads ≠ []) (closed : Bool) (rest : List Action) :
    sendsBehind closed (payloads.map .handleWsClose++rest) = sendsBehind true rest := by
  induction payloads generalizing closed with
  | nil => exact absurd rfl some
  | cons payload payloads ih =>
    rw [List.map_cons,List.cons_append,sendsBehind]
    by_cases last : payloads = []
    · rw [last]
      rfl
    · exact ih last true

theorem sendsBehind_pongs (payloads : List (List UInt8)) (some : payloads ≠ []) (opCode : UInt8) (closed : Bool)
    (rest : List Action) :
    sendsBehind closed (payloads.map (.sendWsFrame · opCode)++rest) = (closed || sendsBehind closed rest) := by
  induction payloads with
  | nil => exact absurd rfl some
  | cons payload payloads ih =>
    rw [List.map_cons,List.cons_append,sendsBehind]
    by_cases last : payloads = []
    · rw [last]
      rfl
    · rw [ih last]
      cases closed <;> rfl

theorem sendsBehind_data (payloads : List (List UInt8)) (opCode : UInt8) (closed : Bool) (rest : List Action) :
    sendsBehind closed (payloads.map (.handleWsData · opCode)++rest) = sendsBehind closed rest := by
  induction payloads with
  | nil => rfl
  | cons payload payloads ih => exact ih

-- One frame: a close shuts the connection, a ping is answered on it.
theorem sendsBehind_accept (a : Assembly) (frame : Frame) (closed : Bool) (rest : List Action) :
    sendsBehind closed ((a.accept frame).2++rest) =
      if frame.closes then sendsBehind true rest else (closed && frame.pings || sendsBehind closed rest) := by
  have some : a.pending++[frame.payload] ≠ [] := by simp
  cases closes : frame.closes with
  | true =>
    rw [accept_closes a closes,sendsBehind_closes _ some]
    rfl
  | false =>
    rw [if_neg nofun]
    unfold Assembly.accept Frame.pings
    cases fin : frame.fin with
    | false =>
      rw [if_neg nofun,Bool.false_and,Bool.and_false]
      rfl
    | true =>
      have plain : frame.opcode ≠ wsOpCloseType := by simpa [Frame.closes,fin] using closes
      rw [if_pos rfl,Bool.true_and]
      unfold Assembly.answers
      by_cases ping : frame.opcode = wsOpPingType
      · rw [if_pos ping,sendsBehind_pongs _ some,ping]
        cases closed <;> rfl
      · have other : (closed && frame.opcode == wsOpPingType) = false := by simp [ping]
        rw [if_neg ping,if_neg plain,other,Bool.false_or]
        split
        · rfl
        · split
          · exact sendsBehind_data _ _ _ _
          · split
            · exact sendsBehind_data _ _ _ _
            · rfl

theorem absorb_behind (frames : List Frame) (a : Assembly) :
    sendsBehind true (a.absorb frames).2 = false ↔ ∀ frame ∈ frames, frame.pings = false := by
  induction frames generalizing a with
  | nil => simp [Assembly.absorb,sendsBehind]
  | cons frame rest ih =>
    rw [Assembly.absorb,sendsBehind_accept,List.forall_mem_cons]
    cases closes : frame.closes with
    | true =>
      have other : frame.pings = false := by
        simp only [Frame.closes,Bool.and_eq_true,beq_iff_eq] at closes
        simp [Frame.pings,closes.2,wsOpCloseType,wsOpPingType]
      rw [if_pos rfl,ih]
      exact ⟨fun quiet => ⟨other,quiet⟩,And.right⟩
    | false =>
      rw [if_neg Bool.false_ne_true,Bool.true_and,Bool.or_eq_false_iff,ih]

theorem absorb_unpinged (frames : List Frame) (a : Assembly) :
    sendsBehind false (a.absorb frames).2 = false ↔ NothingPingedBehind frames := by
  induction frames generalizing a with
  | nil => exact iff_of_true rfl List.Pairwise.nil
  | cons frame rest ih =>
    rw [Assembly.absorb,sendsBehind_accept,NothingPingedBehind,List.pairwise_cons]
    cases closes : frame.closes with
    | true =>
      rw [if_pos rfl,absorb_behind]
      constructor
      · intro quiet
        refine ⟨fun later member _ => quiet later member,?_⟩
        exact List.pairwise_of_forall_mem_list fun _ _ later member _ => quiet later member
      · exact fun behind later member => behind.1 later member rfl
    | false =>
      rw [if_neg Bool.false_ne_true,Bool.false_and,Bool.false_or,ih]
      exact ⟨fun quiet => ⟨fun _ _ never => absurd never Bool.false_ne_true,quiet⟩,And.right⟩

theorem sendsBehind_calls (actions : List Action) (closed : Bool) :
    sendsBehind closed (calls actions) = sendsBehind closed actions := by
  induction actions generalizing closed with
  | nil => rfl
  | cons action rest ih =>
    cases action with
    | parsed frame => rw [calls_parsed,ih]; rfl
    | consumed before after => rw [calls_consumed,ih]; rfl
    | sendWsFrame data opCode => exact congrArg (closed || ·) (ih closed)
    | _ => exact ih _

end WebSocketSessionBase

namespace WebSocketSession
open WebSocketFrame (Pending)
open WebSocketSessionBase (Fits NothingPingedBehind sendsBehind)

def Output.isClosed : Output → Bool
  | .closed => true
  | _ => false

-- uv_write refuses a handle that is closed, and AsyncWrite throws.
def writesClosed : Bool → List Output → Bool
  | _,[] => false
  | _,.closed::rest => writesClosed true rest
  | closed,.frame (.sendWsFrame _ _)::rest => closed || writesClosed closed rest
  | closed,.httpResponse _::rest => closed || writesClosed closed rest
  | closed,.errorResponse _::rest => closed || writesClosed closed rest
  | closed,_::rest => writesClosed closed rest

-- A session closes at a close frame and goes on as before: its timer pings, the
-- application writes, and the loop of HandleFrame answers.
def Gentle (s : WebSocketSession) : Event → Prop
  | .read retCode data _ => s.base.close = false → s.httpRequestReady = true → 0 ≤ retCode →
      NothingPingedBehind (s.base.completes data)
  | .written _ => True
  | .timer nowMs => s.base.close = true → s.base.isConnected = true → nowMs-s.base.lastSendPingMs ≤ 2000
  | .call call => s.base.close = true → call = .setSessionCallback

def InRange (s : WebSocketSession) : Event → Prop
  | .read _ data _ => s.httpRequestReady = true → Fits s.base data
  | _ => True

variable {sha1 : Bytes → Bytes} {server : WebSocketServer} {s next : WebSocketSession} {event : Event}

theorem writesClosed_append (first second : List Output) (closed : Bool) : writesClosed closed (first++second) =
    (writesClosed closed first || writesClosed (closed || first.any Output.isClosed) second) := by
  induction first generalizing closed with
  | nil => simp [writesClosed]
  | cons output rest ih =>
    rw [List.cons_append]
    cases output with
    | closed =>
      have later := ih true
      simpa [writesClosed,Output.isClosed] using later
    | frame action => cases action <;> simp [writesClosed,ih,Output.isClosed,Bool.or_assoc]
    | _ => simp [writesClosed,ih,Output.isClosed,Bool.or_assoc]

-- Without a close among them, outputs are fine on an open connection.
theorem writesClosed_open (outputs : List Output) (none : outputs.any Output.isClosed = false) :
    writesClosed false outputs = false := by
  induction outputs with
  | nil => rfl
  | cons output rest ih =>
    rw [List.any_cons,Bool.or_eq_false_iff] at none
    have later := ih none.2
    cases output with
    | closed => exact nomatch none.1
    | frame action => cases action <;> exact later
    | _ => exact later

theorem perform_writes (s : WebSocketSession) (action : Action) :
    (∀ rest, (writesClosed s.base.close (s.perform action).2 ||
      sendsBehind (s.perform action).1.base.close rest) = sendsBehind s.base.close (action::rest)) ∧
    (s.base.close || (s.perform action).2.any Output.isClosed) = (s.perform action).1.base.close := by
  cases action with
  | handleWsClose data =>
    obtain ⟨reply,opCode,sends⟩ := WebSocketSessionBase.closeReply_sends data
    cases closed : s.base.close with
    | false => simp [perform,closed,sends,writesClosed,sendsBehind,Output.isClosed]
    | true => simp [perform,closed,writesClosed,sendsBehind]
  | handleWsData data opCode =>
    have silent : writesClosed s.base.close (s.perform (.handleWsData data opCode)).2 = false ∧
        (s.perform (.handleWsData data opCode)).2.any Output.isClosed = false ∧
        (s.perform (.handleWsData data opCode)).1 = s := by
      unfold perform
      dsimp only
      split
      · split
        · exact ⟨rfl,rfl,rfl⟩
        · split <;> exact ⟨rfl,rfl,rfl⟩
      · exact ⟨rfl,rfl,rfl⟩
    rw [silent.1,silent.2.1,silent.2.2,Bool.or_false]
    exact ⟨fun rest => rfl,rfl⟩
  | sendWsFrame data opCode => simp [perform,writesClosed,sendsBehind,Output.isClosed]
  | _ => simp [perform,writesClosed,sendsBehind,Output.isClosed]

theorem performAll_writes (actions : List Action) (s : WebSocketSession) :
    writesClosed s.base.close (s.performAll actions).2 = sendsBehind s.base.close actions := by
  induction actions generalizing s with
  | nil => rfl
  | cons action rest ih =>
    obtain ⟨writes,closed⟩ := perform_writes s action
    rw [performAll,writesClosed_append,closed,ih,writes]

theorem applyAll_open (calls : List SessionCall) (s : WebSocketSession) :
    (s.applyAll calls).2.any Output.isClosed = false := by
  induction calls generalizing s with
  | nil => rfl
  | cons call rest ih =>
    have first : (s.apply call).2.any Output.isClosed = false := by cases call <;> rfl
    rw [applyAll,List.any_append,first,ih]
    rfl

theorem readHttp_open (data : Bytes) : (s.readHttp sha1 server data).2.any Output.isClosed = false := by
  rcases readHttp_cases sha1 server s data with more | ⟨-,silent⟩ | ⟨filled,handle,response,-,emitted⟩
  · rw [more]
    rfl
  · rw [silent]
    rfl
  · rw [emitted,List.any_append,List.any_append,applyAll_open]
    rfl

-- In the range of the integers a session does something at every event, and
-- what it writes reaches its connection under exactly these conditions.
theorem step_writes (sha1 : Bytes → Bytes) (server : WebSocketServer) (pending : Pending s.base.frame)
    (inRange : s.InRange event) : ∃ next outputs, step sha1 server s event = .ok (next,outputs) ∧
      (writesClosed s.base.close outputs = false ↔ s.Gentle event) := by
  cases event with
  | written retCode =>
    refine ⟨_,_,rfl,?_⟩
    exact iff_of_true rfl trivial
  | call call =>
    refine ⟨_,_,rfl,?_⟩
    cases call <;> cases closed : s.base.close <;> simp [writesClosed,Gentle,closed]
  | timer nowMs =>
    refine ⟨(s.onTimer nowMs).1,(s.onTimer nowMs).2,rfl,?_⟩
    unfold onTimer Gentle
    cases connected : s.base.isConnected with
    | false => exact iff_of_true rfl fun _ never => (nomatch never)
    | true =>
      by_cases due : nowMs-s.base.lastSendPingMs > 2000
      · have late : ¬ nowMs-s.base.lastSendPingMs ≤ 2000 := by omega
        rw [if_neg nofun,if_pos due]
        cases closed : s.base.close with
        | true => exact iff_of_false (by simp [writesClosed]) fun waits => late (waits rfl rfl)
        | false => exact iff_of_true (by simp [writesClosed]) fun never => (nomatch never)
      · rw [if_neg nofun,if_neg due]
        exact iff_of_true rfl fun _ _ => Int.not_lt.mp due
  | read retCode data nowMs =>
    unfold step onRead Gentle
    dsimp only
    cases closed : s.base.close with
    | true => exact ⟨s,[],rfl,iff_of_true rfl fun never => (nomatch never)⟩
    | false =>
      rw [if_neg nofun]
      by_cases failed : retCode < 0
      · rw [if_pos failed]
        exact ⟨_,_,rfl,iff_of_true rfl fun _ _ came => absurd came (by omega)⟩
      · rw [if_neg failed]
        cases ready : s.httpRequestReady with
        | false =>
          rw [if_neg nofun]
          exact ⟨_,_,rfl,iff_of_true (writesClosed_open _ (readHttp_open data)) fun _ never => (nomatch never)⟩
        | true =>
          have fits := inRange ready
          obtain ⟨base,actions,ret,handled,-,-,-,drained⟩ :=
            WebSocketSessionBase.loop_good nowMs (s.base.frame.buffer.length+data.length+1) pending data
              (by rw [List.length_append]; omega) fits.below
          obtain ⟨-,called⟩ := Prod.mk.inj (drained fits.short).2
          have kept : base.close = false := (WebSocketSessionBase.loop_flags _ handled).2.trans closed
          rw [if_pos rfl]
          refine ⟨_,_,by rw [readFrames,WebSocketSessionBase.handleFrame,handled,ok_bind],?_⟩
          have writes := performAll_writes actions {s with base}
          dsimp only at writes
          rw [kept,← WebSocketSessionBase.sendsBehind_calls,← called] at writes
          rw [writesClosed_append,writes,show writesClosed _ [.asyncRead] = false from rfl,Bool.or_false,
            WebSocketSessionBase.absorb_unpinged]
          exact ⟨fun quiet _ _ _ => quiet,fun gentle => gentle rfl rfl (by omega)⟩

theorem step_pending (pending : Pending s.base.frame) (inRange : s.InRange event)
    (stepped : step sha1 server s event = .ok (next,outputs)) : Pending next.base.frame := by
  cases event with
  | read retCode data nowMs => exact (read_pong pending inRange stepped).1
  | written retCode =>
    cases stepped
    unfold onWrite
    split
    · exact pending
    · split <;> exact pending
  | timer nowMs =>
    have reached : s.onTimer nowMs = (next,outputs) := Except.ok.inj stepped
    unfold onTimer at reached
    split at reached
    · cases reached
      exact pending
    · split at reached
      · cases reached
        exact pending
      · cases reached
        exact pending
  | call call =>
    have reached : s.apply call = (next,outputs) := Except.ok.inj stepped
    cases call <;> cases reached <;> exact pending

end WebSocketSession

-- sessions_ of the server. A session leaves it when it is swept, or when its
-- address is accepted again, and is destroyed then.
structure WebSocketSessions where
  sessions : Std.ExtTreeMap Bytes WebSocketSession := ∅

namespace WebSocketSessions
open WebSocketFrame (Pending)
open WebSocketSession (InRange Gentle writesClosed)

-- Reads, completed writes and the 200 ms timer of a session, what the
-- application calls on it, and the timer of the server.
inductive Event where
  | accept (retCode : Int) (address : Bytes) (nowMs : Int)
  | session (address : Bytes) (event : WebSocketSession.Event)
  | timer (nowMs : Int)
deriving DecidableEq,Repr

inductive Stopped where
  | frame (fault : Fault)
  | noSession
  | closedWrite
deriving DecidableEq,Repr

-- WebSocketSession::Init.
def init (nowMs : Int) : WebSocketSession := {base:={isConnected:=true,lastRecvPongMs:=nowMs}}

def onAccept (s : WebSocketSessions) (retCode : Int) (address : Bytes) (nowMs : Int) :
    WebSocketSessions × List (Bytes × WebSocketSession.Output) :=
  if retCode < 0 then (s,[]) else ({s with sessions:=s.sessions.insert address (init nowMs)},[(address,.asyncRead)])

def isTimeout (nowMs : Int) (session : WebSocketSession) : Bool := nowMs-session.base.lastRecvPongMs > 15*1000

def onTimer (s : WebSocketSessions) (nowMs : Int) : WebSocketSessions :=
  {s with sessions:=s.sessions.filter fun _ session => !isTimeout nowMs session}

def step (sha1 : Bytes → Bytes) (server : WebSocketServer) (s : WebSocketSessions) :
    Event → Except Stopped (WebSocketSessions × List (Bytes × WebSocketSession.Output))
  | .accept retCode address nowMs => .ok (s.onAccept retCode address nowMs)
  | .session address event =>
    match s.sessions[address]? with
    | none => .error .noSession
    | some session => do
      let (next,outputs) ← (session.step sha1 server event).mapError .frame
      if writesClosed session.base.close outputs then .error .closedWrite
      else .ok ({s with sessions:=s.sessions.insert address next},outputs.map (address,·))
  | .timer nowMs => .ok (s.onTimer nowMs,[])

def machine (sha1 : Bytes → Bytes) (server : WebSocketServer) :
    Machine WebSocketSessions Event (Bytes × WebSocketSession.Output) Stopped := ⟨{},step sha1 server⟩

-- What a guard on sessions says of an event of the server.
def Each (Guard : WebSocketSession → WebSocketSession.Event → Prop) (s : WebSocketSessions) : Event → Prop
  | .session address event => ∀ session, s.sessions[address]? = some session → Guard session event
  | _ => True

def AllPending (s : WebSocketSessions) : Prop :=
  ∀ (address : Bytes) (session : WebSocketSession), s.sessions[address]? = some session → Pending session.base.frame

variable {sha1 : Bytes → Bytes} {server : WebSocketServer} {s next : WebSocketSessions} {address : Bytes}

theorem step_session : step sha1 server s (.session address event) = .ok (next,outputs) ↔
    ∃ session after emitted, s.sessions[address]? = some session ∧
      session.step sha1 server event = .ok (after,emitted) ∧ writesClosed session.base.close emitted = false ∧
      next = {s with sessions:=s.sessions.insert address after} ∧ outputs = emitted.map (address,·) := by
  unfold step
  dsimp only
  cases held : s.sessions[address]? with
  | none => simp
  | some session =>
    dsimp only
    rw [bind_ok]
    simp only [mapError_ok,Prod.exists]
    constructor
    · rintro ⟨after,emitted,stepped,rest⟩
      split at rest
      · cases rest
      · rename_i fine
        cases rest
        exact ⟨session,after,emitted,rfl,stepped,by simpa using fine,rfl,rfl⟩
    · rintro ⟨other,after,emitted,same,stepped,fine,rfl,rfl⟩
      cases same
      exact ⟨after,emitted,stepped,by rw [fine]; rfl⟩

theorem filtered (nowMs : Int) (address : Bytes) :
    (s.onTimer nowMs).sessions[address]? = (s.sessions[address]?).filter fun session => !isTimeout nowMs session := by
  unfold onTimer
  rw [Std.ExtTreeMap.getElem?_filter']

theorem accepted (retCode : Int) (address other : Bytes) (nowMs : Int) : (s.onAccept retCode address nowMs).1.sessions[other]? =
    if 0 ≤ retCode ∧ address = other then some (init nowMs) else s.sessions[other]? := by
  unfold onAccept
  by_cases came : 0 ≤ retCode
  · rw [if_neg (by omega)]
    simp only [Std.ExtTreeMap.getElem?_insert,Std.LawfulEqCmp.compare_eq_iff_eq,came,true_and]
  · rw [if_pos (by omega),if_neg fun both => came both.1]

theorem init_pending (nowMs : Int) : Pending (init nowMs).base.frame := fun ready => nomatch ready

theorem step_allPending (pending : AllPending s) (inRange : Each InRange s event)
    (stepped : step sha1 server s event = .ok (next,outputs)) : AllPending next := by
  intro other last held
  cases event with
  | accept retCode address nowMs =>
    have same : (s.onAccept retCode address nowMs).1 = next := congrArg Prod.fst (Except.ok.inj stepped)
    rw [← same,accepted] at held
    split at held
    · cases held
      exact init_pending nowMs
    · exact pending other last held
  | session address event =>
    obtain ⟨session,after,emitted,found,advanced,-,rfl,-⟩ := step_session.mp stepped
    dsimp only at held
    rw [Std.ExtTreeMap.getElem?_insert] at held
    split at held
    · cases held
      exact WebSocketSession.step_pending (pending address session found) (inRange session found) advanced
    · exact pending other last held
  | timer nowMs =>
    cases stepped
    rw [filtered] at held
    exact pending other last (Option.eq_some_of_filter_eq_some held)

theorem step_closedWrite (pending : AllPending s) (inRange : Each InRange s event) :
    step sha1 server s event = .error .closedWrite ↔ ¬ Each Gentle s event := by
  cases event with
  | accept retCode address nowMs => exact iff_of_false nofun fun never => never trivial
  | timer nowMs => exact iff_of_false nofun fun never => never trivial
  | session address event =>
    unfold step Each
    dsimp only
    cases held : s.sessions[address]? with
    | none => simp
    | some session =>
      obtain ⟨after,emitted,stepped,gentle⟩ :=
        WebSocketSession.step_writes sha1 server (pending address session held) (inRange session held)
      have reached : (session.step sha1 server event).mapError Stopped.frame = .ok (after,emitted) := mapError_ok.mpr stepped
      dsimp only
      rw [reached,ok_bind]
      simp only [Option.some.injEq,forall_eq',← gentle]
      cases writesClosed session.base.close emitted <;> simp

-- The server runs into a closed connection exactly where one of its sessions has
-- closed and still has something to say.
theorem closed_unwritten_iff (sha1 : Bytes → Bytes) (server : WebSocketServer) (events : List Event)
    (inRange : (machine sha1 server).Guarded (fun _ => Each InRange) events) :
    (machine sha1 server).run events ≠ .error .closedWrite ↔
      (machine sha1 server).Guarded (fun _ => Each Gentle) events := by
  apply (machine sha1 server).avoids_within AllPending
  · intro address session held
    simp [machine] at held
  · exact fun s event next emitted pending allowed stepped => step_allPending pending allowed stepped
  · exact fun s event pending allowed => step_closedWrite pending allowed
  · exact inRange

-- A visitor that says goodbye, and the first tick that finds its ping due.
def visitor : Bytes := ascii "10.0.0.2:5000"

def visit : List Event :=
  [.accept 0 visitor 0,.session visitor (.read 0 (WebSocketSession.openingBlock++blankLine) 5),
    .session visitor (.read 0 [0x88,0] 10),.session visitor (.timer 3000)]

def visited : Machine WebSocketSessions Event (Bytes × WebSocketSession.Output) Stopped :=
  machine (fun _ => WebSocketSession.openingDigest) WebSocketSession.chatServer

theorem visit_inRange : visited.Guarded (fun _ => Each InRange) visit := by
  have waits : (visited.run (visit.take 1)).map (fun result => (result.1.sessions[visitor]?).map (·.httpRequestReady)) =
      .ok (some false) := by decide +kernel
  have empty : (visited.run (visit.take 2)).map (fun result => (result.1.sessions[visitor]?).map (·.base.frame.buffer)) =
      .ok (some []) := by decide +kernel
  have first : visited.Guarded (fun _ => Each InRange) ([]++visit.take 1) :=
    Machine.Guarded.snoc visited (Machine.Guarded.nil visited) fun _ _ _ => trivial
  have second : visited.Guarded (fun _ => Each InRange) (visit.take 1++(visit.drop 1).take 1) := by
    refine Machine.Guarded.snoc visited first ?_
    intro s outputs ran session held ready
    have same := map_seen waits ran
    dsimp only at same
    rw [held] at same
    cases ready.symm.trans (Option.some.inj same)
  have third : visited.Guarded (fun _ => Each InRange) (visit.take 2++(visit.drop 2).take 1) := by
    refine Machine.Guarded.snoc visited second ?_
    intro s outputs ran session held ready
    have same := map_seen empty ran
    dsimp only at same
    rw [held] at same
    have nothing : session.base.frame.buffer = [] := Option.some.inj same
    constructor
    · rw [nothing]
      exact WebSocketSessionBase.framesBelow_complete (by decide) (by decide)
    · rw [nothing]
      decide
  exact Machine.Guarded.snoc visited third fun _ _ _ _ _ => trivial

theorem farewell_pinged : visited.run visit = .error .closedWrite ∧ ¬ visited.Guarded (fun _ => Each Gentle) visit := by
  have stops : (visited.run visit).map (fun _ => ()) = .error .closedWrite := by decide +kernel
  have ran : visited.run visit = .error .closedWrite := by
    cases result : visited.run visit with
    | ok reached =>
      rw [result] at stops
      cases stops
    | error stopped =>
      rw [result] at stops
      cases stops
      rfl
  refine ⟨ran,fun gentle => ?_⟩
  exact (closed_unwritten_iff (fun _ => WebSocketSession.openingDigest) WebSocketSession.chatServer visit visit_inRange).mpr
    gentle ran

end WebSocketSessions
end CoStream
