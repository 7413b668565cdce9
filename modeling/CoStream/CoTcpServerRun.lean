import CoStream.CoTcpServer
import CoStream.CoHttpLifetime
import CoStream.RtmpSession
import CoStream.RtmpBlocks

namespace CoStream
open Foundation

namespace CoTcpServer

-- A server whose Run awaits connections in a loop. `μ` is what the body of the
-- loop reads from its surroundings, `ν` an event of the sessions it has started
-- or of its timer. A loop may look at the status and break.
structure Program (κ μ ν τ : Type) where
  table : τ
  checksStatus : Bool
  takeIn : τ → κ → μ → τ
  turn : τ → ν → Option τ

structure Serving (κ τ : Type) where
  server : Server κ Unit := {}
  called : Bool := false
  table : τ

-- The outcome of a turn of the loop: a connection enters the table, or it has a
-- fate that the body does not see.
inductive Outcome (κ μ : Type) where
  | admitted (conn : κ) (seen : μ)
  | passed (fate : Fate κ Unit)

namespace Program
variable {κ μ ν τ : Type} (p : Program κ μ ν τ)

inductive Event (κ μ ν : Type) where
  | run
  | arrived (conn : κ)
  | readable (outcome : Accepting) (surroundings : μ)
  | turn (event : ν)

inductive Disabled where
  | calledBefore
  | unopened
  | listening (why : CoTcpServer.Disabled)
  | turn
deriving DecidableEq,Repr

-- The body of the loop behind `co_await CoAccept()`, until the next co_await.
def body (l : Serving κ τ) (seen : μ) : List (Fate κ Unit) → Except Disabled (Serving κ τ × List (Outcome κ μ))
  | .accepted promise conn status::_ =>
    if p.checksStatus && status != .success then .ok (l,[.passed (.accepted promise conn status)])
    else .ok ({l with server:=addAwaiter l.server (),table:=p.takeIn l.table conn seen},[.admitted conn seen])
  | .unopened _ _::_ => .error .unopened
  | fates => .ok (l,fates.map .passed)

def step (l : Serving κ τ) : Event κ μ ν → Except Disabled (Serving κ τ × List (Outcome κ μ))
  | .run => if l.called then .error .calledBefore else .ok ({l with called:=true,server:=addAwaiter l.server ()},[])
  | .arrived conn => do
    let (server,fates) ← (CoTcpServer.step l.server (.arrived conn)).mapError .listening
    .ok ({l with server},fates.map .passed)
  | .readable outcome surroundings => do
    let (server,fates) ← (CoTcpServer.step l.server (.readable outcome [])).mapError .listening
    p.body {l with server} surroundings fates
  | .turn event => match p.turn l.table event with
    | none => .error .turn
    | some table => .ok ({l with table},[])

def machine : Machine (Serving κ τ) (Event κ μ ν) (Outcome κ μ) Disabled := ⟨⟨{},false,p.table⟩,p.step⟩

def Event.arrivals : Event κ μ ν → List κ
  | .run => []
  | .arrived conn => [conn]
  | .readable _ _ => []
  | .turn _ => []

end Program

def Outcome.conns : Outcome κ μ → List κ
  | .admitted conn _ => [conn]
  | .passed fate => fate.conns
def Outcome.entrants : Outcome κ μ → List (κ × μ)
  | .admitted conn seen => [(conn,seen)]
  | .passed _ => []
def Outcome.Orderly : Outcome κ μ → Prop
  | .admitted _ _ => True
  | .passed fate => ∃ conn, fate = .shed conn

namespace Program
variable {κ μ ν τ : Type} (p : Program κ μ ν τ)

-- Run has been called and waits in its co_await.
structure Ready (l : Serving κ τ) : Prop where
  watching : l.server.watching = true
  awaiting : l.server.awaiters = [()]
  called : l.called = true

-- All that a step does to a server that is ready: the table turns, or a
-- connection is let in, or nothing that the loop sees.
inductive Moved (l : Serving κ τ) : Event κ μ ν → Serving κ τ → List (Outcome κ μ) → Prop where
  | arrived (conn : κ) : Moved l (.arrived conn) {l with server:={l.server with backlog:=l.server.backlog++[conn]}} []
  | dropped (outcome : Accepting) (seen : μ) (shed : Nat) :
      Moved l (.readable outcome seen) {l with server:={l.server with backlog:=l.server.backlog.drop shed}}
        ((l.server.backlog.take shed).map fun conn => .passed (.shed conn))
  | admitted (outcome : Accepting) (seen : μ) (conn : κ) (rest : List κ) (queued : l.server.backlog = conn::rest) :
      Moved l (.readable outcome seen) ⟨⟨rest,none,true,[()]⟩,l.called,p.takeIn l.table conn seen⟩ [.admitted conn seen]
  | turned (event : ν) (table : τ) (took : p.turn l.table event = some table) : Moved l (.turn event) {l with table} []

-- Connections that libuv closed go past the body.
theorem body_shed (l : Serving κ τ) (seen : μ) (conns : List κ) :
    p.body l seen (conns.map .shed) = .ok (l,conns.map fun conn => .passed (.shed conn)) := by
  cases conns with
  | nil => rfl
  | cons conn rest => simp [body]

theorem ready_moved {l : Serving κ τ} {event : Event κ μ ν} (ready : Ready l)
    (stepped : p.step l event = .ok (next,emitted)) : Moved p l event next emitted := by
  cases event with
  | run => simp [step,ready.called] at stepped
  | arrived conn =>
    cases stepped
    exact .arrived conn
  | turn event =>
    simp only [step] at stepped
    split at stepped
    · cases stepped
    · rename_i table took
      cases stepped
      exact .turned event table took
  | readable outcome seen =>
    simp only [step,bind_ok] at stepped
    obtain ⟨⟨server,fates⟩,listened,entered⟩ := stepped
    obtain ⟨-,turned⟩ := readable_turned (mapError_ok.mp listened)
    cases turned with
    | dropped shed quiet nobody =>
      cases (p.body_shed _ seen _).symm.trans entered
      exact .dropped outcome seen shed
    | handed conn rest promise waiting queued front =>
      rw [ready.awaiting] at front
      cases front
      simp only [body,bne_self_eq_false,Bool.and_false,Bool.false_eq_true,↓reduceIte] at entered
      cases entered
      exact .admitted outcome seen conn rest queued
    | stopped conn rest taken queued nobody alone =>
      rw [ready.awaiting] at alone
      cases alone

theorem moved_ready {l : Serving κ τ} {event : Event κ μ ν} (ready : Ready l) (moved : Moved p l event next emitted) :
    Ready next := by
  cases moved with
  | arrived conn => exact ⟨ready.watching,ready.awaiting,ready.called⟩
  | dropped outcome seen shed => exact ⟨ready.watching,ready.awaiting,ready.called⟩
  | admitted outcome seen conn rest queued => exact ⟨rfl,rfl,ready.called⟩
  | turned event table took => exact ⟨ready.watching,ready.awaiting,ready.called⟩

theorem shed_outcomes (conns : List κ) :
    (conns.map fun conn => Outcome.passed (μ:=μ) (.shed conn)).flatMap Outcome.conns = conns ∧
      (conns.map fun conn => Outcome.passed (μ:=μ) (.shed conn)).flatMap Outcome.entrants = [] := by
  induction conns with
  | nil => exact ⟨rfl,rfl⟩
  | cons conn rest ih => simpa [Outcome.conns,Outcome.entrants,Fate.conns] using ih.1

theorem moved_conns {l : Serving κ τ} {event : Event κ μ ν} (moved : Moved p l event next emitted) :
    emitted.flatMap Outcome.conns++next.server.backlog = l.server.backlog++event.arrivals := by
  cases moved with
  | arrived conn => rfl
  | dropped outcome seen shed =>
    rw [(shed_outcomes _).1,Event.arrivals,List.append_nil]
    exact List.take_append_drop shed l.server.backlog
  | admitted outcome seen conn rest queued => simp [Outcome.conns,Event.arrivals,queued]
  | turned event table took => simp [Event.arrivals]

theorem moved_orderly {l : Serving κ τ} {event : Event κ μ ν} (moved : Moved p l event next emitted) :
    ∀ outcome ∈ emitted, outcome.Orderly := by
  cases moved with
  | arrived conn => simp
  | dropped outcome seen shed =>
    intro outcome among
    obtain ⟨conn,-,rfl⟩ := List.mem_map.mp among
    exact ⟨conn,rfl⟩
  | admitted outcome seen conn rest queued => simp [Outcome.Orderly]
  | turned event table took => simp

def entered : Serving κ τ := ⟨addAwaiter {} (),true,p.table⟩

theorem entered_ready : Ready (p.entered : Serving κ τ) := ⟨rfl,rfl,rfl⟩

-- A run that starts with the call of Run, seen from behind that call.
theorem behind_run (ran : p.machine.run (.run::events) = .ok (l,outputs)) :
    p.machine.runFrom p.entered events = .ok (l,outputs) := by
  obtain ⟨middle,emitted,later,stepped,continued,rfl⟩ := p.machine.runFrom_cons.mp ran
  cases stepped
  exact continued

-- What holds behind the call of Run and is kept by every move, holds of every
-- such run.
theorem run_keeps (Holds : List (Outcome κ μ) → Serving κ τ → Prop) (initially : Holds [] p.entered)
    (moves : ∀ outputs l event next emitted, Ready l → Holds outputs l → Moved p l event next emitted →
      Holds (outputs++emitted) next)
    (ran : p.machine.run (.run::events) = .ok (l,outputs)) : Ready l ∧ Holds outputs l := by
  refine p.machine.runFrom_keeps (fun outputs l => Ready l ∧ Holds outputs l) ⟨p.entered_ready,initially⟩ ?_ (p.behind_run ran)
  intro outputs l event next emitted held stepped
  have moved := p.ready_moved held.1 stepped
  exact ⟨p.moved_ready held.1 moved,moves _ _ _ _ _ held.1 held.2 moved⟩

-- Behind the call of Run every connection that arrives is admitted in its turn,
-- or was closed by libuv, or still queues: no turn of the loop finds the
-- listening socket stopped or the coroutine away.
theorem run_admits (ran : p.machine.run (.run::events) = .ok (l,outputs)) :
    Ready l ∧ outputs.flatMap Outcome.conns++l.server.backlog = events.flatMap Event.arrivals ∧
      ∀ outcome ∈ outputs, outcome.Orderly := by
  have conns := p.machine.conserves Event.arrivals (fun l => l.server.backlog) Outcome.conns Ready
    (fun _ _ _ _ ready stepped => ⟨p.moved_ready ready (p.ready_moved ready stepped),p.moved_conns (p.ready_moved ready stepped)⟩)
    p.entered_ready (p.behind_run ran)
  have orderly := p.run_keeps (fun outputs _ => ∀ outcome ∈ outputs, outcome.Orderly) (by simp) ?_ ran
  · exact ⟨conns.1,conns.2,orderly.2⟩
  · intro outputs l event next emitted ready earlier moved outcome among
    rcases List.mem_append.mp among with before | now
    · exact earlier outcome before
    · exact p.moved_orderly moved outcome now

end Program
end CoTcpServer

-- The timer that servers and sessions are built on: `active` is the one in libuv.
structure TimerInterface where
  running : Bool := false
  active : Bool := false
deriving DecidableEq,Repr

namespace TimerInterface

def startTimer (t : TimerInterface) : TimerInterface := if t.running then t else {running:=true,active:=true}
def stopTimer (t : TimerInterface) : TimerInterface := if !t.running then t else {running:=false,active:=false}

-- libuv calls back on an active timer only; whether OnTimer is called then.
def onUvTimerCallback (t : TimerInterface) : Option Bool := if t.active then some t.running else none

end TimerInterface

structure RtmpServer (κ : Type) where
  sessions : Std.ExtTreeMap Bytes (κ × CoRtmpSession) := ∅
  lastCheckMs : Int := -1
  timer : TimerInterface := {}

namespace RtmpServer
variable {κ : Type}

-- CoRtmpSession as its constructor leaves it: nobody has called its Run.
def created (hs : RtmpServerHandshake) : CoRtmpSession := {hs,receiving:=false}

def isAlive (_ : CoRtmpSession) : Bool := true

def onCheckAlive (s : RtmpServer κ) (nowMs : Int) : RtmpServer κ :=
  if s.lastCheckMs < 0 then {s with lastCheckMs:=nowMs}
  else if nowMs-s.lastCheckMs < 2000 then s
  else {s with lastCheckMs:=nowMs,sessions:=s.sessions.filter fun _ session => isAlive session.2}

def onTimer (s : RtmpServer κ) (nowMs : Int) : RtmpServer κ := s.onCheckAlive nowMs

inductive Event where
  | startTimer
  | stopTimer
  | uvTimer (nowMs : Int)
deriving DecidableEq,Repr

def turn (s : RtmpServer κ) : Event → Option (RtmpServer κ)
  | .startTimer => some {s with timer:=s.timer.startTimer}
  | .stopTimer => some {s with timer:=s.timer.stopTimer}
  | .uvTimer nowMs => s.timer.onUvTimerCallback.map fun running => if running then s.onTimer nowMs else s

-- What Run reads from its surroundings: the UUID that MakeUUID2 makes, and the
-- memory in which the constructor leaves the handshake.
def takeIn (s : RtmpServer κ) (conn : κ) (seen : Bytes × RtmpServerHandshake) : RtmpServer κ :=
  {s with sessions:=s.sessions.insert seen.1 (conn,created seen.2)}

def program : CoTcpServer.Program κ (Bytes × RtmpServerHandshake) Event (RtmpServer κ) := ⟨{},false,takeIn,turn⟩

theorem onCheckAlive_sessions (s : RtmpServer κ) (nowMs : Int) : (s.onCheckAlive nowMs).sessions = s.sessions := by
  unfold onCheckAlive
  split
  · rfl
  · split
    · rfl
    · apply Std.ExtTreeMap.ext_getElem?
      intro uuid
      rw [Std.ExtTreeMap.getElem?_filter']
      cases s.sessions[uuid]? <;> rfl

theorem turn_sessions {s : RtmpServer κ} (turned : s.turn event = some next) : next.sessions = s.sessions := by
  cases event with
  | startTimer =>
    cases turned
    rfl
  | stopTimer =>
    cases turned
    rfl
  | uvTimer nowMs =>
    simp only [turn,Option.map_eq_some_iff] at turned
    obtain ⟨running,-,rfl⟩ := turned
    split
    · exact onCheckAlive_sessions s nowMs
    · rfl

-- The entry under a UUID after some connections were let in: the latest.
def latest (entrants : List (κ × Bytes × RtmpServerHandshake)) (uuid : Bytes) : Option (κ × CoRtmpSession) :=
  (entrants.reverse.find? fun entrant => entrant.2.1 = uuid).map fun entrant => (entrant.1,created entrant.2.2)

theorem latest_snoc (entrants : List (κ × Bytes × RtmpServerHandshake)) (conn : κ) (seen : Bytes × RtmpServerHandshake) :
    latest (entrants++[(conn,seen)]) uuid = if seen.1 = uuid then some (conn,created seen.2) else latest entrants uuid := by
  by_cases same : seen.1 = uuid <;> simp [latest,same]

-- Connections come into the table and stay there as their constructor left
-- them: the sweep finds every session alive, and the server runs none.
theorem sessions_stay (ran : (program (κ:=κ)).machine.run (.run::events) = .ok (l,outputs)) :
    outputs.flatMap CoTcpServer.Outcome.conns++l.server.backlog = events.flatMap CoTcpServer.Program.Event.arrivals ∧
      l.server.watching = true ∧ (∀ outcome ∈ outputs, outcome.Orderly) ∧
      ∀ uuid, l.table.sessions[uuid]? = latest (outputs.flatMap CoTcpServer.Outcome.entrants) uuid := by
  obtain ⟨ready,conns,orderly⟩ := program.run_admits ran
  refine ⟨conns,ready.watching,orderly,?_⟩
  refine (program.run_keeps (fun outputs l => ∀ uuid, l.table.sessions[uuid]? =
    latest (outputs.flatMap CoTcpServer.Outcome.entrants) uuid) (fun uuid => by simp [program,CoTcpServer.Program.entered,latest])
    ?_ ran).2
  intro outputs l event next emitted ready held moved uuid
  rw [List.flatMap_append]
  cases moved with
  | arrived conn => simpa using held uuid
  | dropped outcome seen shed =>
    rw [(CoTcpServer.Program.shed_outcomes _).2,List.append_nil]
    exact held uuid
  | admitted outcome seen conn rest queued =>
    have entered : [CoTcpServer.Outcome.admitted conn seen].flatMap CoTcpServer.Outcome.entrants = [(conn,seen)] := rfl
    rw [entered,latest_snoc,← held uuid]
    simp [program,takeIn,Std.ExtTreeMap.getElem?_insert]
  | turned event table took =>
    rw [List.flatMap_nil,List.append_nil,← held uuid]
    exact congrArg (·[uuid]?) (turn_sessions took)

-- A client connects and the timer is started from outside; three ticks follow.
def zeroed : RtmpServerHandshake := {c1s1:=C1S1Handle.blank,c2s2:=⟨List.Vector.replicate 1504 0,List.Vector.replicate 32 0⟩}
def oneClient : List (CoTcpServer.Program.Event Nat (Bytes × RtmpServerHandshake) Event) :=
  [.arrived 7,.turn .startTimer,.readable .taken ([1],zeroed),.turn (.uvTimer 10000),.turn (.uvTimer 11000),
    .turn (.uvTimer 15000)]

theorem client_stays : ∃ l outputs, (program (κ:=Nat)).machine.run (.run::oneClient) = .ok (l,outputs) ∧
    ∀ uuid, l.table.sessions[uuid]? = latest (outputs.flatMap CoTcpServer.Outcome.entrants) uuid := by
  obtain ⟨⟨l,outputs⟩,ran⟩ : ∃ result, (program (κ:=Nat)).machine.run (.run::oneClient) = .ok result := ⟨_,rfl⟩
  exact ⟨l,outputs,ran,(sessions_stay ran).2.2.2⟩

end RtmpServer

namespace CoHttpServer
open CoHttpSessions
variable {η : Type}

-- http_sessions_ and what hangs on it are CoHttpSessions; a connection is named
-- by its remote endpoint, and the session's constructor reads the clock.
def turn (server : Handlers η) (s : CoHttpSessions) (event : CoHttpSessions.Event) : Option CoHttpSessions :=
  match event with
  | .accept _ _ => none
  | event => (CoHttpSessions.step server s event).toOption.map Prod.fst

def program (server : Handlers η) : CoTcpServer.Program Bytes Int CoHttpSessions.Event CoHttpSessions :=
  ⟨{},true,CoHttpSessions.accept,turn server⟩

def endpoints (s : CoHttpSessions) : List Bytes := s.links.map CoHttpLink.endpoint

theorem endpoints_set {s : CoHttpSessions} {id : Nat} {link after : CoHttpLink} (found : s.links[id]? = some link) (same : after.endpoint = link.endpoint) :
    endpoints {s with links:=s.links.set id after} = endpoints s := by
  obtain ⟨within,rfl⟩ := List.getElem?_eq_some_iff.mp found
  simp only [endpoints,List.map_set,same]
  apply List.ext_getElem (by simp)
  intro place short long
  by_cases here : id = place <;> simp [here]

theorem callback_endpoints (s : CoHttpSessions) (id : Nat) (nowMs : Int) (call : CoHttpResponse.Callback) :
    endpoints (s.callback id nowMs call) = endpoints s := by
  unfold CoHttpSessions.callback
  split
  · rfl
  · rename_i link found
    cases call with
    | alive => exact endpoints_set found rfl
    | close => exact endpoints_set found rfl

theorem callbacks_endpoints (id : Nat) (nowMs : Int) (calls : List CoHttpResponse.Callback) (s : CoHttpSessions) :
    endpoints (callbacks id nowMs s calls).1 = endpoints s := by
  induction calls generalizing s with
  | nil => rfl
  | cons call rest ih =>
    rw [callbacks,ih]
    split
    · exact callback_endpoints s id nowMs call
    · rfl

theorem step_endpoints {server : Handlers η} (other : ∀ endpoint nowMs, event ≠ .accept endpoint nowMs)
    (stepped : CoHttpSessions.step server s event = .ok (next,called)) : endpoints next = endpoints s := by
  cases event with
  | onTimer nowMs =>
    cases stepped
    rfl
  | accept endpoint nowMs => exact absurd rfl (other endpoint nowMs)
  | received id result nowMs =>
    simp only [CoHttpSessions.step] at stepped
    split at stepped
    · cases stepped
    · rename_i link found
      split at stepped
      · cases stepped
        exact endpoints_set found (received_endpoint server link result nowMs)
      · cases stepped
  | respond id event nowMs =>
    simp only [CoHttpSessions.step] at stepped
    split at stepped
    · cases stepped
    · rename_i link exchange present
      obtain ⟨held,found,same⟩ := Option.bind_eq_some_iff.mp present
      split at stepped
      · cases stepped
      · rw [← (Prod.mk.inj (Except.ok.inj stepped)).1,callbacks_endpoints]
        obtain ⟨exchange,-,same⟩ := Option.map_eq_some_iff.mp same
        cases same
        exact endpoints_set found rfl

-- A turn is a step of the sessions that lets nobody in.
theorem turn_step {server : Handlers η} (turned : turn server s event = some next) :
    (∀ endpoint nowMs, event ≠ .accept endpoint nowMs) ∧ ∃ called, CoHttpSessions.step server s event = .ok (next,called) := by
  have stepped : ∀ result : Except CoHttpSessions.Disabled (CoHttpSessions × List Called),
      result.toOption.map Prod.fst = some next → ∃ called, result = .ok (next,called) := by
    intro result kept
    cases result with
    | error why => cases kept
    | ok reached =>
      cases kept
      exact ⟨reached.2,rfl⟩
  cases event with
  | accept endpoint nowMs => cases turned
  | onTimer nowMs => exact ⟨fun _ _ => nofun,stepped _ turned⟩
  | received id result nowMs => exact ⟨fun _ _ => nofun,stepped _ turned⟩
  | respond id event nowMs => exact ⟨fun _ _ => nofun,stepped _ turned⟩

-- Every connection gets one session, in the order of arrival, and what the
-- sessions go through is a run of the sessions by themselves.
theorem sessions_follow (server : Handlers η) (ran : (program server).machine.run (.run::events) = .ok (l,outputs)) :
    outputs.flatMap CoTcpServer.Outcome.conns++l.server.backlog = events.flatMap CoTcpServer.Program.Event.arrivals ∧
      l.server.watching = true ∧ (∀ outcome ∈ outputs, outcome.Orderly) ∧
      endpoints l.table = (outputs.flatMap CoTcpServer.Outcome.entrants).map Prod.fst ∧
      ∃ turns called, (CoHttpSessions.machine server).run turns = .ok (l.table,called) := by
  obtain ⟨ready,conns,orderly⟩ := (program server).run_admits ran
  refine ⟨conns,ready.watching,orderly,?_⟩
  refine ((program server).run_keeps (fun outputs l =>
    endpoints l.table = (outputs.flatMap CoTcpServer.Outcome.entrants).map Prod.fst ∧
      ∃ turns called, (CoHttpSessions.machine server).run turns = .ok (l.table,called)) ⟨rfl,[],[],rfl⟩ ?_ ran).2
  rintro outputs l event next emitted ready ⟨entered,turns,called,followed⟩ moved
  rw [List.flatMap_append,List.map_append,← entered]
  cases moved with
  | arrived conn => exact ⟨by simp,turns,called,followed⟩
  | dropped outcome seen shed =>
    rw [(CoTcpServer.Program.shed_outcomes _).2]
    exact ⟨by simp,turns,called,followed⟩
  | admitted outcome seen conn rest queued =>
    refine ⟨by simp [program,accept,endpoints,CoTcpServer.Outcome.entrants],turns++[.accept conn seen],called++[],?_⟩
    exact (CoHttpSessions.machine server).runFrom_snoc.mpr ⟨l.table,called,[],followed,rfl,rfl⟩
  | turned event table took =>
    obtain ⟨other,now,stepped⟩ := turn_step took
    refine ⟨by simpa using step_endpoints other stepped,turns++[event],called++now,?_⟩
    exact (CoHttpSessions.machine server).runFrom_snoc.mpr ⟨l.table,called,now,followed,stepped,rfl⟩

def oneVisitor : List (CoTcpServer.Program.Event Bytes Int CoHttpSessions.Event) :=
  [.arrived [1],.readable .taken 0,.turn (.onTimer 200),.arrived [2],.arrived [3],.readable .taken 300]

theorem visitor_follows : ∃ l outputs, (program (η:=Unit) {}).machine.run (.run::oneVisitor) = .ok (l,outputs) ∧
    l.server.watching = true ∧ endpoints l.table = (outputs.flatMap CoTcpServer.Outcome.entrants).map Prod.fst := by
  obtain ⟨⟨l,outputs⟩,ran⟩ : ∃ result, (program (η:=Unit) {}).machine.run (.run::oneVisitor) = .ok result := ⟨_,rfl⟩
  have follows := sessions_follow {} ran
  exact ⟨l,outputs,ran,follows.2.1,follows.2.2.2.1⟩

end CoHttpServer
end CoStream
