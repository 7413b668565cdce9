import CoStream.Foundation.Heartbeat
import CoStream.WebSocketEnds
import CoStream.WebSocketSessions

namespace CoStream
open Foundation
namespace WebSocketSessions
open Heartbeat (Beating Prompt)
open WebSocketFrame (Pending)
open WebSocketSession (hears)

def pingInterval : Int := 2000

-- The events of a session as beats. Only the timer of a connected session looks
-- at the clock, and only a final pong frame is heard.
def sessionBeat (session : WebSocketSession) (h : Heartbeat) : WebSocketSession.Event → Heartbeat
  | .read retCode data nowMs => h.beat pingInterval (if session.hears retCode data then .heard nowMs else .other nowMs)
  | .timer nowMs => if session.base.isConnected then h.beat pingInterval (.tick nowMs) else h
  | _ => h

-- The heartbeat of the session under one address, from its latest accept on.
def note (address : Bytes) (s : WebSocketSessions) (h : Heartbeat) : Event → Heartbeat
  | .accept retCode other nowMs => if 0 ≤ retCode ∧ other = address then ⟨-1,nowMs,nowMs,nowMs,[]⟩ else h
  | .session other event =>
    match s.sessions[other]? with
    | none => h
    | some session => if other = address then sessionBeat session h event else h
  | .timer nowMs => h.beat pingInterval (.other nowMs)

def watching (sha1 : Bytes → Bytes) (server : WebSocketServer) (address : Bytes) :
    Machine (WebSocketSessions × Heartbeat) Event (Bytes × WebSocketSession.Output) Stopped :=
  (machine sha1 server).recording (note address) ⟨-1,0,0,0,[]⟩

-- The connection is up whenever its timer goes off, which it does every `gap` at
-- the latest, and each ping is behind a pong after `delay`.
def SessionTimely (gap delay : Int) (session : WebSocketSession) (h : Heartbeat) : WebSocketSession.Event → Prop
  | .read retCode data nowMs => session.InRange (.read retCode data nowMs) ∧ Prompt gap delay h nowMs
  | .timer nowMs => session.base.isConnected = true ∧ Prompt gap delay h nowMs
  | _ => True

def Timely (gap delay : Int) (address : Bytes) (state : WebSocketSessions × Heartbeat) : Event → Prop
  | .accept _ _ nowMs => 0 ≤ nowMs
  | .session other event =>
    other = address → ∀ session, state.1.sessions[address]? = some session → SessionTimely gap delay session state.2 event
  | .timer nowMs => ∀ session, state.1.sessions[address]? = some session → Prompt gap delay state.2 nowMs

structure Linked (gap : Int) (session : WebSocketSession) (h : Heartbeat) : Prop where
  pending : Pending session.base.frame
  ping : session.base.lastSendPingMs = h.lastPing
  pong : session.base.lastRecvPongMs = h.lastPong
  beating : ∃ start, Beating pingInterval gap start h

variable {sha1 : Bytes → Bytes} {server : WebSocketServer} {s next : WebSocketSessions} {address : Bytes} {h : Heartbeat}
  {session after : WebSocketSession} {event : WebSocketSession.Event} {gap delay : Int}

theorem init_linked (patient : 0 ≤ gap) (late : 0 ≤ nowMs) : Linked gap (init nowMs) ⟨-1,nowMs,nowMs,nowMs,[]⟩ where
  pending := init_pending nowMs
  ping := rfl
  pong := rfl
  beating := ⟨nowMs,Heartbeat.beating_start (by unfold pingInterval; omega) _ (by omega) _ (Int.le_refl _)⟩

theorem onTimer_clocks (nowMs : Int) (connected : session.base.isConnected = true) :
    (session.onTimer nowMs).1.base.frame = session.base.frame ∧
      (session.onTimer nowMs).1.base.lastSendPingMs =
        (if nowMs-session.base.lastSendPingMs > 2000 then nowMs else session.base.lastSendPingMs) ∧
      (session.onTimer nowMs).1.base.lastRecvPongMs = session.base.lastRecvPongMs := by
  unfold WebSocketSession.onTimer
  rw [connected,if_neg nofun]
  split <;> exact ⟨rfl,rfl,rfl⟩

theorem session_linked (linked : Linked gap session h) (timely : SessionTimely gap delay session h event)
    (stepped : session.step sha1 server event = .ok (after,emitted)) : Linked gap after (sessionBeat session h event) := by
  obtain ⟨start,beating⟩ := linked.beating
  have positive : 0 ≤ pingInterval := by decide
  cases event with
  | read retCode data nowMs =>
    obtain ⟨inRange,prompt⟩ := timely
    obtain ⟨pending,ping,pong⟩ := WebSocketSession.read_pong linked.pending inRange stepped
    unfold sessionBeat
    dsimp only
    cases heard : session.hears retCode data with
    | true =>
      rw [heard,if_pos rfl] at pong
      rw [if_pos rfl]
      exact ⟨pending,ping.trans linked.ping,pong,start,beating.beat positive (.heard nowMs) prompt⟩
    | false =>
      rw [heard,if_neg nofun] at pong
      rw [if_neg nofun]
      exact ⟨pending,ping.trans linked.ping,pong.trans linked.pong,start,beating.beat positive (.other nowMs) prompt⟩
  | written retCode =>
    cases stepped
    have same : (session.onWrite retCode).base.frame = session.base.frame ∧
        (session.onWrite retCode).base.lastSendPingMs = session.base.lastSendPingMs ∧
        (session.onWrite retCode).base.lastRecvPongMs = session.base.lastRecvPongMs := by
      unfold WebSocketSession.onWrite
      split <;> exact ⟨rfl,rfl,rfl⟩
    split
    · exact linked
    · exact ⟨same.1 ▸ linked.pending,same.2.1.trans linked.ping,same.2.2.trans linked.pong,start,beating⟩
  | timer nowMs =>
    obtain ⟨connected,prompt⟩ := timely
    have reached : (session.onTimer nowMs).1 = after := congrArg Prod.fst (Except.ok.inj stepped)
    obtain ⟨frame,ping,pong⟩ := onTimer_clocks nowMs connected
    rw [reached] at frame ping pong
    unfold sessionBeat
    dsimp only
    rw [connected,if_pos rfl]
    refine ⟨frame ▸ linked.pending,?_,?_,start,beating.beat positive (.tick nowMs) prompt⟩
    · rw [ping,linked.ping,Heartbeat.tick_lastPing]
      rfl
    · rw [pong,linked.pong,Heartbeat.tick_lastPong]
  | call call =>
    have reached : session.apply call = (after,emitted) := Except.ok.inj stepped
    cases call <;> cases reached <;> exact ⟨linked.pending,linked.ping,linked.pong,start,beating⟩

-- Where a session is linked it is not swept: it was heard of lately.
theorem linked_stays (linked : Linked gap session h) (patient : 0 ≤ delay) (room : gap+delay ≤ 12999)
    (prompt : Prompt gap delay h nowMs) : isTimeout nowMs session = false := by
  obtain ⟨start,beating⟩ := linked.beating
  have lately := beating.heard_lately (by decide) patient prompt
  unfold isTimeout
  unfold pingInterval at lately
  rw [linked.pong,decide_eq_false_iff_not]
  omega

def Watched (gap : Int) (address : Bytes) (accepts : Bool) (state : WebSocketSessions × Heartbeat) : Prop :=
  (∀ session, state.1.sessions[address]? = some session → Linked gap session state.2) ∧
    (accepts = true → ∃ session, state.1.sessions[address]? = some session)

def Event.accepts (address : Bytes) : Event → Bool
  | .accept retCode other _ => 0 ≤ retCode && other == address
  | _ => false

theorem step_watched (atLeast : 0 ≤ gap) (patient : 0 ≤ delay) (room : gap+delay ≤ 12999) {accepts : Bool} {event : Event}
    (watched : Watched gap address accepts (s,h)) (timely : Timely gap delay address (s,h) event)
    (stepped : step sha1 server s event = .ok (next,emitted)) :
    Watched gap address (accepts || event.accepts address) (next,note address s h event) := by
  obtain ⟨linked,held⟩ := watched
  cases event with
  | accept retCode other nowMs =>
    have same : (s.onAccept retCode other nowMs).1 = next := congrArg Prod.fst (Except.ok.inj stepped)
    unfold Watched note Event.accepts
    dsimp only
    rw [← same,accepted]
    by_cases mine : 0 ≤ retCode ∧ other = address
    · rw [if_pos mine,if_pos mine]
      refine ⟨?_,fun _ => ⟨_,rfl⟩⟩
      rintro session ⟨⟩
      exact init_linked atLeast timely
    · rw [if_neg mine,if_neg mine]
      have not : (decide (0 ≤ retCode) && other == address) = false := by simpa using mine
      rw [not,Bool.or_false]
      exact ⟨linked,held⟩
  | session other event =>
    obtain ⟨session,after,outputs,found,advanced,-,rfl,-⟩ := step_session.mp stepped
    unfold Watched note Event.accepts
    dsimp only
    rw [found,Std.ExtTreeMap.getElem?_insert,Bool.or_false]
    simp only [Std.LawfulEqCmp.compare_eq_iff_eq]
    by_cases mine : other = address
    · subst mine
      rw [if_pos rfl,if_pos rfl]
      refine ⟨?_,fun _ => ⟨_,rfl⟩⟩
      rintro last ⟨⟩
      exact session_linked (linked session found) (timely rfl session found) advanced
    · rw [if_neg mine,if_neg mine]
      exact ⟨linked,held⟩
  | timer nowMs =>
    cases stepped
    unfold Watched note Event.accepts
    dsimp only
    rw [filtered,Bool.or_false]
    constructor
    · intro session kept
      have found := Option.eq_some_of_filter_eq_some kept
      obtain ⟨start,beating⟩ := (linked session found).beating
      have prompt := timely session found
      exact ⟨(linked session found).pending,(linked session found).ping,(linked session found).pong,start,
        beating.beat (by decide) (.other nowMs) prompt⟩
    · intro came
      obtain ⟨session,found⟩ := held came
      have fresh := linked_stays (linked session found) patient room (timely session found)
      exact ⟨session,by rw [found,Option.filter_some,fresh]; rfl⟩

-- A session whose pings are answered in time stays with the server.
theorem prompt_session_stays (sha1 : Bytes → Bytes) (server : WebSocketServer) (address : Bytes) (gap delay : Int)
    (atLeast : 0 ≤ gap) (patient : 0 ≤ delay) (room : gap+delay ≤ 12999) (events : List Event)
    (timely : (watching sha1 server address).Guarded (fun _ => Timely gap delay address) events)
    (ran : (machine sha1 server).run events = .ok (s,outputs)) (retCode nowMs : Int) (came : 0 ≤ retCode)
    (member : .accept retCode address nowMs ∈ events) : ∃ session, s.sessions[address]? = some session := by
  obtain ⟨h,recorded⟩ := (machine sha1 server).recording_run.mp ran
  have watched := (watching sha1 server address).guarded_history (fun _ => Timely gap delay address)
    (fun events _ state => Watched gap address (events.any (Event.accepts address)) state) ?_ ?_ events timely recorded
  · apply watched.2
    rw [List.any_eq_true]
    exact ⟨_,member,by simp [Event.accepts,came]⟩
  · refine ⟨fun session held => ?_,nofun⟩
    simp [watching,Machine.recording,machine] at held
  · rintro events outputs ⟨s,h⟩ event ⟨next,later⟩ emitted watched timely stepped
    obtain ⟨plain,rfl⟩ := (machine sha1 server).recording_step.mp stepped
    rw [List.any_append,List.any_cons,List.any_nil,Bool.or_false]
    exact step_watched atLeast patient room watched timely plain

-- A visitor that is pinged once, answers, and is there at the next sweep.
def answering : List Event :=
  [.accept 0 visitor 0,.session visitor (.read 0 (WebSocketSession.openingBlock++blankLine) 5),.session visitor (.timer 2000),
    .session visitor (.read 0 [0x8a,0] 2100),.timer 5000]

def watchingVisitor : Machine (WebSocketSessions × Heartbeat) Event (Bytes × WebSocketSession.Output) Stopped :=
  watching (fun _ => WebSocketSession.openingDigest) WebSocketSession.chatServer visitor

def glance (result : (WebSocketSessions × Heartbeat) × List (Bytes × WebSocketSession.Output)) :
    Heartbeat × Option (Bool × Bool × Bytes) :=
  (result.1.2,(result.1.1.sessions[visitor]?).map fun session =>
    (session.base.isConnected,session.httpRequestReady,session.base.frame.buffer))

theorem glanced (seen : glance ((s,h),outputs) = (beat,some (connected,ready,buffer)))
    (held : s.sessions[visitor]? = some session) : h = beat ∧ session.base.isConnected = connected ∧
      session.httpRequestReady = ready ∧ session.base.frame.buffer = buffer := by
  unfold glance at seen
  dsimp only at seen
  rw [held] at seen
  cases seen
  exact ⟨rfl,rfl,rfl,rfl⟩

theorem answering_timely : watchingVisitor.Guarded (fun _ => Timely 4000 1000 visitor) answering := by
  have entered : (watchingVisitor.run (answering.take 1)).map glance = .ok (⟨-1,0,0,0,[]⟩,some (true,false,[])) := by
    decide +kernel
  have opened : (watchingVisitor.run (answering.take 2)).map glance = .ok (⟨-1,0,0,5,[]⟩,some (true,true,[])) := by
    decide +kernel
  have pinged : (watchingVisitor.run (answering.take 3)).map glance =
      .ok (⟨2000,0,2000,2000,[2000]⟩,some (true,true,[])) := by decide +kernel
  have ponged : (watchingVisitor.run (answering.take 4)).map glance =
      .ok (⟨2000,2100,2000,2100,[2000]⟩,some (true,true,[])) := by decide +kernel
  have first : watchingVisitor.Guarded (fun _ => Timely 4000 1000 visitor) ([]++answering.take 1) :=
    Machine.Guarded.snoc watchingVisitor (Machine.Guarded.nil watchingVisitor) fun _ _ _ => Int.le_refl _
  have second : watchingVisitor.Guarded (fun _ => Timely 4000 1000 visitor) (answering.take 1++(answering.drop 1).take 1) := by
    refine Machine.Guarded.snoc watchingVisitor first ?_
    rintro ⟨s,h⟩ outputs ran - session held
    obtain ⟨rfl,-,waiting,-⟩ := glanced (map_seen entered ran) held
    have prompt : Prompt 4000 1000 ⟨-1,0,0,0,[]⟩ 5 := by decide
    exact ⟨fun ready => absurd (waiting.symm.trans ready) nofun,prompt⟩
  have third : watchingVisitor.Guarded (fun _ => Timely 4000 1000 visitor) (answering.take 2++(answering.drop 2).take 1) := by
    refine Machine.Guarded.snoc watchingVisitor second ?_
    rintro ⟨s,h⟩ outputs ran - session held
    obtain ⟨rfl,connected,-,-⟩ := glanced (map_seen opened ran) held
    have prompt : Prompt 4000 1000 ⟨-1,0,0,5,[]⟩ 2000 := by decide
    exact ⟨connected,prompt⟩
  have fourth : watchingVisitor.Guarded (fun _ => Timely 4000 1000 visitor) (answering.take 3++(answering.drop 3).take 1) := by
    refine Machine.Guarded.snoc watchingVisitor third ?_
    rintro ⟨s,h⟩ outputs ran - session held
    obtain ⟨rfl,-,-,empty⟩ := glanced (map_seen pinged ran) held
    have prompt : Prompt 4000 1000 ⟨2000,0,2000,2000,[2000]⟩ 2100 := by decide
    refine ⟨fun _ => ⟨?_,?_⟩,prompt⟩
    · rw [empty]
      exact WebSocketSessionBase.framesBelow_complete (by decide) (by decide)
    · rw [empty]
      decide
  refine Machine.Guarded.snoc watchingVisitor fourth ?_
  rintro ⟨s,h⟩ outputs ran session held
  obtain ⟨rfl,-,-,-⟩ := glanced (map_seen ponged ran) held
  have prompt : Prompt 4000 1000 ⟨2000,2100,2000,2100,[2000]⟩ 5000 := by decide
  exact prompt

theorem answering_stays : ∃ s outputs, (machine (fun _ => WebSocketSession.openingDigest) WebSocketSession.chatServer).run
    answering = .ok (s,outputs) ∧ ∃ session, s.sessions[visitor]? = some session := by
  have runs : ((machine (fun _ => WebSocketSession.openingDigest) WebSocketSession.chatServer).run answering).map
      (fun _ => ()) = .ok () := by decide +kernel
  obtain ⟨⟨s,outputs⟩,ran,-⟩ := map_ok.mp runs
  exact ⟨s,outputs,ran,prompt_session_stays _ _ visitor 4000 1000 (by decide) (by decide) (by decide) answering
    answering_timely ran 0 0 (by decide) List.mem_cons_self⟩

-- The reading of the clock an event comes with.
def Event.clock : Event → Option Int
  | .accept _ _ nowMs => some nowMs
  | .session _ (.read _ _ nowMs) => some nowMs
  | .session _ (.timer nowMs) => some nowMs
  | .session _ _ => none
  | .timer nowMs => some nowMs

def Forward (events : List Event) : Prop := (events.filterMap Event.clock).Pairwise (· ≤ ·)

theorem forward_front {front behind : List Event} (forward : Forward (front++behind)) : Forward front := by
  unfold Forward at forward
  rw [List.filterMap_append] at forward
  exact (List.pairwise_append.mp forward).1

theorem forward_latest {events : List Event} {latest : Event} (forward : Forward (events++[latest]))
    (reads : latest.clock = some nowMs) (member : .timer earlier ∈ events) : earlier ≤ nowMs := by
  unfold Forward at forward
  rw [List.filterMap_append] at forward
  apply (List.pairwise_append.mp forward).2.2
  · exact List.mem_filterMap.mpr ⟨_,member,rfl⟩
  · exact List.mem_filterMap.mpr ⟨latest,List.mem_cons_self,reads⟩

-- A session hears of its peer now or stays as it is.
theorem session_pong (stepped : session.step sha1 server event = .ok (after,emitted)) :
    after.base.lastRecvPongMs = session.base.lastRecvPongMs ∨
      Event.clock (.session address event) = some after.base.lastRecvPongMs := by
  cases event with
  | read retCode data nowMs =>
    rcases (WebSocketSession.read_clocks stepped).pong with kept | heard
    · exact .inl kept
    · exact .inr (congrArg some heard.symm)
  | written retCode =>
    cases stepped
    left
    unfold WebSocketSession.onWrite
    split
    · rfl
    · split <;> rfl
  | timer nowMs =>
    have reached : (session.onTimer nowMs).1 = after := congrArg Prod.fst (Except.ok.inj stepped)
    left
    rw [← reached]
    unfold WebSocketSession.onTimer
    split
    · rfl
    · split <;> rfl
  | call call =>
    have reached : (session.apply call).1 = after := congrArg Prod.fst (Except.ok.inj stepped)
    left
    rw [← reached]
    cases call <;> rfl

theorem swept_recent (forward : Forward events) (ran : (machine sha1 server).run events = .ok (s,outputs))
    (address : Bytes) (session : WebSocketSession) (held : s.sessions[address]? = some session) (nowMs : Int)
    (swept : .timer nowMs ∈ events) : nowMs-session.base.lastRecvPongMs ≤ 15*1000 := by
  have fresh := (machine sha1 server).admissible_history Forward (fun _ _ _ => True)
    (fun events _ s => ∀ (address : Bytes) (session : WebSocketSession), s.sessions[address]? = some session →
      ∀ nowMs, .timer nowMs ∈ events → nowMs-session.base.lastRecvPongMs ≤ 15*1000)
    (fun _ _ => forward_front) ?_ ?_ events forward (fun _ _ _ _ _ _ _ => trivial) ran
  · exact fresh address session held nowMs swept
  · exact fun _ _ _ _ never => nomatch never
  · rintro events outputs s event next emitted forward fresh - stepped other last found nowMs member
    cases event with
    | accept retCode address accepting =>
      have same : (s.onAccept retCode address accepting).1 = next := congrArg Prod.fst (Except.ok.inj stepped)
      have earlier : .timer nowMs ∈ events := by simpa using member
      rw [← same,accepted] at found
      split at found
      · cases found
        have later := forward_latest forward rfl earlier
        show nowMs-accepting ≤ 15*1000
        omega
      · exact fresh other last found nowMs earlier
    | session address event =>
      obtain ⟨session,after,heard,wasHeld,advanced,-,rfl,-⟩ := step_session.mp stepped
      have earlier : .timer nowMs ∈ events := by simpa using member
      dsimp only at found
      rw [Std.ExtTreeMap.getElem?_insert] at found
      split at found
      · cases found
        rcases session_pong advanced with kept | reads
        · rw [kept]
          exact fresh address session wasHeld nowMs earlier
        · have later := forward_latest forward reads earlier
          omega
      · exact fresh other last found nowMs earlier
    | timer sweeping =>
      cases stepped
      rw [filtered,Option.filter_eq_some_iff] at found
      obtain ⟨wasHeld,recent⟩ := found
      rcases List.mem_append.mp member with earlier | now
      · exact fresh other last wasHeld nowMs earlier
      · cases List.mem_singleton.mp now
        simpa [isTimeout] using recent

-- Only an accept brings a session.
theorem step_held {event : Event} (stepped : step sha1 server s event = .ok (next,emitted))
    (other : event.accepts address = false) (held : next.sessions[address]? = some session) :
    ∃ known, s.sessions[address]? = some known := by
  cases event with
  | accept retCode accepting nowMs =>
    have same : (s.onAccept retCode accepting nowMs).1 = next := congrArg Prod.fst (Except.ok.inj stepped)
    have not : ¬ (0 ≤ retCode ∧ accepting = address) := by simpa [Event.accepts] using other
    rw [← same,accepted,if_neg not] at held
    exact ⟨session,held⟩
  | session acting event =>
    obtain ⟨known,after,outputs,found,-,-,rfl,-⟩ := step_session.mp stepped
    dsimp only at held
    rw [Std.ExtTreeMap.getElem?_insert] at held
    split at held
    · rename_i same
      rw [← Std.LawfulEqCmp.compare_eq_iff_eq.mp same]
      exact ⟨known,found⟩
    · exact ⟨session,held⟩
  | timer nowMs =>
    cases stepped
    rw [filtered] at held
    exact ⟨session,Option.eq_some_of_filter_eq_some held⟩

theorem held_before {behind : List Event} (ran : (machine sha1 server).runFrom s behind = .ok (next,outputs))
    (alone : ∀ event ∈ behind, event.accepts address = false) (held : next.sessions[address]? = some session) :
    ∃ known, s.sessions[address]? = some known := by
  induction behind generalizing s outputs with
  | nil =>
    cases ran
    exact ⟨session,held⟩
  | cons event rest ih =>
    obtain ⟨middle,emitted,later,stepped,ran,-⟩ := (machine sha1 server).runFrom_cons.mp ran
    obtain ⟨known,there⟩ := ih ran fun event member => alone event (List.mem_cons_of_mem _ member)
    exact step_held stepped (alone event List.mem_cons_self) there

-- Of a session that is held behind a sweep a pong came in the timeout before it,
-- or it has been accepted since.
theorem swept_sessions (sha1 : Bytes → Bytes) (server : WebSocketServer) (front behind : List Event) (nowMs : Int)
    (forward : Forward (front++.timer nowMs::behind))
    (ran : (machine sha1 server).run (front++.timer nowMs::behind) = .ok (s,outputs)) (address : Bytes)
    (session : WebSocketSession) (held : s.sessions[address]? = some session) :
    nowMs-session.base.lastRecvPongMs ≤ 15*1000 ∧ ((∀ event ∈ behind, event.accepts address = false) →
      ∃ before earlier known, (machine sha1 server).run front = .ok (before,earlier) ∧
        before.sessions[address]? = some known ∧ nowMs-known.base.lastRecvPongMs ≤ 15*1000) := by
  refine ⟨swept_recent forward ran address session held nowMs (by simp),fun alone => ?_⟩
  obtain ⟨before,earlier,_,ranFront,ranBehind,-⟩ := (machine sha1 server).runFrom_append.mp ran
  obtain ⟨after,_,_,stepped,ranLater,-⟩ := (machine sha1 server).runFrom_cons.mp ranBehind
  obtain ⟨known,kept⟩ := held_before ranLater alone held
  cases stepped
  rw [filtered,Option.filter_eq_some_iff] at kept
  obtain ⟨there,recent⟩ := kept
  exact ⟨before,earlier,known,ranFront,there,by simpa [isTimeout] using recent⟩

theorem answering_swept : ∃ before earlier known,
    (machine (fun _ => WebSocketSession.openingDigest) WebSocketSession.chatServer).run (answering.take 4) = .ok (before,earlier) ∧
      before.sessions[visitor]? = some known ∧ 5000-known.base.lastRecvPongMs ≤ 15*1000 := by
  have runs : ((machine (fun _ => WebSocketSession.openingDigest) WebSocketSession.chatServer).run answering).map
      (fun result => (result.1.sessions[visitor]?).isSome) = .ok true := by decide +kernel
  have forward : Forward answering := by
    unfold Forward
    decide
  obtain ⟨⟨s,outputs⟩,ran,here⟩ := map_ok.mp runs
  obtain ⟨session,held⟩ := Option.isSome_iff_exists.mp here
  exact (swept_sessions _ _ (answering.take 4) [] 5000 forward ran visitor session held).2 (by simp)

end WebSocketSessions

namespace WebSocketClient
open Heartbeat (Beating Prompt)
open WebSocketFrame (Pending)
open WebSocketSessionBase (Fits SameClocks)

def hears (client : WebSocketClient) (ret : Int) (resp : HttpClientResponse) : Bool :=
  client.connected && 0 ≤ ret && client.httpReady && (client.base.completes resp.data).any Frame.isPong

-- The heartbeat of a client, from the end of its handshake on. OnTimer puts off
-- its first look at the pongs; the heartbeat counts from the handshake.
def note (sha1 : Bytes → Bytes) (client : WebSocketClient) (h : Heartbeat) : Delivery → Heartbeat
  | .httpRead ret resp thrown nowMs =>
    match client.deliver sha1 (.httpRead ret resp thrown nowMs) with
    | .error _ => h
    | .ok (after,_) =>
      if !client.base.isConnected && after.base.isConnected then ⟨client.base.lastSendPingMs,nowMs,nowMs,nowMs,[]⟩
      else h.beat WebSocketSessions.pingInterval (if client.hears ret resp then .heard nowMs else .other nowMs)
  | .timer nowMs => if client.base.isConnected then h.beat WebSocketSessions.pingInterval (.tick nowMs) else h

def Timely (gap delay : Int) (state : WebSocketClient × Heartbeat) : Delivery → Prop
  | .httpRead _ resp _ nowMs => 0 ≤ nowMs ∧ (state.1.httpReady = true → Fits state.1.base resp.data) ∧
      (state.1.base.isConnected = true → Prompt gap delay state.2 nowMs)
  | .timer nowMs => state.1.base.isConnected = true → Prompt gap delay state.2 nowMs

structure Beats (gap : Int) (client : WebSocketClient) (h : Heartbeat) : Prop where
  ping : client.base.lastSendPingMs = h.lastPing
  pong : h.lastPong ≤ client.base.lastRecvPongMs ∨ client.base.lastRecvPongMs ≤ 0
  past : h.lastPong ≤ h.clock
  beating : ∃ start, Beating WebSocketSessions.pingInterval gap start h

structure Linked (gap : Int) (client : WebSocketClient) (h : Heartbeat) : Prop where
  pending : Pending client.base.frame
  waiting : client.httpReady = false →
    client.base.isConnected = false ∧ client.base.lastSendPingMs = -1 ∧ client.base.lastRecvPongMs = -1
  beats : client.base.isConnected = true → Beats gap client h
  ended : client.connected = true ∨ client.base.close = true

-- What the answer to the handshake makes of a client, whether or not the
-- callback throws.
structure Shaken (client after : WebSocketClient) : Prop where
  clocks : SameClocks client.base after.base
  connected : after.connected = client.connected
  close : after.base.close = client.base.close
  ready : after.base.isConnected = true → after.httpReady = true

variable {sha1 : Bytes → Bytes} {client after : WebSocketClient} {h : Heartbeat} {gap delay : Int}

theorem refuse_shaken {other : WebSocketClient} (desc : Bytes) (base : other.base = client.base)
    (connected : other.connected = client.connected) : Shaken client (other.refuse desc).1 := by
  have kept : (other.refuse desc).1.base = {client.base with isConnected:=false} := by
    rw [← base]
    rfl
  exact {
    clocks := by rw [kept]; exact ⟨rfl,rfl,rfl⟩
    connected := connected
    close := by rw [kept]
    ready := by rw [kept]; exact nofun}

theorem handleHttpRespone_shaken (resp : HttpClientResponse) : Shaken client (client.handleHttpRespone sha1 resp).1 := by
  unfold handleHttpRespone
  dsimp only
  split
  · exact refuse_shaken _ rfl rfl
  · split
    · exact refuse_shaken _ rfl rfl
    · split
      · exact refuse_shaken _ rfl rfl
      · split
        · exact refuse_shaken _ rfl rfl
        · exact ⟨⟨rfl,rfl,rfl⟩,rfl,rfl,fun _ => rfl⟩

theorem caught_shaken (shaken : Shaken client handled.1) (resp : HttpClientResponse) (thrown : Option Bytes) :
    Shaken client (client.caught resp thrown handled).1 := by
  cases thrown with
  | none => exact shaken
  | some what =>
    exact ⟨⟨shaken.clocks.frame,shaken.clocks.ping,shaken.clocks.pong⟩,shaken.connected,shaken.close,nofun⟩

theorem shaken_linked (linked : Linked gap client h) (shaken : Shaken client after) (waiting : client.httpReady = false)
    (patient : 0 ≤ gap) (late : 0 ≤ nowMs) (other : Heartbeat) : Linked gap after
      (if !client.base.isConnected && after.base.isConnected then ⟨client.base.lastSendPingMs,nowMs,nowMs,nowMs,[]⟩
        else other) := by
  obtain ⟨down,never,silent⟩ := linked.waiting waiting
  exact {
    pending := shaken.clocks.frame ▸ linked.pending
    waiting := by
      intro still
      refine ⟨?_,shaken.clocks.ping.trans never,shaken.clocks.pong.trans silent⟩
      rw [← Bool.not_eq_true]
      intro up
      cases still.symm.trans (shaken.ready up)
    beats := by
      intro up
      rw [down,up]
      exact {
        ping := shaken.clocks.ping
        pong := .inr (by rw [shaken.clocks.pong,silent]; decide)
        past := Int.le_refl _
        beating := ⟨nowMs,Heartbeat.beating_start (by unfold WebSocketSessions.pingInterval; omega) _
          (by rw [never]; omega) _ (Int.le_refl _)⟩}
    ended := by
      rw [shaken.connected,shaken.close]
      exact linked.ended}

theorem onTimer_linked (linked : Linked gap client h) (patient : 0 ≤ delay) (room : gap+delay ≤ 12999)
    (up : client.base.isConnected = true) (prompt : Prompt gap delay h nowMs) :
    Linked gap (client.onTimer nowMs).1 (h.beat WebSocketSessions.pingInterval (.tick nowMs)) := by
  have beats := linked.beats up
  obtain ⟨start,beating⟩ := beats.beating
  have lately := beating.heard_lately (by decide) patient prompt
  have forward := prompt.forward
  have past := beats.past
  have ticked := beating.beat (by decide) (.tick nowMs) prompt
  have ready : client.httpReady = true := by
    rw [← Bool.not_eq_false]
    intro waiting
    cases up.symm.trans (linked.waiting waiting).1
  have pinged : (client.ping nowMs).1 = {client with base:={client.base with lastSendPingMs:=
      if nowMs-client.base.lastSendPingMs > 2000 then nowMs else client.base.lastSendPingMs}} := by
    unfold ping
    split <;> rfl
  have checked : ∃ pong, (client.onTimer nowMs).1 = {client with base:={client.base with
        lastSendPingMs:=(h.beat WebSocketSessions.pingInterval (.tick nowMs)).lastPing,lastRecvPongMs:=pong}} ∧
      (h.lastPong ≤ pong ∨ pong ≤ 0) := by
    unfold onTimer
    rw [up,if_neg nofun]
    dsimp only
    rw [pinged,Heartbeat.tick_lastPing,← beats.ping]
    unfold checkPong
    by_cases first : client.base.lastRecvPongMs ≤ 0
    · rw [if_pos first]
      exact ⟨nowMs,rfl,.inl (by omega)⟩
    · have soon : ¬ nowMs-client.base.lastRecvPongMs > pongTimeout := by
        have heard := beats.pong.resolve_right first
        unfold WebSocketSessions.pingInterval at lately
        unfold pongTimeout
        omega
      rw [if_neg first,if_neg soon]
      exact ⟨client.base.lastRecvPongMs,rfl,beats.pong⟩
  obtain ⟨pong,reached,heard⟩ := checked
  rw [reached]
  exact {
    pending := linked.pending
    waiting := by
      intro waiting
      cases ready.symm.trans waiting
    beats := by
      intro _
      refine ⟨rfl,?_,?_,start,ticked⟩
      · rw [Heartbeat.tick_lastPong]
        exact heard
      · rw [Heartbeat.tick_lastPong,Heartbeat.beat_clock]
        exact Int.le_trans past forward
    ended := linked.ended}

-- A beat that is no tick, for a client that keeps its clocks but for a pong.
theorem Beats.beat (beats : Beats gap client h) (heard : Bool) (prompt : Prompt gap delay h nowMs)
    (ping : after.base.lastSendPingMs = client.base.lastSendPingMs)
    (pong : after.base.lastRecvPongMs = if heard then nowMs else client.base.lastRecvPongMs) :
    Beats gap after (h.beat WebSocketSessions.pingInterval (if heard then .heard nowMs else .other nowMs)) := by
  obtain ⟨start,beating⟩ := beats.beating
  cases heard with
  | true => exact {
      ping := ping.trans beats.ping
      pong := .inl (Int.le_of_eq pong.symm)
      past := Int.le_refl _
      beating := ⟨start,beating.beat (by decide) (.heard nowMs) prompt⟩}
  | false => exact {
      ping := ping.trans beats.ping
      pong := by
        rw [show after.base.lastRecvPongMs = client.base.lastRecvPongMs from pong]
        exact beats.pong
      past := Int.le_trans beats.past prompt.forward
      beating := ⟨start,beating.beat (by decide) (.other nowMs) prompt⟩}

theorem readFrames_linked (linked : Linked gap client h) (ready : client.httpReady = true) (fits : Fits client.base resp.data)
    (prompt : client.base.isConnected = true → Prompt gap delay h nowMs)
    (heard : client.hears ret resp = (client.base.completes resp.data).any Frame.isPong)
    (read : client.readFrames resp nowMs = .ok (after,outputs)) : (!client.base.isConnected && after.base.isConnected) = false ∧
      Linked gap after
        (h.beat WebSocketSessions.pingInterval (if client.hears ret resp then .heard nowMs else .other nowMs)) := by
  unfold readFrames at read
  obtain ⟨⟨base,actions,left⟩,handled,read⟩ := bind_ok.mp read
  have handled := mapError_ok.mp handled
  obtain ⟨still,ping,pong⟩ := WebSocketSessionBase.handleFrame_pong linked.pending fits handled
  obtain ⟨flag,close⟩ := WebSocketSessionBase.loop_flags _ handled
  rw [← heard] at pong
  have reached : (performAll {client.respond {resp with data:=[]} with base} actions).1 = after :=
    congrArg Prod.fst (Except.ok.inj read)
  rw [← reached]
  generalize place : ({client.respond {resp with data:=[]} with base} : WebSocketClient) = reading
  have same : reading.base = base ∧ reading.httpReady = true ∧ reading.connected = client.connected := by
    rw [← place]
    exact ⟨rfl,ready,rfl⟩
  rcases performAll_cases actions reading with ⟨kept,-⟩ | ended
  · rw [kept]
    constructor
    · rw [same.1,flag]
      cases client.base.isConnected <;> rfl
    · exact {
        pending := by rw [same.1]; exact still
        waiting := by
          intro waiting
          cases same.2.1.symm.trans waiting
        beats := by
          intro up
          rw [same.1,flag] at up
          exact (linked.beats up).beat _ (prompt up) (by rw [same.1]; exact ping) (by rw [same.1]; exact pong)
        ended := by
          rw [same.1,same.2.2,close]
          exact linked.ended}
  · rw [ended]
    constructor
    · cases client.base.isConnected <;> rfl
    · exact {
        pending := by
          show Pending reading.base.frame
          rw [same.1]
          exact still
        waiting := by
          intro waiting
          cases same.2.1.symm.trans waiting
        beats := nofun
        ended := .inr rfl}

theorem deliver_linked (linked : Linked gap client h) (atLeast : 0 ≤ gap) (patient : 0 ≤ delay) (room : gap+delay ≤ 12999)
    (timely : Timely gap delay (client,h) delivery) (delivered : client.deliver sha1 delivery = .ok (after,outputs)) :
    Linked gap after (note sha1 client h delivery) := by
  cases delivery with
  | timer nowMs =>
    have reached : (client.onTimer nowMs).1 = after := congrArg Prod.fst (Except.ok.inj delivered)
    unfold note
    dsimp only
    rw [← reached]
    cases up : client.base.isConnected with
    | true =>
      rw [if_pos rfl]
      exact onTimer_linked linked patient room up (timely up)
    | false =>
      rw [if_neg nofun]
      unfold onTimer
      rw [up]
      exact linked
  | httpRead ret resp thrown nowMs =>
    obtain ⟨late,inRange,prompt⟩ := timely
    unfold note
    dsimp only
    rw [delivered]
    dsimp only
    -- Unless it is the end of the handshake, the flag only goes down.
    have down : client.hears ret resp = false → after.base = client.base → after.httpReady = client.httpReady →
        after.connected = client.connected → Linked gap after (if !client.base.isConnected && after.base.isConnected
          then ⟨client.base.lastSendPingMs,nowMs,nowMs,nowMs,[]⟩
          else h.beat WebSocketSessions.pingInterval (if client.hears ret resp then .heard nowMs else .other nowMs)) := by
      intro silent base ready connected
      have stays : (!client.base.isConnected && after.base.isConnected) = false := by
        rw [base]
        cases client.base.isConnected <;> rfl
      rw [stays,if_neg nofun,silent]
      exact {
        pending := by rw [base]; exact linked.pending
        waiting := by rw [base,ready]; exact linked.waiting
        beats := by
          intro up
          rw [base] at up
          exact (linked.beats up).beat false (prompt up) (by rw [base]) (by rw [base]; rfl)
        ended := by rw [base,connected]; exact linked.ended}
    unfold deliver at delivered
    dsimp only at delivered
    cases connected : client.connected with
    | false =>
      rw [connected,if_pos (show (!false) = true from rfl)] at delivered
      cases delivered
      exact down (by simp [hears,connected]) rfl rfl rfl
    | true =>
      rw [connected,if_neg nofun] at delivered
      by_cases failed : ret < 0
      · rw [if_pos failed] at delivered
        have reached : (client.refuse (ascii "http read error")).1 = after := congrArg Prod.fst (Except.ok.inj delivered)
        have off : after.base.isConnected = false := by
          rw [← reached]
          rfl
        rw [off,Bool.and_false,if_neg nofun,← reached]
        exact {
          pending := linked.pending
          waiting := fun waiting => ⟨rfl,(linked.waiting waiting).2⟩
          beats := nofun
          ended := linked.ended}
      · rw [if_neg failed] at delivered
        cases ready : client.httpReady with
        | true =>
          rw [ready,if_pos rfl] at delivered
          have heard : client.hears ret resp = (client.base.completes resp.data).any Frame.isPong := by
            simp [hears,connected,ready,show 0 ≤ ret by omega]
          obtain ⟨stays,next⟩ := readFrames_linked linked ready (inRange ready) prompt heard delivered
          rw [stays,if_neg nofun]
          exact next
        | false =>
          rw [ready,if_neg nofun] at delivered
          have reached : (client.caught resp thrown (client.handleHttpRespone sha1 resp)).1 = after :=
            congrArg Prod.fst (Except.ok.inj delivered)
          have handled : Shaken client (client.handleHttpRespone sha1 resp).1 := handleHttpRespone_shaken resp
          have shaken := caught_shaken handled resp thrown
          rw [reached] at shaken
          exact shaken_linked linked shaken ready atLeast late _

def watching (sha1 : Bytes → Bytes) (http : HttpClient) (key : Bytes) :
    Machine (WebSocketClient × Heartbeat) Delivery Output Failure :=
  (deliveries sha1 http key).recording (note sha1) ⟨-1,0,0,0,[]⟩

-- A client whose pings are answered in time closes its connection for a close
-- frame only.
theorem prompt_server_stays (sha1 : Bytes → Bytes) (http : HttpClient) (key : Bytes) (gap delay : Int) (atLeast : 0 ≤ gap)
    (patient : 0 ≤ delay) (room : gap+delay ≤ 12999) (events : List Delivery)
    (timely : (watching sha1 http key).Guarded (fun _ => Timely gap delay) events)
    (ran : (deliveries sha1 http key).run events = .ok (client,outputs)) :
    client.connected = true ∨ client.base.close = true := by
  obtain ⟨h,recorded⟩ := (deliveries sha1 http key).recording_run.mp ran
  have linked := (watching sha1 http key).guarded_history (fun _ => Timely gap delay)
    (fun _ _ state => Linked gap state.1 state.2) ?_ ?_ events timely recorded
  · exact linked.ended
  · exact ⟨fun ready => (nomatch ready),fun _ => ⟨rfl,rfl,rfl⟩,nofun,.inl rfl⟩
  · rintro events outputs ⟨client,h⟩ delivery ⟨after,later⟩ emitted linked timely stepped
    obtain ⟨delivered,rfl⟩ := (deliveries sha1 http key).recording_step.mp stepped
    exact deliver_linked linked atLeast patient room timely delivered

-- A client that pings once and is answered before it looks again.
def answered : List Delivery :=
  [.httpRead 0 welcome none 10,.timer 2100,.httpRead 0 {welcome with data:=[0x8a,0]} none 2200,.timer 5000]

def watchingPlain : Machine (WebSocketClient × Heartbeat) Delivery Output Failure :=
  watching (fun _ => []) {host:=ascii "a"} []

def regard (result : (WebSocketClient × Heartbeat) × List Output) : Heartbeat × Bool × Bytes :=
  (result.1.2,result.1.1.base.isConnected,result.1.1.base.frame.buffer)

theorem regarded (seen : regard ((client,h),outputs) = (beat,up,buffer)) : h = beat ∧ client.base.frame.buffer = buffer := by
  cases seen
  exact ⟨rfl,rfl⟩

theorem answered_timely : watchingPlain.Guarded (fun _ => Timely 4000 1000) answered := by
  have greeted : (watchingPlain.run (answered.take 1)).map regard = .ok (⟨-1,10,10,10,[]⟩,true,[]) := by decide +kernel
  have pinged : (watchingPlain.run (answered.take 2)).map regard = .ok (⟨2100,10,2100,2100,[2100]⟩,true,[]) := by
    decide +kernel
  have ponged : (watchingPlain.run (answered.take 3)).map regard = .ok (⟨2100,2200,2100,2200,[2100]⟩,true,[]) := by
    decide +kernel
  have first : watchingPlain.Guarded (fun _ => Timely 4000 1000) ([]++answered.take 1) := by
    refine Machine.Guarded.snoc watchingPlain (Machine.Guarded.nil watchingPlain) ?_
    intro state outputs ran
    cases ran
    exact ⟨by decide,nofun,nofun⟩
  have second : watchingPlain.Guarded (fun _ => Timely 4000 1000) (answered.take 1++(answered.drop 1).take 1) := by
    refine Machine.Guarded.snoc watchingPlain first ?_
    rintro ⟨client,h⟩ outputs ran -
    obtain ⟨rfl,-⟩ := regarded (map_seen greeted ran)
    have prompt : Prompt 4000 1000 ⟨-1,10,10,10,[]⟩ 2100 := by decide
    exact prompt
  have third : watchingPlain.Guarded (fun _ => Timely 4000 1000) (answered.take 2++(answered.drop 2).take 1) := by
    refine Machine.Guarded.snoc watchingPlain second ?_
    rintro ⟨client,h⟩ outputs ran
    obtain ⟨rfl,empty⟩ := regarded (map_seen pinged ran)
    have prompt : Prompt 4000 1000 ⟨2100,10,2100,2100,[2100]⟩ 2200 := by decide
    refine ⟨by decide,fun _ => ⟨?_,?_⟩,fun _ => prompt⟩
    · rw [empty]
      exact WebSocketSessionBase.framesBelow_complete (by decide) (by decide)
    · rw [empty]
      decide
  refine Machine.Guarded.snoc watchingPlain third ?_
  rintro ⟨client,h⟩ outputs ran -
  obtain ⟨rfl,-⟩ := regarded (map_seen ponged ran)
  have prompt : Prompt 4000 1000 ⟨2100,2200,2100,2200,[2100]⟩ 5000 := by decide
  exact prompt

theorem answered_stays : ∃ client outputs, (deliveries (fun _ => []) {host:=ascii "a"} []).run answered = .ok (client,outputs) ∧
    (client.connected = true ∨ client.base.close = true) := by
  have runs : ((deliveries (fun _ => []) {host:=ascii "a"} []).run answered).map (fun _ => ()) = .ok () := by decide +kernel
  obtain ⟨⟨client,outputs⟩,ran,-⟩ := map_ok.mp runs
  exact ⟨client,outputs,ran,prompt_server_stays (fun _ => []) {host:=ascii "a"} [] 4000 1000 (by decide) (by decide)
    (by decide) answered answered_timely ran⟩

end WebSocketClient
end CoStream
