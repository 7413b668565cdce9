import CoStream.CoHttpResponseOrder
import CoStream.CoHttpSession

namespace CoStream
open Foundation CoHttpResponse

-- What hangs on one accepted connection: its session, and the response that the
-- session gave to a handler. A handler may keep the response for ever.
structure CoHttpLink where
  endpoint : Bytes
  session : CoHttpSession := {}
  aliveMs : Int
  isClose : Bool := false
  exchange : Option CoHttpExchange := none

namespace CoHttpLink

def isAlive (link : CoHttpLink) (nowMs : Int) : Bool := decide (nowMs-link.aliveMs < 5000) && !link.isClose

-- No Write or WriteStatus on the response is under way.
def Quiet (link : CoHttpLink) : Prop := ∀ exchange, link.exchange = some exchange → exchange.outbox.requests = []

end CoHttpLink

-- http_sessions_ holds the sessions by their number. The link of a session that
-- was erased stands for the connection and response it leaves behind.
structure CoHttpSessions where
  links : List CoHttpLink := []
  httpSessions : Std.ExtTreeMap Bytes Nat := ∅

namespace CoHttpSessions

inductive Event where
  | onTimer (nowMs : Int)
  | accept (endpoint : Bytes) (nowMs : Int)
  | received (id : Nat) (received : CoHttpSession.Received) (nowMs : Int)
  | respond (id : Nat) (event : CoHttpExchange.Event) (nowMs : Int)
deriving DecidableEq,Repr

-- A callback of a response, and whether its session was held at that moment.
structure Called where
  id : Nat
  callback : Callback
  held : Bool
deriving DecidableEq,Repr

-- An erased session has closed its connection or finished its HandleRequest, so
-- it receives nothing more.
inductive Disabled where
  | gone
  | noResponse
  | nothingSubmitted
deriving DecidableEq,Repr

def held (s : CoHttpSessions) (id : Nat) : Bool :=
  match s.links[id]? with
  | none => false
  | some link => s.httpSessions[link.endpoint]? == some id

def onTimer (s : CoHttpSessions) (nowMs : Int) : CoHttpSessions :=
  {s with httpSessions:=s.httpSessions.filter fun _ id => (s.links[id]?).any fun link => link.isAlive nowMs}

def onClose (s : CoHttpSessions) (endpoint : Bytes) : CoHttpSessions :=
  {s with httpSessions:=s.httpSessions.erase endpoint}

def accept (s : CoHttpSessions) (endpoint : Bytes) (nowMs : Int) : CoHttpSessions :=
  {links:=s.links++[{endpoint,aliveMs:=nowMs}],httpSessions:=s.httpSessions.insert endpoint s.links.length}

-- The endpoint of a connection stays the one it was accepted with.
def callback (s : CoHttpSessions) (id : Nat) (nowMs : Int) (callback : Callback) : CoHttpSessions :=
  match s.links[id]? with
  | none => s
  | some link =>
    match callback with
    | .alive => {s with links:=s.links.set id {link with aliveMs:=nowMs}}
    | .close => onClose {s with links:=s.links.set id {link with isClose:=true}} link.endpoint

-- A call on a session that is gone has no meaning; it is recorded and left at that.
def callbacks (id : Nat) (nowMs : Int) : CoHttpSessions → List Callback → CoHttpSessions × List Called
  | s,[] => (s,[])
  | s,call::rest =>
    let after := if s.held id then s.callback id nowMs call else s
    let later := callbacks id nowMs after rest
    (later.1,⟨id,call,s.held id⟩::later.2)

variable {η : Type}

-- An exception out of AnalyzeHeader ends the coroutine and nothing else.
def received (server : Handlers η) (link : CoHttpLink) (received : CoHttpSession.Received) (nowMs : Int) : CoHttpLink :=
  if link.session.finished then link
  else
    let aliveMs := match received with
      | .ok _ => nowMs
      | .failed => link.aliveMs
    match link.session.handleRequest server received with
    | .error _ => {link with session:={link.session with finished:=true},aliveMs}
    | .ok (session,[]) => {link with session,aliveMs}
    | .ok (session,_::_) => {link with session,aliveMs,exchange:=some {}}

def step (server : Handlers η) (s : CoHttpSessions) : Event → Except Disabled (CoHttpSessions × List Called)
  | .onTimer nowMs => .ok (s.onTimer nowMs,[])
  | .accept endpoint nowMs => .ok (s.accept endpoint nowMs,[])
  | .received id result nowMs =>
    match s.links[id]? with
    | none => .error .gone
    | some link =>
      if s.held id then .ok ({s with links:=s.links.set id (received server link result nowMs)},[]) else .error .gone
  | .respond id event nowMs =>
    match (s.links[id]?).bind fun link => link.exchange.map fun exchange => (link,exchange) with
    | none => .error .noResponse
    | some (link,exchange) =>
      match exchange.step event with
      | .error _ => .error .nothingSubmitted
      | .ok (next,outputs) =>
        .ok (callbacks id nowMs {s with links:=s.links.set id {link with exchange:=some next}}
          (CoHttpExchange.callbacksIn outputs))

def machine (server : Handlers η) : Machine CoHttpSessions Event Called Disabled := ⟨{},step server⟩

end CoHttpSessions

namespace CoHttpExchange
variable {x y : CoHttpExchange} {outputs : List Output} {pending : List Activation}

def Queued (x : CoHttpExchange) (pending : List Activation) : Prop := x.outbox.Holds (pending.map fun a => (a,a.left))

theorem Queued.requests (queued : x.Queued pending) (idle : x.outbox.requests = []) : pending = [] := by
  simpa using queued.2.symm.trans idle

theorem proceed_queue (queued : x.Queued pending) (p : Progress) (uvWrite : Int) :
    callbacksIn (x.proceed p uvWrite).2 = p.callbacks ∧ ∃ later, (x.proceed p uvWrite).1.Queued (pending++later) ∧
      (p.next = none → later = []) := by
  obtain ⟨response,callbacks,next⟩ := p
  cases next with
  | none =>
    refine ⟨by simp [proceed,callbacksIn,callbacksOf],[],?_,fun _ => rfl⟩
    rw [List.append_nil]
    exact queued
  | some a =>
    obtain ⟨o,outputs,proceeds,-,holds⟩ := proceed_sends queued response callbacks a uvWrite
    refine ⟨by simp [proceed,callbacksIn,callbacksOf],?_⟩
    rw [proceeds]
    split at holds
    · exact ⟨[a],by simpa [Queued] using holds,by simp⟩
    · exact ⟨[],by simpa [Queued] using holds,by simp⟩

-- What a completed send lets its coroutine call. The session is closed at the
-- end of a call that does not continue, and only there.
inductive Calls (a : Activation) (status : Int) (p : Progress) : Prop where
  | nothing (silent : p.callbacks = [])
  | alive (alone : p.callbacks = [.alive])
  | closing (calls : p.callbacks = [.close] ∨ p.callbacks = [.alive,.close]) (succeeded : status = 0)
      (behind : a.stage ≠ .header) (final : a.continueFlag = false) (ended : p.next = none)

theorem finish_calls (r : CoHttpResponse) (behind : a.stage ≠ .header) (short : front = [] ∨ front = [.alive]) :
    Calls a 0 (finish r a.continueFlag front) := by
  unfold finish
  split
  · rcases short with rfl | rfl
    · exact .nothing rfl
    · exact .alive rfl
  · rename_i final
    refine .closing ?_ rfl behind (by simpa using final) rfl
    rcases short with rfl | rfl
    · exact Or.inl rfl
    · exact Or.inr rfl

theorem resume_calls (r : CoHttpResponse) (a : Activation) (status : Int) :
    Calls a status (r.resume a (AcceptConn.Outbox.sentResult AcceptConn.Outbox.sentCount a.left status)) := by
  by_cases succeeded : status = 0
  · subst succeeded
    unfold CoHttpResponse.resume
    simp only [AcceptConn.Outbox.sentResult,if_true,ne_eq,not_true_eq_false,if_false]
    split
    · split
      · exact .alive rfl
      · exact .alive rfl
    · rename_i stage
      split
      · exact .alive rfl
      · exact finish_calls r (by simp [stage]) (Or.inr rfl)
    · rename_i stage
      split
      · exact .nothing rfl
      · exact finish_calls r (by simp [stage]) (Or.inl rfl)
  · rw [resume_failed _ _ succeeded]
    exact .nothing rfl

def Starts : Event → Prop
  | .write _ _ _ => True
  | .writeStatus _ _ _ _ => True
  | _ => False

-- All that an event can do to the calls that are under way.
inductive Turn (x : CoHttpExchange) (pending : List Activation) (y : CoHttpExchange) (outputs : List Output) :
    Event → Prop where
  | quiet (event : Event) (same : y.Queued pending) (silent : callbacksIn outputs = []) : Turn x pending y outputs event
  | call (event : Event) (starts : Starts event) (opened : x.response.isClose = false) (later : List Activation)
      (queued : y.Queued (pending++later)) (silent : callbacksIn outputs = []) : Turn x pending y outputs event
  | completed (status uvWrite : Int) (first : pending = a::rest) (p : Progress) (calls : Calls a status p)
      (later : List Activation) (queued : y.Queued (rest++later)) (ended : p.next = none → later = [])
      (called : callbacksIn outputs = p.callbacks) : Turn x pending y outputs (.completed status uvWrite)

-- A Write or WriteStatus calls nothing back before its first send completes, and
-- a closed response turns it away.
theorem turn_call (queued : x.Queued pending) (starts : Starts event) (p : Progress) (silent : p.callbacks = [])
    (refused : x.response.isClose = true → p.next = none) (uvWrite : Int)
    (proceeded : x.proceed p uvWrite = (y,outputs)) : Turn x pending y outputs event := by
  obtain ⟨called,later,after,ended⟩ := proceed_queue queued p uvWrite
  rw [proceeded] at called after
  cases opened : x.response.isClose with
  | false => exact .call event starts opened later after (called.trans silent)
  | true =>
    rw [ended (refused opened),List.append_nil] at after
    exact .quiet event after (called.trans silent)

theorem turn_exact (queued : x.Queued pending) (stepped : x.step event = .ok (y,outputs)) :
    Turn x pending y outputs event := by
  cases event with
  | setStatusCode statusCode =>
    cases stepped
    exact .quiet _ queued rfl
  | setStatus status =>
    cases stepped
    exact .quiet _ queued rfl
  | addHeader key value =>
    cases stepped
    exact .quiet _ queued rfl
  | write data continueFlag uvWrite =>
    refine turn_call queued (by trivial) (x.response.write data continueFlag) ?_ ?_ uvWrite (Except.ok.inj stepped)
    · unfold CoHttpResponse.write
      split
      · rfl
      · split <;> rfl
    · intro closed
      simp [CoHttpResponse.write,closed]
  | writeStatus code status continueFlag uvWrite =>
    refine turn_call queued (by trivial) (x.response.writeStatus code status continueFlag) ?_ ?_ uvWrite
      (Except.ok.inj stepped)
    · unfold CoHttpResponse.writeStatus
      split <;> rfl
    · intro closed
      simp [CoHttpResponse.writeStatus,closed]
  | completed status uvWrite =>
    cases pending with
    | nil =>
      rw [step_nothing queued] at stepped
      cases stepped
    | cons a rest =>
      obtain ⟨o,left,resumed⟩ := step_completed queued status uvWrite
      obtain ⟨called,later,after,ended⟩ := proceed_queue (x := {x with outbox:=o}) left
        (x.response.resume a (AcceptConn.Outbox.sentResult AcceptConn.Outbox.sentCount a.left status)) uvWrite
      have same := Except.ok.inj (stepped.symm.trans resumed)
      rw [← same] at called after
      exact .completed status uvWrite rfl _ (resume_calls _ _ _) later after ended called

end CoHttpExchange

namespace CoHttpSessions
open CoHttpExchange

-- Every call that is under way belongs to a session that is held.
def Sheltered (s : CoHttpSessions) : Prop :=
  ∀ (id : Nat) (link : CoHttpLink) (x : CoHttpExchange), s.links[id]? = some link → link.exchange = some x →
    ∃ pending, x.Queued pending ∧ (pending ≠ [] → s.httpSessions[link.endpoint]? = some id)

-- A session is erased only while no Write or WriteStatus of its response is
-- under way, and none is begun on the response of an erased session.
def Spared (s : CoHttpSessions) : Event → Prop
  | .onTimer nowMs => ∀ (endpoint : Bytes) (id : Nat) (link : CoHttpLink), s.httpSessions[endpoint]? = some id →
      s.links[id]? = some link → link.isAlive nowMs = false → link.Quiet
  | .accept endpoint _ => ∀ (id : Nat) (link : CoHttpLink), s.httpSessions[endpoint]? = some id →
      s.links[id]? = some link → link.Quiet
  | .received _ _ _ => True
  | .respond id event _ => ∀ (link : CoHttpLink) (x : CoHttpExchange), s.links[id]? = some link → link.exchange = some x →
      match event with
      | .write _ _ _ => x.response.isClose = false → s.held id = true
      | .writeStatus _ _ _ _ => x.response.isClose = false → s.held id = true
      | .completed status _ => ∀ a rest, x.outbox.conn.writeAwaiters = a::rest → status = 0 → a.stage ≠ .header →
          a.continueFlag = false → rest = []
      | _ => True

variable {s next : CoHttpSessions} {link after : CoHttpLink} {id : Nat} {nowMs : Int} {η : Type} {server : Handlers η}

theorem held_link (found : s.links[id]? = some link) :
    s.held id = true ↔ s.httpSessions[link.endpoint]? = some id := by
  simp [held,found]

theorem sheltered_set (sheltered : Sheltered s) (found : s.links[id]? = some link) (endpoint : after.endpoint = link.endpoint)
    (own : ∀ x, after.exchange = some x →
      ∃ pending, x.Queued pending ∧ (pending ≠ [] → s.httpSessions[link.endpoint]? = some id)) :
    Sheltered {s with links:=s.links.set id after} := by
  intro other there x at' present
  by_cases same : id = other
  · subst same
    rw [List.getElem?_set_self (List.getElem?_eq_some_iff.mp found).1] at at'
    cases at'
    rw [endpoint]
    exact own x present
  · rw [List.getElem?_set_ne same] at at'
    exact sheltered other there x at' present

theorem sheltered_onClose (sheltered : Sheltered s) (found : s.links[id]? = some link)
    (held : s.httpSessions[link.endpoint]? = some id) (quiet : ∀ x, link.exchange = some x → x.Queued []) :
    Sheltered (s.onClose link.endpoint) := by
  intro other there x at' present
  by_cases same : id = other
  · subst same
    cases found.symm.trans at'
    exact ⟨[],quiet x present,fun some => absurd rfl some⟩
  · obtain ⟨pending,queued,shelter⟩ := sheltered other there x at' present
    refine ⟨pending,queued,?_⟩
    intro waiting
    have apart : link.endpoint ≠ there.endpoint := by
      intro equal
      have shared := held.symm.trans (equal ▸ shelter waiting)
      exact same (Option.some.inj shared)
    simp only [onClose,Std.ExtTreeMap.getElem?_erase]
    simpa [apart] using shelter waiting

theorem sheltered_onTimer (sheltered : Sheltered s) (spared : Spared s (.onTimer nowMs)) : Sheltered (s.onTimer nowMs) := by
  intro id there x found present
  obtain ⟨pending,queued,shelter⟩ := sheltered id there x found present
  refine ⟨pending,queued,?_⟩
  intro waiting
  have held := shelter waiting
  have alive : there.isAlive nowMs = true := by
    by_contra idle
    exact waiting (queued.requests (spared _ _ _ held found (by simpa using idle) x present))
  have found' : s.links[id]? = some there := found
  simp [onTimer,held,found',alive]

theorem sheltered_accept (sheltered : Sheltered s) (spared : Spared s (.accept endpoint nowMs)) :
    Sheltered (s.accept endpoint nowMs) := by
  intro id there x found present
  by_cases new : id < s.links.length
  · have before : s.links[id]? = some there := by simpa [accept,List.getElem?_append_left new] using found
    obtain ⟨pending,queued,shelter⟩ := sheltered id there x before present
    refine ⟨pending,queued,?_⟩
    intro waiting
    have held := shelter waiting
    have apart : endpoint ≠ there.endpoint := by
      rintro rfl
      exact waiting (queued.requests (spared _ _ held before x present))
    simp only [accept,Std.ExtTreeMap.getElem?_insert]
    simpa [apart] using held
  · have last : s.links.length ≤ id := Nat.le_of_not_lt new
    simp only [accept,List.getElem?_append_right last,List.getElem?_singleton] at found
    split at found
    · cases found
      cases present
    · cases found

theorem received_endpoint (server : Handlers η) (link : CoHttpLink) (result : CoHttpSession.Received) (nowMs : Int) :
    (received server link result nowMs).endpoint = link.endpoint := by
  unfold received
  split
  · rfl
  · dsimp only
    split <;> rfl

theorem received_exchange (server : Handlers η) (link : CoHttpLink) (result : CoHttpSession.Received) (nowMs : Int) :
    (received server link result nowMs).exchange = link.exchange ∨
      (received server link result nowMs).exchange = some {} := by
  unfold received
  split
  · exact Or.inl rfl
  · dsimp only
    split
    · exact Or.inl rfl
    · exact Or.inl rfl
    · exact Or.inr rfl

theorem sheltered_received (sheltered : Sheltered s) (found : s.links[id]? = some link) (result : CoHttpSession.Received) :
    Sheltered {s with links:=s.links.set id (received server link result nowMs)} := by
  apply sheltered_set sheltered found (received_endpoint _ _ _ _)
  intro x present
  rcases received_exchange server link result nowMs with same | new
  · exact sheltered id link x found (same ▸ present)
  · cases new.symm.trans present
    exact ⟨[],⟨rfl,rfl⟩,fun some => absurd rfl some⟩

theorem callbacks_alive (found : s.links[id]? = some link) (held : s.httpSessions[link.endpoint]? = some id)
    (rest : List Callback) : callbacks id nowMs s (.alive::rest) =
      ((callbacks id nowMs {s with links:=s.links.set id {link with aliveMs:=nowMs}} rest).1,
        ⟨id,.alive,true⟩::(callbacks id nowMs {s with links:=s.links.set id {link with aliveMs:=nowMs}} rest).2) := by
  have held' := (held_link found).mpr held
  simp [callbacks,held',callback,found]

theorem callbacks_close (found : s.links[id]? = some link) (held : s.httpSessions[link.endpoint]? = some id) :
    callbacks id nowMs s [.close] =
      (onClose {s with links:=s.links.set id {link with isClose:=true}} link.endpoint,[⟨id,.close,true⟩]) := by
  have held' := (held_link found).mpr held
  simp [callbacks,held',callback,found]

theorem sheltered_touched (sheltered : Sheltered s) (found : s.links[id]? = some link)
    (endpoint : after.endpoint = link.endpoint) (exchange : after.exchange = link.exchange) :
    Sheltered {s with links:=s.links.set id after} := by
  apply sheltered_set sheltered found endpoint
  intro x present
  exact sheltered id link x found (exchange ▸ present)

theorem close_sheltered (sheltered : Sheltered s) (found : s.links[id]? = some link)
    (held : s.httpSessions[link.endpoint]? = some id) (quiet : ∀ x, link.exchange = some x → x.Queued []) (nowMs : Int) :
    Sheltered (callbacks id nowMs s [.close]).1 ∧ ∀ call ∈ (callbacks id nowMs s [.close]).2, call.held = true := by
  rw [callbacks_close found held]
  refine ⟨?_,by simp⟩
  have inside := (List.getElem?_eq_some_iff.mp found).1
  have touched : Sheltered {s with links:=s.links.set id {link with isClose:=true}} :=
    sheltered_touched sheltered found rfl rfl
  have closed := sheltered_onClose touched (List.getElem?_set_self inside) held quiet
  exact closed

theorem callbacks_sheltered {status : Int} (sheltered : Sheltered s) (found : s.links[id]? = some link)
    (held : s.httpSessions[link.endpoint]? = some id) (calls : Calls a status p)
    (quiet : a.stage ≠ .header → a.continueFlag = false → status = 0 → p.next = none →
      ∀ x, link.exchange = some x → x.Queued []) :
    Sheltered (callbacks id nowMs s p.callbacks).1 ∧ ∀ call ∈ (callbacks id nowMs s p.callbacks).2, call.held = true := by
  have inside := (List.getElem?_eq_some_iff.mp found).1
  have touched : Sheltered {s with links:=s.links.set id {link with aliveMs:=nowMs}} :=
    sheltered_touched sheltered found rfl rfl
  cases calls with
  | nothing silent =>
    rw [silent]
    exact ⟨sheltered,by simp [callbacks]⟩
  | alive alone =>
    rw [alone,callbacks_alive found held]
    exact ⟨touched,by simp [callbacks]⟩
  | closing shape succeeded behind final ended =>
    have idle := quiet behind final succeeded ended
    rcases shape with alone | both
    · rw [alone]
      exact close_sheltered sheltered found held idle nowMs
    · rw [both,callbacks_alive found held]
      obtain ⟨closed,called⟩ := close_sheltered touched (List.getElem?_set_self inside) held idle nowMs
      exact ⟨closed,by simpa using called⟩

theorem sheltered_respond (sheltered : Sheltered s) (spared : Spared s (.respond id event nowMs))
    (found : s.links[id]? = some link) (present : link.exchange = some x) (stepped : x.step event = .ok (y,outputs)) :
    Sheltered (callbacks id nowMs {s with links:=s.links.set id {link with exchange:=some y}} (callbacksIn outputs)).1 ∧
    ∀ call ∈ (callbacks id nowMs {s with links:=s.links.set id {link with exchange:=some y}} (callbacksIn outputs)).2,
      call.held = true := by
  obtain ⟨pending,queued,shelter⟩ := sheltered id link x found present
  have spared := spared link x found present
  have inside := (List.getElem?_eq_some_iff.mp found).1
  -- The new queue is sheltered as soon as the session is held wherever the queue is filled.
  have placed : ∀ waiting, y.Queued waiting → (waiting ≠ [] → s.httpSessions[link.endpoint]? = some id) →
      Sheltered {s with links:=s.links.set id {link with exchange:=some y}} := by
    intro waiting queued shelter
    refine sheltered_set sheltered found rfl ?_
    intro z exchange
    cases exchange
    exact ⟨waiting,queued,shelter⟩
  cases turn_exact queued stepped with
  | quiet event same silent =>
    rw [silent]
    exact ⟨placed pending same shelter,by simp [callbacks]⟩
  | call event starts opened later queued silent =>
    rw [silent]
    refine ⟨placed _ queued fun _ => ?_,by simp [callbacks]⟩
    apply (held_link found).mp
    cases event with
    | write data continueFlag uvWrite => exact spared opened
    | writeStatus code status continueFlag uvWrite => exact spared opened
    | setStatusCode statusCode => cases starts
    | setStatus status => cases starts
    | addHeader key value => cases starts
    | completed status uvWrite => cases starts
  | completed status uvWrite first p calls later after ended called =>
    have held := shelter (by simp [first])
    rw [called]
    refine callbacks_sheltered (placed _ after fun _ => held) (List.getElem?_set_self inside) held calls ?_
    intro behind final succeeded last z exchange
    cases exchange
    rw [first] at queued
    have alone := spared _ _ queued.1 succeeded behind final
    rw [List.map_eq_nil_iff,List.map_eq_nil_iff] at alone
    rw [alone,ended last] at after
    exact after

theorem sheltered_step (sheltered : Sheltered s) (spared : Spared s event) (stepped : step server s event = .ok (next,emitted)) :
    Sheltered next ∧ ∀ call ∈ emitted, call.held = true := by
  cases event with
  | onTimer nowMs =>
    cases stepped
    exact ⟨sheltered_onTimer sheltered spared,by simp⟩
  | accept endpoint nowMs =>
    cases stepped
    exact ⟨sheltered_accept sheltered spared,by simp⟩
  | received id result nowMs =>
    simp only [step] at stepped
    split at stepped
    · cases stepped
    · rename_i link found
      split at stepped
      · cases stepped
        exact ⟨sheltered_received sheltered found result,by simp⟩
      · cases stepped
  | respond id event nowMs =>
    simp only [step] at stepped
    split at stepped
    · cases stepped
    · rename_i link x found
      obtain ⟨at',there,present⟩ := Option.bind_eq_some_iff.mp found
      obtain ⟨same,exchange,shape⟩ := Option.map_eq_some_iff.mp present
      cases shape
      split at stepped
      · cases stepped
      · rename_i y outputs ran
        have same := Except.ok.inj stepped
        have kept := sheltered_respond sheltered spared there exchange ran
        rw [same] at kept
        exact kept

-- In a run that erases no session under a call, every callback reaches a session
-- that is held.
theorem callbacks_held (server : Handlers η) (events : List Event)
    (spared : (machine server).Guarded (fun _ => Spared) events) (ran : (machine server).run events = .ok (s,outputs)) :
    ∀ call ∈ outputs, call.held = true := by
  have history := (machine server).guarded_history (fun _ => Spared)
    (fun _ outputs s => Sheltered s ∧ ∀ call ∈ outputs, call.held = true) ?_ ?_ events spared ran
  · exact history.2
  · exact ⟨fun id link x found => by simp [machine] at found,by simp⟩
  · intro events outputs s event next emitted held spared stepped
    obtain ⟨sheltered,called⟩ := sheltered_step held.1 spared stepped
    refine ⟨sheltered,?_⟩
    intro call member
    rcases List.mem_append.mp member with earlier | now
    · exact held.2 call earlier
    · exact called call now

def oneHandler : Handlers Unit := CoHttpServer.addGetHandle {} (ascii "/") ()
def request : List Event := [.accept (ascii "peer") 0,.received 0 (.ok (ascii "GET / HTTP/1.1\r\n\r\n")) 0]

theorem prompt_held : ∃ s outputs,
    (machine oneHandler).Guarded (fun _ => Spared)
      (request++[.respond 0 (.write [120] false 0) 10]++[.respond 0 (.completed 0 0) 20]) ∧
    (machine oneHandler).run (request++[.respond 0 (.write [120] false 0) 10]++[.respond 0 (.completed 0 0) 20]) =
      .ok (s,outputs) ∧ outputs = [⟨0,.alive,true⟩] ∧ ∀ call ∈ outputs, call.held = true := by
  have asked : (machine oneHandler).Guarded (fun _ => Spared) request := by
    refine Machine.Guarded.snoc _ (Machine.Guarded.snoc _ (Machine.Guarded.nil _) ?_) ?_
    · intro s outputs ran
      cases ran
      intro id link held
      exact absurd held (by simp [machine])
    · exact fun _ _ _ => trivial
  have written : (machine oneHandler).Guarded (fun _ => Spared) (request++[.respond 0 (.write [120] false 0) 10]) := by
    refine Machine.Guarded.snoc _ asked ?_
    intro s outputs ran link x found present opened
    have view : ((machine oneHandler).run request).map (fun result => result.1.held 0) = .ok true := by decide +kernel
    rw [ran] at view
    exact Except.ok.inj view
  have completed : (machine oneHandler).Guarded (fun _ => Spared)
      (request++[.respond 0 (.write [120] false 0) 10]++[.respond 0 (.completed 0 0) 20]) := by
    refine Machine.Guarded.snoc _ written ?_
    intro s outputs ran link x found present a rest awaiters
    have view : ((machine oneHandler).run (request++[.respond 0 (.write [120] false 0) 10])).map (fun result =>
        (result.1.links[0]?.bind CoHttpLink.exchange).map fun x => x.outbox.conn.writeAwaiters.length) = .ok (some 1) := by
      decide +kernel
    rw [ran] at view
    simp only [Except.map,found,Option.bind_some,present,Option.map_some,awaiters,Except.ok.injEq,Option.some.injEq,
      List.length_cons] at view
    exact fun _ _ _ => List.length_eq_zero_iff.mp (by omega)
  have view : ((machine oneHandler).run
      (request++[.respond 0 (.write [120] false 0) 10]++[.respond 0 (.completed 0 0) 20])).map Prod.snd =
      .ok [⟨0,.alive,true⟩] := by decide +kernel
  obtain ⟨⟨s,outputs⟩,ran,shape⟩ := map_ok.mp view
  exact ⟨s,outputs,completed,ran,shape,callbacks_held oneHandler _ completed ran⟩

-- The handler answers after more than five seconds.
def late : List Event := request++[.onTimer 5000,.respond 0 (.write [120] false 0) 6000,.respond 0 (.completed 0 0) 6001]

theorem late_dangling : ∃ s outputs, (machine oneHandler).run late = .ok (s,outputs) ∧
    ¬ ∀ call ∈ outputs, call.held = true := by
  have view : ((machine oneHandler).run late).map Prod.snd = .ok [⟨0,.alive,false⟩] := by decide +kernel
  obtain ⟨⟨s,outputs⟩,ran,shape⟩ := map_ok.mp view
  refine ⟨s,outputs,ran,?_⟩
  intro held
  have dangling := held ⟨0,.alive,false⟩ (by rw [show outputs = _ from shape]; exact List.mem_singleton.mpr rfl)
  cases dangling

end CoHttpSessions
end CoStream
