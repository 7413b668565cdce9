import CoStream.Foundation.Ledger

namespace CoStream.CoTcpServer
open Foundation

inductive ConnectStatus where
  | pending | success | failed
deriving DecidableEq,Repr

-- `κ` names connections and `π` promises, one for each co_await. The listening
-- handle is libuv's: the kernel's backlog, `accepted_fd`, and whether the loop
-- watches the socket. `awaiters_` is the queue of the server itself.
structure Server (κ π : Type) where
  backlog : List κ := []
  acceptedFd : Option κ := none
  watching : Bool := true
  awaiters : List π := []
deriving DecidableEq,Repr

-- What becomes of a connection or of a promise. `unopened` is a connection
-- object whose uv_accept answered UV_EAGAIN, `stopped` a connection that libuv
-- took and nobody fetched, `shed` one that libuv closed for want of descriptors.
inductive Fate (κ π : Type) where
  | accepted (promise : π) (conn : κ) (status : ConnectStatus)
  | unopened (promise : π) (status : ConnectStatus)
  | stopped (conn : κ)
  | shed (conn : κ)
deriving DecidableEq,Repr

-- The answer of accept(2) to libuv: the oldest connection, or a failure, before
-- which the trick for UV_EMFILE may have closed some.
inductive Accepting where
  | taken
  | failed (shed : Nat)
deriving DecidableEq,Repr

variable {κ π : Type}

def uvAccept (s : Server κ π) : Server κ π × Option κ :=
  match s.acceptedFd with
  | none => (s,none)
  | some conn => ({s with acceptedFd:=none,watching:=true},some conn)

-- AcceptConnection resumes the coroutine, whose await_resume fetches the
-- connection.
def acceptConnection (s : Server κ π) (promise : π) (status : Int) : Server κ π × List (Fate κ π) :=
  let current := if status = 0 then ConnectStatus.success else ConnectStatus.failed
  match uvAccept s with
  | (served,some conn) => (served,[.accepted promise conn current])
  | (served,none) => (served,[.unopened promise current])

def addAwaiter (s : Server κ π) (promise : π) : Server κ π := {s with awaiters:=s.awaiters++[promise]}

-- `again` are the promises that the resumed coroutine awaits before it gives
-- control back to the callback.
def onConnection (s : Server κ π) (status : Int) (again : List π) : Server κ π × List (Fate κ π) :=
  match s.awaiters with
  | [] => (s,[])
  | promise::rest =>
    let (served,fates) := acceptConnection {s with awaiters:=rest} promise status
    (again.foldl addAwaiter served,fates)

-- uv__server_io. An empty backlog is UV_EAGAIN.
def serverIo (s : Server κ π) (outcome : Accepting) (again : List π) : Server κ π × List (Fate κ π) :=
  match outcome,s.backlog with
  | .failed shed,_ => ({s with backlog:=s.backlog.drop shed},(s.backlog.take shed).map .shed)
  | .taken,[] => (s,[])
  | .taken,conn::rest =>
    let (served,fates) := onConnection {s with backlog:=rest,acceptedFd:=some conn} 0 again
    match served.acceptedFd with
    | none => (served,fates)
    | some left => ({served with watching:=false},fates++[.stopped left])

inductive Event (κ π : Type) where
  | arrived (conn : κ)
  | coAccept (promise : π)
  | readable (outcome : Accepting) (again : List π)
deriving DecidableEq,Repr

inductive Disabled where
  | notWatched
  | nobodyResumed
deriving DecidableEq,Repr

def resumes (s : Server κ π) : Accepting → Bool
  | .taken => !s.backlog.isEmpty && !s.awaiters.isEmpty
  | .failed _ => false

def step (s : Server κ π) : Event κ π → Except Disabled (Server κ π × List (Fate κ π))
  | .arrived conn => .ok ({s with backlog:=s.backlog++[conn]},[])
  | .coAccept promise => .ok (addAwaiter s promise,[])
  | .readable outcome again =>
    if !s.watching then .error .notWatched
    else if again.isEmpty || resumes s outcome then .ok (serverIo s outcome again)
    else .error .nobodyResumed

def machine : Machine (Server κ π) (Event κ π) (Fate κ π) Disabled := ⟨{},step⟩

def Event.arrivals : Event κ π → List κ
  | .arrived conn => [conn]
  | .coAccept _ => []
  | .readable _ _ => []
def Event.awaits : Event κ π → List π
  | .arrived _ => []
  | .coAccept promise => [promise]
  | .readable _ again => again
def Fate.conns : Fate κ π → List κ
  | .accepted _ conn _ => [conn]
  | .unopened _ _ => []
  | .stopped conn => [conn]
  | .shed conn => [conn]
def Fate.promises : Fate κ π → List π
  | .accepted promise _ _ => [promise]
  | .unopened promise _ => [promise]
  | .stopped _ => []
  | .shed _ => []
def Fate.handed : Fate κ π → List (π × κ × ConnectStatus)
  | .accepted promise conn status => [(promise,conn,status)]
  | .unopened _ _ => []
  | .stopped _ => []
  | .shed _ => []

@[simp] theorem addAwaiter_awaiters (s : Server κ π) (promise : π) :
    (addAwaiter s promise).awaiters = s.awaiters++[promise] := rfl

theorem addAwaiters (s : Server κ π) (again : List π) :
    again.foldl addAwaiter s = {s with awaiters:=s.awaiters++again} := by
  induction again generalizing s with
  | nil => simp
  | cons promise rest ih => simp [ih,addAwaiter]

-- Everything one turn of the loop can do with the listening socket.
inductive Turned (s : Server κ π) (outcome : Accepting) (again : List π) : Server κ π → List (Fate κ π) → Prop where
  | dropped (shed : Nat) (quiet : outcome = .taken → s.backlog = []) (nobody : again = []) :
      Turned s outcome again {s with backlog:=s.backlog.drop shed} ((s.backlog.take shed).map .shed)
  | handed (conn : κ) (rest : List κ) (promise : π) (waiting : List π) (queued : s.backlog = conn::rest)
      (front : s.awaiters = promise::waiting) :
      Turned s outcome again ⟨rest,none,true,waiting++again⟩ [.accepted promise conn .success]
  | stopped (conn : κ) (rest : List κ) (taken : outcome = .taken) (queued : s.backlog = conn::rest) (nobody : again = [])
      (alone : s.awaiters = []) :
      Turned s outcome again ⟨rest,some conn,false,[]⟩ [.stopped conn]

theorem readable_served (stepped : step s (.readable outcome again) = .ok (next,emitted)) :
    s.watching = true ∧ (again = [] ∨ resumes s outcome = true) ∧ serverIo s outcome again = (next,emitted) := by
  simp only [step] at stepped
  split at stepped
  · cases stepped
  · rename_i watched
    split at stepped
    · rename_i allowed
      rw [Bool.or_eq_true,List.isEmpty_iff] at allowed
      exact ⟨by simpa using watched,allowed,Except.ok.inj stepped⟩
    · cases stepped

theorem readable_turned (stepped : step s (.readable outcome again) = .ok (next,emitted)) :
    s.watching = true ∧ Turned s outcome again next emitted := by
  obtain ⟨watched,allowed,served⟩ := readable_served stepped
  refine ⟨watched,?_⟩
  cases outcome with
  | failed shed =>
    rcases allowed with nobody | resumed
    · cases served
      exact .dropped shed (fun never => nomatch never) nobody
    · cases resumed
  | taken =>
    rcases queued : s.backlog with _ | ⟨conn,rest⟩
    · rcases allowed with nobody | resumed
      · have same : serverIo s .taken again = (s,[]) := by simp only [serverIo,queued]
        cases same.symm.trans served
        exact .dropped 0 (fun _ => queued) nobody
      · simp [resumes,queued] at resumed
    · rcases front : s.awaiters with _ | ⟨promise,waiting⟩
      · rcases allowed with nobody | resumed
        · simp only [serverIo,queued,onConnection,front] at served
          cases served
          exact .stopped conn rest rfl queued nobody front
        · simp [resumes,front] at resumed
      · simp only [serverIo,queued,onConnection,front,acceptConnection,uvAccept,addAwaiters] at served
        cases served
        exact .handed conn rest promise waiting queued front

-- libuv takes a connection only while it holds none.
def Sound (s : Server κ π) : Prop := s.acceptedFd = none ↔ s.watching = true

theorem step_sound (s : Server κ π) (event : Event κ π) (next : Server κ π) (emitted : List (Fate κ π)) (sound : Sound s)
    (stepped : step s event = .ok (next,emitted)) : Sound next := by
  cases event with
  | arrived conn =>
    cases stepped
    exact sound
  | coAccept promise =>
    cases stepped
    exact sound
  | readable outcome again =>
    obtain ⟨watched,turned⟩ := readable_turned stepped
    cases turned with
    | dropped shed quiet nobody => exact sound
    | handed conn rest promise waiting queued front => exact iff_of_true rfl rfl
    | stopped conn rest taken queued nobody alone => exact iff_of_false (fun never => nomatch never) (fun never => nomatch never)

theorem shed_conns (conns : List κ) : (conns.map (Fate.shed (π:=π))).flatMap Fate.conns = conns := by
  induction conns with
  | nil => rfl
  | cons conn rest ih => simp [Fate.conns,ih]

theorem shed_promises (conns : List κ) : (conns.map (Fate.shed (π:=π))).flatMap Fate.promises = [] := by
  induction conns with
  | nil => rfl
  | cons conn rest ih => simp [Fate.promises]

theorem step_conns (stepped : step s event = .ok (next,emitted)) :
    emitted.flatMap Fate.conns++next.backlog = s.backlog++event.arrivals := by
  cases event with
  | arrived conn =>
    cases stepped
    rfl
  | coAccept promise =>
    cases stepped
    simp [addAwaiter,Event.arrivals]
  | readable outcome again =>
    obtain ⟨-,turned⟩ := readable_turned stepped
    cases turned with
    | dropped shed quiet nobody =>
      rw [shed_conns,Event.arrivals,List.append_nil]
      exact List.take_append_drop shed s.backlog
    | handed conn rest promise waiting queued front => simp [Fate.conns,Event.arrivals,queued]
    | stopped conn rest taken queued nobody alone => simp [Fate.conns,Event.arrivals,queued]

theorem step_promises (stepped : step s event = .ok (next,emitted)) :
    emitted.flatMap Fate.promises++next.awaiters = s.awaiters++event.awaits := by
  cases event with
  | arrived conn =>
    cases stepped
    simp [Event.awaits]
  | coAccept promise =>
    cases stepped
    rfl
  | readable outcome again =>
    obtain ⟨-,turned⟩ := readable_turned stepped
    cases turned with
    | dropped shed quiet nobody =>
      rw [shed_promises,Event.awaits,nobody,List.append_nil]
      rfl
    | handed conn rest promise waiting queued front => simp [Fate.promises,Event.awaits,front]
    | stopped conn rest taken queued nobody alone => simp [Fate.promises,Event.awaits,nobody,alone]

-- A promise that is resumed gets an open connection, and its status is success.
def Fate.Proper : Fate κ π → Prop
  | .accepted _ _ status => status = .success
  | .unopened _ _ => False
  | .stopped _ => True
  | .shed _ => True

theorem step_proper (stepped : step s event = .ok (next,emitted)) : ∀ fate ∈ emitted, fate.Proper := by
  cases event with
  | arrived conn =>
    cases stepped
    simp
  | coAccept promise =>
    cases stepped
    simp
  | readable outcome again =>
    obtain ⟨-,turned⟩ := readable_turned stepped
    cases turned with
    | dropped shed quiet nobody =>
      intro fate among
      obtain ⟨conn,-,rfl⟩ := List.mem_map.mp among
      trivial
    | handed conn rest promise waiting queued front => simp [Fate.Proper]
    | stopped conn rest taken queued nobody alone => simp [Fate.Proper]

-- Connections and promises go through the server in the order in which they
-- came, each once, so the oldest connection meets the oldest promise.
theorem connections_meet_promises (ran : (machine (κ:=κ) (π:=π)).run events = .ok (s,outputs)) :
    outputs.flatMap Fate.conns++s.backlog = events.flatMap Event.arrivals ∧
      outputs.flatMap Fate.promises++s.awaiters = events.flatMap Event.awaits ∧
      (∀ fate ∈ outputs, fate.Proper) ∧ Sound s := by
  have conns := machine.conserves Event.arrivals Server.backlog Fate.conns Sound
    (fun s event next emitted sound stepped => ⟨step_sound s event next emitted sound stepped,step_conns stepped⟩)
    (iff_of_true rfl rfl) ran
  have promises := machine.conserves Event.awaits Server.awaiters Fate.promises Sound
    (fun s event next emitted sound stepped => ⟨step_sound s event next emitted sound stepped,step_promises stepped⟩)
    (iff_of_true rfl rfl) ran
  refine ⟨conns.2,promises.2,?_,conns.1⟩
  refine machine.history (fun _ outputs _ => ∀ fate ∈ outputs, fate.Proper) (by simp) ?_ ran
  intro events outputs s event next emitted proper stepped fate among
  rcases List.mem_append.mp among with earlier | now
  · exact proper fate earlier
  · exact step_proper stepped fate now

-- Two coroutines, three connections, one of them still in the backlog.
def twoCoroutines : List (Event Nat Nat) :=
  [.coAccept 0,.arrived 7,.coAccept 1,.arrived 8,.readable .taken [2],.arrived 9,.readable .taken []]

theorem pairs_meet : ∃ s outputs, machine.run twoCoroutines = .ok (s,outputs) ∧
    outputs.flatMap Fate.conns++s.backlog = [7,8,9] ∧ outputs.flatMap Fate.promises++s.awaiters = [0,1,2] ∧
    (∀ fate ∈ outputs, fate.Proper) ∧ Sound s := by
  have ran : machine.run twoCoroutines = .ok (⟨[9],none,true,[2]⟩,[.accepted 0 7 .success,.accepted 1 8 .success]) := rfl
  exact ⟨_,_,ran,connections_meet_promises ran⟩

-- A connection is fetched only where a coroutine waits for one.
def Attended (s : Server κ π) : Event κ π → Prop
  | .arrived _ => True
  | .coAccept _ => True
  | .readable outcome _ => outcome = .taken → s.backlog = [] ∨ s.awaiters ≠ []

theorem step_watching (watched : s.watching = true) (stepped : step s event = .ok (next,emitted)) :
    next.watching = true ↔ Attended s event := by
  cases event with
  | arrived conn =>
    cases stepped
    exact iff_of_true watched trivial
  | coAccept promise =>
    cases stepped
    exact iff_of_true watched trivial
  | readable outcome again =>
    obtain ⟨-,turned⟩ := readable_turned stepped
    cases turned with
    | dropped shed quiet nobody => exact iff_of_true watched (fun taken => .inl (quiet taken))
    | handed conn rest promise waiting queued front => exact iff_of_true rfl (fun _ => .inr (by simp [front]))
    | stopped conn rest taken queued nobody alone => simp [Attended,taken,queued,alone]

theorem step_stopped (event : Event κ π) (stopped : s.watching = false) (stepped : step s event = .ok (next,emitted)) :
    next.watching = false ∧ emitted = [] := by
  cases event with
  | arrived conn =>
    cases stepped
    exact ⟨stopped,rfl⟩
  | coAccept promise =>
    cases stepped
    exact ⟨stopped,rfl⟩
  | readable outcome again =>
    have watched := (readable_served stepped).1
    rw [stopped] at watched
    cases watched

theorem stopped_stays (stopped : s.watching = false)
    (ran : (machine (κ:=κ) (π:=π)).runFrom s after = .ok (final,later)) : final.watching = false ∧ later = [] :=
  machine.silent (fun s => s.watching = false) (fun _ event _ _ => step_stopped event) stopped ran

theorem watching_iff_attended (ran : (machine (κ:=κ) (π:=π)).run events = .ok (s,outputs)) :
    s.watching = true ↔ machine.Guarded (fun _ => Attended) events := by
  refine (machine.whole_iff_guarded (fun _ _ => True) (fun _ s => s.watching = true) trivial rfl ?_ ran).2
  intro outputs s event next emitted _ stepped
  refine ⟨trivial,?_⟩
  cases watched : s.watching with
  | true => simpa using step_watching watched stepped
  | false => simp [(step_stopped event watched stepped).1]

-- A connection that is taken while nobody waits stops the server for good:
-- a later co_await joins the queue, and neither it nor any connection is ever
-- served. Short of that the socket stays watched.
theorem unattended_connection_stops (ran : (machine (κ:=κ) (π:=π)).run events = .ok (s,outputs)) :
    (s.watching = true ↔ machine.Guarded (fun _ => Attended) events) ∧
      (¬ machine.Guarded (fun _ => Attended) events → ∀ after final later,
        machine.runFrom s after = .ok (final,later) → later = [] ∧ final.watching = false ∧
          final.backlog = s.backlog++after.flatMap Event.arrivals ∧
          final.awaiters = s.awaiters++after.flatMap Event.awaits) := by
  refine ⟨watching_iff_attended ran,?_⟩
  intro unattended after final later continued
  have stopped : s.watching = false := by
    apply eq_false_of_ne_true
    intro watched
    exact unattended ((watching_iff_attended ran).mp watched)
  obtain ⟨ended,rfl⟩ := stopped_stays stopped continued
  have whole := connections_meet_promises (machine.runFrom_append.mpr ⟨s,outputs,[],ran,continued,rfl⟩)
  have part := connections_meet_promises ran
  rw [List.append_nil,List.flatMap_append] at whole
  refine ⟨rfl,ended,?_,?_⟩
  · have both := whole.1
    rw [← part.1,List.append_assoc] at both
    exact List.append_cancel_left both
  · have both := whole.2.1
    rw [List.flatMap_append,← part.2.1,List.append_assoc] at both
    exact List.append_cancel_left both

-- The one connection comes before the first co_await.
def early : List (Event Nat Nat) := [.arrived 7,.readable .taken [],.coAccept 0]

theorem early_stops : ∃ s outputs, machine.run early = .ok (s,outputs) ∧ ¬ machine.Guarded (fun _ => Attended) early ∧
    ∀ after final later, machine.runFrom s after = .ok (final,later) → later = [] ∧ final.watching = false ∧
      final.backlog = s.backlog++after.flatMap Event.arrivals ∧ final.awaiters = s.awaiters++after.flatMap Event.awaits := by
  have ran : machine.run early = .ok (⟨[],some 7,false,[0]⟩,[.stopped 7]) := rfl
  have unattended : ¬ machine.Guarded (fun _ => Attended) early := by
    intro attended
    cases (unattended_connection_stops ran).1.mpr attended
  exact ⟨_,_,ran,unattended,(unattended_connection_stops ran).2 unattended⟩

end CoStream.CoTcpServer
