import CoStream.HttpRoundTrip

namespace CoStream
open Foundation
namespace HttpSession

-- What a run shows of its header blocks: AnalyzeHeader accepts one, a handler is
-- called.
inductive Mark where
  | parsed
  | called
deriving DecidableEq,Repr

-- The request of the header block that the event completes.
def parsing (s : HttpSession) : Event → Option HttpRequest
  | .read retCode data =>
    if s.isClosed || s.headerIsReady || retCode ≠ 0 then none
    else
      match analyzeHeader {s with headerData:=s.headerData++data,continueFlag:=true} with
      | .error _ => none
      | .ok (analyzed,ret) => if ret = 0 && analyzed.headerIsReady then some analyzed.request else none
  | _ => none

def called (outputs : List Output) : List Mark := (calls outputs).map fun _ => .called
def marks (s : HttpSession) (event : Event) (outputs : List Output) : List Mark :=
  (s.parsing event).toList.map (fun _ => .parsed)++called outputs

def observed (server : Handlers HttpHandle) : Machine HttpSession Event Mark Exn := (machine server).observe marks

-- Between two calls a header block was parsed.
def AtMostOnce (seen : List Mark) : Prop :=
  ∀ before between after, seen = before++.called::(between++.called::after) → .parsed ∈ between

-- HandleRequest finds a handler to call, once the header is ready.
def Dispatches (server : Handlers HttpHandle) (s : HttpSession) : Prop :=
  s.request.method ≠ ascii "OPTIONS" ∧
  (s.request.method = ascii "GET" ∨ toInt s.contentData.length ≥ s.request.contentLength) ∧
  (HttpServer.getHandle server s.request).2 ≠ none

-- A read behind the call for a header block finds no handler to call.
def Alone (server : Handlers HttpHandle) (seen : List Mark) (s : HttpSession) (event : Event) : Prop :=
  seen.getLast? = some .called → s.isClosed = false → ∀ data, event = .read 0 data →
    ¬ Dispatches server {s with contentData:=s.contentData++data}

-- The other side says nothing behind the call until the session is closed.
def Silent (seen : List Mark) (s : HttpSession) (event : Event) : Prop :=
  seen.getLast? = some .called → s.isClosed = false → ∀ data, event ≠ .read 0 data

-- The header block is still the same one.
def SameBlock (next s : HttpSession) : Prop :=
  next.headerIsReady = s.headerIsReady ∧ next.request.method = s.request.method

theorem SameBlock.trans (second : SameBlock last next) (first : SameBlock next s) : SameBlock last s :=
  ⟨second.1.trans first.1,second.2.trans first.2⟩

-- And all that was read from it.
def Untouched (next s : HttpSession) : Prop := next.headerIsReady = s.headerIsReady ∧ next.request = s.request

theorem Untouched.trans (second : Untouched last next) (first : Untouched next s) : Untouched last s :=
  ⟨second.1.trans first.1,second.2.trans first.2⟩

theorem Untouched.block (untouched : Untouched next s) : SameBlock next s := ⟨untouched.1,by rw [untouched.2]⟩

theorem close_untouched (s : HttpSession) : Untouched s.close.1 s := by
  unfold close
  split <;> exact ⟨rfl,rfl⟩

theorem respond_untouched (s : HttpSession) (call : ResponseCall) : Untouched (s.respond call).1 s := by
  unfold respond
  split
  · exact ⟨rfl,rfl⟩
  · exact ⟨rfl,rfl⟩
  · exact ⟨rfl,rfl⟩
  · exact ⟨rfl,rfl⟩
  · exact ⟨rfl,rfl⟩
  · split
    · exact ⟨rfl,rfl⟩
    · exact (close_untouched _).trans ⟨rfl,rfl⟩

theorem respondAll_untouched (given : List ResponseCall) (s : HttpSession) : Untouched (s.respondAll given).1 s := by
  induction given generalizing s with
  | nil => exact ⟨rfl,rfl⟩
  | cons call rest ih => exact (ih _).trans (respond_untouched s call)

theorem close_closed (s : HttpSession) : s.close.1.isClosed = true := by
  unfold close
  split
  · assumption
  · rfl

theorem respond_closed {s : HttpSession} (closed : s.isClosed = true) (call : ResponseCall) : (s.respond call).1.isClosed = true := by
  unfold respond
  split
  · exact closed
  · exact closed
  · exact closed
  · exact closed
  · exact closed
  · split
    · exact closed
    · exact close_closed _

theorem respondAll_closed (given : List ResponseCall) {s : HttpSession} (closed : s.isClosed = true) :
    (s.respondAll given).1.isClosed = true := by
  induction given generalizing s with
  | nil => exact closed
  | cons call rest ih => exact ih (respond_closed closed call)

theorem settle_untouched (handled : HttpSession × List Output × Int) : Untouched (settle handled).1 handled.1 := by
  unfold settle
  split
  · exact close_untouched _
  · exact ⟨rfl,rfl⟩

theorem callHandle_untouched (s : HttpSession) (handler : HttpHandle) : Untouched (settle (s.callHandle handler)).1 s :=
  (settle_untouched _).trans (respondAll_untouched (handler s.request) s)

theorem settle_silent (s : HttpSession) (outputs : List Output) (quiet : calls outputs = []) (ret : Int) :
    calls (settle (s,outputs,ret)).2 = [] := by
  unfold settle
  dsimp only
  split
  · rw [calls_append,quiet,close_silent]
    rfl
  · rw [calls_append,quiet]
    split <;> rfl

variable {server : Handlers HttpHandle} {s : HttpSession}

def posted (s : HttpSession) : HttpSession :=
  {s with request:={HttpServer.route s.request with content:=s.contentData},response:=some (s.response.getD {})}

theorem dispatch_posted (method : s.request.method ≠ ascii "OPTIONS") (other : s.request.method ≠ ascii "GET")
    (whole : toInt s.contentData.length ≥ s.request.contentLength)
    (registered : (HttpServer.getHandle server s.request).2 = some handler) :
    dispatch server s = callHandle s.posted handler := by
  unfold dispatch
  rw [if_neg method]
  dsimp only
  rw [if_neg other,if_pos whole,registered]
  rfl

theorem dispatch_calls (dispatches : Dispatches server s) :
    called (settle (dispatch server s)).2 = [.called] ∧ SameBlock (settle (dispatch server s)).1 s := by
  obtain ⟨method,asks,registered⟩ := dispatches
  obtain ⟨handler,registered⟩ := Option.ne_none_iff_exists'.mp registered
  by_cases get : s.request.method = ascii "GET"
  · rw [dispatch_get server s get registered]
    exact ⟨by rw [called,callHandle_once]; rfl,(callHandle_untouched _ _).block.trans ⟨rfl,rfl⟩⟩
  · have whole := asks.resolve_left get
    rw [dispatch_posted method get whole registered]
    exact ⟨by rw [called,callHandle_once]; rfl,(callHandle_untouched _ _).block.trans ⟨rfl,rfl⟩⟩

theorem answerOptions_silent (s : HttpSession) : calls (settle s.answerOptions).2 = [] :=
  settle_silent _ _ (respondAll_silent _ _) _

theorem dispatch_refused (method : s.request.method ≠ ascii "OPTIONS")
    (asks : s.request.method = ascii "GET" ∨ toInt s.contentData.length ≥ s.request.contentLength)
    (missing : (HttpServer.getHandle server s.request).2 = none) :
    dispatch server s = ({s with request:=HttpServer.route s.request},[],-1) := by
  unfold dispatch
  rw [if_neg method]
  dsimp only
  by_cases get : s.request.method = ascii "GET"
  · rw [if_pos get,missing]
    rfl
  · rw [if_neg get,if_pos (asks.resolve_left get),missing]
    rfl

theorem dispatch_waits (method : s.request.method ≠ ascii "OPTIONS")
    (waits : ¬ (s.request.method = ascii "GET" ∨ toInt s.contentData.length ≥ s.request.contentLength)) :
    dispatch server s = (s,[],0) := by
  obtain ⟨other,part⟩ := not_or.mp waits
  unfold dispatch
  rw [if_neg method]
  dsimp only
  rw [if_neg other,if_neg part]

theorem dispatch_silent (silent : ¬ Dispatches server s) :
    called (settle (dispatch server s)).2 = [] ∧
      (s.request.method ≠ ascii "OPTIONS" → SameBlock (settle (dispatch server s)).1 s) := by
  by_cases method : s.request.method = ascii "OPTIONS"
  · have answered : dispatch server s = s.answerOptions := if_pos method
    rw [answered,called,answerOptions_silent]
    exact ⟨rfl,fun other => absurd method other⟩
  · by_cases asks : s.request.method = ascii "GET" ∨ toInt s.contentData.length ≥ s.request.contentLength
    · rw [dispatch_refused method asks (not_not.mp fun registered => silent ⟨method,asks,registered⟩)]
      exact ⟨by rw [called,settle_silent _ _ rfl]; rfl,fun _ => (settle_untouched _).block.trans ⟨rfl,rfl⟩⟩
    · rw [dispatch_waits method asks]
      exact ⟨by rw [called,settle_silent _ _ rfl]; rfl,fun _ => (settle_untouched _).block⟩

theorem finishWrite_untouched (s : HttpSession) (sentSize : Nat) :
    calls (s.finishWrite sentSize).2 = [] ∧ Untouched (s.finishWrite sentSize).1 s := by
  unfold finishWrite
  split
  · exact ⟨rfl,rfl,rfl⟩
  · dsimp only
    split
    · exact ⟨rfl,rfl,rfl⟩
    · exact ⟨close_silent _,(close_untouched _).trans ⟨rfl,rfl⟩⟩

theorem onWrite_untouched (s : HttpSession) (retCode : Int) (sentSize : Nat) :
    calls (s.onWrite retCode sentSize).2 = [] ∧ Untouched (s.onWrite retCode sentSize).1 s := by
  have finished := fun (s : HttpSession) => finishWrite_untouched s sentSize
  unfold onWrite
  dsimp only
  rw [calls_append,(finished _).1]
  split
  · exact ⟨by rw [close_silent]; rfl,(finished _).2.trans (close_untouched s)⟩
  · exact ⟨rfl,(finished _).2⟩

theorem parsing_skips (skips : s.isClosed = true ∨ s.headerIsReady = true) (event : Event) : s.parsing event = none := by
  unfold parsing
  split
  · rw [if_pos (by rcases skips with closed | ready <;> simp [*])]
  · rfl

theorem parsing_failed (failed : retCode ≠ 0) (data : Bytes) : s.parsing (.read retCode data) = none := by
  unfold parsing
  dsimp only
  rw [if_pos (by simp [failed])]

-- Everything but a read on an open session leaves the header block alone.
theorem step_other (other : s.isClosed = true ∨ ∀ data, event ≠ .read 0 data)
    (stepped : step server s event = .ok (next,outputs)) : s.marks event outputs = [] ∧ SameBlock next s := by
  unfold step at stepped
  by_cases closed : s.isClosed = true
  · rw [if_pos closed] at stepped
    cases stepped
    rw [marks,parsing_skips (.inl closed)]
    exact ⟨rfl,rfl,rfl⟩
  · rw [if_neg closed] at stepped
    have notRead := other.resolve_left closed
    cases event with
    | read retCode data =>
      have failed : retCode ≠ 0 := by
        rintro rfl
        exact notRead data rfl
      dsimp only at stepped
      rw [onRead,if_pos failed] at stepped
      obtain ⟨rfl,rfl⟩ := ok_pair stepped
      rw [marks,parsing_failed failed,called,close_silent]
      exact ⟨rfl,(close_untouched s).block⟩
    | written retCode sentSize =>
      obtain ⟨rfl,rfl⟩ := ok_pair stepped
      exact ⟨by rw [marks,called,(onWrite_untouched s retCode sentSize).1]; rfl,(onWrite_untouched s retCode sentSize).2.block⟩
    | respond call =>
      obtain ⟨rfl,rfl⟩ := ok_pair stepped
      exact ⟨by rw [marks,called,respond_silent]; rfl,(respond_untouched s call).block⟩

theorem step_ready (isOpen : s.isClosed = false) (ready : s.headerIsReady = true)
    (stepped : step server s (.read 0 data) = .ok (next,outputs)) :
    s.marks (.read 0 data) outputs = called (settle (dispatch server {s with contentData:=s.contentData++data,continueFlag:=true})).2 ∧
      next = (settle (dispatch server {s with contentData:=s.contentData++data,continueFlag:=true})).1 := by
  obtain ⟨rfl,rfl⟩ := Prod.mk.inj (Except.ok.inj ((step_body server s data isOpen ready).symm.trans stepped))
  rw [marks,parsing_skips (.inr ready)]
  exact ⟨rfl,rfl⟩

-- A header block that has come in as a whole is dispatched by the same read.
theorem step_unready (isOpen : s.isClosed = false) (waiting : s.headerIsReady = false)
    (stepped : step server s (.read 0 data) = .ok (next,outputs)) : s.marks (.read 0 data) outputs = [] ∨
      ∃ analyzed : HttpSession, analyzed.headerIsReady = true ∧
        s.marks (.read 0 data) outputs = .parsed::called (settle (dispatch server analyzed)).2 ∧
        next = (settle (dispatch server analyzed)).1 := by
  unfold step at stepped
  rw [if_neg (by simp [isOpen])] at stepped
  dsimp only at stepped
  rw [onRead,if_neg (by decide)] at stepped
  obtain ⟨handled,first,settled⟩ := bind_ok.mp stepped
  unfold handleRequest at first
  rw [if_neg (by simp [waiting])] at first
  obtain ⟨⟨analyzed,ret⟩,read,second⟩ := bind_ok.mp first
  have parsed : s.parsing (.read 0 data) =
      if decide (ret = 0) && analyzed.headerIsReady then some analyzed.request else none := by
    unfold parsing
    dsimp only
    rw [if_neg (by simp [isOpen,waiting]),read]
  dsimp only at second
  unfold marks
  rw [parsed]
  by_cases refused : ret ≠ 0
  · left
    rw [if_pos refused] at second
    cases second
    obtain ⟨-,rfl⟩ := ok_pair settled
    rw [called,settle_silent _ _ rfl,decide_eq_false refused]
    rfl
  · rw [if_neg refused] at second
    have accepted : ret = 0 := not_not.mp refused
    by_cases ready : analyzed.headerIsReady = true
    · right
      rw [if_neg (by simp [ready])] at second
      cases second
      obtain ⟨rfl,rfl⟩ := ok_pair settled
      refine ⟨_,?_,?_,rfl⟩
      · exact ready
      · rw [accepted,ready]
        rfl
    · left
      rw [if_pos (by simpa using ready)] at second
      cases second
      obtain ⟨-,rfl⟩ := ok_pair settled
      rw [called,settle_silent _ _ rfl]
      simp [ready]

theorem atMostOnce_snoc : AtMostOnce (seen++[mark]) ↔
    AtMostOnce seen ∧ (mark = .called → ∀ before between, seen = before++.called::between → .parsed ∈ between) := by
  constructor
  · intro once
    constructor
    · rintro before between after rfl
      exact once before between (after++[mark]) (by simp)
    · rintro rfl before between rfl
      exact once before between [] (by simp)
  · rintro ⟨once,fresh⟩ before between after shape
    rcases List.eq_nil_or_concat after with rfl | ⟨rest,final,rfl⟩
    · have ends : seen++[mark] = (before++.called::between)++[.called] := by rw [shape]; simp
      obtain ⟨same,last⟩ := List.append_inj' ends rfl
      exact fresh (List.cons.inj last).1 before between same
    · have ends : seen++[mark] = (before++.called::(between++.called::rest))++[final] := by rw [shape]; simp
      exact once before between rest (List.append_inj' ends rfl).1

theorem AtMostOnce.parse (once : AtMostOnce seen) : AtMostOnce (seen++[.parsed]) :=
  atMostOnce_snoc.mpr ⟨once,nofun⟩

theorem AtMostOnce.call (once : AtMostOnce seen) (last : seen.getLast? ≠ some .called) : AtMostOnce (seen++[.called]) := by
  refine atMostOnce_snoc.mpr ⟨once,fun _ before between shape => ?_⟩
  rcases List.eq_nil_or_concat between with rfl | ⟨rest,final,rfl⟩
  · exact absurd (by simp [shape]) last
  · cases final with
    | parsed => simp
    | called =>
      rw [shape,List.concat_eq_append,← List.cons_append,← List.append_assoc,List.getLast?_concat] at last
      exact absurd rfl last

theorem AtMostOnce.again (last : seen.getLast? = some .called) : ¬ AtMostOnce (seen++[.called]) := by
  intro once
  obtain ⟨before,rfl⟩ := List.getLast?_eq_some_iff.mp last
  exact List.not_mem_nil ((atMostOnce_snoc.mp once).2 rfl before [] rfl)

-- The ready header of a called handler stays: no OPTIONS comes in its place.
def Tracked (seen : List Mark) (s : HttpSession) : Prop :=
  AtMostOnce seen ∧ (seen.getLast? = some .called → s.headerIsReady = true ∧ s.request.method ≠ ascii "OPTIONS")

theorem Tracked.stays (tracked : Tracked seen s) (same : SameBlock next s) : Tracked (seen++[]) next := by
  rw [List.append_nil,Tracked,same.1,same.2]
  exact tracked

theorem tracked_read (tracked : Tracked seen s) (alone : Alone server seen s (.read 0 data)) (isOpen : s.isClosed = false)
    (stepped : step server s (.read 0 data) = .ok (next,outputs)) :
    Tracked (seen++s.marks (.read 0 data) outputs) next := by
  obtain ⟨once,behind⟩ := tracked
  by_cases ready : s.headerIsReady = true
  · obtain ⟨emitted,rfl⟩ := step_ready isOpen ready stepped
    rw [emitted]
    by_cases dispatches : Dispatches server {s with contentData:=s.contentData++data,continueFlag:=true}
    · have first : seen.getLast? ≠ some .called := fun last => alone last isOpen data rfl dispatches
      obtain ⟨calls,same⟩ := dispatch_calls dispatches
      rw [calls]
      exact ⟨once.call first,fun _ => ⟨same.1.trans ready,by rw [same.2]; exact dispatches.1⟩⟩
    · obtain ⟨silent,same⟩ := dispatch_silent dispatches
      rw [silent,List.append_nil]
      refine ⟨once,fun last => ?_⟩
      have method := (behind last).2
      exact ⟨(same method).1.trans ready,by rw [(same method).2]; exact method⟩
  · have first : seen.getLast? ≠ some .called := fun last => ready (behind last).1
    rcases step_unready isOpen (by simpa using ready) stepped with nothing | ⟨analyzed,complete,emitted,rfl⟩
    · rw [nothing,List.append_nil]
      exact ⟨once,fun last => absurd last first⟩
    · rw [emitted,List.append_cons]
      by_cases dispatches : Dispatches server analyzed
      · obtain ⟨calls,same⟩ := dispatch_calls dispatches
        rw [calls]
        exact ⟨once.parse.call (by simp),fun _ => ⟨same.1.trans complete,by rw [same.2]; exact dispatches.1⟩⟩
      · rw [(dispatch_silent dispatches).1,List.append_nil]
        exact ⟨once.parse,by simp⟩

theorem once_alone (server : Handlers HttpHandle) (events : List Event) :
    (observed server).Throughout (fun _ seen _ => AtMostOnce seen) events ↔
      (observed server).Guarded (Alone server) events := by
  apply Machine.throughout_iff _ (fun _ => True) (Alone server) (fun _ => Tracked) (fun _ seen _ => AtMostOnce seen)
  · exact fun _ _ _ => trivial
  · exact ⟨fun before between after shape => absurd shape (by simp),nofun⟩
  · intro events seen s event next noted _ tracked alone observedStep
    obtain ⟨outputs,stepped,rfl⟩ := (machine server).observe_step.mp observedStep
    by_cases other : s.isClosed = true ∨ ∀ data, event ≠ .read 0 data
    · obtain ⟨silent,same⟩ := step_other other stepped
      rw [silent]
      exact tracked.stays same
    · obtain ⟨isOpen,read⟩ := not_or.mp other
      obtain ⟨data,same⟩ := not_forall.mp read
      obtain rfl := not_not.mp same
      exact tracked_read tracked alone (by simpa using isOpen) stepped
  · exact fun _ _ _ tracked => tracked.1
  · rintro events seen s event next noted - tracked observedStep once last isOpen data rfl dispatches
    obtain ⟨outputs,stepped,rfl⟩ := (machine server).observe_step.mp observedStep
    have dispatched : Dispatches server {s with contentData:=s.contentData++data,continueFlag:=true} := dispatches
    rw [(step_ready isOpen (tracked.2 last).1 stepped).1,(dispatch_calls dispatched).1] at once
    exact AtMostOnce.again last once
  · rintro events seen s event fault - tracked observedStep last isOpen data rfl -
    have defined : (observed server).step s (.read 0 data) = .ok _ :=
      map_ok.mpr ⟨_,step_body server s data isOpen (tracked.2 last).1,rfl⟩
    cases defined.symm.trans observedStep
  · trivial

-- For each header block that AnalyzeHeader accepts, a handler is called at most
-- once in exactly the runs in which no read behind the call finds one again, and
-- so wherever no read follows it.
theorem dispatched_once_exactly (server : Handlers HttpHandle) (events : List Event) :
    ((observed server).Throughout (fun _ seen _ => AtMostOnce seen) events ↔
      (observed server).Guarded (Alone server) events) ∧
    ((observed server).Guarded Silent events → (observed server).Throughout (fun _ seen _ => AtMostOnce seen) events) := by
  refine ⟨once_alone server events,fun silent => (once_alone server events).mpr ?_⟩
  intro before event after shape s seen ran last opened data reads
  exact absurd reads (silent before event after shape s seen ran last opened data)

-- An observer sees every run, and each call that is made in it.
theorem observed_calls (server : Handlers HttpHandle) (ran : (machine server).run events = .ok (s,outputs)) :
    ∃ seen, (observed server).run events = .ok (s,seen) ∧ seen.filter (· = .called) = called outputs := by
  refine (machine server).observe_run (fun seen => seen.filter (· = .called)) called rfl (fun _ _ => List.filter_append ..)
    (fun _ _ => by simp [called]) (fun s event emitted => ?_) ran
  have all : (called emitted).filter (· = .called) = called emitted := by
    rw [List.filter_eq_self]
    intro mark member
    obtain ⟨_,_,rfl⟩ := List.mem_map.mp member
    rfl
  unfold marks
  rw [List.filter_append,all]
  cases s.parsing event <;> rfl

-- A byte behind the request, while the answer is being written.
def greeter : Handlers HttpHandle := HttpServer.addGetHandle {} (ascii "/") fun _ => [.write (ascii "a") false]
def twice : List Event := [.read 0 (ascii "GET / HTTP/1.1"++blankLine),.read 0 (ascii "x")]

theorem twice_called : ¬ (observed greeter).Throughout (fun _ seen _ => AtMostOnce seen) twice := by
  intro once
  have seen : ((observed greeter).run twice).toOption.map Prod.snd = some [.parsed,.called,.called] := by decide +kernel
  cases ran : (observed greeter).run twice with
  | error fault =>
    rw [ran] at seen
    cases seen
  | ok result =>
    rw [ran] at seen
    have good := once twice [] result.1 result.2 rfl ran [.parsed] [] []
    exact List.not_mem_nil (good (Option.some.inj seen))

end HttpSession
end CoStream
