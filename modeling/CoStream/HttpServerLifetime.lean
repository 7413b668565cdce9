import CoStream.Foundation.Ledger
import CoStream.HttpAnswers
import CoStream.HttpDelivery

namespace CoStream
open Foundation

-- One accepted connection and its session: the responses that a later GET has
-- replaced (a handler may have kept them), the lengths that were given to
-- uv_write and are not completed, and how often the destructor ran.
structure HttpLink where
  endpoint : Bytes
  session : HttpSession := {}
  earlier : List HttpResponse := []
  inFlight : List Nat := []
  destructions : Nat := 0

-- What a member function made of a session, and what it wrote.
def HttpLink.after (link : HttpLink) (result : HttpSession × List HttpSession.Output) : HttpLink :=
  {link with session:=result.1,inFlight:=link.inFlight++(HttpDelivery.writes result.2).map List.length}

-- A GET whose handler was called has got a response of its own.
def HttpLink.replaced (link : HttpLink) (outputs : List HttpSession.Output) : HttpLink :=
  {link with earlier:=link.earlier++link.session.replaced outputs}

-- session_ptr_map_ holds the sessions by their number, and nothing else does.
structure HttpSessions where
  links : List HttpLink := []
  sessionPtrMap : Std.ExtTreeMap Bytes Nat := ∅

namespace HttpSessions

-- `respond` is a call on the response of a session by a handler that kept it,
-- `respondEarlier` one on a response that was replaced.
inductive Event where
  | accept (endpoint : Bytes)
  | read (id : Nat) (retCode : Int) (data : Bytes)
  | completed (id : Nat) (status : Int)
  | respond (id : Nat) (call : ResponseCall)
  | respondEarlier (id index : Nat) (call : ResponseCall)
deriving DecidableEq,Repr

inductive Stopped where
  | destroyed
  | exception
  | notReading
  | nothingInFlight
  | noResponse
deriving DecidableEq,Repr

-- The destructor closes a session that is open. The endpoint it then reports is
-- no longer in the map.
def destroy (s : HttpSessions) (id : Nat) : HttpSessions :=
  {s with links:=s.links.modify id fun link => {link with session:=link.session.close.1,destructions:=link.destructions+1}}

-- What is erased is destroyed with the last pointer to it.
def onClose (s : HttpSessions) (endpoint : Bytes) : HttpSessions :=
  match s.sessionPtrMap[endpoint]? with
  | none => s
  | some id => destroy {s with sessionPtrMap:=s.sessionPtrMap.erase endpoint} id

def isDestroyed (s : HttpSessions) (id : Nat) : Bool :=
  match s.links[id]? with
  | none => false
  | some link => link.destructions > 0

-- Close sets is_closed_ once, and then reports to the server.
def leave (s : HttpSessions) (id : Nat) (link : HttpLink) (result : HttpSession × List HttpSession.Output) : HttpSessions :=
  let s := {s with links:=s.links.set id (link.after result)}
  if result.1.isClosed && !link.session.isClosed then s.onClose link.endpoint else s

-- A new session is destroyed at the end of OnAccept when its endpoint was in the
-- map; its destructor reports that endpoint.
def accept (s : HttpSessions) (endpoint : Bytes) : HttpSessions :=
  let id := s.links.length
  match s.sessionPtrMap[endpoint]? with
  | none => {links:=s.links++[{endpoint}],sessionPtrMap:=s.sessionPtrMap.insert endpoint id}
  | some _ => destroy (leave {s with links:=s.links++[{endpoint}]} id {endpoint} (HttpSession.close {})) id

-- HandleRequest reads members behind the handler, OnRead behind HandleRequest.
def read (server : Handlers HttpHandle) (s : HttpSessions) (id : Nat) (link : HttpLink) (retCode : Int) (data : Bytes) :
    Except Stopped HttpSessions :=
  if retCode ≠ 0 then .ok (s.leave id link link.session.close)
  else
    match link.session.handleRequest server data with
    | .error _ => .error .exception
    | .ok (session,outputs,ret) =>
      let handled := s.leave id (link.replaced outputs) (session,outputs)
      if handled.isDestroyed id then .error .destroyed
      else .ok (s.leave id (link.replaced outputs) (HttpSession.settle (session,outputs,ret)))

-- TcpSession::OnWrite reads members, whether or not it calls back. Behind a
-- Close for a failed write HttpSession::OnWrite goes on.
def completed (s : HttpSessions) (id : Nat) (link : HttpLink) (sentSize : Nat) (status : Int) : Except Stopped HttpSessions :=
  if link.destructions > 0 then .error .destroyed
  else if link.session.isClosed then .ok {s with links:=s.links.set id link}
  else if status ≠ 0 ∧ (s.leave id link link.session.close).isDestroyed id then .error .destroyed
  else .ok (s.leave id link (link.session.onWrite status sentSize))

-- A closing handle reads nothing; what was in flight is completed all the same.
def step (server : Handlers HttpHandle) (s : HttpSessions) : Event → Except Stopped (HttpSessions × List Empty)
  | .accept endpoint => .ok (s.accept endpoint,[])
  | .read id retCode data =>
    match s.links[id]? with
    | none => .error .notReading
    | some link => if link.session.isClosed then .error .notReading else (read server s id link retCode data).map (·,[])
  | .completed id status =>
    match s.links[id]? with
    | none => .error .nothingInFlight
    | some link =>
      match link.inFlight with
      | [] => .error .nothingInFlight
      | sentSize::inFlight => (completed s id {link with inFlight} sentSize status).map (·,[])
  | .respond id call =>
    match s.links[id]? with
    | none => .error .noResponse
    | some link =>
      match link.session.response with
      | none => .error .noResponse
      | some response =>
        if link.destructions > 0 ∧ response.passesOn call then .error .destroyed
        else .ok (s.leave id link (link.session.respond call),[])
  | .respondEarlier id index call =>
    match s.links[id]? with
    | none => .error .noResponse
    | some link =>
      match link.earlier[index]? with
      | none => .error .noResponse
      | some response =>
        let called := link.session.respondEarlier response call
        if link.destructions > 0 ∧ response.passesOn call then .error .destroyed
        else .ok (s.leave id {link with earlier:=link.earlier.set index called.1} called.2,[])

def machine (server : Handlers HttpHandle) : Machine HttpSessions Event Empty Stopped := ⟨{},step server⟩

-- A closed session has closed its response.
def Shut (session : HttpSession) : Prop := session.isClosed = true → ∀ r, session.response = some r → r.isClose = true

-- The map holds the open sessions, each under its endpoint, and the destructor
-- of the others has run once.
structure Table (s : HttpSessions) : Prop where
  held : ∀ endpoint id, s.sessionPtrMap[endpoint]? = some id →
    ∃ link : HttpLink, s.links[id]? = some link ∧ link.endpoint = endpoint ∧ link.session.isClosed = false
  listed : ∀ (id : Nat) (link : HttpLink), s.links[id]? = some link → link.session.isClosed = false → s.sessionPtrMap[link.endpoint]? = some id
  once : ∀ (id : Nat) (link : HttpLink), s.links[id]? = some link → link.destructions = if link.session.isClosed then 1 else 0
  shut : ∀ (id : Nat) (link : HttpLink), s.links[id]? = some link → Shut link.session

variable {s next : HttpSessions} {id : Nat} {old link : HttpLink} {server : Handlers HttpHandle}

theorem shut_open {session : HttpSession} (opened : session.isClosed = false) : Shut session := by
  intro closed
  rw [opened] at closed
  cases closed

theorem close_shut (session : HttpSession) (shut : Shut session) : Shut session.close.1 := by
  unfold HttpSession.close
  split
  · exact shut
  · intro _ r held
    obtain ⟨q,-,rfl⟩ := Option.map_eq_some_iff.mp held
    rfl

theorem close_stays {session : HttpSession} (closed : session.isClosed = true) : session.close.1 = session := by
  unfold HttpSession.close
  rw [if_pos closed]

theorem respond_shut {session : HttpSession} (shut : Shut session) (call : ResponseCall) : Shut (session.respond call).1 := by
  cases held : session.response with
  | none =>
    have nothing : session.respond call = (session,[]) := by
      unfold HttpSession.respond
      rw [held]
    rw [nothing]
    exact shut
  | some r =>
    obtain ⟨q,answered,silent⟩ := HttpSession.respond_tidy ⟨r,held,fun closed => shut closed r held⟩ call
    intro closed other same
    cases answered.symm.trans same
    exact silent closed

theorem passesOn_closed {r : HttpResponse} (closed : r.isClose = true) (call : ResponseCall) : r.passesOn call = false := by
  cases call with
  | write data continueFlag =>
    have refused : (r.write data continueFlag).2 = [] := by
      unfold HttpResponse.write
      rw [if_pos (by simp [closed])]
    simp [HttpResponse.passesOn,refused]
  | close => simp [HttpResponse.passesOn,closed]
  | _ => rfl

theorem respondEarlier_shut {session : HttpSession} (shut : Shut session) (r : HttpResponse) (call : ResponseCall) :
    Shut (session.respondEarlier r call).2.1 := by
  cases call with
  | close =>
    unfold HttpSession.respondEarlier
    dsimp only
    split
    · exact shut
    · exact close_shut session shut
  | _ => exact shut

theorem respondEarlier_closed {session : HttpSession} (closed : session.isClosed = true) (r : HttpResponse) (call : ResponseCall) :
    (session.respondEarlier r call).2.1.isClosed = true := by
  cases call with
  | close =>
    unfold HttpSession.respondEarlier
    dsimp only
    split
    · exact closed
    · exact HttpSession.close_closed session
  | _ => exact closed

theorem respondAll_shut (session : HttpSession) (shut : Shut session) (given : List ResponseCall) :
    Shut (session.respondAll given).1 := by
  induction given generalizing session with
  | nil => exact shut
  | cons call rest ih => exact ih _ (respond_shut shut call)

theorem dispatch_shut (server : Handlers HttpHandle) (session : HttpSession) (opened : session.isClosed = false) : Shut (session.dispatch server).1 := by
  have called : ∀ (given : HttpSession) handler, given.isClosed = false → Shut (given.callHandle handler).1 := by
    intro given handler isOpen closed r held
    exact respondAll_shut given (shut_open isOpen) (handler given.request) closed r held
  unfold HttpSession.dispatch
  split
  · intro closed r held
    exact respondAll_shut {session with response:=some (session.response.getD {})} (shut_open opened)
      HttpSession.optionsCalls closed r held
  · generalize HttpServer.getHandle server session.request = routed
    obtain ⟨request,handle⟩ := routed
    dsimp only
    split
    · cases handle with
      | none => exact shut_open opened
      | some handler => exact called _ handler opened
    · split
      · cases handle with
        | none => exact shut_open opened
        | some handler => exact called _ handler opened
      · exact shut_open opened

theorem handleRequest_shut {session : HttpSession} (opened : session.isClosed = false)
    (handled : session.handleRequest server data = .ok (after,outputs,ret)) : Shut after := by
  unfold HttpSession.handleRequest at handled
  split at handled
  · have same := Except.ok.inj handled
    have shut := dispatch_shut server {session with contentData:=session.contentData++data,continueFlag:=true} opened
    rwa [same] at shut
  · obtain ⟨⟨middle,code⟩,analyzed,handled⟩ := bind_ok.mp handled
    have isOpen : middle.isClosed = false := (HttpSession.analyzed_same analyzed).2.trans opened
    split at handled
    · cases handled
      exact shut_open isOpen
    · split at handled
      · cases handled
        exact shut_open isOpen
      · have same := Except.ok.inj handled
        have shut := dispatch_shut server
          {middle with contentData:=middle.contentData++middle.headerData.drop middle.contentStart.toNat} isOpen
        rwa [same] at shut

theorem settle_shut {session : HttpSession} (shut : Shut session) (outputs : List HttpSession.Output) (ret : Int) :
    Shut (HttpSession.settle (session,outputs,ret)).1 := by
  unfold HttpSession.settle
  split
  · exact close_shut session shut
  · exact shut

theorem onWrite_shut {session : HttpSession} (shut : Shut session) (retCode : Int) (sentSize : Nat) :
    Shut (session.onWrite retCode sentSize).1 := by
  have finished : ∀ given : HttpSession, Shut given → Shut (given.finishWrite sentSize).1 := by
    intro given shut
    unfold HttpSession.finishWrite
    split
    · exact shut
    · rename_i r held
      have counted : Shut {given with response:=some {r with remainBytes:=r.remainBytes-sentSize},continueFlag:=r.continueFlag} := by
        intro closed q same
        cases same
        exact shut closed r held
      dsimp only
      split
      · exact counted
      · exact close_shut _ counted
  unfold HttpSession.onWrite
  dsimp only
  split
  · exact finished _ (close_shut session shut)
  · exact finished _ shut

theorem found_set {links : List HttpLink} (found : links[id]? = some old) (other : Nat) (there : HttpLink) :
    (links.set id link)[other]? = some there ↔ id = other ∧ link = there ∨ id ≠ other ∧ links[other]? = some there := by
  by_cases itself : id = other
  · subst itself
    rw [List.getElem?_set_self (List.getElem?_eq_some_iff.mp found).1]
    simp
  · rw [List.getElem?_set_ne itself]
    simp [itself]

-- A session that stays open, or stays closed.
theorem Table.set (table : Table s) (found : s.links[id]? = some old) (endpoint : link.endpoint = old.endpoint)
    (same : link.session.isClosed = old.session.isClosed) (destructions : link.destructions = old.destructions)
    (shut : Shut link.session) : Table {s with links:=s.links.set id link} where
  held := by
    intro name other isHeld
    obtain ⟨there,at',named,opened⟩ := table.held name other isHeld
    by_cases itself : id = other
    · subst itself
      cases found.symm.trans at'
      exact ⟨link,(found_set found _ _).mpr (.inl ⟨rfl,rfl⟩),endpoint.trans named,same.trans opened⟩
    · exact ⟨there,(found_set found _ _).mpr (.inr ⟨itself,at'⟩),named,opened⟩
  listed := by
    intro other there at' opened
    rcases (found_set found _ _).mp at' with ⟨rfl,rfl⟩ | ⟨-,apart⟩
    · rw [endpoint]
      exact table.listed id old found (same.symm.trans opened)
    · exact table.listed other there apart opened
  once := by
    intro other there at'
    rcases (found_set found _ _).mp at' with ⟨rfl,rfl⟩ | ⟨-,apart⟩
    · rw [destructions,same]
      exact table.once id old found
    · exact table.once other there apart
  shut := by
    intro other there at'
    rcases (found_set found _ _).mp at' with ⟨rfl,rfl⟩ | ⟨-,apart⟩
    · exact shut
    · exact table.shut other there apart

-- A session that closes goes out of the map, and its destructor runs.
theorem Table.erase (table : Table s) (found : s.links[id]? = some old) (opened : old.session.isClosed = false)
    (closed : link.session.isClosed = true) (destructions : link.destructions = 1) (shut : Shut link.session) :
    Table {links:=s.links.set id link,sessionPtrMap:=s.sessionPtrMap.erase old.endpoint} where
  held := by
    intro name other isHeld
    rw [Std.ExtTreeMap.getElem?_erase] at isHeld
    split at isHeld
    · cases isHeld
    · rename_i different
      obtain ⟨there,at',named,isOpen⟩ := table.held name other isHeld
      have itself : id ≠ other := by
        rintro rfl
        cases found.symm.trans at'
        exact different (by simp [named])
      exact ⟨there,(found_set found _ _).mpr (.inr ⟨itself,at'⟩),named,isOpen⟩
  listed := by
    intro other there at' isOpen
    rcases (found_set found _ _).mp at' with ⟨rfl,rfl⟩ | ⟨itself,apart⟩
    · rw [closed] at isOpen
      cases isOpen
    · have listed := table.listed other there apart isOpen
      rw [Std.ExtTreeMap.getElem?_erase]
      split
      · rename_i equal
        have same : old.endpoint = there.endpoint := by simpa using equal
        have own := table.listed id old found opened
        rw [same] at own
        exact absurd (Option.some.inj (own.symm.trans listed)) itself
      · exact listed
  once := by
    intro other there at'
    rcases (found_set found _ _).mp at' with ⟨rfl,rfl⟩ | ⟨-,apart⟩
    · rw [destructions,closed]
      rfl
    · exact table.once other there apart
  shut := by
    intro other there at'
    rcases (found_set found _ _).mp at' with ⟨rfl,rfl⟩ | ⟨-,apart⟩
    · exact shut
    · exact table.shut other there apart

theorem Table.destroyed_iff (table : Table s) (found : s.links[id]? = some link) :
    link.destructions > 0 ↔ link.session.isClosed = true := by
  rw [table.once id link found]
  cases link.session.isClosed <;> simp

theorem modify_set (links : List HttpLink) (change : HttpLink → HttpLink) :
    (links.set id link).modify id change = links.set id (change link) := by
  apply List.ext_getElem?
  intro other
  rw [List.getElem?_modify,List.getElem?_set,List.getElem?_set]
  split
  · split <;> rfl
  · simp

-- What a member function of an open session did: the session stays, or it is
-- destroyed and gone.
theorem leave_open (link : HttpLink) (table : Table s) (found : s.links[id]? = some old) (endpoint : link.endpoint = old.endpoint)
    (session : link.session = old.session) (destructions : link.destructions = old.destructions)
    (opened : old.session.isClosed = false) (result : HttpSession × List HttpSession.Output) (shut : Shut result.1) :
    Table (s.leave id link result) ∧ (s.leave id link result).isDestroyed id = result.1.isClosed := by
  have never : link.destructions = 0 := by
    rw [destructions,table.once id old found,opened]
    rfl
  cases closed : result.1.isClosed with
  | false =>
    have left : s.leave id link result = {s with links:=s.links.set id (link.after result)} := by
      unfold leave
      simp [closed]
    rw [left]
    refine ⟨table.set found endpoint (closed.trans opened.symm) destructions shut,?_⟩
    unfold isDestroyed
    rw [(found_set found _ _).mpr (.inl ⟨rfl,rfl⟩)]
    simp [HttpLink.after,never]
  | true =>
    have left : s.leave id link result = {links:=s.links.set id {link.after result with destructions:=1}
                                          sessionPtrMap:=s.sessionPtrMap.erase old.endpoint} := by
      unfold leave onClose destroy
      simp only [closed,session,opened,endpoint,table.listed id old found opened,modify_set]
      simp [HttpLink.after,close_stays closed,never]
    rw [left]
    refine ⟨table.erase found opened closed rfl shut,?_⟩
    unfold isDestroyed
    rw [(found_set found _ _).mpr (.inl ⟨rfl,rfl⟩)]
    rfl

-- A call leaves the session open, closes it, or finds it closed.
theorem leave_called (link : HttpLink) (table : Table s) (found : s.links[id]? = some old) (endpoint : link.endpoint = old.endpoint)
    (session : link.session = old.session) (destructions : link.destructions = old.destructions)
    (result : HttpSession × List HttpSession.Output) (still : old.session.isClosed = true → result.1.isClosed = true)
    (shut : Shut result.1) : Table (s.leave id link result) := by
  cases closed : old.session.isClosed with
  | false => exact (leave_open link table found endpoint session destructions closed result shut).1
  | true =>
    have left : s.leave id link result = {s with links:=s.links.set id (link.after result)} := by
      unfold leave
      simp [session,closed]
    rw [left]
    exact table.set found endpoint ((still closed).trans closed.symm) destructions shut

theorem found_append {links : List HttpLink} {fresh there : HttpLink} : (links++[fresh])[id]? = some there ↔
    links[id]? = some there ∨ id = links.length ∧ fresh = there := by
  rw [List.getElem?_append]
  split
  · rename_i inside
    simp [inside,Nat.ne_of_lt inside]
  · rename_i outside
    rw [List.getElem?_singleton]
    by_cases last : id = links.length
    · simp [last]
    · have past : id-links.length ≠ 0 := by omega
      simp [past,last,outside]

theorem Table.beyond (table : Table s) (name : Bytes) : s.sessionPtrMap[name]? ≠ some s.links.length := by
  intro isHeld
  obtain ⟨there,at',-⟩ := table.held name _ isHeld
  have inside := (List.getElem?_eq_some_iff.mp at').1
  omega

theorem Table.insert (table : Table s) (free : s.sessionPtrMap[endpoint]? = none) :
    Table {links:=s.links++[{endpoint}],sessionPtrMap:=s.sessionPtrMap.insert endpoint s.links.length} where
  held := by
    intro name other isHeld
    rw [Std.ExtTreeMap.getElem?_insert] at isHeld
    split at isHeld
    · rename_i equal
      cases isHeld
      exact ⟨{endpoint},found_append.mpr (.inr ⟨rfl,rfl⟩),by simpa using equal,rfl⟩
    · obtain ⟨there,at',named,opened⟩ := table.held name other isHeld
      exact ⟨there,found_append.mpr (.inl at'),named,opened⟩
  listed := by
    intro other there at' opened
    rw [Std.ExtTreeMap.getElem?_insert]
    rcases found_append.mp at' with earlier | ⟨rfl,rfl⟩
    · have listed := table.listed other there earlier opened
      split
      · rename_i equal
        have same : endpoint = there.endpoint := by simpa using equal
        rw [← same,free] at listed
        cases listed
      · exact listed
    · simp
  once := by
    intro other there at'
    rcases found_append.mp at' with earlier | ⟨rfl,rfl⟩
    · exact table.once other there earlier
    · rfl
  shut := by
    intro other there at'
    rcases found_append.mp at' with earlier | ⟨rfl,rfl⟩
    · exact table.shut other there earlier
    · exact shut_open rfl

-- A link that was destroyed before it came into the map.
theorem Table.append (table : Table s) (fresh : HttpLink) (closed : fresh.session.isClosed = true)
    (destructions : fresh.destructions = 1) (shut : Shut fresh.session) : Table {s with links:=s.links++[fresh]} where
  held := by
    intro name other isHeld
    obtain ⟨there,at',named,opened⟩ := table.held name other isHeld
    exact ⟨there,found_append.mpr (.inl at'),named,opened⟩
  listed := by
    intro other there at' opened
    rcases found_append.mp at' with earlier | ⟨rfl,rfl⟩
    · exact table.listed other there earlier opened
    · rw [closed] at opened
      cases opened
  once := by
    intro other there at'
    rcases found_append.mp at' with earlier | ⟨rfl,rfl⟩
    · exact table.once other there earlier
    · rw [destructions,closed]
      rfl
  shut := by
    intro other there at'
    rcases found_append.mp at' with earlier | ⟨rfl,rfl⟩
    · exact table.shut other there earlier
    · exact shut

-- A second connection from an endpoint takes the first one with it.
theorem accept_taken (taken : s.sessionPtrMap[endpoint]? = some id) (found : s.links[id]? = some old) :
    s.accept endpoint = {
      links := s.links.set id {old with session:=old.session.close.1,destructions:=old.destructions+1}++
        [{endpoint,session:=(HttpSession.close {}).1,destructions:=1}]
      sessionPtrMap := s.sessionPtrMap.erase endpoint} := by
  obtain ⟨inside,same⟩ := List.getElem?_eq_some_iff.mp found
  have closing : leave {s with links:=s.links++[{endpoint}]} s.links.length {endpoint} (HttpSession.close {}) =
      onClose {s with links:=s.links++[{endpoint,session:=(HttpSession.close {}).1}]} endpoint := by
    unfold leave
    simp [HttpLink.after,HttpSession.close,HttpDelivery.writes]
  unfold accept
  simp only [taken]
  rw [closing]
  unfold onClose destroy
  simp only [taken,HttpSessions.mk.injEq,and_true]
  apply List.ext_getElem?
  intro other
  rw [List.getElem?_modify,List.getElem?_modify,List.getElem?_append,List.getElem?_append,List.length_set]
  by_cases here : other < s.links.length
  · have front : ¬ s.links.length = other := by omega
    rw [if_pos here,if_pos here,List.getElem?_set]
    by_cases itself : id = other
    · subst itself
      simp [inside,front,same]
    · simp [itself,front]
  · have behind : ¬ id = other := by omega
    rw [if_neg here,if_neg here]
    simp only [behind,if_false]
    by_cases last : s.links.length = other
    · subst last
      simp [close_stays (HttpSession.close_closed {})]
    · have past : other-s.links.length ≠ 0 := by omega
      simp [last,past]

theorem accept_table (table : Table s) (endpoint : Bytes) : Table (s.accept endpoint) := by
  cases free : s.sessionPtrMap[endpoint]? with
  | none =>
    unfold accept
    rw [free]
    exact table.insert free
  | some id =>
    obtain ⟨old,found,rfl,opened⟩ := table.held endpoint id free
    rw [accept_taken free found]
    have never := table.once id old found
    rw [opened] at never
    exact (table.erase found opened (HttpSession.close_closed old.session) (by simp [never])
      (close_shut _ (table.shut id old found))).append _ rfl rfl (close_shut _ (shut_open rfl))

-- HandleRequest comes back to a session that is open, a completion finds its
-- session open and succeeds, and so does what a replaced response passes on.
def Gentle (server : Handlers HttpHandle) (s : HttpSessions) : Event → Prop
  | .read id retCode data => ∀ link session outputs ret, s.links[id]? = some link → link.session.isClosed = false →
      retCode = 0 → link.session.handleRequest server data = .ok (session,outputs,ret) → session.isClosed = false
  | .completed id status => ∀ link : HttpLink, s.links[id]? = some link → link.inFlight ≠ [] →
      link.session.isClosed = false ∧ status = 0
  | .respondEarlier id index call => ∀ (link : HttpLink) r, s.links[id]? = some link → link.earlier[index]? = some r →
      r.passesOn call = true → link.session.isClosed = false
  | _ => True

theorem read_table (table : Table s) (found : s.links[id]? = some link) (opened : link.session.isClosed = false)
    (served : read server s id link retCode data = .ok next) : Table next := by
  unfold read at served
  split at served
  · cases served
    exact (leave_open _ table found rfl rfl rfl opened _ (close_shut _ (shut_open opened))).1
  · split at served
    · cases served
    · rename_i session outputs ret handled
      dsimp only at served
      split at served
      · cases served
      · cases served
        exact (leave_open (link.replaced outputs) table found rfl rfl rfl opened _
          (settle_shut (handleRequest_shut opened handled) outputs ret)).1

theorem read_destroyed (table : Table s) (found : s.links[id]? = some link) (opened : link.session.isClosed = false) :
    read server s id link retCode data = .error .destroyed ↔ retCode = 0 ∧ ∃ session outputs ret,
      link.session.handleRequest server data = .ok (session,outputs,ret) ∧ session.isClosed = true := by
  unfold read
  split
  · rename_i failed
    simp [failed]
  · rename_i succeeded
    have zero : retCode = 0 := by simpa using succeeded
    split
    · rename_i thrown
      simp [thrown]
    · rename_i session outputs ret handled
      have destroyed := (leave_open (link.replaced outputs) table found rfl rfl rfl opened (session,outputs)
        (handleRequest_shut opened handled)).2
      dsimp only at destroyed ⊢
      rw [destroyed]
      cases closed : session.isClosed <;> simp [zero,handled,closed]

theorem completed_table (table : Table s) (found : s.links[id]? = some link)
    (finished : completed s id {link with inFlight:=rest} sentSize status = .ok next) : Table next := by
  unfold completed at finished
  split at finished
  · cases finished
  · rename_i intact
    have opened : link.session.isClosed = false := by
      rw [Bool.eq_false_iff]
      exact fun closed => intact ((table.destroyed_iff found).mpr closed)
    rw [if_neg (by simp [opened])] at finished
    split at finished
    · cases finished
    · cases finished
      exact (leave_open {link with inFlight:=rest} table found rfl rfl rfl opened _
        (onWrite_shut (shut_open opened) status sentSize)).1

theorem completed_destroyed (table : Table s) (found : s.links[id]? = some link) (rest : List Nat) (sentSize : Nat)
    (status : Int) : completed s id {link with inFlight:=rest} sentSize status = .error .destroyed ↔
      ¬ (link.session.isClosed = false ∧ status = 0) := by
  have gone := table.destroyed_iff found
  unfold completed
  cases closed : link.session.isClosed with
  | true =>
    rw [if_pos (gone.mpr closed)]
    simp
  | false =>
    have intact : ¬ link.destructions > 0 := fun destroyed => absurd (gone.mp destroyed) (by simp [closed])
    have destroyed := (leave_open {link with inFlight:=rest} table found rfl rfl rfl closed link.session.close
      (close_shut _ (shut_open closed))).2
    rw [HttpSession.close_closed] at destroyed
    rw [if_neg intact,if_neg (by simp)]
    simp [destroyed]

theorem step_table (table : Table s) (stepped : step server s event = .ok (next,emitted)) : Table next := by
  cases event with
  | accept endpoint =>
    cases stepped
    exact accept_table table endpoint
  | read id retCode data =>
    unfold step at stepped
    dsimp only at stepped
    split at stepped
    · cases stepped
    · rename_i link found
      split at stepped
      · cases stepped
      · rename_i opened
        obtain ⟨served,reads,same⟩ := map_ok.mp stepped
        cases same
        exact read_table table found (by simpa using opened) reads
  | completed id status =>
    unfold step at stepped
    dsimp only at stepped
    split at stepped
    · cases stepped
    · rename_i link found
      split at stepped
      · cases stepped
      · obtain ⟨served,finished,same⟩ := map_ok.mp stepped
        cases same
        exact completed_table table found finished
  | respond id call =>
    unfold step at stepped
    dsimp only at stepped
    split at stepped
    · cases stepped
    · rename_i link found
      split at stepped
      · cases stepped
      · split at stepped
        · cases stepped
        · cases stepped
          have shut := respond_shut (table.shut id link found) call
          exact leave_called link table found rfl rfl rfl _ (fun closed => HttpSession.respond_closed closed call) shut
  | respondEarlier id index call =>
    unfold step at stepped
    dsimp only at stepped
    split at stepped
    · cases stepped
    · rename_i link found
      split at stepped
      · cases stepped
      · rename_i r kept
        split at stepped
        · cases stepped
        · cases stepped
          have shut := respondEarlier_shut (table.shut id link found) r call
          exact leave_called {link with earlier:=link.earlier.set index (link.session.respondEarlier r call).1} table found
            rfl rfl rfl _ (fun closed => respondEarlier_closed closed r call) shut

theorem map_error {action : Except ε α} {view : α → β} {fault : ε} : action.map view = .error fault ↔ action = .error fault := by
  cases action <;> simp [Except.map]

theorem step_destroyed (table : Table s) (event : Event) :
    step server s event = .error .destroyed ↔ ¬ Gentle server s event := by
  cases event with
  | accept endpoint => simp [step,Gentle]
  | read id retCode data =>
    unfold step Gentle
    dsimp only
    cases found : s.links[id]? with
    | none => simp
    | some link =>
      dsimp only
      cases opened : link.session.isClosed with
      | true => simp [opened]
      | false =>
        rw [if_neg (by decide),map_error,read_destroyed table found opened]
        simp [opened]
  | completed id status =>
    unfold step Gentle
    dsimp only
    cases found : s.links[id]? with
    | none => simp
    | some link =>
      dsimp only
      cases inFlight : link.inFlight with
      | nil => simp [inFlight]
      | cons sentSize rest =>
        dsimp only
        rw [map_error,completed_destroyed table found]
        simp [inFlight]
  | respond id call =>
    unfold step Gentle
    dsimp only
    cases found : s.links[id]? with
    | none => simp
    | some link =>
      dsimp only
      cases held : link.session.response with
      | none => simp
      | some r =>
        dsimp only
        have silent : ¬ (link.destructions > 0 ∧ r.passesOn call = true) := by
          intro reached
          have shut := table.shut id link found ((table.destroyed_iff found).mp reached.1) r held
          rw [passesOn_closed shut] at reached
          cases reached.2
        rw [if_neg silent]
        simp
  | respondEarlier id index call =>
    unfold step Gentle
    dsimp only
    cases found : s.links[id]? with
    | none => simp
    | some link =>
      dsimp only
      cases kept : link.earlier[index]? with
      | none => simp [kept]
      | some r =>
        dsimp only
        have destroyed := table.destroyed_iff found
        cases closed : link.session.isClosed with
        | false =>
          rw [if_neg (fun reached => absurd (destroyed.mp reached.1) (by simp [closed]))]
          simp [closed]
        | true =>
          have gone := destroyed.mpr closed
          cases reached : r.passesOn call <;> simp [gone,kept,closed,reached]

theorem empty_table : Table {} where
  held := by simp
  listed := by simp
  once := by simp
  shut := by simp

-- No member of a destroyed session is used exactly in the runs in which no
-- handler closes its own session before it returns, no write of an open session
-- fails, nothing is in flight for a closed one when it is completed, and nothing
-- is written or closed through a response that a later GET replaced once its
-- session is closed. And wherever a run gets, the sessions are destroyed when
-- they close, and only once.
theorem destroyed_unused_iff (server : Handlers HttpHandle) (events : List Event) :
    ((machine server).run events ≠ .error .destroyed ↔ (machine server).Guarded (fun _ => Gentle server) events) ∧
      ∀ s outputs, (machine server).run events = .ok (s,outputs) → Table s :=
  ⟨(machine server).avoids_iff Table empty_table (fun _ _ _ _ table stepped => step_table table stepped)
      (fun _ event table => step_destroyed table event) events,
    fun _ _ ran => (machine server).history (fun _ _ s => Table s) empty_table
      (fun _ _ _ _ _ _ table stepped => step_table table stepped) ran⟩

end HttpSessions
end CoStream
