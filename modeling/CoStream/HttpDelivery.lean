import CoStream.HttpDispatch

namespace CoStream
open Foundation

-- One buffer given to uv_write: the number of the response that wrote it (0 for
-- the handshake), the bytes of that response it carries, and its own length.
structure Buffer where
  writer : Nat
  plain : Nat
  size : Nat
deriving DecidableEq,Repr

-- What it carries of one response.
def Buffer.own (buffer : Buffer) (number : Nat) : Nat := if buffer.writer = number then buffer.plain else 0

-- One SSL_write: how much it accepted, and how much it left in the output BIO.
structure Sealed where
  accepted : Nat
  size : Nat
  progress : 0 < accepted
  longer : accepted < size
deriving DecidableEq,Repr

-- Over TLS, with the lengths of the handshake's flights that are not completed
-- when SslServer starts to hand on what it reads.
inductive Transport where
  | tcp
  | tls (flights : List Nat)
deriving DecidableEq,Repr

namespace Transport

def pending : Transport → List Buffer
  | .tcp => []
  | .tls flights => flights.map fun size => ⟨0,0,size⟩

-- The loop of SslWrite. Where the answers end, SSL_write has failed.
def sslWrite (writer : Nat) : List Sealed → Nat → List Buffer × List Sealed
  | answers,0 => ([],answers)
  | [],_+1 => ([],[])
  | answer::rest,left+1 =>
    let later := sslWrite writer rest (left+1-answer.accepted)
    (⟨writer,min answer.accepted (left+1),answer.size⟩::later.1,later.2)

def asyncWrite (writer : Nat) : Transport → List Sealed → Bytes → List Buffer × List Sealed
  | .tcp,answers,data => ([⟨writer,data.length,data.length⟩],answers)
  | .tls _,answers,data => sslWrite writer answers data.length

def asyncWrites (transport : Transport) (writer : Nat) : List Sealed → List Bytes → List Buffer
  | _,[] => []
  | answers,data::rest =>
    let written := transport.asyncWrite writer answers data
    written.1++transport.asyncWrites writer written.2 rest

end Transport

namespace HttpSession

-- A GET whose handler was called has got a response of its own.
def replaced (s : HttpSession) (outputs : List Output) : List HttpResponse :=
  if (calls outputs).any fun call => call.2.method = ascii "GET" then s.response.toList else []

end HttpSession

-- A session on its connection, the responses that were replaced (handlers may
-- have kept them), and the buffers libuv has not completed yet.
structure HttpDelivery where
  session : HttpSession := {}
  earlier : List HttpResponse := []
  inFlight : List Buffer := []

namespace HttpDelivery

-- `answers` are those of SSL_write to what the handler or the call writes.
inductive Event where
  | read (retCode : Int) (data : Bytes) (answers : List Sealed)
  | respond (call : ResponseCall) (answers : List Sealed)
  | respondEarlier (index : Nat) (call : ResponseCall) (answers : List Sealed)
  | completed (status : Int)
deriving DecidableEq,Repr

-- A completion stands with the number of the response that OnWrite charges it to.
inductive Output where
  | wrote (writer : Nat) (data : Bytes)
  | completed (current : Nat) (buffer : Buffer)
  | closed
deriving DecidableEq,Repr

inductive Stopped where
  | exception
  | nothingInFlight
  | noResponse
  | destroyed
deriving DecidableEq,Repr

-- The responses are numbered from 1 on; before there is one the number is 0.
def current (s : HttpDelivery) : Nat := s.earlier.length+s.session.response.toList.length

def visible (writer : Nat) : HttpSession.Output → List Output
  | .wrote data => [.wrote writer data]
  | .closed => [.closed]
  | _ => []

def writes : List HttpSession.Output → List Bytes
  | [] => []
  | .wrote data::rest => data::writes rest
  | _::rest => writes rest

-- What a member function of the session has done. All it wrote, it wrote through
-- the response that it has left.
def took (s : HttpDelivery) (transport : Transport) (answers : List Sealed) (result : HttpSession × List HttpSession.Output) :
    HttpDelivery × List Output :=
  let next : HttpDelivery := {s with session:=result.1,earlier:=s.earlier++s.session.replaced result.2}
  ({next with inFlight:=s.inFlight++transport.asyncWrites next.current answers (writes result.2)},
    result.2.flatMap (visible next.current))

def run (server : Handlers HttpHandle) (s : HttpDelivery) (event : HttpSession.Event) :
    Except Stopped (HttpSession × List HttpSession.Output) :=
  (HttpSession.step server s.session event).mapError fun _ => .exception

-- TcpSession::OnWrite calls back as long as the connection is not closed. A
-- response that was replaced must not be written through once it is.
def step (server : Handlers HttpHandle) (transport : Transport) (s : HttpDelivery) :
    Event → Except Stopped (HttpDelivery × List Output)
  | .read retCode data answers => (run server s (.read retCode data)).map (s.took transport answers)
  | .respond call answers => (run server s (.respond call)).map (s.took transport answers)
  | .respondEarlier index call answers =>
    match s.earlier[index]? with
    | none => .error .noResponse
    | some r =>
      if s.session.isClosed ∧ r.passesOn call then .error .destroyed
      else
        let called := s.session.respondEarlier r call
        .ok ({s with
          session := called.2.1
          earlier := s.earlier.set index called.1
          inFlight := s.inFlight++transport.asyncWrites (index+1) answers (writes called.2.2)},
          called.2.2.flatMap (visible (index+1)))
  | .completed status =>
    match s.inFlight with
    | [] => .error .nothingInFlight
    | buffer::rest => (run server s (.written status buffer.size)).map fun result =>
        let next := took {s with inFlight:=rest} transport [] result
        (next.1,.completed s.current buffer::next.2)

def machine (server : Handlers HttpHandle) (transport : Transport) : Machine HttpDelivery Event Output Stopped :=
  ⟨{inFlight:=transport.pending},step server transport⟩

-- What each output adds to the bytes that a response has passed to Write and that
-- are not completed; to those of all responses; and to what the completions since
-- a response came have reported beyond its own bytes.
def Output.outstanding (number : Nat) : Output → Int
  | .wrote writer data => if writer = number then data.length else 0
  | .completed _ buffer => -buffer.own number
  | .closed => 0
def Output.uncompleted : Output → Int
  | .wrote _ data => data.length
  | .completed _ buffer => -buffer.plain
  | .closed => 0
def Output.excess (number : Nat) : Output → Int
  | .completed current buffer => if current = number then buffer.size-buffer.own number else 0
  | _ => 0

def outstanding (number : Nat) (outputs : List Output) : Int := (outputs.map (Output.outstanding number)).sum
def uncompleted (outputs : List Output) : Int := (outputs.map Output.uncompleted).sum
def excess (number : Nat) (outputs : List Output) : Int := (outputs.map (Output.excess number)).sum
def carried (buffers : List Buffer) : Int := (buffers.map fun buffer => (buffer.plain : Int)).sum
def sent (outs : List HttpSession.Output) : Int := ((writes outs).map List.length).sum

-- A completion without error closes the session only when all that was passed to
-- Write has been completed.
def NeverCutOff (server : Handlers HttpHandle) (transport : Transport) (events : List Event) : Prop :=
  ∀ before after s outputs next emitted, events = before++.completed 0::after →
    (machine server transport).run before = .ok (s,outputs) → step server transport s (.completed 0) = .ok (next,emitted) →
    .closed ∈ emitted → uncompleted (outputs++emitted) = 0

-- At a completion that leaves something behind it, with no further Write
-- announced, the buffers completed since the response came were longer than what
-- they carried of it by less than what it still has on the way. A record is longer
-- than its plaintext, and a buffer of the handshake or of a response that was
-- replaced carries nothing of it.
def Covered (server : Handlers HttpHandle) (transport : Transport) (events : List Event) : Prop :=
  ∀ before after s outputs r buffer rest, events = before++.completed 0::after →
    (machine server transport).run before = .ok (s,outputs) → s.session.isClosed = false → s.session.response = some r →
    r.continueFlag = false → s.inFlight = buffer::rest → 0 < uncompleted (outputs++[.completed s.current buffer]) →
    excess s.current (outputs++[.completed s.current buffer]) < outstanding s.current (outputs++[.completed s.current buffer])

-- No GET takes the place of a response while anything is on its way, and no
-- response that was replaced is written through.
def Apart (server : Handlers HttpHandle) (s : HttpDelivery) : Event → Prop
  | .read retCode data _ => ∀ next outs, HttpSession.step server s.session (.read retCode data) = .ok (next,outs) →
      s.session.replaced outs ≠ [] → s.inFlight = []
  | .respondEarlier index call _ => ∀ r data continueFlag, s.earlier[index]? = some r → call = .write data continueFlag →
      (r.write data continueFlag).2 = []
  | _ => True

@[simp] theorem outstanding_append : outstanding number (first++second) = outstanding number first+outstanding number second := by
  simp [outstanding]
@[simp] theorem uncompleted_append : uncompleted (first++second) = uncompleted first+uncompleted second := by simp [uncompleted]
@[simp] theorem excess_append : excess number (first++second) = excess number first+excess number second := by simp [excess]
@[simp] theorem outstanding_cons : outstanding number (output::rest) = output.outstanding number+outstanding number rest := rfl
@[simp] theorem uncompleted_cons : uncompleted (output::rest) = output.uncompleted+uncompleted rest := rfl
@[simp] theorem excess_cons : excess number (output::rest) = output.excess number+excess number rest := rfl
@[simp] theorem carried_append : carried (first++second) = carried first+carried second := by simp [carried]
@[simp] theorem carried_cons : carried (buffer::rest) = buffer.plain+carried rest := rfl
@[simp] theorem sent_cons_wrote : sent (.wrote data::rest) = data.length+sent rest := by simp [sent,writes]

theorem writes_append (first second : List HttpSession.Output) : writes (first++second) = writes first++writes second := by
  induction first with
  | nil => rfl
  | cons output rest ih => cases output <;> simp [writes,ih]

theorem sent_quiet (quiet : writes outs = []) : sent outs = 0 := by
  unfold sent
  rw [quiet]
  rfl

@[simp] theorem sent_append (first second : List HttpSession.Output) : sent (first++second) = sent first+sent second := by
  simp [sent,writes_append]

theorem writes_wrote (datas : List Bytes) : writes (datas.map .wrote) = datas := by
  induction datas with
  | nil => rfl
  | cons data rest ih => rw [List.map_cons,writes,ih]

theorem carried_nonneg (buffers : List Buffer) : 0 ≤ carried buffers := by
  induction buffers with
  | nil => exact Int.le_refl _
  | cons buffer rest ih =>
    rw [carried_cons]
    omega

-- What the outputs of the session add.
theorem visible_adds (writer number : Nat) (outs : List HttpSession.Output) :
    uncompleted (outs.flatMap (visible writer)) = sent outs ∧
    outstanding number (outs.flatMap (visible writer)) = (if writer = number then sent outs else 0) ∧
    excess number (outs.flatMap (visible writer)) = 0 := by
  induction outs with
  | nil => exact ⟨rfl,by split <;> rfl,rfl⟩
  | cons output rest ih =>
    obtain ⟨whole,own,none⟩ := ih
    rw [List.flatMap_cons,uncompleted_append,outstanding_append,excess_append,whole,own,none]
    cases output with
    | wrote data =>
      refine ⟨by rw [sent_cons_wrote]; rfl,?_,rfl⟩
      rw [sent_cons_wrote]
      by_cases same : writer = number
      · simp [visible,outstanding,Output.outstanding,same]
      · simp [visible,outstanding,Output.outstanding,same]
    | _ => exact ⟨Int.zero_add _,Int.zero_add _,rfl⟩

theorem sslWrite_carries (writer : Nat) (answers : List Sealed) (left : Nat) :
    carried (Transport.sslWrite writer answers left).1 ≤ left ∧ ∀ buffer ∈ (Transport.sslWrite writer answers left).1, buffer.writer = writer := by
  induction answers generalizing left with
  | nil =>
    cases left with
    | zero => simp [Transport.sslWrite,carried]
    | succ left =>
      refine ⟨?_,by simp [Transport.sslWrite]⟩
      rw [Transport.sslWrite]
      exact Int.natCast_nonneg (left+1)
  | cons answer rest ih =>
    cases left with
    | zero => simp [Transport.sslWrite,carried]
    | succ left =>
      obtain ⟨later,all⟩ := ih (left+1-answer.accepted)
      simp only [Transport.sslWrite,carried_cons]
      refine ⟨by omega,?_⟩
      intro buffer member
      rcases List.mem_cons.mp member with rfl | behind
      · rfl
      · exact all buffer behind

theorem asyncWrite_carries (transport : Transport) (writer : Nat) (answers : List Sealed) (data : Bytes) :
    carried (transport.asyncWrite writer answers data).1 ≤ data.length ∧
      ∀ buffer ∈ (transport.asyncWrite writer answers data).1, buffer.writer = writer := by
  cases transport with
  | tcp => simp [Transport.asyncWrite,carried]
  | tls flights => exact sslWrite_carries writer answers data.length

theorem asyncWrites_carries (transport : Transport) (writer : Nat) (answers : List Sealed) (outs : List HttpSession.Output) :
    carried (transport.asyncWrites writer answers (writes outs)) ≤ sent outs ∧
      ∀ buffer ∈ transport.asyncWrites writer answers (writes outs), buffer.writer = writer := by
  unfold sent
  induction writes outs generalizing answers with
  | nil => simp [Transport.asyncWrites,carried]
  | cons data rest ih =>
    obtain ⟨first,own⟩ := asyncWrite_carries transport writer answers data
    obtain ⟨later,all⟩ := ih (transport.asyncWrite writer answers data).2
    rw [Transport.asyncWrites,carried_append,List.map_cons,List.sum_cons,Int.natCast_add]
    refine ⟨by omega,?_⟩
    intro buffer member
    rcases List.mem_append.mp member with front | behind
    · exact own buffer front
    · exact all buffer behind

end HttpDelivery

namespace HttpSession
open HttpDelivery
variable {s next : HttpSession} {server : Handlers HttpHandle} {outs : List Output}

-- As long as the session is open its response takes writes, and counts.
def Live (s : HttpSession) (remain : Int) : Prop :=
  s.isClosed = false → ∀ r, s.response = some r → r.isClose = false ∧ r.attached = true ∧ r.remainBytes = remain

theorem live_closed (closed : s.isClosed = true) : Live s remain := by
  intro opened
  rw [closed] at opened
  cases opened

theorem write_counts {r : HttpResponse} (isOpen : r.isClose = false) (attached : r.attached = true) (data : Bytes)
    (continueFlag : Bool) : ∃ datas, r.write data continueFlag = ({r with
      continueFlag
      writtenHeader := true
      remainBytes := r.remainBytes+sent (datas.map .wrote)},datas) := by
  unfold HttpResponse.write
  rw [if_neg (by simp [isOpen,attached])]
  dsimp only
  refine ⟨_,Prod.ext ?_ rfl⟩
  rw [List.length_flatten,sent,writes_wrote]

theorem respond_live (live : Live s remain) (call : ResponseCall) : Live (s.respond call).1 (remain+sent (s.respond call).2) := by
  by_cases closed : s.isClosed = true
  · exact live_closed (respond_closed closed call)
  cases held : s.response with
  | none =>
    have nothing : s.respond call = (s,[]) := by
      unfold respond
      rw [held]
    rw [nothing]
    intro _ r same
    rw [held] at same
    cases same
  | some r =>
    obtain ⟨isOpen,attached,counts⟩ := live (by simpa using closed) r held
    have sentNothing : remain+sent [] = remain := Int.add_zero _
    unfold respond
    rw [held]
    cases call with
    | close =>
      dsimp only
      rw [isOpen]
      exact live_closed (close_closed _)
    | write data continueFlag =>
      obtain ⟨datas,wrote⟩ := write_counts isOpen attached data continueFlag
      dsimp only
      rw [wrote,← counts]
      intro _ q same
      cases same
      exact ⟨isOpen,attached,rfl⟩
    | _ =>
      intro _ q same
      cases same
      exact ⟨isOpen,attached,counts.trans sentNothing.symm⟩

theorem respondAll_live (given : List ResponseCall) (live : Live s remain) :
    Live (s.respondAll given).1 (remain+sent (s.respondAll given).2) := by
  induction given generalizing s remain with
  | nil =>
    rw [respondAll]
    exact (Int.add_zero remain).symm ▸ live
  | cons call rest ih =>
    have continued := ih (respond_live live call)
    rw [respondAll,sent_append,← Int.add_assoc]
    exact continued

theorem close_held (s : HttpSession) : s.close.1.response.toList.length = s.response.toList.length := by
  unfold close
  split
  · rfl
  · cases s.response <;> rfl

theorem respond_held (s : HttpSession) (call : ResponseCall) :
    (s.respond call).1.response.toList.length = s.response.toList.length := by
  cases held : s.response with
  | none =>
    unfold respond
    rw [held]
    simp [held]
  | some r =>
    unfold respond
    rw [held]
    cases call with
    | close =>
      dsimp only
      split
      · simp [held]
      · rw [close_held]
        rfl
    | _ => rfl

theorem respondAll_held (given : List ResponseCall) (s : HttpSession) :
    (s.respondAll given).1.response.toList.length = s.response.toList.length := by
  induction given generalizing s with
  | nil => rfl
  | cons call rest ih => exact (ih _).trans (respond_held s call)

theorem close_writes (s : HttpSession) : writes s.close.2 = [] := by
  unfold close
  split <;> rfl

theorem absent_held (held : next.response.toList.length = s.response.toList.length) (absent : next.response = none) :
    s.response = none := by
  rw [absent] at held
  exact Option.toList_eq_nil_iff.mp (List.eq_nil_of_length_eq_zero held.symm)

-- What a step of the session makes of its response: it stays and counts what is
-- written, or a new one does.
inductive Turned (s : HttpSession) (remain : Int) (next : HttpSession) (outs : List Output) : Prop where
  | stays (kept : s.replaced outs = []) (same : next.response.toList.length = s.response.toList.length)
      (idle : s.response = none → writes outs = []) (live : Live next (remain+sent outs))
  | renewed (left : s.replaced outs = s.response.toList) (held : next.response.toList.length = 1) (live : Live next (sent outs))

theorem replaced_silent (silent : calls outs = []) : s.replaced outs = [] := by
  unfold replaced
  rw [silent]
  rfl

theorem Turned.silent (live : Live s remain) (response : next.response = s.response) (closed : next.isClosed = s.isClosed) :
    Turned s remain next [] := by
  refine .stays (replaced_silent rfl) (by rw [response]) (fun _ => rfl) ?_
  intro isOpen r held
  have counts := live (closed ▸ isOpen) r (response ▸ held)
  exact ⟨counts.1,counts.2.1,counts.2.2.trans (Int.add_zero remain).symm⟩

-- A response that is made where there is none, and used where there is one.
theorem answered_turned (live : Live s remain) (opened : s.isClosed = false) (base : HttpSession)
    (held : base.response = some (s.response.getD {})) (given : List ResponseCall)
    (response : next.response = (base.respondAll given).1.response) (closed : next.isClosed = (base.respondAll given).1.isClosed)
    (sends : sent outs = sent (base.respondAll given).2) (kept : s.replaced outs = []) : Turned s remain next outs := by
  have single := respondAll_held given base
  rw [held] at single
  have goesOn : ∀ before, Live base before → Live next (before+sent outs) := by
    intro before isLive isOpen r found
    rw [sends]
    exact respondAll_live given isLive (closed ▸ isOpen) r (response ▸ found)
  cases old : s.response with
  | none =>
    have fresh : Live base 0 := by
      intro _ r found
      rw [held,old] at found
      cases found
      exact ⟨rfl,rfl,rfl⟩
    refine .renewed (kept.trans (by rw [old]; rfl)) (by rw [response,single]; rfl) ?_
    rw [← Int.zero_add (sent outs)]
    exact goesOn 0 fresh
  | some r =>
    refine .stays kept (by rw [response,single,old]; rfl) (fun absent => by simp [old] at absent) (goesOn remain ?_)
    intro _ q found
    rw [held,old] at found
    cases found
    exact live opened r old

theorem replaced_handled {handler : HttpHandle} {request : HttpRequest} (silent : calls outs = []) :
    s.replaced (.handled handler request::outs) = if request.method = ascii "GET" then s.response.toList else [] := by
  have called : calls (.handled handler request::outs) = (handler,request)::calls outs := rfl
  unfold replaced
  rw [called,silent]
  simp

theorem dispatch_turned (live : Live s remain) (opened : s.isClosed = false) :
    Turned s remain (dispatch server s).1 (dispatch server s).2.1 := by
  unfold dispatch
  split
  · exact answered_turned live opened {s with response:=some (s.response.getD {})} rfl optionsCalls rfl rfl rfl
      (replaced_silent (respondAll_silent _ _))
  · rename_i notOptions
    have route : (HttpServer.getHandle server s.request).1.method = s.request.method := rfl
    generalize HttpServer.getHandle server s.request = routed at route
    obtain ⟨request,handle⟩ := routed
    dsimp only at route ⊢
    split
    · rename_i get
      cases handle with
      | none => exact .silent live rfl rfl
      | some handler =>
        have single := respondAll_held (handler request) {s with request,response:=some {}}
        have fresh : Live {s with request,response:=some {}} 0 := by
          intro _ r found
          cases found
          exact ⟨rfl,rfl,rfl⟩
        have goesOn := respondAll_live (handler request) fresh
        rw [Int.zero_add] at goesOn
        refine .renewed ?_ single ?_
        · exact (replaced_handled (respondAll_silent _ _)).trans (if_pos (route.trans get))
        · exact fun isOpen r found => goesOn isOpen r found
    · rename_i notGet
      split
      · cases handle with
        | none => exact .silent live rfl rfl
        | some handler =>
          refine answered_turned live opened
            {s with request:={request with content:=s.contentData},response:=some (s.response.getD {})} rfl
            (handler {request with content:=s.contentData}) rfl rfl rfl ?_
          exact (replaced_handled (respondAll_silent _ _)).trans (if_neg (route ▸ notGet))
      · exact .silent live rfl rfl

theorem replaced_append (silent : calls later = []) : s.replaced (outs++later) = s.replaced outs := by
  unfold replaced
  rw [calls_append,silent,List.append_nil]

theorem Turned.closing (turned : Turned s remain next outs) : Turned s remain next.close.1 (outs++next.close.2) := by
  have shut : ∀ before, Live next.close.1 before := fun before => live_closed (close_closed next)
  have kept : s.replaced (outs++next.close.2) = s.replaced outs := replaced_append (close_silent next)
  cases turned with
  | stays none same idle live =>
    refine .stays (kept.trans none) ((close_held next).trans same) ?_ (shut _)
    intro absent
    rw [writes_append,idle absent,close_writes]
    rfl
  | renewed left held live => exact .renewed (kept.trans left) ((close_held next).trans held) (shut _)

theorem settle_turned (handled : HttpSession × List Output × Int) (turned : Turned s remain handled.1 handled.2.1) :
    Turned s remain (settle handled).1 (settle handled).2 := by
  have reads : ∀ more : List Output, calls more = [] → writes more = [] → Turned s remain handled.1 (handled.2.1++more) := by
    intro more silent none
    have wrote : writes (handled.2.1++more) = writes handled.2.1 := by rw [writes_append,none,List.append_nil]
    have same : sent (handled.2.1++more) = sent handled.2.1 := by
      unfold sent
      rw [wrote]
    cases turned with
    | stays kept held idle live =>
      exact .stays ((replaced_append silent).trans kept) held (fun absent => wrote.trans (idle absent)) (same ▸ live)
    | renewed left held live => exact .renewed ((replaced_append silent).trans left) held (same ▸ live)
  unfold settle
  split
  · exact turned.closing
  · dsimp only
    split
    · exact reads [.tryRead] rfl rfl
    · exact reads [] rfl rfl

theorem Turned.of_response {other : HttpSession} (turned : Turned other remain next outs) (same : other.response = s.response) :
    Turned s remain next outs := by
  have left : s.replaced outs = other.replaced outs := by
    unfold replaced
    rw [same]
  cases turned with
  | stays kept held idle live => exact .stays (left.trans kept) (same ▸ held) (fun absent => idle (same.trans absent)) live
  | renewed whole held live => exact .renewed ((left.trans whole).trans (by rw [same])) held live

theorem analyzed_same (analyzed : s.analyzeHeader = .ok (next,ret)) : next.response = s.response ∧ next.isClosed = s.isClosed := by
  unfold analyzeHeader at analyzed
  split at analyzed
  · cases analyzed
    exact ⟨rfl,rfl⟩
  · obtain ⟨read,-,analyzed⟩ := bind_ok.mp analyzed
    cases analyzed
    exact ⟨rfl,rfl⟩

theorem handleRequest_turned (live : Live s remain) (opened : s.isClosed = false)
    (handled : s.handleRequest server data = .ok (next,outs,ret)) : Turned s remain next outs := by
  have dispatched : ∀ given : HttpSession, given.response = s.response → given.isClosed = s.isClosed →
      Turned s remain (dispatch server given).1 (dispatch server given).2.1 := by
    intro given response closed
    refine (dispatch_turned (s:=given) ?_ (closed.trans opened)).of_response response
    exact fun isOpen r held => live (closed ▸ isOpen) r (response ▸ held)
  unfold handleRequest at handled
  split at handled
  · have same := Except.ok.inj handled
    have turned := dispatched {s with contentData:=s.contentData++data,continueFlag:=true} rfl rfl
    rwa [same] at turned
  · obtain ⟨⟨middle,code⟩,analyzed,handled⟩ := bind_ok.mp handled
    obtain ⟨response,closed⟩ := analyzed_same (s:={s with headerData:=s.headerData++data,continueFlag:=true}) analyzed
    dsimp only at response closed handled
    split at handled
    · cases handled
      exact .silent live response closed
    · split at handled
      · cases handled
        exact .silent live response closed
      · have same := Except.ok.inj handled
        have turned := dispatched {middle with contentData:=middle.contentData++middle.headerData.drop middle.contentStart.toNat}
          response closed
        rwa [same] at turned

theorem step_closed (closed : s.isClosed = true) (event : Event) : step server s event = .ok (s,[]) := if_pos closed

theorem step_turned (live : Live s remain) (turning : ∀ retCode sentSize, event ≠ .written retCode sentSize)
    (stepped : step server s event = .ok (next,outs)) : Turned s remain next outs := by
  by_cases closed : s.isClosed = true
  · rw [step_closed closed] at stepped
    cases stepped
    exact .silent live rfl rfl
  · have opened : s.isClosed = false := by simpa using closed
    unfold step at stepped
    rw [if_neg closed] at stepped
    cases event with
    | written retCode sentSize => exact absurd rfl (turning retCode sentSize)
    | respond call =>
      obtain ⟨rfl,rfl⟩ := ok_pair stepped
      refine .stays (replaced_silent (respond_silent s call)) (respond_held s call) ?_ (respond_live live call)
      intro absent
      unfold respond
      rw [absent]
      rfl
    | read retCode data =>
      dsimp only at stepped
      unfold onRead at stepped
      split at stepped
      · obtain ⟨rfl,rfl⟩ := ok_pair stepped
        exact (Turned.silent live rfl rfl).closing
      · obtain ⟨⟨middle,said,ret⟩,handled,settled⟩ := bind_ok.mp stepped
        have turned := settle_turned (middle,said,ret) (handleRequest_turned live opened handled)
        rwa [Except.ok.inj settled] at turned

theorem finishWrite_closed (closed : s.isClosed = true) (sentSize : Nat) : (s.finishWrite sentSize).1.isClosed = true := by
  unfold finishWrite
  split
  · exact closed
  · dsimp only
    split
    · exact closed
    · exact close_closed _

theorem finishWrite_held (s : HttpSession) (sentSize : Nat) :
    (s.finishWrite sentSize).1.response.toList.length = s.response.toList.length ∧ writes (s.finishWrite sentSize).2 = [] := by
  unfold finishWrite
  cases held : s.response with
  | none => exact ⟨by simp [held],rfl⟩
  | some r =>
    dsimp only
    split
    · exact ⟨rfl,rfl⟩
    · exact ⟨close_held _,close_writes _⟩

theorem onWrite_held (s : HttpSession) (retCode : Int) (sentSize : Nat) :
    (s.onWrite retCode sentSize).1.response.toList.length = s.response.toList.length ∧ writes (s.onWrite retCode sentSize).2 = [] := by
  unfold onWrite
  dsimp only
  rw [writes_append,(finishWrite_held _ sentSize).1,(finishWrite_held _ sentSize).2]
  split
  · exact ⟨close_held s,by rw [close_writes]; rfl⟩
  · exact ⟨rfl,rfl⟩

-- A completion without error, and when it closes.
theorem onWrite_success (opened : s.isClosed = false) (held : s.response = some r) (sentSize : Nat) :
    s.onWrite 0 sentSize = if r.continueFlag || r.remainBytes-sentSize > 0 then
        ({s with response:=some {r with remainBytes:=r.remainBytes-sentSize},continueFlag:=r.continueFlag},[])
      else ({s with
        response := some ({r with remainBytes:=r.remainBytes-sentSize}.setClose true)
        continueFlag := r.continueFlag
        isClosed := true},[.closed]) := by
  unfold onWrite finishWrite close
  simp only [ne_eq,not_true_eq_false,if_false,held,opened]
  split <;> rfl

theorem onWrite_live (live : Live s remain) (opened : s.isClosed = false) (retCode : Int) (sentSize : Nat) :
    Live (s.onWrite retCode sentSize).1 (remain-sentSize) := by
  by_cases success : retCode = 0
  · subst success
    cases held : s.response with
    | none =>
      have nothing : s.onWrite 0 sentSize = (s,[]) := by
        unfold onWrite finishWrite
        simp [held]
      rw [nothing]
      intro _ r same
      rw [held] at same
      cases same
    | some r =>
      obtain ⟨isOpen,attached,counts⟩ := live opened r held
      rw [onWrite_success opened held]
      split
      · intro _ q same
        cases same
        exact ⟨isOpen,attached,by rw [counts]⟩
      · exact live_closed rfl
  · apply live_closed
    unfold onWrite
    rw [if_pos success]
    exact finishWrite_closed (close_closed _) _

-- What a completion does to the session of a connection.
theorem written_step (server : Handlers HttpHandle) (live : Live s remain) (retCode : Int) (sentSize : Nat) : ∃ next outs,
    step server s (.written retCode sentSize) = .ok (next,outs) ∧ Live next (remain-sentSize) ∧ writes outs = [] ∧ calls outs = [] ∧
      next.response.toList.length = s.response.toList.length := by
  cases closed : s.isClosed with
  | true => exact ⟨s,[],step_closed closed _,live_closed closed,rfl,rfl,rfl⟩
  | false =>
    obtain ⟨held,quiet⟩ := onWrite_held s retCode sentSize
    exact ⟨_,_,if_neg (by simp [closed]),onWrite_live live closed retCode sentSize,quiet,
      (onWrite_untouched s retCode sentSize).1,held⟩

-- A call on a response that was replaced leaves the session alone, or closes it.
theorem respondEarlier_kept (called : s.respondEarlier r call = (other,next,outs)) :
    (next = s ∨ next.isClosed = true) ∧ next.response.toList.length = s.response.toList.length := by
  cases call with
  | close =>
    unfold respondEarlier at called
    dsimp only at called
    split at called
    · cases called
      exact ⟨.inl rfl,rfl⟩
    · obtain ⟨-,same⟩ := Prod.mk.inj called
      have closes := close_closed s
      have held := close_held s
      rw [same] at closes held
      exact ⟨.inr closes,held⟩
  | _ =>
    cases called
    exact ⟨.inl rfl,rfl⟩

theorem respondEarlier_quiet (s : HttpSession) {r : HttpResponse} {call : ResponseCall}
    (unwritten : ∀ data continueFlag, call = .write data continueFlag → (r.write data continueFlag).2 = []) :
    writes (s.respondEarlier r call).2.2 = [] := by
  cases call with
  | write data continueFlag =>
    unfold respondEarlier
    dsimp only
    rw [unwritten data continueFlag rfl]
    rfl
  | close =>
    unfold respondEarlier
    dsimp only
    split
    · rfl
    · exact close_writes s
  | _ => rfl

end HttpSession

namespace HttpDelivery
variable {server : Handlers HttpHandle} {transport : Transport} {s next : HttpDelivery} {outputs emitted : List Output}
  {events : List Event} {result : HttpSession × List HttpSession.Output}

-- Each response counts what was passed to it less what was reported since it
-- came, and the buffers on their way carry what is not completed.
structure Counted (outputs : List Output) (s : HttpDelivery) : Prop where
  live : s.session.Live (outstanding s.current outputs-excess s.current outputs)
  fresh : ∀ number, s.current < number → outstanding number outputs = 0 ∧ excess number outputs = 0
  writers : ∀ buffer ∈ s.inFlight, buffer.writer ≤ s.current
  carries : carried s.inFlight ≤ uncompleted outputs

theorem took_current (s : HttpDelivery) (transport : Transport) (answers : List Sealed) (result : HttpSession × List HttpSession.Output) :
    (s.took transport answers result).1.current =
      s.earlier.length+(s.session.replaced result.2).length+result.1.response.toList.length := by
  unfold took current
  rw [List.length_append]

theorem took_counted (transport : Transport) (counted : Counted outputs s) (answers : List Sealed)
    (turned : s.session.Turned (outstanding s.current outputs-excess s.current outputs) result.1 result.2) :
    Counted (outputs++(s.took transport answers result).2) (s.took transport answers result).1 := by
  have number := took_current s transport answers result
  have adds := visible_adds (s.took transport answers result).1.current
  obtain ⟨carries,wrote⟩ := asyncWrites_carries transport (s.took transport answers result).1.current answers result.2
  have emits : (s.took transport answers result).2 = result.2.flatMap (visible (s.took transport answers result).1.current) := rfl
  have before := counted.carries
  rw [emits]
  have grows : s.current ≤ (s.took transport answers result).1.current := by
    rw [number]
    unfold current
    cases turned with
    | stays kept same idle live => omega
    | renewed left held live =>
      rw [left]
      omega
  constructor
  · rw [outstanding_append,excess_append,(adds _ _).2.1,(adds _ result.2).2.2,if_pos rfl]
    cases turned with
    | stays kept same idle live =>
      have still : (s.took transport answers result).1.current = s.current := by
        rw [number,kept,same]
        rfl
      have counts : outstanding s.current outputs+sent result.2-(excess s.current outputs+0) =
          outstanding s.current outputs-excess s.current outputs+sent result.2 := by omega
      rw [still,counts]
      exact live
    | renewed left held live =>
      have next : s.current < (s.took transport answers result).1.current := by
        rw [number,left,held]
        exact Nat.lt_succ_self _
      rw [(counted.fresh _ next).1,(counted.fresh _ next).2,Int.zero_add,Int.add_zero,Int.sub_zero]
      exact live
  · intro other behind
    obtain ⟨first,second⟩ := counted.fresh other (Nat.lt_of_le_of_lt grows behind)
    rw [outstanding_append,excess_append,(adds _ _).2.1,(adds _ _).2.2,first,second,if_neg (Nat.ne_of_lt behind)]
    exact ⟨rfl,rfl⟩
  · intro buffer member
    rcases List.mem_append.mp member with old | new
    · exact Nat.le_trans (counted.writers buffer old) grows
    · exact Nat.le_of_eq (wrote buffer new)
  · rw [uncompleted_append,(adds 0 result.2).1]
    have flying : (s.took transport answers result).1.inFlight =
        s.inFlight++transport.asyncWrites (s.took transport answers result).1.current answers (writes result.2) := rfl
    rw [flying,carried_append]
    omega

-- The session behind a completion, and what is seen of it.
theorem completed_step (transport : Transport) (server : Handlers HttpHandle) (counted : Counted outputs s) (flying : s.inFlight = buffer::rest) (status : Int) : ∃ session outs,
    HttpSession.step server s.session (.written status buffer.size) = .ok (session,outs) ∧
      step server transport s (.completed status) =
        .ok ({s with session,inFlight:=rest},.completed s.current buffer::outs.flatMap (visible s.current)) ∧
      session.Live (outstanding s.current outputs-excess s.current outputs-buffer.size) ∧ writes outs = [] ∧
      session.response.toList.length = s.session.response.toList.length := by
  obtain ⟨session,outs,stepped,live,quiet,silent,held⟩ := HttpSession.written_step server counted.live status buffer.size
  refine ⟨session,outs,stepped,?_,live,quiet,held⟩
  have kept : s.session.replaced outs = [] := HttpSession.replaced_silent silent
  have still : current {s with session,inFlight:=rest} = s.current := congrArg (s.earlier.length+·) held
  have taken : took {s with inFlight:=rest} transport [] (session,outs) =
      ({s with session,inFlight:=rest},outs.flatMap (visible s.current)) := by
    unfold took
    dsimp only
    rw [kept,quiet,List.append_nil,still]
    exact Prod.ext (by simp [Transport.asyncWrites]) rfl
  unfold step run
  dsimp only
  rw [flying]
  dsimp only
  rw [stepped]
  dsimp only [Except.mapError,Except.map]
  rw [taken]

theorem completed_counted (counted : Counted outputs s) (flying : s.inFlight = buffer::rest) (session : HttpSession)
    (outs : List HttpSession.Output) (live : session.Live (outstanding s.current outputs-excess s.current outputs-buffer.size))
    (quiet : writes outs = []) (held : session.response.toList.length = s.session.response.toList.length) :
    Counted (outputs++.completed s.current buffer::outs.flatMap (visible s.current)) {s with session,inFlight:=rest} := by
  have still : current {s with session,inFlight:=rest} = s.current := congrArg (s.earlier.length+·) held
  have none := sent_quiet quiet
  have adds := fun number => visible_adds s.current number outs
  have member : buffer ∈ s.inFlight := by
    rw [flying]
    exact List.mem_cons_self
  constructor
  · rw [still,outstanding_append,excess_append,outstanding_cons,excess_cons,(adds _).2.1,(adds _).2.2,none,if_pos rfl]
    have counts : outstanding s.current outputs+((Output.completed s.current buffer).outstanding s.current+0)-
        (excess s.current outputs+((Output.completed s.current buffer).excess s.current+0)) =
        outstanding s.current outputs-excess s.current outputs-buffer.size := by
      simp only [Output.outstanding,Output.excess,if_true]
      omega
    rw [counts]
    exact live
  · rw [still]
    intro other behind
    obtain ⟨first,second⟩ := counted.fresh other behind
    have foreign : buffer.own other = 0 := if_neg (Nat.ne_of_lt (Nat.lt_of_le_of_lt (counted.writers buffer member) behind))
    rw [outstanding_append,excess_append,outstanding_cons,excess_cons,(adds _).2.1,(adds _).2.2,first,second,
      if_neg (Nat.ne_of_lt behind)]
    simp [Output.outstanding,Output.excess,foreign,Nat.ne_of_lt behind]
  · rw [still]
    intro other behind
    exact counted.writers other (by rw [flying]; exact List.mem_cons_of_mem _ behind)
  · have before := counted.carries
    rw [flying,carried_cons] at before
    rw [uncompleted_append,uncompleted_cons,(adds 0).1,none,Output.uncompleted]
    dsimp only
    omega

theorem respondEarlier_counted (transport : Transport) (counted : Counted outputs s) (found : s.earlier[index]? = some r) (call : ResponseCall)
    (answers : List Sealed) : Counted (outputs++(s.session.respondEarlier r call).2.2.flatMap (visible (index+1))) {s with
      session := (s.session.respondEarlier r call).2.1
      earlier := s.earlier.set index (s.session.respondEarlier r call).1
      inFlight := s.inFlight++transport.asyncWrites (index+1) answers (writes (s.session.respondEarlier r call).2.2)} := by
  generalize called : s.session.respondEarlier r call = result
  obtain ⟨other,session,outs⟩ := result
  dsimp only
  obtain ⟨kept,held⟩ := HttpSession.respondEarlier_kept called
  have inside : index < s.earlier.length := (List.getElem?_eq_some_iff.mp found).1
  have still : ∀ inFlight, current {session,earlier:=s.earlier.set index other,inFlight} = s.current := by
    intro inFlight
    unfold current
    rw [List.length_set,held]
  have front : index+1 ≤ s.current := Nat.le_trans inside (Nat.le_add_right _ _)
  have adds := fun number => visible_adds (index+1) number outs
  obtain ⟨carries,wrote⟩ := asyncWrites_carries transport (index+1) answers outs
  have before := counted.carries
  constructor
  · rw [still,outstanding_append,excess_append,(adds _).2.1,(adds _).2.2]
    rcases kept with rfl | closed
    · intro opened r held
      have apart : index+1 ≠ s.current := by
        unfold current
        rw [held]
        exact Nat.ne_of_lt (Nat.lt_succ_of_le inside)
      rw [if_neg apart,Int.add_zero,Int.add_zero]
      exact counted.live opened r held
    · exact HttpSession.live_closed closed
  · intro number behind
    have later : s.current < number := Nat.lt_of_le_of_lt (Nat.le_of_eq (still _).symm) behind
    obtain ⟨first,second⟩ := counted.fresh number later
    rw [outstanding_append,excess_append,(adds _).2.1,(adds _).2.2,first,second,if_neg (by omega)]
    exact ⟨rfl,rfl⟩
  · intro buffer member
    refine Nat.le_trans ?_ (Nat.le_of_eq (still _).symm)
    rcases List.mem_append.mp member with old | new
    · exact counted.writers buffer old
    · exact Nat.le_trans (Nat.le_of_eq (wrote buffer new)) front
  · rw [uncompleted_append,carried_append,(visible_adds (index+1) 0 outs).1]
    omega

-- A read, or a call on the response of the session.
theorem acted (counted : Counted outputs s) (event : HttpSession.Event)
    (turning : ∀ retCode sentSize, event ≠ .written retCode sentSize) (answers : List Sealed)
    (stepped : (run server s event).map (s.took transport answers) = .ok (next,emitted)) : ∃ result,
    HttpSession.step server s.session event = .ok result ∧ (next,emitted) = s.took transport answers result ∧
      s.session.Turned (outstanding s.current outputs-excess s.current outputs) result.1 result.2 := by
  obtain ⟨result,ran,same⟩ := map_ok.mp stepped
  have acts := mapError_ok.mp ran
  exact ⟨result,acts,same.symm,HttpSession.step_turned counted.live turning acts⟩

theorem counted_step (counted : Counted outputs s) (stepped : step server transport s event = .ok (next,emitted)) :
    Counted (outputs++emitted) next := by
  cases event with
  | read retCode data answers =>
    obtain ⟨result,-,same,turned⟩ := acted counted (.read retCode data) (by simp) answers stepped
    cases same
    exact took_counted transport counted answers turned
  | respond call answers =>
    obtain ⟨result,-,same,turned⟩ := acted counted (.respond call) (by simp) answers stepped
    cases same
    exact took_counted transport counted answers turned
  | respondEarlier index call answers =>
    unfold step at stepped
    dsimp only at stepped
    split at stepped
    · cases stepped
    · rename_i r found
      split at stepped
      · cases stepped
      · cases stepped
        exact respondEarlier_counted transport counted found call answers
  | completed status =>
    cases flying : s.inFlight with
    | nil =>
      unfold step at stepped
      dsimp only at stepped
      rw [flying] at stepped
      cases stepped
    | cons buffer rest =>
      obtain ⟨session,outs,-,completes,live,quiet,held⟩ := completed_step transport server counted flying status
      cases stepped.symm.trans completes
      exact completed_counted counted flying session outs live quiet held

theorem pending_carries (transport : Transport) :
    carried transport.pending = 0 ∧ ∀ buffer ∈ transport.pending, buffer.writer = 0 := by
  cases transport with
  | tcp => exact ⟨rfl,by simp [Transport.pending]⟩
  | tls flights =>
    constructor
    · simp [Transport.pending,carried,Function.comp_def]
    · intro buffer member
      obtain ⟨size,-,rfl⟩ := List.mem_map.mp member
      rfl

theorem counted_run (ran : (machine server transport).run events = .ok (s,outputs)) : Counted outputs s := by
  refine (machine server transport).history (fun _ outputs s => Counted outputs s) ?_
    (fun _ _ _ _ _ _ counted stepped => counted_step counted stepped) ran
  constructor
  · intro _ r held
    cases held
  · exact fun _ _ => ⟨rfl,rfl⟩
  · exact fun buffer member => Nat.le_of_eq ((pending_carries transport).2 buffer member)
  · exact Int.le_of_eq (pending_carries transport).1

-- What OnWrite makes of the next buffer.
theorem completed_closes (transport : Transport) (server : Handlers HttpHandle) (counted : Counted outputs s) (opened : s.session.isClosed = false) (flying : s.inFlight = buffer::rest) :
    ∃ next emitted, step server transport s (.completed 0) = .ok (next,.completed s.current buffer::emitted) ∧
      uncompleted emitted = 0 ∧ (.closed ∈ emitted ↔ ∃ r, s.session.response = some r ∧ r.continueFlag = false ∧
        outstanding s.current (outputs++[.completed s.current buffer]) ≤ excess s.current (outputs++[.completed s.current buffer])) := by
  obtain ⟨session,outs,stepped,completes,-,quiet,-⟩ := completed_step transport server counted flying 0
  have none := sent_quiet quiet
  refine ⟨_,_,completes,(visible_adds _ 0 outs).1.trans none,?_⟩
  have acts : HttpSession.step server s.session (.written 0 buffer.size) = .ok (s.session.onWrite 0 buffer.size) :=
    if_neg (by simp [opened])
  have same := Except.ok.inj (stepped.symm.trans acts)
  have counts : outstanding s.current (outputs++[.completed s.current buffer])-
      excess s.current (outputs++[.completed s.current buffer]) =
      outstanding s.current outputs-excess s.current outputs-buffer.size := by
    simp only [outstanding_append,excess_append,outstanding_cons,excess_cons,Output.outstanding,Output.excess,if_true]
    simp only [outstanding,excess,List.map_nil,List.sum_nil]
    omega
  cases held : s.session.response with
  | none =>
    have nothing : s.session.onWrite 0 buffer.size = (s.session,[]) := by
      unfold HttpSession.onWrite HttpSession.finishWrite
      simp [held]
    cases same.trans nothing
    simp
  | some r =>
    obtain ⟨-,-,remains⟩ := counted.live opened r held
    rw [HttpSession.onWrite_success opened held] at same
    split at same
    · rename_i goesOn
      cases same
      simp only [List.flatMap_nil,List.not_mem_nil,Option.some.injEq,false_iff,not_exists,not_and]
      rintro _ rfl finished
      simp only [finished,Bool.false_or,decide_eq_true_eq] at goesOn
      omega
    · rename_i stops
      cases same
      simp only [Bool.or_eq_true,decide_eq_true_eq,not_or,Bool.not_eq_true] at stops
      simp only [List.flatMap_cons,visible,List.flatMap_nil,List.append_nil,List.mem_singleton,Option.some.injEq,true_iff]
      exact ⟨r,rfl,stops.1,by omega⟩

theorem neverCutOff_of_covered (covered : Covered server transport events) : NeverCutOff server transport events := by
  intro before after s outputs next emitted shape ran stepped closes
  have counted := counted_run ran
  cases flying : s.inFlight with
  | nil =>
    unfold step at stepped
    dsimp only at stepped
    rw [flying] at stepped
    cases stepped
  | cons buffer rest =>
    by_cases closed : s.session.isClosed = true
    · obtain ⟨session,outs,acts,completes,-⟩ := completed_step transport server counted flying 0
      cases acts.symm.trans (HttpSession.step_closed closed _)
      cases stepped.symm.trans completes
      simp at closes
    · have opened : s.session.isClosed = false := by simpa using closed
      obtain ⟨_,later,completes,none,stops⟩ := completed_closes transport server counted opened flying
      cases stepped.symm.trans completes
      obtain ⟨r,held,finished,reached⟩ := stops.mp (by simpa using closes)
      have enough := covered before after s outputs r buffer rest shape ran opened held finished flying
      have carries := counted.carries
      have behind := carried_nonneg rest
      rw [flying,carried_cons] at carries
      rw [uncompleted_append] at enough
      rw [uncompleted_append,uncompleted_cons,none]
      simp only [uncompleted_cons,Output.uncompleted] at enough ⊢
      have nil : uncompleted [] = 0 := rfl
      omega

theorem covered_of_neverCutOff (complete : NeverCutOff server transport events) : Covered server transport events := by
  intro before after s outputs r buffer rest shape ran opened held finished flying behind
  have counted := counted_run ran
  obtain ⟨next,later,completes,none,stops⟩ := completed_closes transport server counted opened flying
  by_contra reached
  have whole := complete before after s outputs next _ shape ran completes
    (List.mem_cons_of_mem _ (stops.mpr ⟨r,held,finished,Int.not_lt.mp reached⟩))
  rw [uncompleted_append,uncompleted_cons,none] at whole
  rw [uncompleted_append,uncompleted_cons] at behind
  have nil : uncompleted [] = 0 := rfl
  omega

theorem asyncWrites_tcp (writer : Nat) (answers : List Sealed) (outs : List HttpSession.Output) :
    carried (Transport.tcp.asyncWrites writer answers (writes outs)) = sent outs ∧
      ∀ buffer ∈ Transport.tcp.asyncWrites writer answers (writes outs), buffer.writer = writer ∧ buffer.size = buffer.plain := by
  unfold sent
  induction writes outs with
  | nil => simp [Transport.asyncWrites,carried]
  | cons data rest ih =>
    obtain ⟨later,all⟩ := ih
    rw [Transport.asyncWrites,carried_append,List.map_cons,List.sum_cons,Int.natCast_add,← later]
    refine ⟨by simp [Transport.asyncWrite,carried],?_⟩
    intro buffer member
    rcases List.mem_append.mp member with front | behind
    · obtain rfl : buffer = ⟨writer,data.length,data.length⟩ := by simpa [Transport.asyncWrite] using front
      exact ⟨rfl,rfl⟩
    · exact all buffer behind

-- On plain TCP, when the responses are apart: all that is on its way belongs to
-- the response of the session, and no other byte is uncompleted.
structure Own (outputs : List Output) (s : HttpDelivery) : Prop where
  counted : Counted outputs s
  own : ∀ buffer ∈ s.inFlight, buffer.writer = s.current ∧ buffer.size = buffer.plain
  level : excess s.current outputs = 0
  whole : uncompleted outputs = outstanding s.current outputs
  carries : carried s.inFlight = uncompleted outputs
  idle : s.session.response = none → s.inFlight = []

theorem took_own (own : Own outputs s) (answers : List Sealed)
    (turned : s.session.Turned (outstanding s.current outputs-excess s.current outputs) result.1 result.2)
    (apart : s.session.replaced result.2 ≠ [] → s.inFlight = []) :
    Own (outputs++(s.took .tcp answers result).2) (s.took .tcp answers result).1 := by
  have counted := took_counted .tcp own.counted answers turned
  have number := took_current s .tcp answers result
  have adds := visible_adds (s.took .tcp answers result).1.current
  obtain ⟨carries,wrote⟩ := asyncWrites_tcp (s.took .tcp answers result).1.current answers result.2
  have emits : (s.took .tcp answers result).2 = result.2.flatMap (visible (s.took .tcp answers result).1.current) := rfl
  have flies : (s.took .tcp answers result).1.inFlight =
      s.inFlight++Transport.tcp.asyncWrites (s.took .tcp answers result).1.current answers (writes result.2) := rfl
  have room : outstanding (s.took .tcp answers result).1.current outputs = carried s.inFlight ∧
      excess (s.took .tcp answers result).1.current outputs = 0 ∧
      (∀ buffer ∈ s.inFlight, buffer.writer = (s.took .tcp answers result).1.current ∧ buffer.size = buffer.plain) ∧
      (result.1.response = none → s.inFlight = [] ∧ writes result.2 = []) := by
    cases turned with
    | stays kept same idle live =>
      have still : (s.took .tcp answers result).1.current = s.current := by
        rw [number,kept,same]
        rfl
      rw [still]
      refine ⟨own.whole.symm.trans own.carries.symm,own.level,own.own,?_⟩
      intro absent
      have none := HttpSession.absent_held same absent
      exact ⟨own.idle none,idle none⟩
    | renewed left held live =>
      have next : s.current < (s.took .tcp answers result).1.current := by
        rw [number,left,held]
        exact Nat.lt_succ_self _
      have empty : s.inFlight = [] := by
        cases old : s.session.response with
        | none => exact own.idle old
        | some r => exact apart (by simp [left,old])
      obtain ⟨none,level⟩ := own.counted.fresh _ next
      rw [empty]
      exact ⟨none,level,by simp,fun absent => by simp [absent] at held⟩
  obtain ⟨remains,level,all,idle⟩ := room
  rw [emits] at counted ⊢
  constructor
  · exact counted
  · intro buffer member
    rcases List.mem_append.mp member with old | new
    · exact all buffer old
    · exact wrote buffer new
  · rw [excess_append,(adds _ _).2.2,level]
    rfl
  · rw [uncompleted_append,outstanding_append,(adds (s.took .tcp answers result).1.current _).1,(adds _ _).2.1,if_pos rfl,remains,
      own.carries]
  · rw [flies,carried_append,uncompleted_append,(adds 0 _).1,carries,own.carries]
  · intro absent
    obtain ⟨empty,quiet⟩ := idle absent
    rw [flies,empty,quiet]
    rfl

theorem completed_own (own : Own outputs s) (flying : s.inFlight = buffer::rest) (session : HttpSession)
    (outs : List HttpSession.Output) (live : session.Live (outstanding s.current outputs-excess s.current outputs-buffer.size))
    (quiet : writes outs = []) (held : session.response.toList.length = s.session.response.toList.length) :
    Own (outputs++.completed s.current buffer::outs.flatMap (visible s.current)) {s with session,inFlight:=rest} := by
  have still : current {s with session,inFlight:=rest} = s.current := congrArg (s.earlier.length+·) held
  have none := sent_quiet quiet
  have adds := fun number => visible_adds s.current number outs
  have all := own.own
  rw [flying] at all
  obtain ⟨writer,size⟩ := all buffer List.mem_cons_self
  have carriesOwn : buffer.own s.current = buffer.plain := if_pos writer
  have before := own.carries
  rw [flying,carried_cons] at before
  constructor
  · exact completed_counted own.counted flying session outs live quiet held
  · rw [still]
    exact fun other member => all other (List.mem_cons_of_mem _ member)
  · rw [still,excess_append,excess_cons,(adds _).2.2,own.level,Output.excess,if_pos rfl,carriesOwn,size]
    omega
  · rw [still,uncompleted_append,outstanding_append,uncompleted_cons,outstanding_cons,(adds s.current).1,(adds _).2.1,none,
      if_pos rfl,Output.uncompleted,Output.outstanding,carriesOwn,own.whole]
  · rw [uncompleted_append,uncompleted_cons,(adds 0).1,none,Output.uncompleted]
    dsimp only
    omega
  · intro absent
    have empty := own.idle (HttpSession.absent_held held absent)
    rw [flying] at empty
    cases empty

-- A response that was replaced says nothing any more; it may close the session.
theorem respondEarlier_own (own : Own outputs s) (found : s.earlier[index]? = some r) (call : ResponseCall)
    (answers : List Sealed) (quiet : writes (s.session.respondEarlier r call).2.2 = []) :
    Own (outputs++(s.session.respondEarlier r call).2.2.flatMap (visible (index+1))) {s with
      session := (s.session.respondEarlier r call).2.1
      earlier := s.earlier.set index (s.session.respondEarlier r call).1
      inFlight := s.inFlight++Transport.tcp.asyncWrites (index+1) answers (writes (s.session.respondEarlier r call).2.2)} := by
  have counted := respondEarlier_counted .tcp own.counted found call answers
  generalize called : s.session.respondEarlier r call = result at counted quiet ⊢
  obtain ⟨other,session,outs⟩ := result
  obtain ⟨-,held⟩ := HttpSession.respondEarlier_kept called
  dsimp only at counted quiet ⊢
  have still : ∀ inFlight, current {session,earlier:=s.earlier.set index other,inFlight} = s.current := by
    intro inFlight
    unfold current
    rw [List.length_set,held]
  have none := sent_quiet quiet
  have adds := fun number => visible_adds (index+1) number outs
  have flies : s.inFlight++Transport.tcp.asyncWrites (index+1) answers [] = s.inFlight := List.append_nil _
  rw [quiet,flies] at counted ⊢
  constructor
  · exact counted
  · rw [still]
    exact own.own
  · rw [still,excess_append,(adds _).2.2,own.level]
    rfl
  · rw [still,uncompleted_append,outstanding_append,(adds 0).1,(adds _).2.1,none,own.whole]
    split <;> rfl
  · rw [uncompleted_append,(adds 0).1,none,Int.add_zero]
    exact own.carries
  · intro absent
    exact own.idle (HttpSession.absent_held held absent)

theorem own_step (own : Own outputs s) (apart : Apart server s event)
    (stepped : step server .tcp s event = .ok (next,emitted)) : Own (outputs++emitted) next := by
  cases event with
  | read retCode data answers =>
    obtain ⟨⟨session,outs⟩,acts,same,turned⟩ := acted own.counted (.read retCode data) (by simp) answers stepped
    cases same
    exact took_own own answers turned (apart session outs acts)
  | respond call answers =>
    obtain ⟨⟨session,outs⟩,acts,same,turned⟩ := acted own.counted (.respond call) (by simp) answers stepped
    cases same
    refine took_own own answers turned (fun left => absurd ?_ left)
    by_cases closed : s.session.isClosed = true
    · rw [HttpSession.step_closed closed] at acts
      cases acts
      exact HttpSession.replaced_silent rfl
    · have responds : HttpSession.step server s.session (.respond call) = .ok (s.session.respond call) := if_neg closed
      obtain ⟨-,rfl⟩ := ok_pair (responds.symm.trans acts)
      exact HttpSession.replaced_silent (HttpSession.respond_silent s.session call)
  | respondEarlier index call answers =>
    unfold step at stepped
    dsimp only at stepped
    split at stepped
    · cases stepped
    · rename_i r found
      split at stepped
      · cases stepped
      · cases stepped
        have quiet := HttpSession.respondEarlier_quiet s.session (fun data continueFlag write => apart r data continueFlag found write)
        exact respondEarlier_own own found call answers quiet
  | completed status =>
    cases flying : s.inFlight with
    | nil =>
      unfold step at stepped
      dsimp only at stepped
      rw [flying] at stepped
      cases stepped
    | cons buffer rest =>
      obtain ⟨session,outs,-,completes,live,quiet,held⟩ := completed_step .tcp server own.counted flying status
      cases stepped.symm.trans completes
      exact completed_own own flying session outs live quiet held

theorem covered_apart (apart : (machine server .tcp).Guarded (fun _ => Apart server) events) : Covered server .tcp events := by
  intro before after s outputs r buffer rest shape ran _ _ _ flying behind
  have own : Own outputs s := by
    refine (machine server .tcp).guarded_history (fun _ => Apart server) (fun _ outputs s => Own outputs s) ?_
      (fun _ _ _ _ _ _ own apart stepped => own_step own apart stepped) before ?_ ran
    · have started : (machine server .tcp).run [] = .ok ((machine server .tcp).initial,[]) := rfl
      exact ⟨counted_run started,by simp [machine,Transport.pending],rfl,rfl,rfl,fun _ => rfl⟩
    · rw [shape] at apart
      exact Machine.Guarded.front (machine server .tcp) apart
  obtain ⟨writer,size⟩ := own.own buffer (by rw [flying]; exact List.mem_cons_self)
  have carriesOwn : buffer.own s.current = buffer.plain := if_pos writer
  have whole := own.whole
  have level := own.level
  have nil : uncompleted [] = 0 ∧ outstanding s.current [] = 0 ∧ excess s.current [] = 0 := ⟨rfl,rfl,rfl⟩
  simp only [uncompleted_append,outstanding_append,excess_append,uncompleted_cons,outstanding_cons,excess_cons,
    Output.uncompleted,Output.outstanding,Output.excess,if_true,carriesOwn,size] at behind ⊢
  omega

-- Plaintext is counted up for the response that writes it, and what is reported
-- is counted down from the response that the session has by then.
theorem neverCutOff_iff (server : Handlers HttpHandle) (events : List Event) :
    (∀ transport, NeverCutOff server transport events ↔ Covered server transport events) ∧
      ((machine server .tcp).Guarded (fun _ => Apart server) events → NeverCutOff server .tcp events) :=
  ⟨fun _ => ⟨covered_of_neverCutOff,neverCutOff_of_covered⟩,fun apart => neverCutOff_of_covered (covered_apart apart)⟩

theorem cutOff_of (before : List Event) (left : Int) (closes : (((machine server transport).run before).toOption.bind fun reached =>
    (step server transport reached.1 (.completed 0)).toOption.map fun result =>
      (decide (.closed ∈ result.2),uncompleted (reached.2++result.2))) = some (true,left)) (behind : left ≠ 0) :
    ¬ NeverCutOff server transport (before++[.completed 0]) := by
  intro complete
  cases ran : (machine server transport).run before with
  | error fault =>
    rw [ran] at closes
    cases closes
  | ok reached =>
    rw [ran] at closes
    cases stepped : step server transport reached.1 (.completed 0) with
    | error fault =>
      simp [Except.toOption,stepped] at closes
    | ok result =>
      simp only [Except.toOption,Option.bind_some,stepped,Option.map_some,Option.some.injEq,Prod.mk.injEq,decide_eq_true_eq] at closes
      exact behind (closes.2.symm.trans (complete before [] _ _ _ _ rfl ran stepped closes.1))

-- An answer of one byte over TLS, in records 29 bytes longer than what they carry,
-- and on plain TCP a byte behind the request while its answer is on its way.
def shortAnswer : List Event :=
  [.read 0 (ascii "GET / HTTP/1.1"++blankLine) [⟨38,67,by decide,by decide⟩,⟨1,30,by decide,by decide⟩]]
def askedTwice : List Event := [.read 0 (ascii "GET / HTTP/1.1"++blankLine) [],.read 0 (ascii "x") [],.completed 0]

theorem answers_cutOff : ¬ NeverCutOff HttpSession.greeter (.tls []) (shortAnswer++[.completed 0]) ∧
    ¬ NeverCutOff HttpSession.greeter .tcp (askedTwice++[.completed 0]) :=
  ⟨cutOff_of shortAnswer 1 (by decide +kernel) (by decide),cutOff_of askedTwice 39 (by decide +kernel) (by decide)⟩

end HttpDelivery
end CoStream
