import CoStream.WebSocketSession

namespace CoStream.WebSocketSession
open Foundation

def Announced (outputs : List Output) : Prop := ∃ data, .httpResponse data ∈ outputs

-- Nothing is parsed or sent as a frame before that.
def Orderly (outputs : List Output) : Prop :=
  ∀ before action after, outputs = before++.frame action::after → Announced before

-- The request that a read completes calls no handler that writes.
def HandlerSilent (server : WebSocketServer) (s : WebSocketSession) (data : Bytes) : Prop :=
  ∀ pos filled handle, find? blankLine (s.httpRecvBuffer++data) = some pos →
    readRequest server {s with httpRecvBuffer:=s.httpRecvBuffer++data,httpRequestReady:=true}
      ((s.httpRecvBuffer++data).take pos) = .ok (filled,handle) → ∀ call ∈ handle filled.path, call = .setSessionCallback

-- Where the order is kept: no read comes in after a request was refused, no ping
-- falls due before the request is complete, and neither the handler nor the
-- application writes earlier.
def Allowed (server : WebSocketServer) (outputs : List Output) (s : WebSocketSession) : Event → Prop
  | .read retCode data _ => s.base.close = false → 0 ≤ retCode →
      if s.httpRequestReady then s.base.isConnected = true ∨ Announced outputs else HandlerSilent server s data
  | .written _ => True
  | .timer nowMs => s.base.isConnected = true → nowMs-s.base.lastSendPingMs > 2000 →
      s.httpRequestReady = true ∨ Announced outputs
  | .call call => call = .setSessionCallback ∨ Announced outputs

variable {s next : WebSocketSession} {server : WebSocketServer}

theorem Announced.append (announced : Announced outputs) (more : List Output) : Announced (outputs++more) := by
  obtain ⟨data,member⟩ := announced
  exact ⟨data,List.mem_append_left _ member⟩

theorem Announced.behind (announced : Announced more) (outputs : List Output) : Announced (outputs++more) := by
  obtain ⟨data,member⟩ := announced
  exact ⟨data,List.mem_append_right _ member⟩

theorem Orderly.announced (orderly : Orderly outputs) (announced : Announced outputs) (more : List Output) :
    Orderly (outputs++more) := by
  intro before action after shape
  rcases List.append_eq_append_iff.mp shape.symm with ⟨middle,whole,rest⟩ | ⟨middle,whole,rest⟩
  · cases middle with
    | nil =>
      rw [List.append_nil] at whole
      exact whole ▸ announced
    | cons output middle =>
      rw [List.cons_append,List.cons.injEq] at rest
      exact orderly before action middle (by rw [whole,rest.1])
  · exact whole ▸ announced.append middle

theorem Orderly.frameless (orderly : Orderly outputs) (frameless : ∀ action, .frame action ∉ more) :
    Orderly (outputs++more) := by
  intro before action after shape
  rcases List.append_eq_append_iff.mp shape.symm with ⟨middle,whole,rest⟩ | ⟨middle,whole,rest⟩
  · cases middle with
    | nil => exact absurd (by rw [← List.nil_append more,← rest]; simp) (frameless action)
    | cons output middle =>
      rw [List.cons_append,List.cons.injEq] at rest
      exact orderly before action middle (by rw [whole,rest.1])
  · exact absurd (by rw [rest]; simp) (frameless action)

theorem applyAll_quiet (calls : List SessionCall) (quiet : ∀ call ∈ calls, call = .setSessionCallback)
    (s : WebSocketSession) : (s.applyAll calls).2 = [] := by
  induction calls generalizing s with
  | nil => rfl
  | cons call rest ih =>
    have first := quiet call List.mem_cons_self
    subst first
    rw [applyAll]
    exact ih (fun other member => quiet other (List.mem_cons_of_mem _ member)) _

structure Kept (s next : WebSocketSession) : Prop where
  path : next.path = s.path
  base : next.base = s.base
  ready : next.httpRequestReady = s.httpRequestReady

theorem Kept.trans (first : Kept s middle) (second : Kept middle next) : Kept s next :=
  ⟨second.path.trans first.path,second.base.trans first.base,second.ready.trans first.ready⟩

theorem requireField_keeps (checked : s.requireField key value missing wrong = .ok next) : Kept s next := by
  unfold requireField raise at checked
  split at checked
  · cases checked
  · dsimp only at checked
    split at checked
    · cases checked
    · cases checked
      exact ⟨rfl,rfl,rfl⟩

theorem readKey_keeps (read : s.readKey = .ok next) : Kept s next := by
  unfold readKey raise at read
  split at read
  · cases read
    exact ⟨rfl,rfl,rfl⟩
  · cases read

theorem readVersion_keeps (s : WebSocketSession) : Kept s s.readVersion := by
  unfold readVersion
  split <;> exact ⟨rfl,rfl,rfl⟩

theorem readProtocol_keeps (s : WebSocketSession) : Kept s s.readProtocol := by
  unfold readProtocol
  split <;> exact ⟨rfl,rfl,rfl⟩

theorem readFields_keeps (read : s.readFields lines = .ok next) : Kept s next := by
  obtain ⟨connected,first,read⟩ := bind_ok.mp read
  obtain ⟨upgraded,second,read⟩ := bind_ok.mp read
  obtain ⟨keyed,third,read⟩ := bind_ok.mp read
  cases read
  have lowered : Kept s {s with method:=string2Lower s.method,headers:=lines.foldl readLine s.headers} := ⟨rfl,rfl,rfl⟩
  exact lowered.trans ((requireField_keeps first).trans ((requireField_keeps second).trans
    ((readVersion_keeps upgraded).trans ((readKey_keeps third).trans (readProtocol_keeps keyed)))))

theorem readRequest_handle (read : readRequest server s content = .ok (next,handle)) :
    server.getHandle next.path = some handle ∧ next.base = s.base ∧ next.httpRequestReady = s.httpRequestReady := by
  unfold readRequest raise at read
  split at read
  · cases read
  · split at read
    · dsimp only at read
      split at read
      · cases read
      · rename_i handler registered
        obtain ⟨filled,fields,same⟩ := bind_ok.mp read
        cases same
        have kept := readFields_keeps fields
        exact ⟨by rw [kept.path]; exact registered,kept.base,kept.ready⟩
    · cases read

-- A throw leaves the frames alone, and the request marked as received.
theorem requireField_thrown (thrown : s.requireField key value missing wrong = .error (next,exn)) : Kept s next := by
  unfold requireField raise at thrown
  split at thrown
  · cases thrown
    exact ⟨rfl,rfl,rfl⟩
  · dsimp only at thrown
    split at thrown
    · cases thrown
      exact ⟨rfl,rfl,rfl⟩
    · cases thrown

theorem readKey_thrown (thrown : s.readKey = .error (next,exn)) : Kept s next := by
  unfold readKey raise at thrown
  split at thrown
  · cases thrown
  · cases thrown
    exact ⟨rfl,rfl,rfl⟩

theorem readFields_thrown (thrown : s.readFields lines = .error (next,exn)) : Kept s next := by
  have lowered : Kept s {s with method:=string2Lower s.method,headers:=lines.foldl readLine s.headers} := ⟨rfl,rfl,rfl⟩
  rcases bind_error.mp thrown with first | ⟨connected,connects,later⟩
  · exact lowered.trans (requireField_thrown first)
  have one := lowered.trans (requireField_keeps connects)
  rcases bind_error.mp later with second | ⟨upgraded,upgrades,last⟩
  · exact one.trans (requireField_thrown second)
  have two := one.trans ((requireField_keeps upgrades).trans (readVersion_keeps upgraded))
  rcases bind_error.mp last with third | ⟨keyed,-,never⟩
  · exact two.trans (readKey_thrown third)
  · cases never

theorem readRequest_thrown (thrown : readRequest server s content = .error (next,exn)) :
    next.base = s.base ∧ next.httpRequestReady = s.httpRequestReady := by
  unfold readRequest raise at thrown
  split at thrown
  · cases thrown
    exact ⟨rfl,rfl⟩
  · split at thrown
    · dsimp only at thrown
      split at thrown
      · cases thrown
        exact ⟨rfl,rfl⟩
      · rcases bind_error.mp thrown with fields | ⟨filled,-,never⟩
        · have kept := readFields_thrown fields
          exact ⟨kept.base,kept.ready⟩
        · cases never
    · cases thrown
      exact ⟨rfl,rfl⟩

-- What a read can do before the request is complete: wait for more, refuse it,
-- or call the handler and send the response.
theorem readHttp_cases (sha1 : Bytes → Bytes) (server : WebSocketServer) (s : WebSocketSession) (data : Bytes) :
    s.readHttp sha1 server data = ({s with httpRecvBuffer:=s.httpRecvBuffer++data},[.asyncRead]) ∨
    (s.readHttp sha1 server data).1.base.isConnected = false ∧ (s.readHttp sha1 server data).2 = [] ∨
    ∃ (filled : WebSocketSession) (handle : HandleWebSocket) (response : Bytes),
      (HandlerSilent server s data → ∀ call ∈ handle filled.path, call = .setSessionCallback) ∧
      (s.readHttp sha1 server data).2 =
        (filled.applyAll (handle filled.path)).2++[.httpResponse response]++[.asyncRead] := by
  unfold readHttp onHandleHttpRequest
  dsimp only
  cases found : find? blankLine (s.httpRecvBuffer++data) with
  | none => exact .inl rfl
  | some pos =>
    dsimp only
    cases read : readRequest server {s with httpRecvBuffer:=s.httpRecvBuffer++data,httpRequestReady:=true}
        ((s.httpRecvBuffer++data).take pos) with
    | error thrown => exact .inr (.inl ⟨rfl,rfl⟩)
    | ok result =>
      obtain ⟨filled,handle⟩ := result
      exact .inr (.inr ⟨filled,handle,_,fun silent => silent pos filled handle found read,rfl⟩)

-- A complete request with the connection still marked up was accepted.
def Accepted (outputs : List Output) (s : WebSocketSession) : Prop :=
  s.httpRequestReady = true → s.base.isConnected = true → Announced outputs

theorem onTimer_order (nowMs : Int) (orderly : Orderly outputs) (accepted : Accepted outputs s)
    (allowed : Allowed server outputs s (.timer nowMs)) :
    Orderly (outputs++(s.onTimer nowMs).2) ∧ Accepted (outputs++(s.onTimer nowMs).2) (s.onTimer nowMs).1 := by
  unfold onTimer
  split
  · exact ⟨by simpa using orderly,by simpa using accepted⟩
  · rename_i connected
    split
    · rename_i due
      have isConnected : s.base.isConnected = true := by simpa using connected
      have announced : Announced outputs := by
        rcases allowed isConnected due with ready | announced
        · exact accepted ready isConnected
        · exact announced
      exact ⟨orderly.announced announced _,fun _ _ => announced.append _⟩
    · exact ⟨by simpa using orderly,by simpa using accepted⟩

theorem apply_order (call : SessionCall) (orderly : Orderly outputs) (accepted : Accepted outputs s)
    (allowed : Allowed server outputs s (.call call)) :
    Orderly (outputs++(s.apply call).2) ∧ Accepted (outputs++(s.apply call).2) (s.apply call).1 := by
  rcases allowed with rfl | announced
  · exact ⟨by simpa [apply] using orderly,by simpa [apply,Accepted] using accepted⟩
  · exact ⟨orderly.announced announced _,fun _ _ => announced.append _⟩

theorem readHttp_order (sha1 : Bytes → Bytes) (quiet : HandlerSilent server s data) (orderly : Orderly outputs)
    (waiting : s.httpRequestReady = false) :
    Orderly (outputs++(s.readHttp sha1 server data).2) ∧
      Accepted (outputs++(s.readHttp sha1 server data).2) (s.readHttp sha1 server data).1 := by
  rcases readHttp_cases sha1 server s data with more | ⟨refused,silent⟩ | ⟨filled,handle,response,silent,emitted⟩
  · rw [more]
    refine ⟨orderly.frameless (by simp),fun ready => ?_⟩
    rw [waiting] at ready
    cases ready
  · rw [silent,List.append_nil]
    refine ⟨orderly,fun _ connected => ?_⟩
    rw [refused] at connected
    cases connected
  · rw [emitted,applyAll_quiet _ (silent quiet)]
    refine ⟨orderly.frameless (by simp),fun _ _ => ?_⟩
    exact Announced.behind ⟨response,by simp⟩ outputs

theorem onRead_order (sha1 : Bytes → Bytes) (orderly : Orderly outputs) (accepted : Accepted outputs s)
    (allowed : Allowed server outputs s (.read retCode data nowMs)) (opened : s.base.close = false)
    (read : s.onRead sha1 server retCode data nowMs = .ok (next,emitted)) :
    Orderly (outputs++emitted) ∧ Accepted (outputs++emitted) next := by
  unfold onRead at read
  split at read
  · cases read
    exact ⟨by simpa using orderly,fun _ connected => by cases connected⟩
  · rename_i good
    split at read
    · rename_i ready
      have announced : Announced outputs := by
        have either := allowed opened (by omega)
        rw [if_pos ready] at either
        rcases either with connected | announced
        · exact accepted ready connected
        · exact announced
      exact ⟨orderly.announced announced _,fun _ _ => announced.append _⟩
    · rename_i waiting
      have silent := allowed opened (by omega)
      rw [if_neg waiting] at silent
      have order := readHttp_order sha1 silent orderly (by simpa using waiting)
      rw [Except.ok.inj read] at order
      exact order

theorem step_order (sha1 : Bytes → Bytes) (orderly : Orderly outputs) (accepted : Accepted outputs s)
    (allowed : Allowed server outputs s event)
    (stepped : step sha1 server s event = .ok (next,emitted)) :
    Orderly (outputs++emitted) ∧ Accepted (outputs++emitted) next := by
  cases event with
  | read retCode data nowMs =>
    by_cases closed : s.base.close = true
    · have same := (if_pos closed).symm.trans stepped
      cases same
      exact ⟨by simpa using orderly,by simpa using accepted⟩
    · exact onRead_order sha1 orderly accepted allowed (by simpa using closed) ((if_neg closed).symm.trans stepped)
  | written retCode =>
    cases stepped
    refine ⟨by simpa using orderly,?_⟩
    rw [List.append_nil]
    unfold onWrite
    split
    · exact accepted
    · split
      · exact fun _ connected => by cases connected
      · exact accepted
  | timer nowMs =>
    have order := onTimer_order nowMs orderly accepted allowed
    rw [Except.ok.inj stepped] at order
    exact order
  | call call =>
    have order := apply_order call orderly accepted allowed
    rw [Except.ok.inj stepped] at order
    exact order

theorem frames_after_response (sha1 : Bytes → Bytes) (server : WebSocketServer) (startMs : Int) (events : List Event)
    (allowed : (machine sha1 server startMs).Guarded (Allowed server) events)
    (s : WebSocketSession) (outputs : List Output) (ran : (machine sha1 server startMs).run events = .ok (s,outputs)) :
    Orderly outputs := by
  have both := (machine sha1 server startMs).guarded_history (Allowed server)
    (fun _ outputs s => Orderly outputs ∧ Accepted outputs s) ?_ ?_ events allowed ran
  · exact both.1
  · exact ⟨fun before action after shape => by simp at shape,fun ready => by cases ready⟩
  · rintro events outputs s event next emitted ⟨orderly,accepted⟩ allowedHere stepped
    exact step_order sha1 orderly accepted allowedHere stepped

-- An opening handshake and one text frame behind it, and the digest that SHA1
-- gives for the key in it.
def openingBlock : Bytes :=
  ascii "GET /chat HTTP/1.1"++crlf++ascii "Connection: Upgrade"++crlf++ascii "Upgrade: websocket"++crlf++
  ascii "Sec-WebSocket-Key: dGhlIHNhbXBsZSBub25jZQ=="

def openingDigest : Bytes :=
  [0xb3,0x7a,0x4f,0x2c,0xc0,0x62,0x4f,0x16,0x90,0xf6,0x46,0x06,0xcf,0x38,0x59,0x45,0xb2,0xbe,0xc4,0xea]

def chatServer : WebSocketServer := WebSocketServer.addHandle {} (ascii "/chat") fun _ => [.setSessionCallback]

def chatTrace : List Event := [.read 0 (openingBlock++blankLine) 0,.read 0 [0x81,0x80,0,0,0,0] 5]

theorem chat_silent (s : WebSocketSession) (data : Bytes) : HandlerSilent chatServer s data := by
  intro pos filled handle found read
  have registered := (readRequest_handle read).1
  simp only [WebSocketServer.getHandle,chatServer,WebSocketServer.addHandle,Std.ExtTreeMap.getElem?_insert] at registered
  split at registered
  · cases registered
    simp
  · simp at registered

theorem chat_orderly : ∃ s outputs,
    (machine (fun _ => openingDigest) chatServer 0).run chatTrace = .ok (s,outputs) ∧ Orderly outputs := by
  have opens : ((machine (fun _ => openingDigest) chatServer 0).run [.read 0 (openingBlock++blankLine) 0]).map
      (fun result => (result.1.httpRequestReady,result.1.base.isConnected)) = .ok (true,true) := by decide +kernel
  have reads : ((machine (fun _ => openingDigest) chatServer 0).run chatTrace).map (·.1.base.isConnected) =
      .ok true := by decide +kernel
  obtain ⟨middle,first,seen⟩ := map_ok.mp opens
  obtain ⟨ready,connected⟩ := Prod.mk.inj seen
  obtain ⟨⟨final,outputs⟩,ran,-⟩ := map_ok.mp reads
  refine ⟨final,outputs,ran,frames_after_response _ _ _ chatTrace ?_ final outputs ran⟩
  intro before event after shape s earlier front
  match before,shape with
  | [],shape =>
    cases front
    cases shape
    exact fun _ _ => chat_silent _ _
  | [_],shape =>
    cases shape
    cases first.symm.trans front
    intro _ _
    rw [if_pos ready]
    exact .inl connected
  | _::_::_::_,shape => simp [chatTrace] at shape

-- A session that has refused a request takes the next read for frames, and a
-- fresh one pings at the first tick.
def refusedTrace : List Event := [.read 0 (ascii "GET /none HTTP/1.1"++blankLine) 0,.read 0 [0x81,0x80,0,0,0,0] 0]

theorem disorderly (first : (machine sha1 server startMs).run events = .ok (s,.frame action::rest)) :
    ∃ s outputs, (machine sha1 server startMs).run events = .ok (s,outputs) ∧ ¬Orderly outputs := by
  refine ⟨_,_,first,fun orderly => ?_⟩
  obtain ⟨data,member⟩ := orderly [] action rest rfl
  cases member

theorem refused_disorderly :
    (∃ s outputs, (machine (fun _ => []) {} 0).run refusedTrace = .ok (s,outputs) ∧ ¬Orderly outputs) ∧
    (∃ s outputs, (machine (fun _ => []) {} 0).run [.timer 5000] = .ok (s,outputs) ∧ ¬Orderly outputs) :=
  ⟨disorderly rfl,disorderly rfl⟩

end CoStream.WebSocketSession
