import CoStream.HttpClientRequest
import CoStream.WebSocketBoundary

namespace CoStream
open Foundation
open WebSocketSessionBase (Read stream)

-- Reads that bring a text in pieces. The sockets hand on no empty ones.
structure Cut (text : Bytes) (reads : List Read) : Prop where
  whole : stream reads = text
  filled : ∀ read ∈ reads, read.data ≠ []

-- The last read brings the end of the block, since nothing follows it.
theorem Cut.waits (cut : Cut (block++blankLine) (front++rest)) (more : rest ≠ [])
    (found : find? blankLine (block++blankLine) = some block.length) : find? blankLine (stream front) = none := by
  obtain ⟨read,rest,rfl⟩ := List.exists_cons_of_ne_nil more
  have longer : stream (read::rest) ≠ [] := by simp [stream,cut.filled read (by simp)]
  have opening : Opening block front ⟨0,stream (read::rest)⟩ := by
    refine ⟨found,?_,?_⟩
    · have whole := cut.whole
      simpa [stream] using whole
    · intro other member
      rcases List.mem_cons.mp member with rfl | early
      · exact longer
      · exact cut.filled other (List.mem_append_left _ early)
  exact opening.waits

theorem Cut.opening (cut : Cut (block++blankLine) reads)
    (found : find? blankLine (block++blankLine) = some block.length) :
    ∃ front last, reads = front++[last] ∧ Opening block front last := by
  have present : reads ≠ [] := by
    rintro rfl
    have whole := cut.whole
    simp [stream,blankLine,crlf] at whole
  refine ⟨reads.dropLast,reads.getLast present,(List.dropLast_append_getLast present).symm,found,?_,?_⟩
  · have whole := cut.whole
    rw [← List.dropLast_append_getLast present] at whole
    simpa [stream] using whole
  · intro read member
    rcases List.mem_cons.mp member with rfl | early
    · exact cut.filled _ (List.getLast_mem present)
    · exact cut.filled read ((List.dropLast_sublist reads).subset early)

namespace WebSocketSession

-- The server's cut of a field's line: at its first blank, with the character in
-- front of it left out.
theorem readLine_field (headers : Headers) (field : Bytes × Bytes) (clear : 32 ∉ field.1) :
    readLine headers (HttpClient.fieldLine field) = headers.insert (string2Lower field.1) field.2 := by
  have layout : HttpClient.fieldLine field = (field.1++ascii ":")++32::[]++field.2 := by
    simp [HttpClient.fieldLine,ascii]
  have absent : 32 ∉ field.1++ascii ":" := by simp [clear,ascii]
  have found : find? (ascii " ") (HttpClient.fieldLine field) = some (field.1++ascii ":").length := by
    rw [layout]
    exact find?_first absent field.2
  have key : (HttpClient.fieldLine field).take (field.1.length+1-1) = field.1 := by
    rw [Nat.add_sub_cancel,HttpClient.fieldLine,List.append_assoc,List.take_left' rfl]
  have value : (HttpClient.fieldLine field).drop (field.1.length+1+1) = field.2 := List.drop_left' (by simp [ascii])
  unfold readLine
  rw [found,List.length_append]
  change headers.insert (string2Lower (if field.1.length+1 = 0 then _ else _)) _ = _
  rw [if_neg (by omega)]
  exact congr (congrArg (headers.insert ∘ string2Lower) key) value

def storeLower (headers : Headers) (fields : List (Bytes × Bytes)) : Headers :=
  fields.foldl (fun held field => held.insert (string2Lower field.1) field.2) headers

theorem foldl_readLine (fields : List (Bytes × Bytes)) (headers : Headers) (clear : ∀ field ∈ fields, 32 ∉ field.1) :
    (fields.map HttpClient.fieldLine).foldl readLine headers = storeLower headers fields := by
  induction fields generalizing headers with
  | nil => rfl
  | cons field rest ih =>
    rw [List.map_cons,List.foldl_cons,readLine_field headers field (clear field List.mem_cons_self)]
    exact ih _ fun other member => clear other (List.mem_cons_of_mem _ member)

variable {s : WebSocketSession}

theorem requireField_found (found : s.headers[key]? = some held) (same : string2Lower held = value) :
    s.requireField key value missing wrong = .ok {s with headers:=s.headers.insert key value} := by
  unfold requireField
  rw [found]
  dsimp only
  rw [if_neg (by simp [same]),same]

theorem readKey_found (found : s.headers[ascii "sec-websocket-key"]? = some value) :
    s.readKey = .ok {s with secWsKey:=value} := by
  unfold readKey
  rw [found]

theorem readVersion_headers (s : WebSocketSession) : s.readVersion.headers = s.headers := by
  unfold readVersion
  split <;> rfl

theorem readProtocol_key (s : WebSocketSession) : s.readProtocol.secWsKey = s.secWsKey := by
  unfold readProtocol
  split <;> rfl

theorem readFields_found (headers : Headers) (stored : lines.foldl readLine s.headers = headers)
    (connection : headers[ascii "connection"]? = some (ascii "Upgrade"))
    (upgrade : headers[ascii "upgrade"]? = some (ascii "websocket"))
    (key : headers[ascii "sec-websocket-key"]? = some value) :
    ∃ next, s.readFields lines = .ok next ∧ next.secWsKey = value := by
  let named : WebSocketSession := {s with method:=string2Lower s.method,headers}
  let connected : WebSocketSession := {named with headers:=named.headers.insert (ascii "connection") (ascii "upgrade")}
  let upgraded : WebSocketSession := {connected with headers:=connected.headers.insert (ascii "upgrade") (ascii "websocket")}
  have first : named.requireConnection = .ok connected := requireField_found connection (by decide)
  have still : connected.headers[ascii "upgrade"]? = some (ascii "websocket") := (insert_lookup _ _ _ _).trans upgrade
  have second : connected.requireUpgrade = .ok upgraded := requireField_found still (by decide)
  have third : upgraded.readVersion.readKey = .ok {upgraded.readVersion with secWsKey:=value} := by
    refine readKey_found ?_
    rw [readVersion_headers]
    exact (insert_lookup _ _ _ _).trans ((insert_lookup _ _ _ _).trans key)
  refine ⟨_,?_,readProtocol_key {upgraded.readVersion with secWsKey:=value}⟩
  unfold readFields
  rw [stored]
  exact bind_ok.mpr ⟨_,first,bind_ok.mpr ⟨_,second,bind_ok.mpr ⟨_,third,rfl⟩⟩⟩

end WebSocketSession

namespace WebSocketClient

def upgradeFields (key : Bytes) : List (Bytes × Bytes) := [
  (ascii "Connection",ascii "Upgrade"),
  (ascii "Sec-WebSocket-Key",base64Encode (key.take webSocketKeyLen)),
  (ascii "Sec-WebSocket-Version",decimal 13),
  (ascii "Upgrade",ascii "websocket")]

variable {server : WebSocketServer} {host path : Bytes} {handle : HandleWebSocket}

-- What the source's map holds, in its order, behind the two fields that OnConnect
-- writes itself.
theorem asyncConnect_fields (host key path : Bytes) : (asyncConnect {host} key path).http.fields =
    [(ascii "Accept",ascii "*/*"),(ascii "Host",host)]++upgradeFields key := rfl

theorem asyncConnect_clear (host key path : Bytes) (hostClear : 13 ∉ host) (pathClear : 13 ∉ path ∧ 32 ∉ path) :
    (asyncConnect {host} key path).http.Clear := by
  refine ⟨hostClear,pathClear,?_⟩
  have listed : (asyncConnect {host} key path).http.headers.toList = upgradeFields key := rfl
  rw [listed]
  intro field member
  simp only [upgradeFields,List.mem_cons,List.not_mem_nil,or_false] at member
  rcases member with rfl | rfl | rfl | rfl
  · decide
  · exact ⟨show 13 ∉ ascii "Sec-WebSocket-Key" by decide,base64Encode_clear _⟩
  · decide
  · decide

theorem fields_blankless (host key path : Bytes) : ∀ field ∈ (asyncConnect {host} key path).http.fields, 32 ∉ field.1 := by
  have names : ∀ name ∈ [ascii "Accept",ascii "Host",ascii "Connection",ascii "Sec-WebSocket-Key",
      ascii "Sec-WebSocket-Version",ascii "Upgrade"], 32 ∉ name := by decide
  rw [asyncConnect_fields]
  intro field member
  exact names field.1 (List.mem_map_of_mem member)

theorem asyncConnect_block (host key path : Bytes) (hostClear : 13 ∉ host) (pathClear : 13 ∉ path ∧ 32 ∉ path) :
    (asyncConnect {host} key path).http.onConnect = (asyncConnect {host} key path).http.headerBlock++blankLine ∧
    find? blankLine ((asyncConnect {host} key path).http.headerBlock++blankLine) =
      some (asyncConnect {host} key path).http.headerBlock.length := by
  have layout := HttpClient.onConnect_layout (asyncConnect {host} key path).http
  have bodiless : (asyncConnect {host} key path).http.body = [] := rfl
  rw [bodiless,List.append_nil] at layout
  have found := HttpClient.find?_onConnect (asyncConnect_clear host key path hostClear pathClear)
  rw [layout] at found
  exact ⟨layout,found⟩

theorem readRequest_asyncConnect (key : Bytes) (startMs : Int) (hostClear : 13 ∉ host) (pathClear : 13 ∉ path ∧ 32 ∉ path)
    (registered : server.getHandle path = some handle) :
    ∃ filled, WebSocketSession.readRequest server {WebSocketSession.fresh startMs with httpRequestReady:=true}
      (asyncConnect {host} key path).http.headerBlock = .ok (filled,handle) ∧
      filled.secWsKey = base64Encode (key.take webSocketKeyLen) := by
  have clear := asyncConnect_clear host key path hostClear pathClear
  let named : WebSocketSession := {WebSocketSession.fresh startMs with
    httpRequestReady:=true
    method:=ascii "GET"
    path}
  have stored := WebSocketSession.foldl_readLine _ named.headers (fields_blankless host key path)
  rw [asyncConnect_fields] at stored
  obtain ⟨filled,read,held⟩ := WebSocketSession.readFields_found _ stored rfl rfl rfl
  have asked : server.getHandle (asyncConnect {host} key path).http.subpath = some handle := registered
  refine ⟨filled,?_,held⟩
  unfold WebSocketSession.readRequest
  rw [HttpClient.split_headerBlock clear,HttpClient.lines]
  dsimp only
  rw [HttpClient.split_requestLine clear]
  dsimp only
  rw [asked]
  exact bind_ok.mpr ⟨_,read,rfl⟩

end WebSocketClient

namespace WebSocketSession

def welcomeFields (hashCode : Bytes) : List (Bytes × Bytes) := [
  (ascii "Upgrade",ascii "websocket"),
  (ascii "Connection",ascii "Upgrade"),
  (ascii "Sec-WebSocket-Accept",hashCode)]

def welcomeLines (hashCode : Bytes) : List Bytes :=
  ascii "HTTP/1.1 101 Switching Protocols"::(welcomeFields hashCode).map HttpClient.fieldLine

theorem switchingProtocols_layout (hashCode : Bytes) :
    switchingProtocols hashCode = crlf.intercalate (welcomeLines hashCode)++blankLine := by
  simp [switchingProtocols,welcomeLines,welcomeFields,HttpClient.fieldLine,List.intercalate,ascii,blankLine]

theorem welcomeLines_clear (hashCode : Bytes) (clear : 13 ∉ hashCode) :
    ∀ line ∈ welcomeLines hashCode, 13 ∉ line ∧ line ≠ [] := by
  intro line member
  simp only [welcomeLines,welcomeFields,List.map_cons,List.map_nil,List.mem_cons,List.not_mem_nil,or_false] at member
  rcases member with rfl | rfl | rfl | rfl
  · decide
  · decide
  · decide
  · simp [HttpClient.fieldLine,ascii,clear]

theorem find?_welcome (hashCode : Bytes) (clear : 13 ∉ hashCode) :
    find? blankLine (crlf.intercalate (welcomeLines hashCode)++blankLine) =
      some (crlf.intercalate (welcomeLines hashCode)).length := by
  have found : find? blankLine (crlf.intercalate (welcomeLines hashCode)++blankLine++[]) = _ :=
    find?_blank_line (by decide) (welcomeLines hashCode) (by simp [welcomeLines])
      (welcomeLines_clear hashCode clear) []
  rw [List.append_nil] at found
  exact found

end WebSocketSession

namespace WebSocketClient

-- The client takes the server's response, when the two hashes are the same.
theorem welcome_switchingProtocols (sha1 : Bytes → Bytes) (key : Bytes) : ∃ r, Welcome sha1 key
    (crlf.intercalate (WebSocketSession.welcomeLines (genWebSocketHashcode sha1 (base64Encode key)))) r := by
  have clear : 13 ∉ genWebSocketHashcode sha1 (base64Encode key) := base64Encode_clear _
  generalize accept : genWebSocketHashcode sha1 (base64Encode key) = hashCode at clear ⊢
  have lines := WebSocketSession.welcomeLines_clear hashCode clear
  have cut : split crlf (crlf.intercalate (WebSocketSession.welcomeLines hashCode)) =
      WebSocketSession.welcomeLines hashCode :=
    split_intercalate _ (fun line member => (lines line member).1) fun last ends =>
      (lines last (List.mem_of_getLast? ends)).2
  let started : HttpClientResponse := {
    headerReady := true
    statusCode := 101
    status := ascii "SwitchingProtocols"}
  have names : ∀ name ∈ [ascii "Upgrade",ascii "Connection",ascii "Sec-WebSocket-Accept"],
      58 ∉ name ∧ name ≠ ascii "Content-Length" := by decide
  have status : HttpClient.readStatusLine {headerReady:=true} (ascii "HTTP/1.1 101 Switching Protocols") = .ok started := by
    rfl
  have clearNames : ∀ field ∈ WebSocketSession.welcomeFields hashCode, 58 ∉ field.1 ∧ field.1 ≠ ascii "Content-Length" :=
    fun field member => names field.1 (List.mem_map_of_mem member)
  have fields := HttpClient.readHeaderLines_fields (WebSocketSession.welcomeFields hashCode) started
    fun field member => (clearNames field member).1
  rw [HttpClient.foldl_length _ _ fun field member => (clearNames field member).2] at fields
  have read : HttpClient.readResponse {headerReady:=true} (crlf.intercalate (WebSocketSession.welcomeLines hashCode)) =
      .ok {started with
        headers:=(WebSocketSession.welcomeFields hashCode).foldl (fun held field => held.insert field.1 field.2) ∅} := by
    unfold HttpClient.readResponse
    rw [cut]
    exact bind_ok.mpr ⟨_,status,fields⟩
  exact ⟨_,read,rfl,Int.le_refl 0,rfl,rfl,accept.symm⟩

theorem processed_connection (once : processed outputs = [.onConnection]) : outputs.count .onConnection = 1 := by
  have counted : (processed outputs).count .onConnection = outputs.count .onConnection := List.count_filter rfl
  rw [← counted,once]
  rfl

theorem processed_close (once : processed outputs = [.onConnection]) : ∀ code desc, .onClose code desc ∉ outputs := by
  intro code desc present
  have member : .onClose code desc ∈ processed outputs := List.mem_filter.mpr ⟨present,rfl⟩
  rw [once] at member
  simp at member

-- However the response is cut, the client is connected once it is whole.
theorem run_connected (sha1 : Bytes → Bytes) (host key path : Bytes) (replies : List Read)
    (cut : Cut (WebSocketSession.switchingProtocols (genWebSocketHashcode sha1 (base64Encode key))) replies) :
    ∃ final outputs, (machine sha1 (asyncConnect {host} key path)).run (replies.map event) = .ok (final,outputs) ∧
      processed outputs = [.onConnection] ∧ final.httpReady = true ∧ final.base.isConnected = true := by
  obtain ⟨r,welcome⟩ := welcome_switchingProtocols sha1 key
  rw [WebSocketSession.switchingProtocols_layout] at cut
  obtain ⟨front,last,rfl,opening⟩ := cut.opening (WebSocketSession.find?_welcome _ (base64Encode_clear _))
  have waiting : (asyncConnect {host} key path).Waiting := ⟨rfl,rfl,rfl,rfl⟩
  obtain ⟨outputs,ran,called⟩ := run_switched sha1 waiting rfl opening welcome []
  have plain : overrun last [] = last := by simp [overrun]
  rw [plain] at ran
  exact ⟨_,outputs,ran,called,rfl,rfl⟩

end WebSocketClient

namespace WebSocketSession

variable {server : WebSocketServer} {handle : HandleWebSocket}

-- What OnHandleHttpRequest returns when a read has been added to the buffer.
def returned (server : WebSocketServer) (s : WebSocketSession) (data : Bytes) : Except Thrown Int :=
  (onHandleHttpRequest server (s.buffered (s.httpRecvBuffer++data))).map (·.2.2)

def responses (outputs : List Output) : List Bytes :=
  outputs.filterMap fun
    | .httpResponse data => some data
    | _ => none

theorem responses_processed (outputs : List Output) : responses (processed outputs) = responses outputs := by
  induction outputs with
  | nil => rfl
  | cons output rest ih =>
    unfold responses processed at ih ⊢
    cases output with
    | frame action => cases action <;> simpa using ih
    | _ => simpa using ih

theorem applyAll_silent (calls : List SessionCall) (s : WebSocketSession) :
    responses (s.applyAll calls).2 = [] ∧ (s.applyAll calls).1.secWsKey = s.secWsKey := by
  induction calls generalizing s with
  | nil => exact ⟨rfl,rfl⟩
  | cons call rest ih =>
    obtain ⟨silent,kept⟩ := ih (s.apply call).1
    rw [applyAll]
    dsimp only
    unfold responses at silent ⊢
    rw [List.filterMap_append,silent,kept]
    cases call <;> exact ⟨rfl,rfl⟩

section accepted
variable (sha1 : Bytes → Bytes) {startMs : Int} {block : Bytes} {filled : WebSocketSession}
  (found : find? blankLine (block++blankLine) = some block.length)
  (accepted : readRequest server {fresh startMs with httpRequestReady:=true} block = .ok (filled,handle))
include found accepted

theorem returned_cut (front : List Read) (read : Read) (rest : List Read) (cut : Cut (block++blankLine) (front++read::rest)) :
    ∃ s outputs, (machine sha1 server startMs).run (front.map event) = .ok (s,outputs) ∧
      returned server s read.data = .ok (if stream front++read.data = block++blankLine then 0 else 1) := by
  obtain ⟨outputs,waited,-⟩ := runFrom_waiting sha1 server startMs front (fresh startMs) rfl rfl (cut.waits (by simp) found)
  refine ⟨_,outputs,waited,?_⟩
  have joined : stream (front++[read]) = stream front++read.data := by simp [stream]
  have collected : returned server ((fresh startMs).buffered (stream front)) read.data =
      (onHandleHttpRequest server ((fresh startMs).buffered (stream front++read.data))).map (·.2.2) := rfl
  refine collected.trans ?_
  by_cases more : rest = []
  · subst more
    have whole := cut.whole
    rw [joined] at whole
    have taken : ((fresh startMs).buffered (block++blankLine)).httpRecvBuffer.take block.length = block :=
      List.take_left' rfl
    have complete := onHandleHttpRequest_complete server ((fresh startMs).buffered (block++blankLine)) found
      (by rw [taken]; exact accepted)
    rw [if_pos whole,whole,complete]
    rfl
  · have rejoined : front++read::rest = front++[read]++rest := by simp
    rw [rejoined] at cut
    have missing := cut.waits more found
    rw [joined] at missing
    have short : stream front++read.data ≠ block++blankLine := by
      intro whole
      rw [whole,found] at missing
      cases missing
    have waits : onHandleHttpRequest server ((fresh startMs).buffered (stream front++read.data)) =
        .ok ((fresh startMs).buffered (stream front++read.data),[],1) := by
      unfold onHandleHttpRequest
      rw [show ((fresh startMs).buffered (stream front++read.data)).httpRecvBuffer = stream front++read.data from rfl,missing]
    rw [if_neg short,waits]
    rfl

theorem run_answered (requests : List Read) (cut : Cut (block++blankLine) requests) :
    ∃ session outputs, (machine sha1 server startMs).run (requests.map event) = .ok (session,outputs) ∧
      responses outputs = [switchingProtocols (filled.genHashcode sha1)] := by
  obtain ⟨front,last,rfl,opening⟩ := cut.opening found
  obtain ⟨outputs,ran,seen⟩ := run_switched sha1 server startMs opening accepted []
  have plain : overrun last [] = last := by simp [overrun]
  rw [plain] at ran
  refine ⟨_,outputs,ran,?_⟩
  obtain ⟨silent,kept⟩ := applyAll_silent (handle filled.path) filled
  have answered : responses (switching sha1 filled handle) =
      responses (filled.applyAll (handle filled.path)).2++
        [switchingProtocols ((filled.applyAll (handle filled.path)).1.genHashcode sha1)] := List.filterMap_append
  rw [← responses_processed,seen,responses_processed,answered,silent,List.nil_append,genHashcode,kept]
  rfl

end accepted

end WebSocketSession

-- A part of a request that cannot be taken for more than one.
def Plain (text : Bytes) : Prop := ∀ letter ∈ text, letter ≠ 32 ∧ letter ≠ 13 ∧ letter ≠ 10

-- Both sides of the opening handshake. SHA1 is any function.
theorem handshake_completes (sha1 : Bytes → Bytes) (server : WebSocketServer) (startMs : Int) (host path key : Bytes)
    (handle : HandleWebSocket) (sized : key.length = WebSocketClient.webSocketKeyLen) (hostPlain : Plain host)
    (pathPlain : Plain path) (registered : server.getHandle path = some handle) (requests : List Read)
    (sent : Cut (WebSocketClient.asyncConnect {host} key path).http.onConnect requests) :
    (∀ front read rest, requests = front++read::rest → ∃ s outputs,
      (WebSocketSession.machine sha1 server startMs).run (front.map WebSocketSession.event) = .ok (s,outputs) ∧
      WebSocketSession.returned server s read.data = .ok (if stream front++read.data =
        (WebSocketClient.asyncConnect {host} key path).http.onConnect then 0 else 1)) ∧
    ∃ session outputs response,
      (WebSocketSession.machine sha1 server startMs).run (requests.map WebSocketSession.event) = .ok (session,outputs) ∧
      WebSocketSession.responses outputs = [response] ∧
      ∀ replies, Cut response replies → ∃ final called,
        (WebSocketClient.machine sha1 (WebSocketClient.asyncConnect {host} key path)).run
          (replies.map WebSocketClient.event) = .ok (final,called) ∧
        called.count .onConnection = 1 ∧ (∀ code desc, .onClose code desc ∉ called) ∧
        final.httpReady = true ∧ final.base.isConnected = true := by
  have hostClear : 13 ∉ host := fun present => (hostPlain 13 present).2.1 rfl
  have pathClear : 13 ∉ path ∧ 32 ∉ path :=
    ⟨fun present => (pathPlain 13 present).2.1 rfl,fun present => (pathPlain 32 present).1 rfl⟩
  obtain ⟨layout,found⟩ := WebSocketClient.asyncConnect_block host key path hostClear pathClear
  obtain ⟨filled,accepted,held⟩ := WebSocketClient.readRequest_asyncConnect key startMs hostClear pathClear registered
  rw [layout] at sent ⊢
  constructor
  · rintro front read rest rfl
    exact WebSocketSession.returned_cut sha1 found accepted front read rest sent
  · obtain ⟨session,outputs,ran,answered⟩ := WebSocketSession.run_answered sha1 found accepted requests sent
    refine ⟨session,outputs,_,ran,answered,?_⟩
    intro replies cut
    -- Both sides hash the same text: the client sends its key whole.
    have hash : filled.genHashcode sha1 = WebSocketClient.genWebSocketHashcode sha1 (base64Encode key) := by
      rw [WebSocketSession.genHashcode,held,List.take_of_length_le (by omega)]
      rfl
    rw [hash] at cut
    obtain ⟨final,called,connected,once,ready,up⟩ := WebSocketClient.run_connected sha1 host key path replies cut
    exact ⟨final,called,connected,WebSocketClient.processed_connection once,WebSocketClient.processed_close once,ready,up⟩

theorem chat_handshake : ∃ session outputs response,
    (WebSocketSession.machine (fun _ => WebSocketSession.openingDigest) WebSocketSession.chatServer 0).run
      [.read 0 (chatClient.http.onConnect.take 30) 0,.read 0 (chatClient.http.onConnect.drop 30) 5] =
      .ok (session,outputs) ∧
    WebSocketSession.responses outputs = [response] ∧
    ∀ replies, Cut response replies → ∃ final called,
      (WebSocketClient.machine (fun _ => WebSocketSession.openingDigest) chatClient).run
        (replies.map WebSocketClient.event) = .ok (final,called) ∧
      called.count .onConnection = 1 ∧ (∀ code desc, .onClose code desc ∉ called) ∧
      final.httpReady = true ∧ final.base.isConnected = true := by
  have hostPlain : Plain (ascii "h") := by
    unfold Plain
    decide +kernel
  have pathPlain : Plain (ascii "/chat") := by
    unfold Plain
    decide +kernel
  have cut : Cut chatClient.http.onConnect
      [⟨0,chatClient.http.onConnect.take 30⟩,⟨5,chatClient.http.onConnect.drop 30⟩] := by
    refine ⟨by simp [stream],?_⟩
    decide +kernel
  exact (handshake_completes (fun _ => WebSocketSession.openingDigest) WebSocketSession.chatServer 0 (ascii "h")
    (ascii "/chat") (ascii "the sample nonce") (fun _ => [.setSessionCallback]) (by decide) hostPlain pathPlain rfl _ cut).2

end CoStream
