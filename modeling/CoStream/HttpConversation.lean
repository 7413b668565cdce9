import CoStream.Foundation.Ledger
import CoStream.HttpAnswers
import CoStream.HttpDelivery
import CoStream.HttpRoundTrip
import CoStream.HttpStatus

namespace CoStream
open Foundation

-- The request as its handler gets it.
abbrev HttpClient.asked (client : HttpClient) (path : Bytes) (pairs : List (Bytes × Bytes)) : HttpRequest :=
  HttpServer.route (client.sent path pairs)

-- What a handler sets on its response before it writes.
inductive Setting where
  | statusCode (code : Int)
  | status (phrase : Bytes)
  | header (key value : Bytes)
deriving DecidableEq,Repr

namespace Setting

def call : Setting → ResponseCall
  | .statusCode code => .setStatusCode code
  | .status phrase => .setStatus phrase
  | .header key value => .addHeader key value

def onto (r : HttpResponse) : Setting → HttpResponse
  | .statusCode code => {r with statusCode:=code}
  | .status phrase => {r with status:=phrase}
  | .header key value => {r with headers:=r.headers.insert key value}

end Setting

-- A handler that answers with one Write.
structure HttpAnswer where
  settings : List Setting
  data : Bytes

namespace HttpAnswer

def calls (answer : HttpAnswer) : List ResponseCall := answer.settings.map Setting.call++[.write answer.data false]
def response (answer : HttpAnswer) : HttpResponse := answer.settings.foldl Setting.onto {}
def bytes (answer : HttpAnswer) : Bytes := answer.response.head answer.data.length false++answer.data

-- The answers that come back as they are: the phrase is one word.
structure Plain (answer : HttpAnswer) : Prop where
  sendable : HttpClient.Sendable answer.response.statusCode answer.response.status answer.response.headers answer.data
  word : 32 ∉ answer.response.status
  short : answer.bytes.length < 2^31-65536

-- What the client should find.
structure ReadIn (answer : HttpAnswer) (r : HttpClientResponse) : Prop where
  ready : r.bodyReady = true
  statusCode : r.statusCode = answer.response.statusCode
  status : r.status = answer.response.status
  headers : r.headers = answer.response.headers.insert (ascii "Content-Length") (decimal answer.data.length)
  data : r.data = answer.data

def wire (answer : HttpAnswer) : HttpClient.Reply :=
  HttpClient.answered answer.response.statusCode answer.response.status
    (HttpClient.lengthOf answer.data::answer.response.headers.toList) answer.data

-- The settings change three fields.
theorem response_fresh (answer : HttpAnswer) : answer.response =
    {statusCode:=answer.response.statusCode,status:=answer.response.status,headers:=answer.response.headers} := by
  have kept : ∀ (settings : List Setting) (statusCode : Int) (status : Bytes) (headers : Headers),
      ∃ statusCode' status' headers', settings.foldl Setting.onto {statusCode,status,headers} =
        {statusCode:=statusCode',status:=status',headers:=headers'} := by
    intro settings
    induction settings with
    | nil => exact fun statusCode status headers => ⟨statusCode,status,headers,rfl⟩
    | cons setting rest ih =>
      intro statusCode status headers
      cases setting with
      | statusCode code => exact ih code status headers
      | status phrase => exact ih statusCode phrase headers
      | header key value => exact ih statusCode status (headers.insert key value)
  obtain ⟨statusCode,status,headers,settled⟩ := kept answer.settings 200 (ascii "OK") ∅
  have same : answer.response = {statusCode,status,headers} := settled
  rw [same]

theorem bytes_wire (answer : HttpAnswer) : answer.bytes = answer.wire.bytes := by
  have head := HttpClient.head_answered answer.response.statusCode answer.response.status answer.response.headers answer.data
  rw [← response_fresh] at head
  exact head

theorem wire_framed {answer : HttpAnswer} (plain : answer.Plain) : answer.wire.Framed := by
  have short := plain.short
  rw [bytes_wire] at short
  exact HttpClient.answered_framed plain.sendable (fun field member => (List.mem_cons.mp member).symm) List.mem_cons_self
    (HttpClient.fields_distinct plain.sendable).1 short

-- The status line and the header lines say what was set.
theorem wire_read {answer : HttpAnswer} (plain : answer.Plain) : ∃ named,
    HttpClient.readStatusLine {headerReady:=true} answer.wire.statusLine = .ok named ∧
      answer.ReadIn (answer.wire.heldAt named answer.wire.bytes) := by
  obtain ⟨named,read,coded,phrased⟩ := HttpClient.answered_named
    (HttpClient.lengthOf answer.data::answer.response.headers.toList) plain.sendable
  refine ⟨named,read,?_⟩
  have framed := wire_framed plain
  have length : (answer.wire.block++blankLine).length = answer.wire.block.length+4 := by simp [blankLine,crlf]
  have whole : answer.wire.bytes.drop (answer.wire.block.length+4) = answer.data := List.drop_left' length
  have complete : ¬ answer.wire.bytes.length < answer.wire.block.length+4 := by
    rw [HttpClient.Reply.bytes,List.length_append]
    omega
  have same : answer.response.status.filter (· != 32) = answer.response.status := by
    rw [List.filter_eq_self]
    intro letter member
    rw [bne_iff_ne]
    rintro rfl
    exact plain.word member
  unfold HttpClient.Reply.heldAt
  rw [if_neg complete,whole,decide_eq_true (Nat.le_refl _)]
  exact {
    ready := rfl
    statusCode := coded
    status := phrased.trans same
    headers := by
      apply Std.ExtTreeMap.ext_getElem?
      intro key
      exact (HttpClient.Reply.store_lookup framed key).trans (HttpClient.fields_stored plain.sendable key).1
    data := rfl}

end HttpAnswer

namespace HttpSession
variable {s : HttpSession}

theorem respondAll_settings (settings : List Setting) (held : s.response = some r) :
    s.respondAll (settings.map Setting.call) = ({s with response:=some (settings.foldl Setting.onto r)},[]) := by
  induction settings generalizing s r with
  | nil =>
    cases s
    cases held
    rfl
  | cons setting rest ih =>
    have first : s.respond setting.call = ({s with response:=some (setting.onto r)},[]) := by
      unfold respond
      rw [held]
      cases setting <;> rfl
    rw [List.map_cons,respondAll,first,ih rfl]
    rfl

-- The one Write puts the header and the data on the way, and counts them.
theorem respondAll_answer (answer : HttpAnswer) (filled : answer.data ≠ []) (held : s.response = some {}) :
    s.respondAll answer.calls = ({s with response:=some {answer.response with
        writtenHeader:=true,remainBytes:=answer.bytes.length}},
      [.wrote (answer.response.head answer.data.length false),.wrote answer.data]) := by
  have longer := List.length_pos_iff.mpr filled
  have wrote : answer.response.write answer.data false = ({answer.response with
      writtenHeader:=true,remainBytes:=answer.bytes.length},[answer.response.head answer.data.length false,answer.data]) := by
    unfold HttpAnswer.bytes
    rw [answer.response_fresh]
    simp [HttpResponse.write,longer]
  have settled := respondAll_settings answer.settings held
  unfold HttpAnswer.calls
  rw [respondAll_append,settled]
  change (({s with response:=some answer.response}.respond (.write answer.data false)).1,
    []++(({s with response:=some answer.response}.respond (.write answer.data false)).2++[])) = _
  simp only [respond,wrote]
  rfl

-- The session calls the handler and waits for its two writes.
structure Serving (s : HttpSession) (remainBytes : Int) : Prop where
  opened : s.isClosed = false
  response : ∃ r, s.response = some r ∧ r.continueFlag = false ∧ r.remainBytes = remainBytes

theorem callHandle_answer (answer : HttpRequest → HttpAnswer) (opened : s.isClosed = false) (held : s.response = some {})
    (filled : (answer s.request).data ≠ []) : ∃ next,
    settle (s.callHandle fun request => (answer request).calls) = (next,[
      .handled (fun request => (answer request).calls) s.request,
      .wrote ((answer s.request).response.head (answer s.request).data.length false),.wrote (answer s.request).data]) ∧
    next.Serving (answer s.request).bytes.length := by
  have plain : (answer s.request).response.continueFlag = false := by
    rw [HttpAnswer.response_fresh]
  have called := respondAll_answer (answer s.request) filled held
  refine ⟨{s with response:=some {(answer s.request).response with
    writtenHeader:=true,remainBytes:=(answer s.request).bytes.length},continueFlag:=false},?_,opened,_,rfl,plain,rfl⟩
  unfold callHandle
  rw [called]
  simp [settle,plain]

-- A completed write. The last one closes the session.
theorem step_serving (server : Handlers HttpHandle) (serving : s.Serving remainBytes) (size : Nat) : ∃ next outputs,
    step server s (.written 0 size) = .ok (next,outputs) ∧
      (remainBytes-size > 0 → next.Serving (remainBytes-size) ∧ outputs = []) ∧
      (¬ remainBytes-size > 0 → next.isClosed = true ∧ outputs = [.closed]) := by
  obtain ⟨r,held,flag,remain⟩ := serving.response
  have passes : step server s (.written 0 size) = .ok (s.onWrite 0 size) := by
    unfold step
    rw [serving.opened,if_neg Bool.false_ne_true]
  have counts : s.onWrite 0 size = (s.finishWrite size) := by
    unfold onWrite
    rw [if_neg (by decide)]
    rfl
  rw [passes,counts]
  unfold finishWrite
  rw [held]
  dsimp only
  rw [remain,flag,Bool.false_or]
  by_cases more : remainBytes-size > 0
  · rw [if_pos (decide_eq_true more)]
    exact ⟨_,_,rfl,fun _ => ⟨⟨serving.opened,_,rfl,rfl,rfl⟩,rfl⟩,fun none => absurd more none⟩
  · rw [if_neg (by rw [decide_eq_true_eq]; exact more)]
    unfold close
    dsimp only
    rw [serving.opened,if_neg Bool.false_ne_true]
    exact ⟨_,_,rfl,fun left => absurd left more,fun _ => ⟨rfl,rfl⟩⟩

-- The session behind a part of the request.
inductive Asking (client : HttpClient) (path : Bytes) (pairs : List (Bytes × Bytes)) (received : Bytes) :
    HttpSession → Prop where
  | header (continueFlag : Bool) (missing : find? blankLine received = none) :
      Asking client path pairs received {headerData:=received,continueFlag}
  | body (s : HttpSession) (rest : Bytes) (opened : s.isClosed = false) (ready : s.headerIsReady = true)
      (posts : client.method = .post) (asked : s.request = {client.sent path pairs with content:=[]})
      (unanswered : s.response = none) (content : s.contentData++rest = client.body)
      (cut : received++rest = client.onConnect) (more : rest ≠ []) : Asking client path pairs received s

variable {client : HttpClient} {path : Bytes} {pairs : List (Bytes × Bytes)} {received data rest : Bytes}

theorem Asking.opened (asking : Asking client path pairs received s) : s.isClosed = false := by
  cases asking with
  | header => rfl
  | body _ _ opened => exact opened

-- A read that completes the header leaves a part of the body behind it.
theorem find?_request (good : client.Wellformed path pairs) (cut : received++data++rest = client.onConnect)
    (missing : find? blankLine received = none) (found : find? blankLine (received++data) = some pos) :
    pos = client.headerBlock.length ∧ (received++data).take client.headerBlock.length = client.headerBlock ∧
      (received++data).drop (client.headerBlock.length+4)++rest = client.body := by
  obtain ⟨front,chunk,behind,split,absent,complete,block,content⟩ := HttpClient.reads_cut good [received,data,rest]
    (by simpa using cut)
  match front,split with
  | [],split =>
    obtain ⟨rfl,-⟩ := List.cons.inj split
    rw [List.flatten_nil,List.nil_append,missing] at complete
    cases complete
  | [first],split =>
    obtain ⟨rfl,others⟩ := List.cons.inj split
    obtain ⟨rfl,rfl⟩ := List.cons.inj others
    simp only [List.flatten_cons,List.flatten_nil,List.append_nil] at complete block content
    rw [complete] at found
    exact ⟨(Option.some.inj found).symm,block,content⟩
  | [first,second],split =>
    obtain ⟨rfl,others⟩ := List.cons.inj split
    obtain ⟨rfl,-⟩ := List.cons.inj others
    simp only [List.flatten_cons,List.flatten_nil,List.append_nil] at absent
    rw [absent] at found
    cases found
  | first::second::third::more,split =>
    have lengths := congrArg List.length split
    simp at lengths

theorem request_found (good : client.Wellformed path pairs) : find? blankLine client.onConnect ≠ none := by
  rw [HttpClient.find?_onConnect good.clear]
  exact Option.some_ne_none _

def served (answer : HttpRequest → HttpAnswer) (request : HttpRequest) : List Output := [
  .handled (fun request => (answer request).calls) request,
  .wrote ((answer request).response.head (answer request).data.length false),
  .wrote (answer request).data]

variable {server : Handlers HttpHandle} {answer : HttpRequest → HttpAnswer}

-- A POST is answered with the read that brings the last byte of its body.
theorem dispatch_answered (good : client.Wellformed path pairs)
    (registered : (HttpServer.getHandle server (client.sent path pairs)).2 = some fun request => (answer request).calls)
    (filled : (answer (client.asked path pairs)).data ≠ []) (posts : client.method = .post)
    (opened : s.isClosed = false) (asked : s.request = {client.sent path pairs with content:=[]})
    (unanswered : s.response = none) (content : s.contentData++rest = client.body) :
    rest ≠ [] ∧ settle (dispatch server s) = (s,if s.continueFlag then [.tryRead] else []) ∨
      rest = [] ∧ ∃ next, settle (dispatch server s) = (next,served answer (client.asked path pairs)) ∧
        next.Serving (answer (client.asked path pairs)).bytes.length := by
  have small := HttpClient.body_short good
  have total := congrArg List.length content
  rw [List.length_append] at total
  have method : s.request.method = ascii "POST" := by
    rw [asked]
    simp [HttpClient.sent,posts,HttpClient.methodName]
  have length : s.request.contentLength = client.body.length := by
    rw [asked]
    rfl
  by_cases last : rest = []
  · rw [last,List.append_nil] at content
    have handle : (HttpServer.getHandle server s.request).2 = some fun request => (answer request).calls := by
      rw [asked]
      exact registered
    have request : {HttpServer.route s.request with content:=s.contentData} = client.asked path pairs := by
      rw [asked,content]
      rfl
    rw [dispatch_whole server s method (by rw [length,content]) (by omega) handle,unanswered,request,Option.getD_none]
    exact .inr ⟨last,callHandle_answer answer opened rfl filled⟩
  · have longer := List.length_pos_iff.mpr last
    rw [dispatch_part server s method (by omega) (by omega)]
    exact .inl ⟨last,rfl⟩

-- One read: the request is not complete yet, or the handler is called for it.
theorem step_asking (good : client.Wellformed path pairs)
    (registered : (HttpServer.getHandle server (client.sent path pairs)).2 = some fun request => (answer request).calls)
    (filled : (answer (client.asked path pairs)).data ≠ []) (asking : Asking client path pairs received s)
    (cut : received++data++rest = client.onConnect) :
    rest ≠ [] ∧ (∃ next outputs, step server s (.read 0 data) = .ok (next,outputs) ∧
        (outputs = [] ∨ outputs = [.tryRead]) ∧ Asking client path pairs (received++data) next) ∨
      rest = [] ∧ ∃ next, step server s (.read 0 data) =
          .ok (next,served answer (client.asked path pairs)) ∧
        next.Serving (answer (client.asked path pairs)).bytes.length := by
  cases asking with
  | header flag missing =>
    cases found : find? blankLine (received++data) with
    | none =>
      have stepped := step_waiting server {headerData:=received,continueFlag:=flag} data rfl rfl found
      refine .inl ⟨?_,_,_,stepped,.inr rfl,.header true found⟩
      rintro rfl
      rw [List.append_nil] at cut
      rw [cut] at found
      exact request_found good found
    | some pos =>
      obtain ⟨rfl,block,content⟩ := find?_request good cut missing found
      have read : HttpRequest.readHeader {} ((received++data).take client.headerBlock.length) =
          .ok ({client.sent path pairs with content:=[]},true) := by
        rw [block]
        exact HttpClient.readHeader_sent good []
      have stepped := step_found server {headerData:=received,continueFlag:=flag} data _ rfl rfl found read
      cases method : client.method with
      | get =>
        have bodiless : client.body = [] := by simp [HttpClient.body,method]
        rw [bodiless] at content
        obtain ⟨nothing,ended⟩ := List.append_eq_nil_iff.mp content
        have request : HttpServer.route {client.sent path pairs with content:=[]} = client.asked path pairs := by
          simp [HttpServer.route,HttpClient.sent,bodiless]
        have isGet : ({client.sent path pairs with content:=[]} : HttpRequest).method = ascii "GET" := by
          simp [HttpClient.sent,method,HttpClient.methodName]
        have dispatched := dispatch_get server {readied {headerData:=received,continueFlag:=flag} data
          client.headerBlock.length {client.sent path pairs with content:=[]} with
          contentData:=[]++(received++data).drop (client.headerBlock.length+4)} isGet registered
        dsimp only [readied] at stepped dispatched
        rw [request] at dispatched
        rw [dispatched] at stepped
        obtain ⟨next,called,serving⟩ := callHandle_answer (s:={
          headerData:=received++data,contentData:=[]++(received++data).drop (client.headerBlock.length+4)
          request:=client.asked path pairs,response:=some {},contentStart:=client.headerBlock.length+4
          headerIsReady:=true,continueFlag:=true}) answer rfl rfl filled
        exact .inr ⟨ended,next,stepped.trans (congrArg Except.ok called),serving⟩
      | post =>
        rcases dispatch_answered (s:={readied {headerData:=received,continueFlag:=flag} data client.headerBlock.length
            {client.sent path pairs with content:=[]} with
            contentData:=[]++(received++data).drop (client.headerBlock.length+4)}) good registered filled method rfl rfl rfl
          content with ⟨more,waits⟩ | ⟨last,next,called,serving⟩
        · refine .inl ⟨more,_,_,stepped.trans (congrArg Except.ok waits),.inr rfl,?_⟩
          exact .body _ rest rfl rfl method rfl rfl content cut more
        · exact .inr ⟨last,next,stepped.trans (congrArg Except.ok called),serving⟩
  | body s behind opened ready posts asked unanswered content cut' more =>
    have same : behind = data++rest := by
      rw [← cut,List.append_assoc] at cut'
      exact List.append_cancel_left cut'
    have stepped := step_body server s data opened ready
    have content' : s.contentData++data++rest = client.body := by rw [List.append_assoc,← same,content]
    rcases dispatch_answered (s:={s with contentData:=s.contentData++data,continueFlag:=true}) good registered filled posts
        opened asked unanswered content' with ⟨more,waits⟩ | ⟨last,next,called,serving⟩
    · refine .inl ⟨more,_,_,stepped.trans (congrArg Except.ok waits),.inr rfl,?_⟩
      exact .body _ rest opened ready posts asked unanswered content' cut more
    · exact .inr ⟨last,next,stepped.trans (congrArg Except.ok called),serving⟩

end HttpSession

inductive ClientPhase where
  | connecting
  | reading
  | ended
deriving DecidableEq,Repr

-- One request over one connection without TLS. OnWrite of the client starts its
-- reading; what the session writes can be read before libuv reports the write.
structure HttpConversation where
  session : HttpSession := {}
  inFlight : List Nat := []
  hungUp : Bool := false
  client : HttpClient
  phase : ClientPhase := .connecting
  up : Bytes
  down : Bytes := []

namespace HttpConversation

inductive Event where
  | serverRead (data : Bytes)
  | completed
  | sent
  | clientRead (data : Bytes)
  | clientEnd (retCode : Int)
deriving DecidableEq,Repr

inductive Output where
  | handled (handler : HttpHandle) (request : HttpRequest)
  | httpRead (code : Int) (response : Option HttpClientResponse)

inductive Stopped where
  | disabled
  | server (exn : Exn)
  | client (stop : HttpClient.Stop)
deriving DecidableEq,Repr

-- The network loses nothing. The client reads the end of the stream once, behind
-- the bytes.
def Enabled (c : HttpConversation) : Event → Prop
  | .serverRead data => c.session.isClosed = false ∧ data ≠ [] ∧ data <+: c.up
  | .completed => c.inFlight ≠ []
  | .sent => c.phase = .connecting
  | .clientRead data => c.phase = .reading ∧ data ≠ [] ∧ data <+: c.down
  | .clientEnd retCode => c.phase = .reading ∧ c.hungUp = true ∧ c.down = [] ∧ retCode < 0

instance (c : HttpConversation) : (event : Event) → Decidable (Enabled c event)
  | .serverRead data => inferInstanceAs (Decidable (c.session.isClosed = false ∧ data ≠ [] ∧ data <+: c.up))
  | .completed => inferInstanceAs (Decidable (c.inFlight ≠ []))
  | .sent => inferInstanceAs (Decidable (c.phase = .connecting))
  | .clientRead data => inferInstanceAs (Decidable (c.phase = .reading ∧ data ≠ [] ∧ data <+: c.down))
  | .clientEnd retCode => inferInstanceAs (Decidable (c.phase = .reading ∧ c.hungUp = true ∧ c.down = [] ∧ retCode < 0))

def hangsUp : List HttpSession.Output → Bool
  | [] => false
  | .closed::_ => true
  | _::rest => hangsUp rest

def serve (c : HttpConversation) (result : HttpSession × List HttpSession.Output) : HttpConversation × List Output :=
  let written := HttpDelivery.writes result.2
  ({c with
    session:=result.1
    inFlight:=c.inFlight++written.map List.length
    down:=c.down++written.flatten
    hungUp:=c.hungUp || hangsUp result.2},(HttpSession.calls result.2).map fun call => .handled call.1 call.2)

def hear (c : HttpConversation) (read : HttpClient × HttpClient.Notice) : HttpConversation × List Output :=
  ({c with client:=read.1},(read.2.httpRead.map fun code => .httpRead code read.1.response).toList)

def act (server : Handlers HttpHandle) (c : HttpConversation) : Event → Except Stopped (HttpConversation × List Output)
  | .serverRead data => do
    let result ← (HttpSession.step server c.session (.read 0 data)).mapError .server
    .ok (serve {c with up:=c.up.drop data.length} result)
  | .completed => do
    let result ← (HttpSession.step server c.session (.written 0 (c.inFlight.headD 0))).mapError .server
    .ok (serve {c with inFlight:=c.inFlight.tail} result)
  | .sent => .ok ({c with phase:=.reading},[])
  | .clientRead data => do
    let read ← (c.client.onRead 0 data).mapError .client
    .ok (hear {c with down:=c.down.drop data.length} read)
  | .clientEnd retCode => do
    let read ← (c.client.onRead retCode []).mapError .client
    .ok (hear {c with phase:=.ended} read)

def step (server : Handlers HttpHandle) (c : HttpConversation) (event : Event) :
    Except Stopped (HttpConversation × List Output) :=
  if Enabled c event then act server c event else .error .disabled

def machine (server : Handlers HttpHandle) (client : HttpClient) : Machine HttpConversation Event Output Stopped :=
  ⟨{client,up:=client.onConnect},step server⟩

def handledIn (outputs : List Output) : List (HttpHandle × HttpRequest) :=
  outputs.flatMap fun
    | .handled handler request => [(handler,request)]
    | .httpRead _ _ => []

def toldIn (outputs : List Output) : List (Int × Option HttpClientResponse) :=
  outputs.flatMap fun
    | .handled _ _ => []
    | .httpRead code response => [(code,response)]

-- How many steps the client still has before it, its reads apart.
def left : ClientPhase → Nat
  | .connecting => 2
  | .reading => 1
  | .ended => 0

-- The session has writes on the way, or has closed behind the last one.
inductive Answering (c : HttpConversation) : Prop where
  | writing (serving : c.session.Serving c.inFlight.sum) (writes : c.inFlight ≠ []) (filled : ∀ size ∈ c.inFlight, 0 < size)
      (connected : c.hungUp = false)
  | closed (shut : c.session.isClosed = true) (completed : c.inFlight = []) (hungUp : c.hungUp = true)

variable {server : Handlers HttpHandle} {answer : HttpRequest → HttpAnswer} {client : HttpClient} {path : Bytes}
  {pairs : List (Bytes × Bytes)} {named : HttpClientResponse} {c next : HttpConversation} {count : Nat}
  {outputs emitted : List Output}

theorem Answering.moved (answering : Answering c) (session : next.session = c.session) (inFlight : next.inFlight = c.inFlight)
    (hungUp : next.hungUp = c.hungUp) : Answering next := by
  cases answering with
  | writing serving writes filled connected =>
    rw [← inFlight] at serving writes filled
    exact .writing (session ▸ serving) writes filled (hungUp.trans connected)
  | closed shut completed closed => exact .closed (session ▸ shut) (inFlight.trans completed) (hungUp.trans closed)

-- The handler has been called, and the client has read some of the answer.
structure Replying (answer : HttpRequest → HttpAnswer) (client : HttpClient) (path : Bytes) (pairs : List (Bytes × Bytes))
    (named : HttpClientResponse) (count : Nat) (outputs : List Output) (received : Bytes) (c : HttpConversation) : Prop where
  taken : c.up = []
  cut : received++c.down = (answer (client.asked path pairs)).wire.bytes
  answering : Answering c
  held : c.client.held = (answer (client.asked path pairs)).wire.heldAt named received
  handled : handledIn outputs =
    [(fun request => (answer request).calls,client.asked path pairs)]
  spent : count+c.inFlight.length+c.down.length+left c.phase ≤
    client.onConnect.length+(answer (client.asked path pairs)).bytes.length+4

inductive Holds (answer : HttpRequest → HttpAnswer) (client : HttpClient) (path : Bytes) (pairs : List (Bytes × Bytes))
    (named : HttpClientResponse) (count : Nat) (outputs : List Output) (c : HttpConversation) : Prop where
  | asking (received : Bytes) (asking : HttpSession.Asking client path pairs received c.session)
      (cut : received++c.up = client.onConnect) (more : c.up ≠ []) (quiet : outputs = []) (idle : c.inFlight = [])
      (nothing : c.down = []) (connected : c.hungUp = false) (same : c.client = client) (phase : c.phase ≠ .ended)
      (spent : count+c.up.length+left c.phase ≤ client.onConnect.length+2)
  | replying (received : Bytes) (replying : Replying answer client path pairs named count outputs received c)
      (phase : c.phase ≠ .ended) (more : c.down ≠ []) (untold : toldIn outputs = [])
  | replied (response : HttpClientResponse) (received : Bytes)
      (replying : Replying answer client path pairs named count outputs received c) (phase : c.phase = .reading)
      (nothing : c.down = []) (stored : c.client.response = some response) (told : toldIn outputs = [(0,some response)])
  | finished (response : HttpClientResponse) (code : Int) (received : Bytes)
      (replying : Replying answer client path pairs named count outputs received c) (phase : c.phase = .ended)
      (nothing : c.down = []) (stored : c.client.response = some response) (failed : code < 0)
      (told : toldIn outputs = [(0,some response),(code,some response)])

theorem handledIn_append (first second : List Output) : handledIn (first++second) = handledIn first++handledIn second :=
  List.flatMap_append
theorem toldIn_append (first second : List Output) : toldIn (first++second) = toldIn first++toldIn second :=
  List.flatMap_append

theorem serverRead_holds (good : client.Wellformed path pairs) (fresh : client.response = none)
    (registered : (HttpServer.getHandle server (client.sent path pairs)).2 = some fun request => (answer request).calls)
    (plain : (answer (client.asked path pairs)).Plain)
    (holds : Holds answer client path pairs named count outputs c) (enabled : Enabled c (.serverRead data)) :
    ∃ next emitted, act server c (.serverRead data) = .ok (next,emitted) ∧
      Holds answer client path pairs named (count+1) (outputs++emitted) next := by
  obtain ⟨opened,filled,rest,split⟩ := enabled
  have longer := List.length_pos_iff.mpr filled
  have unread : c.up ≠ [] := by
    intro taken
    rw [taken] at split
    exact filled (List.append_eq_nil_iff.mp split).1
  cases holds with
  | asking received asking cut more quiet idle nothing connected same phase spent =>
    have behind : c.up.drop data.length = rest := by rw [← split,List.drop_left]
    have shorter := congrArg List.length split
    rw [List.length_append] at shorter
    rw [← split,← List.append_assoc] at cut
    subst quiet
    rcases HttpSession.step_asking good registered plain.sendable.filled asking cut with
      ⟨unread',session,said,stepped,silent,asks⟩ | ⟨read,session,stepped,serving⟩
    · refine ⟨{c with session,up:=rest},[],?_,
        .asking (received++data) asks cut unread' rfl idle nothing connected same phase ?_⟩
      · rcases silent with rfl | rfl <;>
          simp [act,stepped,Except.mapError,serve,HttpDelivery.writes,hangsUp,HttpSession.calls,behind]
      · dsimp only
        omega
    · subst read
      have answered := HttpAnswer.bytes_wire (answer (client.asked path pairs))
      refine ⟨{c with
        session
        inFlight:=[((answer (client.asked path pairs)).response.head
          (answer (client.asked path pairs)).data.length false).length,
          (answer (client.asked path pairs)).data.length]
        down:=(answer (client.asked path pairs)).bytes
        up:=[]},[.handled (fun request => (answer request).calls) (client.asked path pairs)],?_,
        .replying [] ⟨rfl,?_,.writing ?_ (List.cons_ne_nil _ _) ?_ connected,?_,rfl,?_⟩ phase ?_ rfl⟩
      · have both : c.up.drop data.length = [] := behind
        simp [act,stepped,Except.mapError,serve,HttpDelivery.writes,hangsUp,HttpSession.calls,both,HttpSession.served,idle,
          nothing,connected,HttpAnswer.bytes]
      · exact answered
      · have sizes : (answer (client.asked path pairs)).bytes.length =
            List.sum [((answer (client.asked path pairs)).response.head
              (answer (client.asked path pairs)).data.length false).length,
              (answer (client.asked path pairs)).data.length] := by
          simp [HttpAnswer.bytes]
        rw [sizes] at serving
        exact serving
      · intro size member
        rcases List.mem_pair.mp member with rfl | rfl
        · rw [HttpResponse.head,List.length_append]
          exact Nat.lt_add_left _ (by decide)
        · exact List.length_pos_iff.mpr plain.sendable.filled
      · rw [same,HttpClient.held,fresh]
        simp [HttpClient.Reply.heldAt]
      · dsimp only [List.length_cons,List.length_nil]
        omega
      · exact List.append_ne_nil_of_right_ne_nil _ plain.sendable.filled
  | replying received replying => exact absurd replying.taken unread
  | replied response received replying => exact absurd replying.taken unread
  | finished response code received replying => exact absurd replying.taken unread

theorem completed_replying (server : Handlers HttpHandle)
    (replying : Replying answer client path pairs named count outputs received c) (writes : c.inFlight ≠ []) :
    ∃ next, act server c .completed = .ok (next,[]) ∧ next.phase = c.phase ∧ next.down = c.down ∧ next.client = c.client ∧
      Replying answer client path pairs named (count+1) outputs received next := by
  cases replying.answering with
  | closed _ completed => exact absurd completed writes
  | writing serving _ filled connected =>
    obtain ⟨size,rest,queue⟩ := List.exists_cons_of_ne_nil writes
    have spent := replying.spent
    have positive := filled size (by rw [queue]; exact List.mem_cons_self)
    have others : ∀ size ∈ rest, 0 < size :=
      fun size member => filled size (by rw [queue]; exact List.mem_cons_of_mem _ member)
    rw [queue,List.sum_cons] at serving
    rw [queue,List.length_cons] at spent
    obtain ⟨session,said,stepped,goesOn,ends⟩ := HttpSession.step_serving server serving size
    have remains : ((size+rest.sum : Nat) : Int)-size = rest.sum := by omega
    rw [remains] at goesOn ends
    by_cases more : (rest.sum : Int) > 0
    · obtain ⟨serving,rfl⟩ := goesOn more
      refine ⟨{c with session,inFlight:=rest},?_,rfl,rfl,rfl,
        ⟨replying.taken,replying.cut,.writing serving ?_ others connected,replying.held,replying.handled,?_⟩⟩
      · simp [act,queue,stepped,Except.mapError,serve,HttpDelivery.writes,hangsUp,HttpSession.calls]
      · rintro rfl
        simp at more
      · dsimp only
        omega
    · obtain ⟨shut,rfl⟩ := ends more
      have last : rest = [] := by
        cases rest with
        | nil => rfl
        | cons other rest =>
          have := others other List.mem_cons_self
          rw [List.sum_cons] at more
          omega
      subst last
      refine ⟨{c with session,inFlight:=[],hungUp:=true},?_,rfl,rfl,rfl,
        ⟨replying.taken,replying.cut,.closed shut rfl rfl,replying.held,replying.handled,?_⟩⟩
      · simp [act,queue,stepped,Except.mapError,serve,HttpDelivery.writes,hangsUp,HttpSession.calls]
      · dsimp only [List.length_nil]
        omega

theorem completed_holds (server : Handlers HttpHandle) (holds : Holds answer client path pairs named count outputs c)
    (enabled : Enabled c .completed) :
    ∃ next, act server c .completed = .ok (next,[]) ∧ Holds answer client path pairs named (count+1) outputs next := by
  cases holds with
  | asking received asking cut more quiet idle => exact absurd idle enabled
  | replying received replying phase more untold =>
    obtain ⟨next,acted,same,down,-,replying⟩ := completed_replying server replying enabled
    exact ⟨next,acted,.replying received replying (same ▸ phase) (down ▸ more) untold⟩
  | replied response received replying phase nothing stored told =>
    obtain ⟨next,acted,same,down,kept,replying⟩ := completed_replying server replying enabled
    exact ⟨next,acted,.replied response received replying (same.trans phase) (down.trans nothing) (kept ▸ stored) told⟩
  | finished response code received replying phase nothing stored failed told =>
    obtain ⟨next,acted,same,down,kept,replying⟩ := completed_replying server replying enabled
    exact ⟨next,acted,
      .finished response code received replying (same.trans phase) (down.trans nothing) (kept ▸ stored) failed told⟩

theorem sent_holds (holds : Holds answer client path pairs named count outputs c) (enabled : Enabled c .sent) :
    Holds answer client path pairs named (count+1) outputs {c with phase:=.reading} := by
  have connecting : c.phase = .connecting := enabled
  have two : left c.phase = 2 := by rw [connecting]; rfl
  have one : left .reading = 1 := rfl
  cases holds with
  | asking received asking cut more quiet idle nothing connected same phase spent =>
    exact .asking received asking cut more quiet idle nothing connected same
      (show ClientPhase.reading ≠ .ended by decide) (by dsimp only; omega)
  | replying received replying phase more untold =>
    have spent := replying.spent
    exact .replying received {replying with
      answering := replying.answering.moved rfl rfl rfl
      spent := by dsimp only; omega} (show ClientPhase.reading ≠ .ended by decide) more untold
  | replied response received replying phase =>
    rw [phase] at connecting
    cases connecting
  | finished response code received replying phase =>
    rw [phase] at connecting
    cases connecting

theorem clientRead_holds (plain : (answer (client.asked path pairs)).Plain)
    (status : HttpClient.readStatusLine {headerReady:=true}
      (answer (client.asked path pairs)).wire.statusLine = .ok named)
    (holds : Holds answer client path pairs named count outputs c) (enabled : Enabled c (.clientRead data)) :
    ∃ next emitted, act server c (.clientRead data) = .ok (next,emitted) ∧
      Holds answer client path pairs named (count+1) (outputs++emitted) next := by
  obtain ⟨phase,filled,rest,split⟩ := enabled
  have longer := List.length_pos_iff.mpr filled
  have waiting : c.down ≠ [] := by
    intro nothing
    rw [nothing] at split
    exact filled (List.append_eq_nil_iff.mp split).1
  cases holds with
  | asking received asking cut more quiet idle nothing => exact absurd nothing waiting
  | replied response received replying reading nothing => exact absurd nothing waiting
  | finished response code received replying ended nothing => exact absurd nothing waiting
  | replying received replying _ more untold =>
    have behind : c.down.drop data.length = rest := by rw [← split,List.drop_left]
    have spent := replying.spent
    have shorter := congrArg List.length split
    rw [List.length_append] at shorter
    have cut := replying.cut
    rw [← split,← List.append_assoc] at cut
    have framed := HttpAnswer.wire_framed plain
    obtain ⟨heard,read,stored⟩ := HttpClient.onRead_received framed status c.client replying.held (0,data) (Int.le_refl 0)
      filled ⟨rest,cut⟩
    have total := congrArg List.length cut
    rw [List.length_append] at total
    have held : heard.held = (answer (client.asked path pairs)).wire.heldAt named (received++data) := by
      rw [HttpClient.held,stored]
      rfl
    have after : Replying answer client path pairs named (count+1) outputs (received++data)
        {c with client:=heard,down:=rest} :=
      ⟨replying.taken,cut,replying.answering.moved rfl rfl rfl,held,replying.handled,by dsimp only; omega⟩
    have acted : act server c (.clientRead data) = .ok (hear {c with down:=rest} (heard,
        (answer (client.asked path pairs)).wire.noticeAt (received++data))) := by
      have heard' : c.client.onRead 0 data = _ := read
      simp only [act,heard',behind]
      rfl
    rw [acted]
    by_cases last : rest = []
    · rw [last,List.append_nil] at cut
      have whole : (answer (client.asked path pairs)).wire.noticeAt (received++data) = ⟨some 0,false⟩ := by
        rw [cut]
        exact if_pos (Nat.le_refl _)
      rw [whole]
      refine ⟨_,_,rfl,.replied _ (received++data) ?_ phase last stored ?_⟩
      · exact {after with handled := by rw [handledIn_append,after.handled]; rfl}
      · rw [toldIn_append,untold]
        simp [toldIn,stored]
    · have part : (answer (client.asked path pairs)).wire.noticeAt (received++data) = ⟨none,true⟩ := by
        have longer := List.length_pos_iff.mpr last
        exact if_neg (by omega)
      rw [part]
      refine ⟨_,_,rfl,.replying (received++data) ?_ (by change c.phase ≠ .ended; rw [phase]; decide) last ?_⟩
      · exact {after with handled := by rw [handledIn_append,after.handled]; rfl}
      · rw [toldIn_append,untold]
        rfl

theorem clientEnd_holds (holds : Holds answer client path pairs named count outputs c)
    (enabled : Enabled c (.clientEnd retCode)) : ∃ next emitted, act server c (.clientEnd retCode) = .ok (next,emitted) ∧
      Holds answer client path pairs named (count+1) (outputs++emitted) next := by
  obtain ⟨phase,hungUp,nothing,failed⟩ := enabled
  have one : left c.phase = 1 := by rw [phase]; rfl
  have zero : left .ended = 0 := rfl
  cases holds with
  | asking received asking cut more quiet idle nothing connected =>
    rw [connected] at hungUp
    cases hungUp
  | replying received replying _ more => exact absurd nothing more
  | finished response code received replying ended =>
    rw [ended] at phase
    cases phase
  | replied response received replying reading nothing stored told =>
    have spent := replying.spent
    refine ⟨{c with phase:=.ended},[.httpRead retCode (some response)],?_,.finished response retCode received
      ⟨replying.taken,replying.cut,replying.answering.moved rfl rfl rfl,replying.held,?_,by dsimp only; omega⟩
      rfl nothing stored failed ?_⟩
    · simp [act,HttpClient.onRead,failed,Except.mapError,hear,stored]
    · rw [handledIn_append,replying.handled]
      rfl
    · rw [toldIn_append,told]
      rfl

theorem step_holds (good : client.Wellformed path pairs) (fresh : client.response = none)
    (registered : (HttpServer.getHandle server (client.sent path pairs)).2 = some fun request => (answer request).calls)
    (plain : (answer (client.asked path pairs)).Plain)
    (status : HttpClient.readStatusLine {headerReady:=true}
      (answer (client.asked path pairs)).wire.statusLine = .ok named)
    (event : Event) (holds : Holds answer client path pairs named count outputs c) :
    step server c event = .error .disabled ∨ ∃ next emitted, step server c event = .ok (next,emitted) ∧
      Holds answer client path pairs named (count+1) (outputs++emitted) next := by
  unfold step
  by_cases enabled : Enabled c event
  · rw [if_pos enabled]
    right
    cases event with
    | serverRead data => exact serverRead_holds good fresh registered plain holds enabled
    | clientRead data => exact clientRead_holds plain status holds enabled
    | clientEnd retCode => exact clientEnd_holds holds enabled
    | completed =>
      obtain ⟨next,acted,holds⟩ := completed_holds server holds enabled
      exact ⟨next,[],acted,by rwa [List.append_nil]⟩
    | sent => exact ⟨_,[],rfl,by rw [List.append_nil]; exact sent_holds holds enabled⟩
  · rw [if_neg enabled]
    exact .inl rfl

-- The handler is called at most once, with the request that was asked for. The
-- callback of the client gets the whole answer, once, and the end of the
-- connection behind it. It takes no more steps than there are bytes, and four;
-- and there is always a next one until both have been told.
structure Conversed (answer : HttpRequest → HttpAnswer) (client : HttpClient) (path : Bytes) (pairs : List (Bytes × Bytes))
    (steps : Nat) (outputs : List Output) (c : HttpConversation) : Prop where
  handled : handledIn outputs <+: [(fun request => (answer request).calls,client.asked path pairs)]
  told : toldIn outputs = [] ∨ ∃ response, (answer (client.asked path pairs)).ReadIn response ∧
    handledIn outputs ≠ [] ∧ (toldIn outputs = [(0,some response)] ∨
      ∃ code, code < 0 ∧ toldIn outputs = [(0,some response),(code,some response)])
  short : steps ≤ client.onConnect.length+(answer (client.asked path pairs)).bytes.length+4
  ends : (∀ event, ¬ Enabled c event) → (toldIn outputs).length = 2

theorem Replying.once (replying : Replying answer client path pairs named count outputs received c) :
    handledIn outputs <+: [(fun request => (answer request).calls,client.asked path pairs)] :=
  replying.handled ▸ List.prefix_refl _

theorem Replying.whole
    (read : (answer (client.asked path pairs)).ReadIn
      ((answer (client.asked path pairs)).wire.heldAt named
        (answer (client.asked path pairs)).wire.bytes))
    (replying : Replying answer client path pairs named count outputs received c) (nothing : c.down = [])
    (stored : c.client.response = some response) :
    (answer (client.asked path pairs)).ReadIn response ∧ handledIn outputs ≠ [] := by
  have cut := replying.cut
  have held := replying.held
  rw [nothing,List.append_nil] at cut
  rw [HttpClient.held,stored,Option.getD_some,cut] at held
  refine ⟨held ▸ read,?_⟩
  rw [replying.handled]
  exact List.cons_ne_nil _ _

theorem Holds.conversed
    (read : (answer (client.asked path pairs)).ReadIn
      ((answer (client.asked path pairs)).wire.heldAt named
        (answer (client.asked path pairs)).wire.bytes))
    (holds : Holds answer client path pairs named count outputs c) : Conversed answer client path pairs count outputs c := by
  cases holds with
  | asking received asking cut more quiet idle nothing connected same phase spent =>
    subst quiet
    refine ⟨List.nil_prefix,.inl rfl,by omega,fun stuck => ?_⟩
    exact absurd ⟨asking.opened,more,List.prefix_refl _⟩ (stuck (.serverRead c.up))
  | replying received replying phase more untold =>
    have spent := replying.spent
    refine ⟨replying.once,.inl untold,by omega,fun stuck => ?_⟩
    cases now : c.phase with
    | connecting => exact absurd now (stuck .sent)
    | reading => exact absurd ⟨now,more,List.prefix_refl _⟩ (stuck (.clientRead c.down))
    | ended => exact absurd now phase
  | replied response received replying phase nothing stored told =>
    have spent := replying.spent
    obtain ⟨found,asked⟩ := replying.whole read nothing stored
    refine ⟨replying.once,.inr ⟨response,found,asked,.inl told⟩,by omega,
      fun stuck => ?_⟩
    cases replying.answering with
    | writing serving writes => exact absurd writes (stuck .completed)
    | closed shut completed hungUp => exact absurd ⟨phase,hungUp,nothing,by decide⟩ (stuck (.clientEnd (-4095)))
  | finished response code received replying phase nothing stored failed told =>
    have spent := replying.spent
    obtain ⟨found,asked⟩ := replying.whole read nothing stored
    exact ⟨replying.once,.inr ⟨response,found,asked,.inr ⟨code,failed,told⟩⟩,
      by omega,fun _ => by rw [told]; rfl⟩

-- However the two programs and the network interleave and cut the two streams,
-- a request is answered, with what its handler set and wrote.
theorem answer_returns (server : Handlers HttpHandle) (answer : HttpRequest → HttpAnswer) (client : HttpClient) (path : Bytes)
    (pairs : List (Bytes × Bytes)) (good : client.Wellformed path pairs) (fresh : client.response = none)
    (registered : (HttpServer.getHandle server (client.sent path pairs)).2 = some fun request => (answer request).calls)
    (plain : (answer (client.asked path pairs)).Plain) (events : List Event) :
    (∀ stopped, (machine server client).run events = .error stopped → stopped = .disabled) ∧
      ∀ c outputs, (machine server client).run events = .ok (c,outputs) →
        Conversed answer client path pairs events.length outputs c := by
  obtain ⟨named,status,read⟩ := HttpAnswer.wire_read plain
  have begins : Holds answer client path pairs named 0 [] (machine server client).initial := by
    refine .asking [] (.header false (by decide)) rfl ?_ rfl rfl rfl rfl rfl (show ClientPhase.connecting ≠ .ended by decide)
      (by dsimp only [machine,left]; omega)
    intro unsent
    exact HttpSession.request_found good (by rw [show client.onConnect = [] from unsent]; decide)
  obtain ⟨stops,holds⟩ := (machine server client).counted (Holds answer client path pairs named) begins
    (fun count outputs c event holds => step_holds good fresh registered plain status event holds) events
  exact ⟨stops,fun c outputs ran => (holds c outputs ran).conversed read⟩

-- A POST that is told how much came.
def counting (request : HttpRequest) : HttpAnswer where
  settings := [.statusCode 201,.status (ascii "Created")]
  data := decimal request.content.length

def countingServer : Handlers HttpHandle := HttpServer.addPostHandle {} (ascii "/up/") fun request => (counting request).calls

-- Its request in two reads, and the answer in two.
def uploading : List Event :=
  let request := HttpClient.upload.onConnect
  let reply := (counting (HttpClient.upload.asked (ascii "/up") [(ascii "k",ascii "v")])).bytes
  [.serverRead (request.take 20),.sent,.serverRead (request.drop 20),.clientRead (reply.take 30),.completed,
    .clientRead (reply.drop 30)]

theorem upload_returns : ∃ c outputs, (machine countingServer HttpClient.upload).run uploading = .ok (c,outputs) ∧
    (toldIn outputs).map (fun told => told.2.map HttpClientResponse.data) = [some (ascii "5")] ∧
    Conversed counting HttpClient.upload (ascii "/up") [(ascii "k",ascii "v")] uploading.length outputs c := by
  have seen : ((machine countingServer HttpClient.upload).run uploading).map (fun result =>
      (toldIn result.2).map fun told => told.2.map HttpClientResponse.data) = .ok [some (ascii "5")] := by decide +kernel
  obtain ⟨⟨c,outputs⟩,ran,told⟩ := map_ok.mp seen
  have bare : ∀ field, field ∉ (∅ : Headers).toList := by
    intro field member
    have held := Std.ExtTreeMap.mem_toList_iff_getElem?_eq_some.mp member
    simp at held
  have plain : (counting (HttpClient.upload.asked (ascii "/up") [(ascii "k",ascii "v")])).Plain :=
    ⟨⟨by decide,by decide +kernel,fun field member => absurd member (bare field),fun field member => absurd member (bare field),
      by decide⟩,by decide,by decide⟩
  refine ⟨c,outputs,ran,told,?_⟩
  exact (answer_returns countingServer counting HttpClient.upload (ascii "/up") [(ascii "k",ascii "v")]
    HttpClient.upload_wellformed rfl rfl plain uploading).2 c outputs ran

end HttpConversation
end CoStream
