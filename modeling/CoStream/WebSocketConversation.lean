import CoStream.Foundation.Ledger
import CoStream.WebSocketTurn

namespace CoStream
open Foundation
open WebSocketSessionBase (sentFrames serverSends clientSends)

-- A session and a client of it behind the handshake, and the bytes between them
-- over a plain connection. Neither end shuts its connection down, so a read with
-- a negative code is an error of the connection: libuv then reads no more, and it
-- takes no more writes.
structure WebSocketConversation where
  server : WebSocketSession
  client : WebSocketClient
  up : Bytes := []
  down : Bytes := []
  drawn : Nat := 0
  serverLost : Bool := false
  clientLost : Bool := false

namespace WebSocketConversation

inductive Event where
  | server (event : WebSocketSession.Event)
  | client (event : WebSocketClient.Event)
deriving DecidableEq,Repr

-- `serverThrows` and `clientThrows` are the "uv_write error" of a send.
inductive Output where
  | server (output : WebSocketSession.Output)
  | client (output : WebSocketClient.Output)
  | serverThrows
  | clientThrows
deriving DecidableEq,Repr

inductive Stopped where
  | disabled
  | server (fault : Fault)
  | client (failure : WebSocketClient.Failure)
deriving DecidableEq,Repr

-- The network loses nothing on the way, but it can fail at any time.
def Enabled (c : WebSocketConversation) : Event → Prop
  | .server (.read retCode data _) => c.serverLost = false ∧ Arrives (5*1024) retCode data ∧ data <+: c.up
  | .client (.read retCode data _) =>
    c.clientLost = false ∧ c.client.connected = true ∧ Arrives (10*1024) retCode data ∧ data <+: c.down
  | _ => True

instance (c : WebSocketConversation) : (event : Event) → Decidable (Enabled c event)
  | .server (.read retCode data _) =>
    inferInstanceAs (Decidable (c.serverLost = false ∧ Arrives (5*1024) retCode data ∧ data <+: c.up))
  | .client (.read retCode data _) =>
    inferInstanceAs (Decidable
      (c.clientLost = false ∧ c.client.connected = true ∧ Arrives (10*1024) retCode data ∧ data <+: c.down))
  | .server (.written _) => inferInstanceAs (Decidable True)
  | .server (.timer _) => inferInstanceAs (Decidable True)
  | .server (.call _) => inferInstanceAs (Decidable True)
  | .client (.timer _) => inferInstanceAs (Decidable True)
  | .client (.call _) => inferInstanceAs (Decidable True)

-- Where uv_write refuses the first piece of a frame, its masking key is drawn and
-- nothing of it leaves.
def act (sha1 : Bytes → Bytes) (server : WebSocketServer) (random : Nat → MaskingKey) (c : WebSocketConversation) :
    Event → Except Stopped (WebSocketConversation × List Output)
  | .server event => do
    let (session,outputs) ← (c.server.step sha1 server event).mapError .server
    let (drawn,bytes) ← (transmit .server random c.drawn (serverSends outputs)).mapError .server
    if c.serverLost = true ∧ serverSends outputs ≠ [] then .ok ({c with drawn},[.serverThrows])
    else .ok ({c with
      server:=session
      up:=c.up.drop event.bytes.length
      down:=c.down++bytes
      drawn
      serverLost:=c.serverLost || event.loses},outputs.map .server)
  | .client event => do
    let (client,outputs) ← (c.client.step sha1 event).mapError .client
    let (drawn,bytes) ← (transmit .client random c.drawn (clientSends outputs)).mapError (.client ∘ .frame)
    if c.clientLost = true ∧ clientSends outputs ≠ [] then .ok ({c with drawn},[.clientThrows])
    else .ok ({c with
      client
      down:=c.down.drop event.bytes.length
      up:=c.up++bytes
      drawn
      clientLost:=c.clientLost || event.loses},outputs.map .client)

def step (sha1 : Bytes → Bytes) (server : WebSocketServer) (random : Nat → MaskingKey) (c : WebSocketConversation)
    (event : Event) : Except Stopped (WebSocketConversation × List Output) :=
  if Enabled c event then act sha1 server random c event else .error .disabled

def machine (sha1 : Bytes → Bytes) (server : WebSocketServer) (random : Nat → MaskingKey) (start : WebSocketConversation) :
    Machine WebSocketConversation Event Output Stopped :=
  ⟨start,step sha1 server random⟩

def serverSide (outputs : List Output) : List WebSocketSession.Output :=
  outputs.flatMap fun
    | .server output => [output]
    | _ => []

def clientSide (outputs : List Output) : List WebSocketClient.Output :=
  outputs.flatMap fun
    | .client output => [output]
    | _ => []

namespace Event

def serverSays : Event → List Said
  | .server event => event.said
  | .client _ => []
def clientSays : Event → List Said
  | .server _ => []
  | .client event => event.said

def serverFails : Event → Bool
  | .server event => event.loses
  | .client _ => false
def clientFails : Event → Bool
  | .server _ => false
  | .client event => event.loses

end Event

-- What each application says while its own end still has its connection. What it
-- says later is refused.
def serverSaid (events : List Event) : List Said :=
  (events.takeWhile fun event => !event.serverFails).flatMap Event.serverSays
def clientSaid (events : List Event) : List Said :=
  (events.takeWhile fun event => !event.clientFails).flatMap Event.clientSays

-- The messages that the two applications give are short enough to be counted.
def Short : Event → Prop
  | .server (.call call) => call.Short
  | .client (.call call) => call.Short
  | _ => True

variable {sha1 : Bytes → Bytes} {server : WebSocketServer} {random : Nat → MaskingKey} {c : WebSocketConversation}
  {events : List Event} {outputs : List Output}

theorem serverSends_append (first second : List WebSocketSession.Output) :
    serverSends (first++second) = serverSends first++serverSends second := List.filterMap_append
theorem clientSends_append (first second : List WebSocketClient.Output) :
    clientSends (first++second) = clientSends first++clientSends second := List.filterMap_append

-- Both ends are behind the handshake, and each direction carries what went in.
-- An end that lost its connection is silent, whatever its timer does.
structure Kept (events : List Event) (outputs : List Output) (c : WebSocketConversation) : Prop where
  server : c.server.Switched
  client : c.client.Switched
  up : Direction c.server.base.frame.buffer c.up (clientSends (clientSide outputs)) (clientSaid events)
    (WebSocketSession.delivered (serverSide outputs)) ((serverSends (serverSide outputs)).flatMap (Action.sent pongOf))
  down : Direction c.client.base.frame.buffer c.down (serverSends (serverSide outputs)) (serverSaid events)
    (WebSocketClient.delivered (clientSide outputs)) ((clientSends (clientSide outputs)).flatMap (Action.sent pongOf))
  unclosed : ∀ output ∈ clientSide outputs, output.unclosed
  serverLost : c.serverLost = events.any Event.serverFails
  clientLost : c.clientLost = events.any Event.clientFails
  serverQuiet : c.serverLost = true → c.server.base.isConnected = false
  clientQuiet : c.clientLost = true → c.client.base.isConnected = false
  serverThrows : .serverThrows ∈ outputs → c.serverLost = true
  clientThrows : .clientThrows ∈ outputs → c.clientLost = true

-- The state in which the handshake leaves both ends, with nothing between them.
structure Switched (start : WebSocketConversation) : Prop where
  server : start.server.Switched
  client : start.client.Switched
  serverIdle : start.server.base.frame.buffer = []
  clientIdle : start.client.base.frame.buffer = []
  nothingUp : start.up = []
  nothingDown : start.down = []
  serverReads : start.serverLost = false
  clientReads : start.clientLost = false

-- Reads that bring a request which is accepted and a response which is welcome
-- lead there, wherever they are cut, when the handler sets a callback.
theorem handshake_switched {startMs : Int} {block reply : Bytes} {filled : WebSocketSession} {handle : HandleWebSocket}
    {client : WebSocketClient} {r : HttpClientResponse}
    (accepted : WebSocketSession.readRequest server {WebSocketSession.fresh startMs with httpRequestReady:=true} block =
      .ok (filled,handle))
    (calledBack : (filled.applyAll (handle filled.path)).1.hasCallback = true) (waiting : client.Waiting)
    (isOpen : client.base.close = false) (welcome : WebSocketClient.Welcome sha1 client.key reply r) :
    Switched {server:=WebSocketSession.switched sha1 filled handle,client:=client.switched r} := by
  obtain ⟨base,ready⟩ := WebSocketSession.switched_base sha1 server startMs accepted
  have headed := (HttpClient.readResponse_data _ reply [] welcome.read).2
  have idle : client.base.frame.headerReady = false := by rw [waiting.frame]
  refine ⟨⟨ready,calledBack,?_⟩,⟨rfl,⟨isOpen,?_,waiting.empty⟩,_,rfl,headed,welcome.bodiless,rfl⟩,?_,?_,
    rfl,rfl,rfl,rfl⟩
  · rw [base]
    exact ⟨rfl,WebSocketSessionBase.pending_unready rfl,rfl⟩
  · exact WebSocketSessionBase.pending_unready idle
  · rw [base]
    rfl
  · exact congrArg WebSocketFrame.buffer waiting.frame

theorem Switched.kept (switched : Switched start) : Kept [] [] start where
  server := switched.server
  client := switched.client
  up := by
    rw [switched.serverIdle,switched.nothingUp]
    exact Direction.start
  down := by
    rw [switched.clientIdle,switched.nothingDown]
    exact Direction.start
  unclosed := fun _ member => absurd member List.not_mem_nil
  serverLost := switched.serverReads
  clientLost := switched.clientReads
  serverQuiet := fun lost => absurd (switched.serverReads.symm.trans lost) Bool.false_ne_true
  clientQuiet := fun lost => absurd (switched.clientReads.symm.trans lost) Bool.false_ne_true
  serverThrows := fun member => absurd member List.not_mem_nil
  clientThrows := fun member => absurd member List.not_mem_nil

def pingedBy (actions : List Action) : List Bytes := actions.flatMap (Action.sent pingOf)
def pongedBy (actions : List Action) : List Bytes := actions.flatMap (Action.sent pongOf)

-- Each application has heard the front of what the other said, whole messages,
-- in order and each once, and each end has answered the first pings of the
-- other; nothing is missing once a direction is read to its end. Only an end
-- that was told of an error throws.
structure Conversed (events : List Event) (outputs : List Output) (c : WebSocketConversation) : Prop where
  serverHears : WebSocketSession.delivered (serverSide outputs) <+: clientSaid events
  clientHears : WebSocketClient.delivered (clientSide outputs) <+: serverSaid events
  serverPongs : pongedBy (serverSends (serverSide outputs)) <+: pingedBy (clientSends (clientSide outputs))
  clientPongs : pongedBy (clientSends (clientSide outputs)) <+: pingedBy (serverSends (serverSide outputs))
  upRead : c.up = [] → WebSocketSession.delivered (serverSide outputs) = clientSaid events ∧
    pongedBy (serverSends (serverSide outputs)) = pingedBy (clientSends (clientSide outputs))
  downRead : c.down = [] → WebSocketClient.delivered (clientSide outputs) = serverSaid events ∧
    pongedBy (clientSends (clientSide outputs)) = pingedBy (serverSends (serverSide outputs))
  unclosed : ∀ code desc, .onClose code desc ∈ clientSide outputs → code = -1
  serverThrows : .serverThrows ∈ outputs → events.any Event.serverFails = true
  clientThrows : .clientThrows ∈ outputs → events.any Event.clientFails = true

theorem Kept.conversed (kept : Kept events outputs c) : Conversed events outputs c := by
  obtain ⟨upFront,upPongs⟩ := kept.up.fronts
  obtain ⟨downFront,downPongs⟩ := kept.down.fronts
  refine ⟨upFront,downFront,upPongs,downPongs,fun nothing => ?_,fun nothing => ?_,fun code desc => kept.unclosed _,
    fun threw => kept.serverLost.symm.trans (kept.serverThrows threw),
    fun threw => kept.clientLost.symm.trans (kept.clientThrows threw)⟩
  · have up := kept.up
    rw [nothing] at up
    exact up.whole
  · have down := kept.down
    rw [nothing] at down
    exact down.whole

def serverReads (nowMs : Int) (pieces : List Bytes) : List Event := pieces.map fun piece => .server (.read 0 piece nowMs)
def clientReads (nowMs : Int) (pieces : List Bytes) : List Event := pieces.map fun piece => .client (.read 0 piece nowMs)

-- A greeting that is cut in its masking key, a ping between the two reads, and
-- a word that the client says behind an error of its connection.
def met : WebSocketConversation where
  server := {base:={isConnected:=true},httpRequestReady:=true,hasCallback:=true}
  client := {
    http:={host:=ascii "h",response:=some {statusCode:=101,headerReady:=true}}
    key:=ascii "the sample nonce"
    base:={isConnected:=true}
    httpReady:=true}

def key (_ : Nat) : MaskingKey := ⟨1,2,3,4⟩
def greeted : List Event := [.client (.call (.asyncWriteText [104,105]))]
end WebSocketConversation
end CoStream
