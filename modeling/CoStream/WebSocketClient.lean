import CoStream.HttpClient
import CoStream.WebSocketSession

namespace CoStream
open Foundation

-- `connected` is the is_connect_ of the TcpClient underneath: once it is down,
-- nothing is read any more.
structure WebSocketClient where
  http : HttpClient
  key : Bytes
  base : WebSocketSessionBase := {}
  httpReady : Bool := false
  connected : Bool := true

namespace WebSocketClient

inductive Failure where
  | http (stop : HttpClient.Stop)
  | frame (fault : Fault)
deriving DecidableEq,Repr

inductive Event where
  | read (retCode : Int) (data : Bytes) (nowMs : Int)
  | timer (nowMs : Int)
  | call (call : SessionCall)
deriving DecidableEq,Repr

inductive Output where
  | asyncRead
  | onConnection
  | onClose (code : Int) (desc : Bytes)
  | frame (action : Action)
  | onReadText (text : Bytes)
  | onReadData (data : Bytes)
  | closed
deriving DecidableEq,Repr

def webSocketKeyLen : Nat := 16

-- AsyncConnect, and the request it makes.
def asyncConnect (http : HttpClient) (key subpath : Bytes) : WebSocketClient :=
  let headers := (∅ : Headers)
    |>.insert (ascii "Upgrade") (ascii "websocket")
    |>.insert (ascii "Connection") (ascii "Upgrade")
    |>.insert (ascii "Sec-WebSocket-Key") (base64Encode (key.take webSocketKeyLen))
    |>.insert (ascii "Sec-WebSocket-Version") (decimal 13)
  {http:=http.get subpath headers,key}

def genWebSocketHashcode (sha1 : Bytes → Bytes) (key : Bytes) : Bytes :=
  base64Encode (sha1 (key++ascii "258EAFA5-E914-47DA-95CA-C5AB0DC85B11"))

-- The stringstream of HandleHttpRespone keeps the headers it was first filled
-- with: clear() resets its flags only.
def describe (headers : Headers) : Bytes :=
  ascii "\x7b"++headers.toList.flatMap (fun header => ascii " "++header.1++ascii ":"++header.2)++ascii "\x7d"

def refuse (client : WebSocketClient) (desc : Bytes) : WebSocketClient × List Output :=
  ({client with base:={client.base with isConnected:=false}},[.onClose (-1) desc])

-- operator[] of the map: a missing key is put in with an empty value.
def lookUp (r : HttpClientResponse) (key : Bytes) : HttpClientResponse := {r with headers:=r.headers.insertIfNew key []}

def respond (client : WebSocketClient) (r : HttpClientResponse) : WebSocketClient :=
  {client with http:={client.http with response:=some r}}

-- The Upgrade error reports the Connection field, as the source does.
def handleHttpRespone (sha1 : Bytes → Bytes) (client : WebSocketClient) (r : HttpClientResponse) :
    WebSocketClient × List Output :=
  if r.statusCode ≠ 101 then
    client.refuse (describe r.headers++ascii "websocket http response code error:"++printInt r.statusCode)
  else
    let connectionDesc := r.headers.getD (ascii "Connection") []
    let first := lookUp r (ascii "Connection")
    if connectionDesc ≠ ascii "Upgrade" then
      (client.respond first).refuse
        (describe r.headers++ascii "websocket http response Connection error:"++connectionDesc)
    else
      let upgradeDesc := r.headers.getD (ascii "Upgrade") []
      let second := lookUp first (ascii "Upgrade")
      if upgradeDesc ≠ ascii "websocket" then
        (client.respond second).refuse
          (describe r.headers++ascii "websocket http response Upgrade error:"++connectionDesc)
      else
        let hashCode := genWebSocketHashcode sha1 (base64Encode client.key)
        let acceptHash := r.headers.getD (ascii "Sec-WebSocket-Accept") []
        let third := lookUp second (ascii "Sec-WebSocket-Accept")
        if hashCode ≠ acceptHash then
          (client.respond third).refuse
            (describe r.headers++ascii "websocket http response Sec-WebSocket-Accept error, response:"++acceptHash++
              ascii ", local hash:"++hashCode)
        else
          ({client.respond {third with data:=[]} with httpReady:=true,base:={client.base with isConnected:=true}},
            [.onConnection])

def perform (client : WebSocketClient) : Action → WebSocketClient × List Output
  | .handleWsData data opCode =>
    if opCode = wsOpTextType then (client,[.onReadText data])
    else if opCode = wsOpBinType then (client,[.onReadData data])
    else (client,[])
  | .handleWsClose data =>
    if client.base.close then (client,[])
    else ({client with base:={client.base with close:=true,isConnected:=false},connected:=false},
      [.frame (WebSocketSession.closeReply data),.onClose 0 (ascii "close"),.closed])
  | action => (client,[.frame action])

def performAll (client : WebSocketClient) : List Action → WebSocketClient × List Output
  | [] => (client,[])
  | action::rest =>
    let later := (client.perform action).1.performAll rest
    (later.1,(client.perform action).2++later.2)

def readFrames (client : WebSocketClient) (r : HttpClientResponse) (nowMs : Int) :
    Except Failure (WebSocketClient × List Output) := do
  let (base,actions,_) ← (client.base.handleFrame nowMs r.data).mapError .frame
  .ok (performAll {client.respond {r with data:=[]} with base} actions)

-- The response is there whenever the code is not negative.
def onHttpRead (sha1 : Bytes → Bytes) (client : WebSocketClient) (ret : Int) (nowMs : Int) :
    Except Failure (WebSocketClient × List Output) :=
  if ret < 0 then .ok (client.refuse (ascii "http read error"))
  else
    match client.http.response with
    | none => .ok (client,[])
    | some r => if client.httpReady then client.readFrames r nowMs else .ok (client.handleHttpRespone sha1 r)

def notify (sha1 : Bytes → Bytes) (client : WebSocketClient) (notice : HttpClient.Notice) (nowMs : Int) :
    Except Failure (WebSocketClient × List Output) := do
  let notified ← match notice.httpRead with
    | none => .ok (client,[])
    | some ret => client.onHttpRead sha1 ret nowMs
  .ok (notified.1,notified.2++if notice.asyncRead then [.asyncRead] else [])

def onRead (sha1 : Bytes → Bytes) (client : WebSocketClient) (retCode : Int) (data : Bytes) (nowMs : Int) :
    Except Failure (WebSocketClient × List Output) := do
  let read ← (client.http.onRead retCode data).mapError .http
  notify sha1 {client with http:=read.1} read.2 nowMs

def pongTimeout : Int := 15*1000

def ping (client : WebSocketClient) (nowMs : Int) : WebSocketClient × List Output :=
  if nowMs-client.base.lastSendPingMs > 2000 then
    ({client with base:={client.base with lastSendPingMs:=nowMs}},
      [.frame (.sendWsFrame (WebSocketSession.pingPayload nowMs) wsOpPingType)])
  else (client,[])

def checkPong (client : WebSocketClient) (nowMs : Int) : WebSocketClient × List Output :=
  if client.base.lastRecvPongMs ≤ 0 then ({client with base:={client.base with lastRecvPongMs:=nowMs}},[])
  else if nowMs-client.base.lastRecvPongMs > pongTimeout then
    ({client with base:={client.base with isConnected:=false},connected:=false},
      [.closed,.onClose (-1) (ascii "ping/pong timeout")])
  else (client,[])

def onTimer (client : WebSocketClient) (nowMs : Int) : WebSocketClient × List Output :=
  if !client.base.isConnected then (client,[])
  else
    let checked := (client.ping nowMs).1.checkPong nowMs
    (checked.1,(client.ping nowMs).2++checked.2)

def apply (client : WebSocketClient) : SessionCall → WebSocketClient × List Output
  | .asyncWriteText text => (client,[.frame (.sendWsFrame text wsOpTextType)])
  | .asyncWriteData data => (client,[.frame (.sendWsFrame data wsOpBinType)])
  | .setSessionCallback => (client,[])

def step (sha1 : Bytes → Bytes) (client : WebSocketClient) : Event → Except Failure (WebSocketClient × List Output)
  | .read retCode data nowMs => if client.connected then client.onRead sha1 retCode data nowMs else .ok (client,[])
  | .timer nowMs => .ok (client.onTimer nowMs)
  | .call call => .ok (client.apply call)

def machine (sha1 : Bytes → Bytes) (initial : WebSocketClient) : Machine WebSocketClient Event Output Failure :=
  ⟨initial,step sha1⟩

end WebSocketClient
end CoStream
