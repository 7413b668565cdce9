import CoStream.Base64
import CoStream.WebSocketSessionBase

namespace CoStream
open Foundation

inductive SessionCall where
  | asyncWriteText (text : Bytes)
  | asyncWriteData (data : Bytes)
  | setSessionCallback
deriving DecidableEq,Repr

abbrev HandleWebSocket := Bytes → List SessionCall

structure WebSocketServer where
  uriHandles : Std.ExtTreeMap Bytes HandleWebSocket := ∅

namespace WebSocketServer

def addHandle (server : WebSocketServer) (uri : Bytes) (handle : HandleWebSocket) : WebSocketServer :=
  {server with uriHandles:=server.uriHandles.insert uri handle}
def getHandle (server : WebSocketServer) (uri : Bytes) : Option HandleWebSocket := server.uriHandles[uri]?

end WebSocketServer

-- A session after Init. `hasCallback` is cb_ ≠ nullptr; `base.close` also says
-- that the connection was closed.
structure WebSocketSession where
  base : WebSocketSessionBase := {isConnected:=true}
  httpRequestReady : Bool := false
  httpRecvBuffer : Bytes := []
  method : Bytes := []
  path : Bytes := []
  headers : Headers := ∅
  secWsVer : Int := 13
  secWsKey : Bytes := []
  secWsProtocol : Bytes := []
  hashCode : Bytes := []
  hasCallback : Bool := false

namespace WebSocketSession

inductive Event where
  | read (retCode : Int) (data : Bytes) (nowMs : Int)
  | written (retCode : Int)
  | timer (nowMs : Int)
  | call (call : SessionCall)
deriving DecidableEq,Repr

-- `frame` is what HandleFrame and SendWsFrame do.
inductive Output where
  | asyncRead
  | httpResponse (data : Bytes)
  | errorResponse (data : Bytes)
  | frame (action : Action)
  | onReadText (text : Bytes)
  | onReadData (data : Bytes)
  | closed
deriving DecidableEq,Repr

def apply (s : WebSocketSession) : SessionCall → WebSocketSession × List Output
  | .asyncWriteText text => (s,[.frame (.sendWsFrame text wsOpTextType)])
  | .asyncWriteData data => (s,[.frame (.sendWsFrame data wsOpBinType)])
  | .setSessionCallback => ({s with hasCallback:=true},[])

def applyAll (s : WebSocketSession) : List SessionCall → WebSocketSession × List Output
  | [] => (s,[])
  | call::rest =>
    let later := (s.apply call).1.applyAll rest
    (later.1,(s.apply call).2++later.2)

-- A throw leaves the members as they are at that point.
abbrev Thrown := WebSocketSession × Exn

def raise (s : WebSocketSession) (message : String) : Except Thrown α := .error (s,.streamer message)

-- The key ends before the character in front of the first blank, whichever that
-- is; a line that starts with a blank is its own key.
def readLine (headers : Headers) (line : Bytes) : Headers :=
  match find? (ascii " ") line with
  | none => headers
  | some pos => headers.insert (string2Lower (if pos = 0 then line else line.take (pos-1))) (line.drop (pos+1))

-- A field that must be there with one value, whatever its case. It is put into
-- lower case in the map.
def requireField (s : WebSocketSession) (key value : Bytes) (missing wrong : String) : Except Thrown WebSocketSession :=
  match s.headers[key]? with
  | none => s.raise missing
  | some held =>
    let lowered := {s with headers:=s.headers.insert key (string2Lower held)}
    if string2Lower held ≠ value then lowered.raise wrong else .ok lowered

def requireConnection (s : WebSocketSession) : Except Thrown WebSocketSession :=
  s.requireField (ascii "connection") (ascii "upgrade") "websocket http header error: Connection not exist"
    "websocket http header error: Connection is not upgrade"

def requireUpgrade (s : WebSocketSession) : Except Thrown WebSocketSession :=
  s.requireField (ascii "upgrade") (ascii "websocket") "websocket http header error: Upgrade not exist"
    "websocket http header error: upgrade is not websocket"

def readVersion (s : WebSocketSession) : WebSocketSession :=
  match s.headers[ascii "sec-websocket-version"]? with
  | some value => {s with secWsVer:=atoi value}
  | none => {s with secWsVer:=13}

def readKey (s : WebSocketSession) : Except Thrown WebSocketSession :=
  match s.headers[ascii "sec-websocket-key"]? with
  | some value => .ok {s with secWsKey:=value}
  | none => s.raise "websocket http header error: Sec-WebSocket-Key not exist"

def readProtocol (s : WebSocketSession) : WebSocketSession :=
  match s.headers[ascii "sec-webSocket-protocol"]? with
  | some value => {s with secWsProtocol:=value}
  | none => s

-- Everything between the handler that was found and its call.
def readFields (s : WebSocketSession) (lines : List Bytes) : Except Thrown WebSocketSession := do
  let s := {s with method:=string2Lower s.method,headers:=lines.foldl readLine s.headers}
  let s ← s.requireConnection
  let s ← s.requireUpgrade
  let s ← s.readVersion.readKey
  .ok s.readProtocol

def readRequest (server : WebSocketServer) (s : WebSocketSession) (content : Bytes) :
    Except Thrown (WebSocketSession × HandleWebSocket) :=
  match split crlf content with
  | [] => s.raise "websocket http header error"
  | first::lines =>
    match split (ascii " ") first with
    | [method,path,_] =>
      let named := {s with method,path}
      match server.getHandle path with
      | none => named.raise "fail to find subpath"
      | some handle => do
        let s ← named.readFields lines
        .ok (s,handle)
    | _ => s.raise "websocket http header error"

-- 1 asks for more, 0 says that the handler was called.
def onHandleHttpRequest (server : WebSocketServer) (s : WebSocketSession) :
    Except Thrown (WebSocketSession × List Output × Int) :=
  match find? blankLine s.httpRecvBuffer with
  | none => .ok (s,[],1)
  | some pos => do
    let (s,handle) ← readRequest server {s with httpRequestReady:=true} (s.httpRecvBuffer.take pos)
    let handled := s.applyAll (handle s.path)
    .ok (handled.1,handled.2,0)

def genHashcode (sha1 : Bytes → Bytes) (s : WebSocketSession) : Bytes :=
  base64Encode (sha1 (s.secWsKey++ascii "258EAFA5-E914-47DA-95CA-C5AB0DC85B11"))

def switchingProtocols (hashCode : Bytes) : Bytes :=
  ascii "HTTP/1.1 101 Switching Protocols"++crlf++ascii "Upgrade: websocket"++crlf++ascii "Connection: Upgrade"++crlf++
  ascii "Sec-WebSocket-Accept: "++hashCode++crlf++crlf

def sendHttpResponse (sha1 : Bytes → Bytes) (s : WebSocketSession) : WebSocketSession × List Output :=
  let hashCode := s.genHashcode sha1
  ({s with hashCode},[.httpResponse (switchingProtocols hashCode)])

def sendErrorResponse : List Output := [.errorResponse (ascii "HTTP/1.1 400 Bad Request"++blankLine)]

def readHttp (sha1 : Bytes → Bytes) (server : WebSocketServer) (s : WebSocketSession) (data : Bytes) :
    WebSocketSession × List Output :=
  match onHandleHttpRequest server {s with httpRecvBuffer:=s.httpRecvBuffer++data} with
  | .error (thrown,_) => ({thrown with base:={thrown.base with isConnected:=false}},[])
  | .ok (handled,outputs,ret) =>
    if ret = 1 then (handled,outputs++[.asyncRead])
    else if ret = 0 then
      let sent := handled.sendHttpResponse sha1
      ({sent.1 with httpRecvBuffer:=[]},outputs++sent.2++[.asyncRead])
    else (handled,outputs++sendErrorResponse)

-- The reply to a close frame, the same on both ends.
def closeReply (data : Bytes) : Action :=
  if data.length ≤ 1 then .sendWsFrame (ascii "Incomplete close code") wsOpCloseType
  else
    let code := bigEndian (data.take 2)
    if code < 1000 ∨ code ≥ 5000 ∨ code = 1004 ∨ code = 1005 ∨ code = 1006 ∨ code = 1015 then
      .sendWsFrame (ascii "Invalid close code") wsOpCloseType
    else .sendWsFrame data wsOpCloseType

-- The virtual calls that HandleFrame made, one by one.
def perform (s : WebSocketSession) : Action → WebSocketSession × List Output
  | .handleWsData data opCode =>
    if s.hasCallback then
      if opCode = wsOpTextType then (s,[.onReadText data])
      else if opCode = wsOpBinType then (s,[.onReadData data])
      else (s,[])
    else (s,[])
  | .handleWsClose data =>
    if s.base.close then (s,[])
    else ({s with base:={s.base with close:=true}},[.frame (closeReply data),.closed])
  | action => (s,[.frame action])

def performAll (s : WebSocketSession) : List Action → WebSocketSession × List Output
  | [] => (s,[])
  | action::rest =>
    let later := (s.perform action).1.performAll rest
    (later.1,(s.perform action).2++later.2)

def readFrames (s : WebSocketSession) (data : Bytes) (nowMs : Int) : Except Fault (WebSocketSession × List Output) := do
  let (base,actions,_) ← s.base.handleFrame nowMs data
  let performed := performAll {s with base} actions
  .ok (performed.1,performed.2++[.asyncRead])

def onRead (sha1 : Bytes → Bytes) (server : WebSocketServer) (s : WebSocketSession) (retCode : Int) (data : Bytes)
    (nowMs : Int) : Except Fault (WebSocketSession × List Output) :=
  if retCode < 0 then .ok ({s with base:={s.base with isConnected:=false}},[])
  else if s.httpRequestReady then s.readFrames data nowMs
  else .ok (s.readHttp sha1 server data)

def pingPayload (nowMs : Int) : Bytes :=
  let nowSec := (nowMs.tdiv 1000 % 2^32).toNat
  [byteAt nowSec 24,byteAt nowSec 16,byteAt nowSec 8,byteAt nowSec 0]

def onTimer (s : WebSocketSession) (nowMs : Int) : WebSocketSession × List Output :=
  if !s.base.isConnected then (s,[])
  else if nowMs-s.base.lastSendPingMs > 2000 then
    ({s with base:={s.base with lastSendPingMs:=nowMs}},[.frame (.sendWsFrame (pingPayload nowMs) wsOpPingType)])
  else (s,[])

def onWrite (s : WebSocketSession) (retCode : Int) : WebSocketSession :=
  if retCode < 0 then {s with base:={s.base with isConnected:=false}} else s

-- A closed connection calls nothing back; the timer goes on.
def step (sha1 : Bytes → Bytes) (server : WebSocketServer) (s : WebSocketSession) :
    Event → Except Fault (WebSocketSession × List Output)
  | .read retCode data nowMs => if s.base.close then .ok (s,[]) else s.onRead sha1 server retCode data nowMs
  | .written retCode => .ok (if s.base.close then s else s.onWrite retCode,[])
  | .timer nowMs => .ok (s.onTimer nowMs)
  | .call call => .ok (s.apply call)

def machine (sha1 : Bytes → Bytes) (server : WebSocketServer) (startMs : Int) :
    Machine WebSocketSession Event Output Fault :=
  ⟨{base:={isConnected:=true,lastRecvPongMs:=startMs}},step sha1 server⟩

end WebSocketSession
end CoStream
