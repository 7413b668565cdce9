import CoStream.CoHttpSession
import CoStream.HttpResponse

namespace CoStream
open Foundation

-- A registered handler, as the calls it makes on its response. Exceptions it
-- throws are caught by the session; the calls before them have been made.
abbrev HttpHandle := HttpRequest → List ResponseCall

structure HttpSession where
  headerData : Bytes := []
  contentData : Bytes := []
  headerIsReady : Bool := false
  contentStart : Int := -1
  request : HttpRequest := {}
  response : Option HttpResponse := none
  isClosed : Bool := false
  continueFlag : Bool := false

namespace HttpSession

-- Callbacks of the connection, and calls on a response that a handler kept.
inductive Event where
  | read (retCode : Int) (data : Bytes)
  | written (retCode : Int) (sentSize : Nat)
  | respond (call : ResponseCall)
deriving DecidableEq,Repr

inductive Output where
  | handled (handler : HttpHandle) (request : HttpRequest)
  | wrote (data : Bytes)
  | tryRead
  | closed

def close (s : HttpSession) : HttpSession × List Output :=
  if s.isClosed then (s,[])
  else ({s with isClosed:=true,response:=s.response.map (·.setClose true)},[.closed])

-- One call on the response of the session. Closing it closes the session.
def respond (s : HttpSession) (call : ResponseCall) : HttpSession × List Output :=
  match s.response,call with
  | none,_ => (s,[])
  | some r,.setStatusCode statusCode => ({s with response:=some {r with statusCode}},[])
  | some r,.setStatus status => ({s with response:=some {r with status}},[])
  | some r,.addHeader key value => ({s with response:=some {r with headers:=r.headers.insert key value}},[])
  | some r,.write data continueFlag =>
    ({s with response:=some (r.write data continueFlag).1},(r.write data continueFlag).2.map .wrote)
  | some r,.close => if r.isClose then (s,[]) else close {s with response:=some (r.setClose true)}

-- One call on a response that a later GET has replaced: its writes go out on the
-- same connection, and its Close closes the session with the present response.
def respondEarlier (s : HttpSession) (r : HttpResponse) : ResponseCall → HttpResponse × HttpSession × List Output
  | .setStatusCode statusCode => ({r with statusCode},s,[])
  | .setStatus status => ({r with status},s,[])
  | .addHeader key value => ({r with headers:=r.headers.insert key value},s,[])
  | .write data continueFlag => ((r.write data continueFlag).1,s,(r.write data continueFlag).2.map .wrote)
  | .close => if r.isClose then (r,s,[]) else (r.setClose true,s.close)

def respondAll (s : HttpSession) : List ResponseCall → HttpSession × List Output
  | [] => (s,[])
  | call::rest =>
    let later := (s.respond call).1.respondAll rest
    (later.1,(s.respond call).2++later.2)

def analyzeHeader (s : HttpSession) : Except Exn (HttpSession × Int) :=
  match find? blankLine s.headerData with
  | none => .ok ({s with headerIsReady:=false},0)
  | some pos => do
    let read ← s.request.readHeader (s.headerData.take pos)
    .ok ({s with contentStart:=pos+4,headerIsReady:=true,request:=read.1},if read.2 then 0 else -1)

def optionsCalls : List ResponseCall := [
  .addHeader (ascii "Access-Control-Allow-Origin") (ascii "*"),
  .addHeader (ascii "Access-Control-Allow-Methods") (ascii "GET, POST, PUT"),
  .addHeader (ascii "Access-Control-Allow-Headers") (ascii "*"),
  .addHeader (ascii "Access-Control-Allow-Private-Network") (ascii "true"),
  .addHeader (ascii "Allow") (ascii "GET, HEAD, POST, PUT, DELETE, TRACE, OPTIONS, PATCH"),
  .write [] false]

-- The session then waits for the next header; the content of this one stays.
def answerOptions (s : HttpSession) : HttpSession × List Output × Int :=
  let answered := {s with response:=some (s.response.getD {})}.respondAll optionsCalls
  ({answered.1 with headerIsReady:=false,continueFlag:=true,headerData:=[]},answered.2,0)

def callHandle (s : HttpSession) (handler : HttpHandle) : HttpSession × List Output × Int :=
  let called := s.respondAll (handler s.request)
  ({called.1 with continueFlag:=(called.1.response.getD {}).continueFlag},.handled handler s.request::called.2,0)

-- The rest of HandleRequest, once the header is ready. GetHandle has written the
-- uri of the request, found or not.
def dispatch (server : Handlers HttpHandle) (s : HttpSession) : HttpSession × List Output × Int :=
  if s.request.method = ascii "OPTIONS" then s.answerOptions
  else
    let (request,handle) := HttpServer.getHandle server s.request
    if s.request.method = ascii "GET" then
      match handle with
      | none => ({s with request},[],-1)
      | some handler => callHandle {s with request,response:=some {}} handler
    else if toInt s.contentData.length ≥ s.request.contentLength then
      match handle with
      | none => ({s with request},[],-1)
      | some handler =>
        callHandle {s with request:={request with content:=s.contentData},response:=some (s.response.getD {})} handler
    else (s,[],0)

def handleRequest (server : Handlers HttpHandle) (s : HttpSession) (data : Bytes) :
    Except Exn (HttpSession × List Output × Int) :=
  if s.headerIsReady then .ok (dispatch server {s with contentData:=s.contentData++data,continueFlag:=true})
  else do
    let analyzed ← analyzeHeader {s with headerData:=s.headerData++data,continueFlag:=true}
    if analyzed.2 ≠ 0 then .ok (analyzed.1,[],-1)
    else if !analyzed.1.headerIsReady then .ok (analyzed.1,[],0)
    else
      let content := analyzed.1.headerData.drop analyzed.1.contentStart.toNat
      .ok (dispatch server {analyzed.1 with contentData:=analyzed.1.contentData++content})

def settle (handled : HttpSession × List Output × Int) : HttpSession × List Output :=
  if handled.2.2 < 0 then (handled.1.close.1,handled.2.1++handled.1.close.2)
  else (handled.1,handled.2.1++if handled.1.continueFlag then [.tryRead] else [])

def onRead (server : Handlers HttpHandle) (s : HttpSession) (retCode : Int) (data : Bytes) :
    Except Exn (HttpSession × List Output) :=
  if retCode ≠ 0 then .ok s.close
  else do
    let handled ← handleRequest server s data
    .ok (settle handled)

def finishWrite (s : HttpSession) (sentSize : Nat) : HttpSession × List Output :=
  match s.response with
  | none => (s,[])
  | some r =>
    let remainBytes := r.remainBytes-sentSize
    let counted := {s with response:=some {r with remainBytes},continueFlag:=r.continueFlag}
    if r.continueFlag || remainBytes > 0 then (counted,[]) else counted.close

def onWrite (s : HttpSession) (retCode : Int) (sentSize : Nat) : HttpSession × List Output :=
  let checked := if retCode ≠ 0 then s.close else (s,[])
  ((finishWrite checked.1 sentSize).1,checked.2++(finishWrite checked.1 sentSize).2)

-- The connection of a closed session delivers nothing, and its response refuses
-- every call.
def step (server : Handlers HttpHandle) (s : HttpSession) (event : Event) : Except Exn (HttpSession × List Output) :=
  if s.isClosed then .ok (s,[])
  else
    match event with
    | .read retCode data => onRead server s retCode data
    | .written retCode sentSize => .ok (s.onWrite retCode sentSize)
    | .respond call => .ok (s.respond call)

def machine (server : Handlers HttpHandle) : Machine HttpSession Event Output Exn := ⟨{},step server⟩

end HttpSession
end CoStream
