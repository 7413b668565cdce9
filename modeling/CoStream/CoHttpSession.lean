import CoStream.HttpServer
import CoStream.Foundation.Machine

namespace CoStream
open Foundation

-- A session and its coroutine. `finished` is a coroutine that has returned: it
-- receives nothing any more. The two buffers are byte queues below 2^31 bytes.
structure CoHttpSession where
  headerData : Bytes := []
  contentData : Bytes := []
  headerIsReady : Bool := false
  contentStart : Int := -1
  request : HttpRequest := {}
  finished : Bool := false

namespace CoHttpSession

structure Handled (η : Type) where
  handler : η
  request : HttpRequest

inductive Received where
  | ok (data : Bytes)
  | failed
deriving DecidableEq,Repr

def analyzeHeader (s : CoHttpSession) (data : Bytes) : Except Exn (CoHttpSession × Int) :=
  if s.headerIsReady then .ok (s,1)
  else
    let headerData := s.headerData++data
    match find? blankLine headerData with
    | none => .ok ({s with headerData,headerIsReady:=false},0)
    | some pos => do
      let headerStr := headerData.take pos
      let (request,accepted) ← HttpRequest.readHeader {headerData:=headerStr} headerStr
      let contentData := s.contentData++headerData.drop (pos+4)
      .ok ({s with headerData,contentData,headerIsReady:=true,contentStart:=pos+4,request},if accepted then 1 else -1)

variable {η : Type}

-- The end of the loop, once the header is ready.
def dispatch (server : Handlers η) (s : CoHttpSession) : CoHttpSession × List (Handled η) :=
  if s.request.method = ascii "GET" then
    match CoHttpServer.getHandle server s.request with
    | none => ({s with finished:=true},[])
    | some handler => ({s with finished:=true},[⟨handler,s.request⟩])
  else if s.request.contentLength > 0 ∧ toInt s.contentData.length ≥ s.request.contentLength then
    match CoHttpServer.getHandle server s.request with
    | none => ({s with finished:=true},[])
    | some handler =>
      let request := {s.request with content:=s.contentData}
      ({s with request,finished:=true},[⟨handler,request⟩])
  else (s,[])

-- One turn of the loop of HandleRequest, from a completed CoReceive to the next.
def handleRequest (server : Handlers η) (s : CoHttpSession) (received : Received) :
    Except Exn (CoHttpSession × List (Handled η)) :=
  if s.finished then .ok (s,[])
  else
    match received with
    | .failed => .ok ({s with finished:=true},[])
    | .ok data =>
      if s.headerIsReady then .ok (dispatch server {s with contentData:=s.contentData++data})
      else do
        let (analyzed,ret) ← s.analyzeHeader data
        if ret = 0 then .ok (analyzed,[])
        else if ret < 0 then .ok ({analyzed with finished:=true},[])
        else .ok (dispatch server analyzed)

def machine (server : Handlers η) : Machine CoHttpSession Received (Handled η) Exn := ⟨{},handleRequest server⟩

end CoHttpSession
end CoStream
