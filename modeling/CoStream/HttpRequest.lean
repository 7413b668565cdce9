import CoStream.StringEx

namespace CoStream
open Foundation

-- CoHttpRequest and HttpRequest. `content` is what a handler finds behind
-- content_data_ or content_body_.
structure HttpRequest where
  method : Bytes := []
  uri : Bytes := []
  contentLength : Int := 0
  params : Headers := ∅
  version : Bytes := []
  headers : Headers := ∅
  headerData : Bytes := []
  content : Bytes := []

namespace HttpRequest

-- The loop of GetUriAndParams. Items before a bad one have been stored.
def storeParams (params : Headers) : List Bytes → Except Exn (Headers × Int)
  | [] => .ok (params,0)
  | item::rest => do
    let paramVec ← stringSplit item (ascii "=")
    match paramVec with
    | [key,value] => storeParams (params.insert key value) rest
    | _ => .ok (params,-1)

def getUriAndParams (input : Bytes) (params : Headers) : Except Exn (Bytes × Headers × Int) :=
  match find? (ascii "?") input with
  | none => .ok (input,params,0)
  | some pos => do
    let paramStr ← substr input (pos+1)
    let itemVec ← stringSplit paramStr (ascii "&")
    let (params,ret) ← storeParams params itemVec
    .ok (input.take pos,params,ret)

-- map::insert keeps the value of a key that is there already.
def addHeader (request : HttpRequest) (key value : Bytes) : HttpRequest :=
  {request with
    contentLength:=if key = ascii "Content-Length" then atoi value else request.contentLength
    headers:=request.headers.insertIfNew key value}

def readLines (request : HttpRequest) : List Bytes → Except Exn (HttpRequest × Bool)
  | [] => .ok (request,true)
  | infoLine::rest =>
    match find? (ascii ":") infoLine with
    | none => .ok (request,false)
    | some pos => do
      let value ← substr infoLine (pos+2)
      readLines (request.addHeader (infoLine.take pos) value) rest

def readVersion (request : HttpRequest) (versionInfo : Bytes) (lines : List Bytes) : Except Exn (HttpRequest × Bool) :=
  match find? (ascii "HTTP") versionInfo with
  | none => .ok (request,false)
  | some pos => do
    let version ← substr versionInfo (pos+5)
    readLines {request with version} lines

def readTarget (request : HttpRequest) (target versionInfo : Bytes) (lines : List Bytes) :
    Except Exn (HttpRequest × Bool) := do
  let (uri,params,ret) ← getUriAndParams target request.params
  if ret < 0 then .ok ({request with uri,params},false)
  else readVersion {request with uri,params} versionInfo lines

def readFirstLine (request : HttpRequest) (firstLine : Bytes) (lines : List Bytes) : Except Exn (HttpRequest × Bool) := do
  let versionVec ← stringSplit firstLine (ascii " ")
  match versionVec with
  | [method,target,versionInfo] => readTarget {request with method} target versionInfo lines
  | _ => .ok (request,false)

-- The part that both AnalyzeHeader functions share, from the header block on.
-- The flag is whether the block was accepted; a refused one has left its traces
-- in the request.
def readHeader (request : HttpRequest) (headerStr : Bytes) : Except Exn (HttpRequest × Bool) := do
  let headerVec ← stringSplit headerStr crlf
  match headerVec with
  | [] => .ok (request,false)
  | firstLine::lines => readFirstLine request firstLine lines

end HttpRequest
end CoStream
