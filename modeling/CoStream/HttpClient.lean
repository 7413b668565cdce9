import CoStream.HttpResponse
import CoStream.Foundation.Machine

namespace CoStream
open Foundation

inductive HttpMethod where
  | get
  | post
deriving DecidableEq,Repr

structure HttpClientResponse where
  status : Bytes := ascii "OK"
  statusCode : Int := 200
  proto : Bytes := ascii "HTTP"
  version : Bytes := ascii "1.1"
  headers : Headers := ∅
  contentLength : Int := 0
  data : Bytes := []
  headerReady : Bool := false
  bodyReady : Bool := false

structure HttpClient where
  host : Bytes
  method : HttpMethod := .get
  headers : Headers := ∅
  subpath : Bytes := []
  postData : Bytes := []
  response : Option HttpClientResponse := none

namespace HttpClient

-- An exception, or an assert that does not hold.
inductive Stop where
  | thrown (exn : Exn)
  | assertion
deriving DecidableEq,Repr

def get (client : HttpClient) (subpath : Bytes) (headers : Headers) : HttpClient :=
  {client with method:=.get,subpath,headers}
def post (client : HttpClient) (subpath : Bytes) (headers : Headers) (data : Bytes) : HttpClient :=
  {client with method:=.post,subpath,headers,postData:=data}

def onConnect (client : HttpClient) : Bytes :=
  (match client.method with
  | .get => ascii "GET "++client.subpath++ascii " HTTP/1.1"++crlf
  | .post => ascii "POST "++client.subpath++ascii " HTTP/1.1"++crlf)++
  ascii "Accept: */*"++crlf++ascii "Host: "++client.host++crlf++printHeaders client.headers++
  (match client.method with
  | .get => crlf
  | .post => ascii "Content-Length: "++decimal client.postData.length++crlf++crlf++client.postData)

-- The first line of a response. The words of a longer status are put together
-- without the blanks between them.
def readStatusLine (r : HttpClientResponse) (line : Bytes) : Except Stop HttpClientResponse :=
  match split (ascii " ") line with
  | first::code::word::words =>
    match find? (ascii "/") first with
    | none => .error .assertion
    | some pos => .ok {r with
        proto:=first.take pos
        version:=first.drop (pos+1)
        statusCode:=atoi code
        status:=(word::words).flatten}
  | _ => .error .assertion

def readHeaderLines (r : HttpClientResponse) : List Bytes → Except Stop HttpClientResponse
  | [] => .ok r
  | line::rest =>
    match find? (ascii ":") line with
    | none => .error .assertion
    | some pos => do
      let value ← (substr line (pos+2)).mapError .thrown
      let key := line.take pos
      readHeaderLines {r with
        contentLength:=if key = ascii "Content-Length" then atoi value else r.contentLength
        headers:=r.headers.insert key value} rest

def readResponse (r : HttpClientResponse) (headerStr : Bytes) : Except Stop HttpClientResponse :=
  match split crlf headerStr with
  | [] => .ok r
  | line::lines => do
    let r ← readStatusLine r line
    readHeaderLines r lines

-- The code of the OnHttpRead call, if there is one, and whether AsyncRead
-- follows. The callback gets the response that is stored in the client.
structure Notice where
  httpRead : Option Int
  asyncRead : Bool
deriving DecidableEq,Repr

def deliver (r : HttpClientResponse) : HttpClientResponse × Notice :=
  if r.contentLength > 0 then
    if toInt r.data.length ≥ r.contentLength then ({r with bodyReady:=true},⟨some 0,false⟩)
    else (r,⟨none,true⟩)
  else (r,⟨some 0,true⟩)

def collect (r : HttpClientResponse) (data : Bytes) : Except Stop (HttpClientResponse × Notice) :=
  let received := {r with data:=r.data++data}
  if r.headerReady then .ok (deliver received)
  else
    match find? blankLine received.data with
    | none => .ok (received,⟨none,true⟩)
    | some pos => do
      let ready := {received with headerReady:=true,data:=received.data.drop (pos+4)}
      let read ← readResponse ready (received.data.take pos)
      .ok (deliver read)

def onRead (client : HttpClient) (retCode : Int) (data : Bytes) : Except Stop (HttpClient × Notice) :=
  if retCode < 0 then .ok (client,⟨some retCode,false⟩)
  else if data.length = 0 then .ok (client,⟨some (-2),false⟩)
  else do
    let read ← collect (client.response.getD {}) data
    .ok ({client with response:=some read.1},read.2)

end HttpClient
end CoStream
