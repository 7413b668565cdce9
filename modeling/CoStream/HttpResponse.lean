import CoStream.StringEx

namespace CoStream
open Foundation

def printInt (n : Int) : Bytes := (if n < 0 then ascii "-" else [])++decimal n.natAbs

def printHeaders (headers : Headers) : Bytes :=
  headers.toList.flatMap fun header => header.1++ascii ": "++header.2++crlf

-- `attached` says that session_ is not null.
structure HttpResponse where
  isClose : Bool := false
  writtenHeader : Bool := false
  status : Bytes := ascii "OK"
  statusCode : Int := 200
  proto : Bytes := ascii "HTTP"
  version : Bytes := ascii "1.1"
  headers : Headers := ∅
  attached : Bool := true
  continueFlag : Bool := false
  remainBytes : Int := 0

-- What a handler can do with the response it was given.
inductive ResponseCall where
  | setStatusCode (statusCode : Int)
  | setStatus (status : Bytes)
  | addHeader (key value : Bytes)
  | write (data : Bytes) (continueFlag : Bool)
  | close
deriving DecidableEq,Repr

namespace HttpResponse

def setClose (r : HttpResponse) (flag : Bool) : HttpResponse := {r with isClose:=flag,attached:=false}

def head (r : HttpResponse) (length : Nat) (continueFlag : Bool) : Bytes :=
  r.proto++ascii "/"++r.version++ascii " "++printInt r.statusCode++ascii " "++r.status++crlf++
  (if continueFlag then [] else ascii "Content-Length: "++decimal length++crlf)++printHeaders r.headers++crlf

-- The writes that reach the session. The first one is the header.
def write (r : HttpResponse) (data : Bytes) (continueFlag : Bool) : HttpResponse × List Bytes :=
  if r.isClose || !r.attached then ({r with continueFlag},[])
  else
    let header := if r.writtenHeader then [] else [r.head data.length continueFlag]
    let body := if data.length > 0 then [data] else []
    ({r with continueFlag,writtenHeader:=true,remainBytes:=r.remainBytes+(header++body).flatten.length},header++body)

-- The calls that reach the session.
def passesOn (r : HttpResponse) : ResponseCall → Bool
  | .write data continueFlag => (r.write data continueFlag).2 ≠ []
  | .close => !r.isClose
  | _ => false

end HttpResponse
end CoStream
